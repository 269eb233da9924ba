/-!
# Decimal text

Integers as ASCII decimal digits behind an optional sign. Leading zeros are allowed in what
is read, and `literal?_render` says that what is written reads back.
-/

namespace StackMachine.Decimal

def IsDigits (cs : List Char) : Prop :=
  cs ≠ [] ∧ ∀ c ∈ cs, c.isDigit

instance (cs : List Char) : Decidable (IsDigits cs) :=
  decidable_of_iff (cs ≠ [] ∧ cs.all Char.isDigit) (by simp [IsDigits])

def natural? (cs : List Char) : Option Nat :=
  if IsDigits cs then some (Nat.ofDigitChars 10 cs 0) else none

/-- Digits behind at most a minus sign. -/
def literal? : List Char → Option Int
  | '-' :: cs => (natural? cs).map fun n => -(n : Int)
  | cs => (natural? cs).map fun n => (n : Int)

/-- Digits behind at most one sign, of either kind. -/
def signed? : List Char → Option Int
  | '+' :: cs => (natural? cs).map fun n => (n : Int)
  | cs => literal? cs

def render (n : Int) : List Char :=
  if n < 0 then '-' :: Nat.toDigits 10 n.natAbs else Nat.toDigits 10 n.natAbs

theorem isDigits_toDigits (n : Nat) : IsDigits (Nat.toDigits 10 n) :=
  ⟨Nat.toDigits_ne_nil, fun _ member => Nat.isDigit_of_mem_toDigits (by decide) (by decide) member⟩

theorem natural?_toDigits (n : Nat) : natural? (Nat.toDigits 10 n) = some n := by
  rw [natural?, if_pos (isDigits_toDigits n), Nat.ofDigitChars_ten_toDigits]

theorem IsDigits.head_isDigit {c : Char} {cs : List Char} (digits : IsDigits (c :: cs)) :
    c.isDigit :=
  digits.2 c List.mem_cons_self

theorem literal?_of_isDigits {cs : List Char} (digits : IsDigits cs) :
    literal? cs = (natural? cs).map fun n => (n : Int) := by
  unfold literal?
  split
  · exact absurd digits.head_isDigit (by decide)
  · rfl

theorem literal?_render (n : Int) : literal? (render n) = some n := by
  unfold render
  split
  · rw [literal?, natural?_toDigits]
    exact congrArg some (show -(n.natAbs : Int) = n by omega)
  · rw [literal?_of_isDigits (isDigits_toDigits _), natural?_toDigits]
    exact congrArg some (show (n.natAbs : Int) = n by omega)

end StackMachine.Decimal
