import StackMachine.Decimal

/-!
# Machine integers

Signed integers of 64 bits. Addition, subtraction, multiplication and division answer
`none` where the result does not fit; division rounds toward negative infinity, and the
remainder has the sign of the divisor.
-/

namespace StackMachine

abbrev Integer := Int64

namespace Integer

def ofInt? (n : Int) : Option Integer :=
  if Int64.minValue.toInt ≤ n ∧ n ≤ Int64.maxValue.toInt then some (Int64.ofInt n) else none

def add? (a b : Integer) : Option Integer :=
  if a.toBitVec.saddOverflow b.toBitVec then none else some (a + b)

def sub? (a b : Integer) : Option Integer :=
  if a.toBitVec.ssubOverflow b.toBitVec then none else some (a - b)

def mul? (a b : Integer) : Option Integer :=
  if a.toBitVec.smulOverflow b.toBitVec then none else some (a * b)

/-- The quotient rounded toward negative infinity: one less than the truncated quotient where
the division leaves a remainder and the signs differ. -/
def floorDiv (a b : Integer) : Integer :=
  if a % b ≠ 0 ∧ decide (a < 0) ≠ decide (b < 0) then a / b - 1 else a / b

def floorMod (a b : Integer) : Integer :=
  if a % b ≠ 0 ∧ decide (a % b < 0) ≠ decide (b < 0) then a % b + b else a % b

/-- Only the least integer divided by minus one has a quotient that does not fit. -/
def div? (a b : Integer) : Option Integer :=
  if a = Int64.minValue ∧ b = -1 then none else some (floorDiv a b)

def render (n : Integer) : String :=
  String.ofList (Decimal.render n.toInt)

theorem ofInt?_toInt (n : Integer) : ofInt? n.toInt = some n := by
  rw [ofInt?, if_pos ⟨Int64.minValue_le_toInt n, Int64.toInt_le n⟩, Int64.ofInt_toInt]

theorem ofInt?_eq_some_iff {n : Int} {a : Integer} : ofInt? n = some a ↔ a.toInt = n := by
  constructor
  · intro fits
    unfold ofInt? at fits
    split at fits
    · rename_i range
      rw [Int64.toInt_minValue, Int64.toInt_maxValue] at range
      rw [← Option.some.inj fits, Int64.toInt_ofInt_of_le range.1 (by omega)]
    · contradiction
  · rintro rfl
    exact ofInt?_toInt a

end Integer

end StackMachine
