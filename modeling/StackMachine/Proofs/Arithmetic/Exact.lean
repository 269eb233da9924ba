import Mathlib.Data.Rat.Floor
import StackMachine.Console.Buffer
import StackMachine.Proofs.Folding.Runs

/-!
# Exact arithmetic

An operator on integers answers the mathematical result or tells why there is none: the divisor is
zero, or the result is no integer of 64 bits. Quotients are rounded down. What makes rounded
quotients and remainders of truncated ones does not overflow, so a check of every intermediate
result changes nothing.
-/

namespace StackMachine

/-! ## Rounding down -/

section Rounding

variable {a b : Int}

theorem fdiv_eq_corrected (divides : b ≠ 0) :
    a.fdiv b =
      if a.tmod b ≠ 0 ∧ decide (a < 0) ≠ decide (b < 0) then a.tdiv b - 1 else a.tdiv b := by
  rw [Int.fdiv_eq_tdiv]
  simp only [Int.dvd_iff_tmod_eq_zero]
  by_cases even : a.tmod b = 0
  · simp [even]
  · grind [Int.sign_eq_one_iff_pos, Int.sign_eq_neg_one_iff_neg]

theorem tmod_sign (a b : Int) : (0 ≤ a → 0 ≤ a.tmod b) ∧ (a ≤ 0 → a.tmod b ≤ 0) := by
  refine ⟨Int.tmod_nonneg b, fun below => ?_⟩
  have mirrored := Int.tmod_nonneg b (a := -a) (by omega)
  rw [Int.neg_tmod] at mirrored
  omega

theorem fmod_eq_corrected :
    a.fmod b =
      if a.tmod b ≠ 0 ∧ decide (a.tmod b < 0) ≠ decide (b < 0) then a.tmod b + b
      else a.tmod b := by
  obtain ⟨above, below⟩ := tmod_sign a b
  rw [Int.fmod_eq_tmod]
  simp only [Int.dvd_iff_tmod_eq_zero]
  generalize a.tmod b = r at above below ⊢
  by_cases even : r = 0
  · simp [even]
  · simp only [even, ne_eq, not_false_eq_true, decide_eq_decide, true_and, if_false]
    (repeat' split) <;> omega

theorem fmod_sign (divides : b ≠ 0) :
    |a.fmod b| < |b| ∧ (a.fmod b = 0 ∨ (a.fmod b < 0 ↔ b < 0)) := by
  rcases lt_or_gt_of_ne divides with below | above
  · have bounds : 0 ≤ (-a).fmod (-b) ∧ (-a).fmod (-b) < -b :=
      ⟨Int.fmod_nonneg_of_pos _ (by omega), Int.fmod_lt_of_pos _ (by omega)⟩
    rw [Int.neg_fmod_neg] at bounds
    rw [abs_of_nonpos (by omega), abs_of_neg below]
    omega
  · have bounds : 0 ≤ a.fmod b ∧ a.fmod b < b :=
      ⟨Int.fmod_nonneg_of_pos _ above, Int.fmod_lt_of_pos _ above⟩
    rw [abs_of_nonneg bounds.1, abs_of_pos above]
    omega

theorem floor_div_eq_fdiv (a b : Int) : ⌊(a : ℚ) / b⌋ = a.fdiv b := by
  have upward (a : Int) (n : ℕ) : ⌊(a : ℚ) / (n : ℤ)⌋ = a.fdiv n := by
    rw [Int.fdiv_eq_ediv_of_nonneg a (Int.natCast_nonneg n)]
    exact Rat.floor_intCast_div_natCast a n
  obtain ⟨n, rfl | rfl⟩ := b.eq_nat_or_neg
  · exact upward a n
  · rw [← Int.neg_neg a, Int.neg_fdiv_neg, ← upward (-a) n]
    push_cast
    rw [neg_div_neg_eq]

end Rounding

/-! ## Integers of 64 bits -/

def Fits (x : Int) : Prop :=
  -2 ^ 63 ≤ x ∧ x < 2 ^ 63

namespace Integer

theorem fits_toInt (n : Integer) : Fits n.toInt :=
  ⟨n.le_toInt, n.toInt_lt⟩

theorem ofInt?_of_fits {x : Int} (fits : Fits x) : ofInt? x = some (Int64.ofInt x) := by
  have range := fits
  rw [ofInt?, Int64.toInt_minValue, Int64.toInt_maxValue, if_pos]
  unfold Fits at range
  omega

theorem ofInt?_eq_none_iff {x : Int} : ofInt? x = none ↔ ¬ Fits x := by
  constructor
  · intro none fits
    rw [ofInt?_of_fits fits] at none
    cases none
  · intro unfit
    cases found : ofInt? x with
    | none => rfl
    | some n => exact absurd (ofInt?_eq_some_iff.mp found ▸ fits_toInt n) unfit

variable (a b : Integer)

theorem ite_overflows {x : Int} {n : Integer} {overflows : Bool} (wraps : Int64.ofInt x = n)
    (flag : overflows = (decide (2 ^ 63 ≤ x) || decide (x < -2 ^ 63))) :
    (if overflows then none else some n) = ofInt? x := by
  subst flag
  by_cases fits : Fits x
  · have range := fits
    unfold Fits at range
    rw [ofInt?_of_fits fits, wraps, if_neg]
    simpa using ⟨range.2, range.1⟩
  · have range := fits
    unfold Fits at range
    rw [ofInt?_eq_none_iff.mpr fits, if_pos]
    simp only [Bool.or_eq_true, decide_eq_true_eq]
    omega

theorem add?_eq : add? a b = ofInt? (a.toInt + b.toInt) :=
  ite_overflows (by rw [Int64.ofInt_add, Int64.ofInt_toInt, Int64.ofInt_toInt]) rfl

theorem sub?_eq : sub? a b = ofInt? (a.toInt - b.toInt) :=
  ite_overflows (by rw [Int64.ofInt_sub, Int64.ofInt_toInt, Int64.ofInt_toInt]) rfl

theorem mul?_eq : mul? a b = ofInt? (a.toInt * b.toInt) :=
  ite_overflows (by rw [Int64.ofInt_mul, Int64.ofInt_toInt, Int64.ofInt_toInt]) rfl

end Integer

/-! ## Corrections -/

section Corrections

variable {a b : Int}

theorem fits_tdiv_sub_one (fits : Fits a) (divides : b ≠ 0) (uneven : a.tmod b ≠ 0) :
    Fits (a.tdiv b - 1) := by
  have wide : 2 ≤ b.natAbs := by
    have other : b ≠ 1 ∧ b ≠ -1 := by
      constructor <;> rintro rfl <;> simp at uneven
    omega
  have small : (a.tdiv b).natAbs ≤ a.natAbs / 2 := by
    rw [Int.natAbs_tdiv]
    exact Nat.div_le_div_left wide two_pos
  unfold Fits at fits ⊢
  omega

theorem fits_add_of_signs (left : Fits a) (right : Fits b)
    (signs : decide (a < 0) ≠ decide (b < 0)) : Fits (a + b) := by
  simp only [ne_eq, decide_eq_decide] at signs
  unfold Fits at left right ⊢
  omega

end Corrections

namespace Integer

variable {a b : Integer}

theorem toInt_of_fits {x : Int} {n : Integer} (wraps : Int64.ofInt x = n) (fits : Fits x) :
    n.toInt = x := by
  rw [← wraps, Int64.toInt_ofInt_of_le fits.1 fits.2]

theorem toInt_ne_zero (nonzero : b ≠ 0) : b.toInt ≠ 0 := by
  intro zero
  exact nonzero (Int64.toInt_inj.mp (zero.trans Int64.toInt_zero.symm))

theorem mod_ne_zero_iff : a % b ≠ 0 ↔ a.toInt.tmod b.toInt ≠ 0 := by
  rw [← Int64.toInt_mod, ne_eq, ne_eq, ← Int64.toInt_inj, Int64.toInt_zero]

theorem decide_neg (n : Integer) : decide (n < 0) = decide (n.toInt < 0) :=
  decide_eq_decide.mpr Int64.lt_iff_toInt_lt

theorem toInt_div (holds : ¬ (a = Int64.minValue ∧ b = -1)) :
    (a / b).toInt = a.toInt.tdiv b.toInt := by
  by_cases least : a = Int64.minValue
  · exact Int64.toInt_div_of_ne_right a b fun unit => holds ⟨least, unit⟩
  · exact Int64.toInt_div_of_ne_left a b least

theorem toInt_div_sub_one (divides : b ≠ 0) (holds : ¬ (a = Int64.minValue ∧ b = -1))
    (uneven : a % b ≠ 0) : (a / b - 1).toInt = (a / b).toInt - 1 := by
  refine toInt_of_fits ?_ ?_
  · rw [Int64.ofInt_sub, Int64.ofInt_toInt]
    rfl
  · rw [toInt_div holds]
    exact fits_tdiv_sub_one a.fits_toInt (toInt_ne_zero divides) (mod_ne_zero_iff.mp uneven)

theorem toInt_mod_add (signs : decide (a % b < 0) ≠ decide (b < 0)) :
    (a % b + b).toInt = (a % b).toInt + b.toInt := by
  rw [decide_neg, decide_neg] at signs
  refine toInt_of_fits ?_ (fits_add_of_signs (fits_toInt _) b.fits_toInt signs)
  rw [Int64.ofInt_add, Int64.ofInt_toInt, Int64.ofInt_toInt]

theorem toInt_floorDiv (divides : b ≠ 0) (holds : ¬ (a = Int64.minValue ∧ b = -1)) :
    (floorDiv a b).toInt = a.toInt.fdiv b.toInt := by
  rw [floorDiv, fdiv_eq_corrected (toInt_ne_zero divides), ← toInt_div holds]
  simp only [mod_ne_zero_iff, decide_neg]
  split
  · rename_i corrected
    exact toInt_div_sub_one divides holds (mod_ne_zero_iff.mpr corrected.1)
  · rfl

theorem toInt_floorMod (a b : Integer) : (floorMod a b).toInt = a.toInt.fmod b.toInt := by
  rw [floorMod, fmod_eq_corrected, ← Int64.toInt_mod]
  by_cases corrected : a % b ≠ 0 ∧ decide (a % b < 0) ≠ decide (b < 0)
  · have corrected' := corrected
    rw [mod_ne_zero_iff, ← Int64.toInt_mod, decide_neg, decide_neg] at corrected'
    rw [if_pos corrected, if_pos corrected', toInt_mod_add corrected.2]
  · have corrected' := corrected
    rw [mod_ne_zero_iff, ← Int64.toInt_mod, decide_neg, decide_neg] at corrected'
    rw [if_neg corrected, if_neg corrected']

theorem div?_eq_none_iff : div? a b = none ↔ a = Int64.minValue ∧ b = -1 := by
  simp [div?]

theorem div?_eq (divides : b ≠ 0) : div? a b = ofInt? (a.toInt.fdiv b.toInt) := by
  by_cases holds : a = Int64.minValue ∧ b = -1
  · obtain ⟨rfl, rfl⟩ := holds
    rfl
  · rw [div?, if_neg holds]
    exact (ofInt?_eq_some_iff.mpr (toInt_floorDiv divides holds)).symm

/-! ## Checked intermediate results -/

def quotient? (a b : Integer) : Option Integer :=
  if b = 0 ∨ (a = Int64.minValue ∧ b = -1) then none else some (a / b)

def remainder? (a b : Integer) : Option Integer :=
  if b = 0 ∨ (a = Int64.minValue ∧ b = -1) then none else some (a % b)

def checkedDiv? (a b : Integer) : Option Integer := do
  let quotient ← quotient? a b
  let remainder ← remainder? a b
  if remainder ≠ 0 ∧ decide (a < 0) ≠ decide (b < 0) then sub? quotient 1 else return quotient

/-- Computes what `floorMod` computes and gives up where an intermediate result does not fit. The
remainder of the least integer by minus one is zero here, although the quotient does not fit. -/
def checkedMod? (a b : Integer) : Option Integer := do
  let remainder ← if b = 0 then none else some (a % b)
  if remainder ≠ 0 ∧ decide (remainder < 0) ≠ decide (b < 0) then add? remainder b
  else return remainder

theorem checkedDiv?_eq (divides : b ≠ 0) : checkedDiv? a b = div? a b := by
  by_cases holds : a = Int64.minValue ∧ b = -1
  · simp [checkedDiv?, quotient?, div?, holds]
  · have apart : ¬ (b = 0 ∨ (a = Int64.minValue ∧ b = -1)) := not_or.mpr ⟨divides, holds⟩
    simp only [checkedDiv?, quotient?, remainder?, div?, floorDiv, if_neg apart, if_neg holds,
      Option.bind_eq_bind, Option.bind_some]
    split
    · rename_i corrected
      rw [sub?_eq]
      exact ofInt?_eq_some_iff.mpr (toInt_div_sub_one divides holds corrected.1)
    · rfl

theorem checkedMod?_eq (divides : b ≠ 0) : checkedMod? a b = some (floorMod a b) := by
  simp only [checkedMod?, floorMod, if_neg divides, Option.bind_eq_bind, Option.bind_some]
  split
  · rename_i corrected
    rw [add?_eq]
    exact ofInt?_eq_some_iff.mpr (toInt_mod_add corrected.2)
  · rfl

end Integer

/-! ## Operators -/

namespace Operator

def result? : Operator → Int → Int → Option Int
  | add, a, b => some (a + b)
  | sub, a, b => some (a - b)
  | mul, a, b => some (a * b)
  | div, a, b => if b = 0 then none else some (a.fdiv b)
  | mod, a, b => if b = 0 then none else some (a.fmod b)

/-- The number where it is an integer of 64 bits, and an overflow that names the operator where it
is not. -/
def Reports (operator : Operator) (x : Int) (answer : Except Fault Integer) : Prop :=
  (Fits x → ∃ n, answer = .ok n ∧ n.toInt = x) ∧
    (¬ Fits x → answer = .error (.overflow operator))

theorem onIntegers_eq (operator : Operator) (a b : Integer) :
    operator.onIntegers a b =
      match operator.result? a.toInt b.toInt with
      | some x => onIntegers.fitting operator (Integer.ofInt? x)
      | none => .error .divisionByZero := by
  have zero_iff : b.toInt = 0 ↔ b = 0 := by rw [← Int64.toInt_zero, Int64.toInt_inj]
  cases operator with
  | add => exact congrArg (onIntegers.fitting add) (Integer.add?_eq a b)
  | sub => exact congrArg (onIntegers.fitting sub) (Integer.sub?_eq a b)
  | mul => exact congrArg (onIntegers.fitting mul) (Integer.mul?_eq a b)
  | div =>
    by_cases zero : b = 0
    · simp only [onIntegers, result?, zero_iff, if_pos zero]
    · simp only [onIntegers, result?, zero_iff, if_neg zero, Integer.div?_eq zero]
  | mod =>
    by_cases zero : b = 0
    · simp only [onIntegers, result?, zero_iff, if_pos zero]
    · have found := Integer.ofInt?_eq_some_iff.mpr (Integer.toInt_floorMod a b)
      simp only [onIntegers, result?, zero_iff, if_neg zero, found, onIntegers.fitting]

theorem reports_onIntegers {operator : Operator} {a b : Integer} {x : Int}
    (found : operator.result? a.toInt b.toInt = some x) :
    operator.Reports x (operator.onIntegers a b) := by
  have answer : operator.onIntegers a b = onIntegers.fitting operator (Integer.ofInt? x) := by
    rw [onIntegers_eq, found]
  rw [answer]
  constructor
  · intro fits
    rw [Integer.ofInt?_of_fits fits]
    exact ⟨_, rfl, Int64.toInt_ofInt_of_le fits.1 fits.2⟩
  · intro unfit
    rw [Integer.ofInt?_eq_none_iff.mpr unfit]
    rfl

theorem divisionByZero_iff {operator : Operator} (divides : operator = .div ∨ operator = .mod)
    (a b : Integer) : operator.onIntegers a b = .error .divisionByZero ↔ b = 0 := by
  constructor
  · intro failed
    by_contra nonzero
    rcases divides with rfl | rfl
    · rw [onIntegers, if_neg nonzero] at failed
      cases fitted : Integer.div? a b <;> simp [fitted, onIntegers.fitting] at failed
    · rw [onIntegers, if_neg nonzero] at failed
      cases failed
  · intro zero
    rcases divides with rfl | rfl <;> rw [onIntegers, if_pos zero]

theorem overflow_div_iff {a b : Integer} (divides : b ≠ 0) :
    div.onIntegers a b = .error (.overflow .div) ↔ a = Int64.minValue ∧ b = -1 := by
  rw [onIntegers, if_neg divides, ← Integer.div?_eq_none_iff]
  cases Integer.div? a b <;> simp [onIntegers.fitting]

end Operator

namespace Machine

variable {γ : Type} [Console γ]

theorem run_apply_integers (operator : Operator) (machine : Machine γ) (a b : Integer)
    (rest : Stack) :
    (apply (.arith operator)).run { machine with stack := .int b :: .int a :: rest } =
      match operator.onIntegers a b with
      | .ok n => (.ok .next, { machine with stack := .int n :: rest })
      | .error fault => (.error fault, { machine with stack := rest }) := by
  rw [apply, Action.run_bind, run_perform_arith operator rfl, Operator.apply_integers]
  cases operator.onIntegers a b <;> rfl

/-- The operators pop the right operand and then the left one. What they push is the exact result,
and where there is none, the fault says why. -/
theorem arithmetic_exact (machine : Machine γ) (rest : Stack) (a b : Integer) :
    let answer (operator : Operator) := operator.onIntegers a b
    let floor : Int := ⌊(a.toInt : ℚ) / b.toInt⌋
    (∀ operator, (apply (.arith operator)).run
        { machine with stack := .int b :: .int a :: rest } =
      match answer operator with
      | .ok n => (.ok .next, { machine with stack := .int n :: rest })
      | .error fault => (.error fault, { machine with stack := rest })) ∧
    Operator.add.Reports (a.toInt + b.toInt) (answer .add) ∧
    Operator.sub.Reports (a.toInt - b.toInt) (answer .sub) ∧
    Operator.mul.Reports (a.toInt * b.toInt) (answer .mul) ∧
    (answer .div = .error .divisionByZero ↔ b = 0) ∧
    (answer .mod = .error .divisionByZero ↔ b = 0) ∧
    (b ≠ 0 →
      Operator.div.Reports floor (answer .div) ∧
      (answer .div = .error (.overflow .div) ↔ a = Int64.minValue ∧ b = -1) ∧
      (∃ r, answer .mod = .ok r ∧ r.toInt = a.toInt - b.toInt * floor ∧
        (r = 0 ∨ (r < 0 ↔ b < 0)) ∧ |r.toInt| < |b.toInt| ∧
        ∀ q, answer .div = .ok q → q.toInt * b.toInt + r.toInt = a.toInt) ∧
      Integer.checkedDiv? a b = Integer.div? a b ∧
      Integer.checkedMod? a b = some (Integer.floorMod a b)) := by
  intro answer floor
  have rounded : floor = a.toInt.fdiv b.toInt := floor_div_eq_fdiv a.toInt b.toInt
  refine ⟨fun operator => run_apply_integers operator machine a b rest,
    Operator.reports_onIntegers rfl, Operator.reports_onIntegers rfl,
    Operator.reports_onIntegers rfl, Operator.divisionByZero_iff (.inl rfl) a b,
    Operator.divisionByZero_iff (.inr rfl) a b, ?_⟩
  intro divides
  have divides' : b.toInt ≠ 0 := Integer.toInt_ne_zero divides
  have quotient : Operator.div.Reports floor (answer .div) :=
    Operator.reports_onIntegers (by rw [rounded, Operator.result?, if_neg divides'])
  refine ⟨quotient, Operator.overflow_div_iff divides, ?_, Integer.checkedDiv?_eq divides,
    Integer.checkedMod?_eq divides⟩
  have value : (Integer.floorMod a b).toInt = a.toInt.fmod b.toInt := Integer.toInt_floorMod a b
  obtain ⟨small, sign⟩ := fmod_sign (a := a.toInt) divides'
  refine ⟨Integer.floorMod a b, by simp only [answer, Operator.onIntegers, if_neg divides], ?_, ?_,
    by rwa [value], ?_⟩
  · rw [value, rounded, Int.fmod_def]
  · rw [← value] at sign
    rwa [← Int64.toInt_inj, Int64.lt_iff_toInt_lt, Int64.lt_iff_toInt_lt, Int64.toInt_zero]
  · intro q divided
    have exactly : q.toInt = floor := by
      by_cases fits : Fits floor
      · obtain ⟨n, answered, same⟩ := quotient.1 fits
        cases answered.symm.trans divided
        exact same
      · cases (quotient.2 fits).symm.trans divided
    rw [exactly, rounded, value]
    exact Int.fdiv_mul_add_fmod a.toInt b.toInt

theorem arithmetic_exact_least :
    let least : Integer := Int64.minValue
    (-1 : Integer) ≠ 0 ∧
      Operator.div.onIntegers least (-1) = .error (.overflow .div) ∧
      Operator.mod.onIntegers least (-1) = .ok 0 ∧
      Integer.checkedMod? least (-1) = some 0 := by
  intro least
  have divides : (-1 : Integer) ≠ 0 := by decide
  obtain ⟨_, _, _, _, _, _, divided⟩ :=
    arithmetic_exact ({ program := {}, console := {} } : Machine Silence) [] least (-1)
  obtain ⟨_, overflows, ⟨r, remains, _, _, small, _⟩, _, checked⟩ := divided divides
  have none : r = 0 := by
    have below : |r.toInt| < 1 := small
    exact Int64.toInt_inj.mp (Int.abs_lt_one_iff.mp below)
  have value : Integer.floorMod least (-1) = 0 := by decide
  exact ⟨divides, overflows.mpr ⟨rfl, rfl⟩, none ▸ remains, value ▸ checked⟩

end Machine

end StackMachine
