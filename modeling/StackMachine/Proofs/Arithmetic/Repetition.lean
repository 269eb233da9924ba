import Mathlib.Algebra.Ring.Int.Defs
import StackMachine.Console.Buffer
import StackMachine.Proofs.Folding.Runs

/-!
# Repetition of text

A text times a count is the text so many times over, and a count below zero counts as zero. What
decides is the exact size of the result: up to the limit it is built, beyond it the operator
overflows, also where a word of 64 bits cannot hold the size. Copies add up with their counts.
-/

namespace StackMachine

/-! ## Copies -/

namespace Text

theorem copies_eq_join (text : String) (count : Nat) :
    copies text count = String.join (List.replicate count text) := by
  apply String.toList_inj.mp
  rw [toList_copies, String.toList_join, List.flatMap_replicate]

theorem copies_add (text : String) (m n : Nat) :
    copies text (m + n) = copies text m ++ copies text n := by
  simp only [copies_eq_join, ← List.replicate_append_replicate, String.join_append]

theorem copies_zero (text : String) : copies text 0 = "" := by
  rw [copies_eq_join]
  rfl

theorem utf8ByteSize_copies (text : String) (count : Nat) :
    (copies text count).utf8ByteSize = text.utf8ByteSize * count := by
  induction count with
  | zero => rw [copies_zero, Nat.mul_zero, String.utf8ByteSize_empty]
  | succ count ih =>
    have last : copies text 1 = text := by
      rw [copies_eq_join]
      exact String.empty_append
    rw [copies_add, String.utf8ByteSize_append, ih, last, Nat.mul_succ]

theorem copies_empty (count : Nat) : copies "" count = "" := by
  apply String.utf8ByteSize_eq_zero_iff.mp
  rw [utf8ByteSize_copies, String.utf8ByteSize_empty, Nat.zero_mul]

end Text

/-! ## Sizes -/

def repeatedSize (text : String) (count : Integer) : Int :=
  text.utf8ByteSize * max count.toInt 0

theorem repeatedSize_eq (text : String) (count : Integer) :
    repeatedSize text count = (text.utf8ByteSize * count.toInt.toNat : Nat) := by
  rw [repeatedSize, ← Int.toNat_eq_max]
  exact (Int.natCast_mul ..).symm

theorem repeatedSize_le_iff {text : String} {count : Integer} :
    repeatedSize text count ≤ 2 ^ 24 ↔
      text.utf8ByteSize * count.toInt.toNat ≤ maxRepeatedBytes := by
  rw [repeatedSize_eq, maxRepeatedBytes]
  omega

def wordSize? (text : String) (count : Nat) : Option UInt64 :=
  if text.utf8ByteSize * count < UInt64.size then
    some (UInt64.ofNat text.utf8ByteSize * UInt64.ofNat count)
  else none

/-- Computes what `repeatText` computes and gives up where the size is no word. -/
def repeatWithinWord (text : String) (count : Integer) : Except Fault Value :=
  match wordSize? text count.toInt.toNat with
  | some size =>
    if size.toNat ≤ maxRepeatedBytes then .ok (.text (Text.copies text count.toInt.toNat))
    else .error (.overflow .mul)
  | none => .error (.overflow .mul)

theorem toNat_wordSize {text : String} {count : Nat} {size : UInt64}
    (fits : wordSize? text count = some size) : size.toNat = text.utf8ByteSize * count := by
  unfold wordSize? at fits
  split at fits
  · rename_i below
    cases fits
    rw [UInt64.toNat_mul, UInt64.toNat_ofNat', UInt64.toNat_ofNat', ← Nat.mul_mod]
    exact Nat.mod_eq_of_lt below
  · cases fits

theorem repeatWithinWord_eq (text : String) (count : Integer) :
    repeatWithinWord text count = repeatText text count := by
  unfold repeatWithinWord repeatText
  cases fits : wordSize? text count.toInt.toNat with
  | some size => simp only [toNat_wordSize fits]
  | none =>
    have beyond : ¬ text.utf8ByteSize * count.toInt.toNat < UInt64.size := by
      intro below
      rw [wordSize?, if_pos below] at fits
      cases fits
    have limit : maxRepeatedBytes < UInt64.size := by decide
    rw [if_neg (by omega)]

/-! ## The operator -/

theorem repeatText_of_le {text : String} {count : Integer}
    (small : repeatedSize text count ≤ 2 ^ 24) :
    repeatText text count = .ok (.text (Text.copies text count.toInt.toNat)) :=
  if_pos (repeatedSize_le_iff.mp small)

theorem repeatText_eq_error_iff {text : String} {count : Integer} {fault : Fault} :
    repeatText text count = .error fault ↔
      fault = .overflow .mul ∧ 2 ^ 24 < repeatedSize text count := by
  rw [← Int.not_le, repeatedSize_le_iff, repeatText]
  split
  · rename_i small
    exact iff_of_false (by simp) fun told => told.2 small
  · rename_i large
    constructor
    · rintro ⟨⟩
      exact ⟨rfl, large⟩
    · rintro ⟨rfl, _⟩
      rfl

theorem repeatText_add {text : String} {m n total : Integer} (first : 0 ≤ m.toInt)
    (second : 0 ≤ n.toInt) (sum : total.toInt = m.toInt + n.toInt)
    (small : repeatedSize text total ≤ 2 ^ 24) :
    ∃ front back whole, repeatText text m = .ok front ∧ repeatText text n = .ok back ∧
      repeatText text total = .ok whole ∧ Operator.add.apply front back = .ok whole := by
  have counts : total.toInt.toNat = m.toInt.toNat + n.toInt.toNat := by omega
  have whole := repeatedSize_le_iff.mp small
  rw [counts, Nat.mul_add] at whole
  refine ⟨_, _, _, repeatText_of_le (repeatedSize_le_iff.mpr (by omega)),
    repeatText_of_le (repeatedSize_le_iff.mpr (by omega)), repeatText_of_le small, ?_⟩
  rw [counts, Text.copies_add]
  rfl

namespace Machine

variable {γ : Type} [Console γ]

theorem run_apply_arith (operator : Operator) (machine : Machine γ) (a b : Value) (rest : Stack) :
    (apply (.arith operator)).run { machine with stack := b :: a :: rest } =
      match operator.apply a b with
      | .ok v => (.ok .next, { machine with stack := v :: rest })
      | .error fault => (.error fault, { machine with stack := rest }) := by
  rw [apply, Action.run_bind, run_perform_arith operator rfl]
  cases operator.apply a b <;> rfl

/-- A text and a count, in either order, multiply to so many copies of the text if their size in
bytes is within the limit, and overflow otherwise. -/
theorem repetition_exact (machine : Machine γ) (rest : Stack) (text : String) (n : Integer) :
    let size : Int := text.utf8ByteSize * max n.toInt 0
    let answer := repeatText text n
    let multiplied : Except Fault Flow × Machine γ :=
      match answer with
      | .ok v => (.ok .next, { machine with stack := v :: rest })
      | .error fault => (.error fault, { machine with stack := rest })
    (apply (.arith .mul)).run { machine with stack := .int n :: .text text :: rest } = multiplied ∧
    (apply (.arith .mul)).run { machine with stack := .text text :: .int n :: rest } = multiplied ∧
    repeatWithinWord text n = answer ∧
    ((∃ v, answer = .ok v) ↔ size ≤ 2 ^ 24) ∧
    (∀ v, answer = .ok v → ∃ copies, v = .text copies ∧
      copies = String.join (List.replicate n.toInt.toNat text) ∧ copies.utf8ByteSize = size) ∧
    (∀ fault, answer = .error fault ↔ fault = .overflow .mul ∧ 2 ^ 24 < size) ∧
    (n ≤ 0 ∨ text = "" → answer = .ok (.text "")) ∧
    ∀ m total : Integer, 0 ≤ m → 0 ≤ n → total.toInt = m.toInt + n.toInt →
      text.utf8ByteSize * total.toInt ≤ 2 ^ 24 →
      ∃ front back whole, repeatText text m = .ok front ∧ answer = .ok back ∧
        repeatText text total = .ok whole ∧ Operator.add.apply front back = .ok whole := by
  intro size answer multiplied
  have within : (∃ v, answer = .ok v) ↔ size ≤ 2 ^ 24 := by
    constructor
    · rintro ⟨v, built⟩
      refine Int.not_lt.mp fun large => ?_
      cases built.symm.trans (repeatText_eq_error_iff.mpr ⟨rfl, large⟩)
    · exact fun small => ⟨_, repeatText_of_le small⟩
  refine ⟨run_apply_arith .mul machine (.text text) (.int n) rest,
    run_apply_arith .mul machine (.int n) (.text text) rest, repeatWithinWord_eq text n, within,
    ?_, fun fault => repeatText_eq_error_iff, ?_, ?_⟩
  · intro v built
    cases built.symm.trans (repeatText_of_le (within.mp ⟨v, built⟩))
    refine ⟨_, rfl, Text.copies_eq_join _ _, ?_⟩
    rw [Text.utf8ByteSize_copies]
    exact (repeatedSize_eq text n).symm
  · rintro (none | rfl)
    · have count : n.toInt.toNat = 0 := Int.toNat_of_nonpos (Int64.le_iff_toInt_le.mp none)
      have small : size ≤ 2 ^ 24 := repeatedSize_le_iff.mpr (by rw [count]; exact Nat.zero_le _)
      rw [show answer = _ from repeatText_of_le small, count, Text.copies_zero]
    · have small : size ≤ 2 ^ 24 := by simp [size]
      rw [show answer = _ from repeatText_of_le small, Text.copies_empty]
  · intro m total first second sum small
    have first' : 0 ≤ m.toInt := Int64.le_iff_toInt_le.mp first
    have second' : 0 ≤ n.toInt := Int64.le_iff_toInt_le.mp second
    refine repeatText_add first' second' sum ?_
    rwa [repeatedSize, Int.max_eq_left (by omega)]

theorem repetition_exact_limit :
    let half : Integer := 2 ^ 23
    (∃ v, repeatText "é" half = .ok v) ∧
      repeatText "é" (half + 1) = .error (.overflow .mul) ∧
      repeatText "é" (-1) = .ok (.text "") ∧
      repeatText "" Int64.maxValue = .ok (.text "") ∧
      ∃ front back whole, repeatText "é" (half - 5) = .ok front ∧ repeatText "é" 5 = .ok back ∧
        repeatText "é" half = .ok whole ∧ Operator.add.apply front back = .ok whole := by
  intro half
  let idle : Machine Silence := { program := {}, console := {} }
  obtain ⟨_, _, _, within, _⟩ := repetition_exact idle [] "é" half
  obtain ⟨_, _, _, _, _, beyond, _⟩ := repetition_exact idle [] "é" (half + 1)
  obtain ⟨_, _, _, _, _, _, below, _⟩ := repetition_exact idle [] "é" (-1)
  obtain ⟨_, _, _, _, _, _, nothing, _⟩ := repetition_exact idle [] "" Int64.maxValue
  obtain ⟨_, _, _, _, _, _, _, adds⟩ := repetition_exact idle [] "é" 5
  exact ⟨within.mpr (by decide), (beyond _).mpr ⟨rfl, by decide⟩, below (.inl (by decide)),
    nothing (.inr rfl), adds (half - 5) half (by decide) (by decide) (by decide) (by decide)⟩

end Machine

end StackMachine
