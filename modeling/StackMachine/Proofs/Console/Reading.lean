import Mathlib.Data.List.TakeWhile
import StackMachine.Proofs.Text.Lines

/-!
# Reading across chunks

How the bytes of an input are divided into chunks makes no difference to the lines that are read,
and neither do interruptions between the chunks. So what a reader has to hand out is described by
its bytes, and by the text that they spell.
-/

namespace StackMachine.Reader

open Text

def bytes : Reader → List UInt8
  | [] => []
  | .chunk part :: rest => part ++ bytes rest
  | .failure _ :: rest => bytes rest

/-- The only failures to come are interruptions. -/
def IsSteady (reader : Reader) : Prop :=
  ∀ failure, .failure failure ∈ reader → failure.kind = .interrupted

theorem IsSteady.tail {arrival : Arrival} {reader : Reader}
    (steady : IsSteady (arrival :: reader)) : IsSteady reader :=
  fun failure member => steady failure (List.mem_cons_of_mem _ member)

theorem collect_of_isSteady {reader : Reader} (steady : reader.IsSteady) (line : List UInt8) :
    ∃ rest, collect line reader =
        (.ok (line ++ reader.bytes.takeWhile (· != lineFeed) ++
          (reader.bytes.dropWhile (· != lineFeed)).take 1), rest) ∧
      rest.bytes = (reader.bytes.dropWhile (· != lineFeed)).drop 1 ∧ rest.IsSteady := by
  fun_induction collect line reader with
  | case1 line =>
    refine ⟨[], ?_, rfl, steady⟩
    simp [bytes]
  | case2 line failure rest interrupted ih => exact ih steady.tail
  | case3 line failure rest other => exact absurd (steady failure List.mem_cons_self) other
  | case4 line part rest unended ih =>
    have inside : ∀ b ∈ part, b != lineFeed := List.dropWhile_eq_nil_iff.mp unended
    obtain ⟨left, answer, behind⟩ := ih steady.tail
    refine ⟨left, ?_, ?_⟩
    · rw [answer, bytes, List.takeWhile_append_of_pos inside, List.dropWhile_append_of_pos inside]
      simp
    · rwa [bytes, List.dropWhile_append_of_pos inside]
  | case5 line part rest feed back ended =>
    -- The line ends in this chunk, and the rest of the chunk is put back in front.
    have cut := List.takeWhile_append_dropWhile (p := (· != lineFeed)) (l := part)
    have inside : ∀ b ∈ part.takeWhile (· != lineFeed), b != lineFeed :=
      fun b member => List.mem_takeWhile_imp (p := (· != lineFeed)) member
    obtain rfl : feed = lineFeed := by
      have boundary := List.head?_dropWhile_not (· != lineFeed) part
      rw [ended] at boundary
      simpa using boundary
    rw [ended] at cut
    generalize part.takeWhile (· != lineFeed) = front at cut inside ⊢
    have whole : bytes (.chunk part :: rest) = front ++ lineFeed :: (back ++ bytes rest) := by
      rw [bytes, ← cut, List.append_assoc, List.cons_append]
    rw [whole, List.takeWhile_append_of_pos inside, List.dropWhile_append_of_pos inside]
    refine ⟨.chunk back :: rest, by simp, by simp [bytes], ?_⟩
    intro failure member
    exact steady failure (by simpa using member)

structure Holds (reader : Reader) (text : List Char) : Prop where
  isSteady : reader.IsSteady
  bytes_eq : reader.bytes = Text.bytes text

theorem text?_eq_some_iff {part : List UInt8} {text : String} :
    text? part = some text ↔ part = Text.bytes text.toList := by
  have encoded : (Text.bytes text.toList).toByteArray = text.toByteArray := by
    rw [toByteArray_bytes, String.ofList_toList]
  rw [← List.toByteArray_inj, encoded, text?, String.fromUTF8?]
  constructor
  · intro found
    split at found
    · rw [← Option.some.inj found]
      rfl
    · cases found
  · intro same
    rw [dif_pos (same ▸ text.isValidUTF8)]
    exact congrArg some (String.toByteArray_inj.mp same)

theorem text?_bytes (cs : List Char) : text? (Text.bytes cs) = some (String.ofList cs) :=
  text?_eq_some_iff.mpr (by rw [String.toList_ofList])

theorem text?_eq_none_iff {part : List UInt8} :
    text? part = none ↔ ∀ cs, part ≠ Text.bytes cs := by
  rw [Option.eq_none_iff_forall_ne_some]
  constructor
  · rintro other cs rfl
    exact other _ (text?_bytes cs)
  · intro other text decoded
    exact other _ (text?_eq_some_iff.mp decoded)

theorem run_takeText_of_isSteady {reader : Reader} (steady : reader.IsSteady) :
    ∃ rest, takeText.run reader =
        (match text? (reader.bytes.takeWhile (· != lineFeed) ++
            (reader.bytes.dropWhile (· != lineFeed)).take 1) with
          | some line => .ok line
          | none => .error .notText, rest) ∧
      rest.bytes = (reader.bytes.dropWhile (· != lineFeed)).drop 1 ∧ rest.IsSteady := by
  obtain ⟨rest, answer, behind, steady'⟩ := collect_of_isSteady steady []
  rw [List.nil_append] at answer
  have taken : takeLine.run reader = (.ok _, rest) := answer
  refine ⟨rest, ?_, behind, steady'⟩
  simp only [takeText, Action.run_bind, taken]
  generalize text? _ = decoded
  cases decoded <;> rfl

theorem run_takeText {reader : Reader} {cs : List Char} (holds : reader.Holds cs) :
    ∃ rest, takeText.run reader = (.ok (String.ofList (Text.takeLine cs)), rest) ∧
      rest.Holds (behindLine cs) := by
  obtain ⟨rest, answer, behind, steady⟩ := run_takeText_of_isSteady holds.isSteady
  obtain ⟨first, left⟩ := bytes_takeLine cs
  rw [holds.bytes_eq] at answer behind
  rw [← first, text?_bytes] at answer
  exact ⟨rest, answer, steady, behind.trans left.symm⟩

theorem holds_chunk {part : List UInt8} {text : String} (utf8 : text? part = some text) :
    Holds [.chunk part] text.toList where
  isSteady := by
    intro failure member
    simp at member
  bytes_eq := by
    rw [bytes, bytes, List.append_nil]
    exact text?_eq_some_iff.mp utf8

end StackMachine.Reader
