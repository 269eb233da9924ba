import Mathlib.Data.List.TakeWhile
import StackMachine.Console.Reader
import StackMachine.Text.Line

/-!
# Lines and bytes

The lines of a text, and the same cuts in its bytes. A line feed is one byte, and that byte stands
in the encoding of no other character, so a text can be cut into lines before it is decoded.
-/

namespace StackMachine.Text

/-! ## Lines -/

def behindLine (cs : List Char) : List Char :=
  (cs.dropWhile (· != '\n')).drop 1

theorem takeLine_append_behindLine (cs : List Char) : takeLine cs ++ behindLine cs = cs := by
  rw [takeLine, behindLine, List.append_assoc, List.take_append_drop,
    List.takeWhile_append_dropWhile]

theorem takeLine_of_unended {line : List Char} (inside : ∀ c ∈ line, c ≠ '\n') :
    takeLine line = line := by
  have unended (c : Char) (member : c ∈ line) : c != '\n' := by simpa using inside c member
  unfold takeLine
  rw [List.takeWhile_eq_self_iff.mpr unended, List.dropWhile_eq_nil_iff.mpr unended]
  simp

theorem takeLine_append_lineFeed {line more : List Char} (inside : ∀ c ∈ line, c ≠ '\n') :
    takeLine (line ++ '\n' :: more) = line ++ ['\n'] := by
  have unended (c : Char) (member : c ∈ line) : c != '\n' := by simpa using inside c member
  unfold takeLine
  rw [List.takeWhile_append_of_pos unended, List.dropWhile_append_of_pos unended]
  simp

theorem behindLine_append_lineFeed {line more : List Char} (inside : ∀ c ∈ line, c ≠ '\n') :
    behindLine (line ++ '\n' :: more) = more := by
  have unended (c : Char) (member : c ∈ line) : c != '\n' := by simpa using inside c member
  unfold behindLine
  rw [List.dropWhile_append_of_pos unended]
  simp

theorem takeLine_ne_nil {cs : List Char} (some : cs ≠ []) : takeLine cs ≠ [] := by
  obtain ⟨c, cs, rfl⟩ := List.exists_cons_of_ne_nil some
  by_cases feed : c = '\n'
  · simp [takeLine, feed]
  · simp [takeLine, feed]

theorem length_behindLine_lt {cs : List Char} (some : cs ≠ []) :
    (behindLine cs).length < cs.length := by
  have whole := congrArg List.length (takeLine_append_behindLine cs)
  have first := List.length_pos_iff.mpr (takeLine_ne_nil some)
  rw [List.length_append] at whole
  omega

/-- A line feed ends the first line, and a carriage return in front of that goes with it. -/
inductive IsFirstLine (line : List Char) : List Char → Prop
  | whole (inside : ∀ c ∈ line, c ≠ '\n') : IsFirstLine line line
  | lineFeed {more : List Char} (inside : ∀ c ∈ line, c ≠ '\n') (last : line.getLast? ≠ some '\r') :
      IsFirstLine line (line ++ '\n' :: more)
  | both {more : List Char} (inside : ∀ c ∈ line, c ≠ '\n') :
      IsFirstLine line (line ++ '\r' :: '\n' :: more)

theorem firstLine_eq {line cs : List Char} (first : IsFirstLine line cs) : firstLine cs = line := by
  unfold firstLine
  cases first with
  | whole inside =>
    rw [takeLine_of_unended inside]
    exact dropLineEnd_of_not_mem fun member => inside _ member rfl
  | lineFeed inside last =>
    rw [takeLine_append_lineFeed inside, dropLineEnd_append_lineFeed_of_ne last]
  | @both more inside =>
    have inside' : ∀ c ∈ line ++ ['\r'], c ≠ '\n' := by
      intro c member
      rcases List.mem_append.mp member with member | member
      · exact inside c member
      · rw [List.mem_singleton.mp member]
        decide
    have taken : takeLine (line ++ ['\r'] ++ '\n' :: more) = line ++ ['\r'] ++ ['\n'] :=
      takeLine_append_lineFeed inside'
    rw [List.append_assoc, List.singleton_append] at taken
    rw [taken]
    simp [dropLineEnd]

theorem exists_isFirstLine (cs : List Char) : ∃ line, IsFirstLine line cs := by
  have whole := List.takeWhile_append_dropWhile (p := (· != '\n')) (l := cs)
  have inside : ∀ c ∈ cs.takeWhile (· != '\n'), c ≠ '\n' := by
    intro c member
    simpa using List.mem_takeWhile_imp member
  have stops := List.head?_dropWhile_not (· != '\n') cs
  generalize cs.takeWhile (· != '\n') = line at whole inside
  generalize cs.dropWhile (· != '\n') = back at whole stops
  subst whole
  cases back with
  | nil => exact ⟨line, by simpa using IsFirstLine.whole inside⟩
  | cons c more =>
    obtain rfl : c = '\n' := by simpa using stops
    by_cases last : line.getLast? = some '\r'
    · obtain ⟨front, rfl⟩ := List.getLast?_eq_some_iff.mp last
      refine ⟨front, ?_⟩
      rw [List.append_assoc]
      exact .both fun c member => inside c (List.mem_append_left _ member)
    · exact ⟨line, .lineFeed inside last⟩

theorem isFirstLine_iff {line cs : List Char} : IsFirstLine line cs ↔ line = firstLine cs := by
  constructor
  · intro first
    exact (firstLine_eq first).symm
  · rintro rfl
    obtain ⟨line, first⟩ := exists_isFirstLine cs
    rw [firstLine_eq first]
    exact first

/-- The lines of a text without their ends. The last one may lack its end, and no line follows the
last end. -/
def lines (cs : List Char) : List (List Char) :=
  if _some : cs = [] then [] else firstLine cs :: lines (behindLine cs)
termination_by cs.length
decreasing_by exact length_behindLine_lt _some

theorem lines_nil : lines [] = [] := by
  rw [lines]
  simp

theorem lines_of_ne_nil {cs : List Char} (some : cs ≠ []) :
    lines cs = firstLine cs :: lines (behindLine cs) := by
  rw [lines, dif_neg some]

/-- A line feed stands behind every line. Behind the last one it may be missing, unless that line
is empty. -/
inductive IsTextOf : List String → List Char → Prop
  | none : IsTextOf [] []
  | unended {line : String} (some : line ≠ "") : IsTextOf [line] line.toList
  | more (line : String) {lines : List String} {text : List Char} (rest : IsTextOf lines text) :
      IsTextOf (line :: lines) (line.toList ++ '\n' :: text)

theorem IsTextOf.lines_eq {lines : List String} {text : List Char} (spelled : IsTextOf lines text)
    (whole : ∀ line ∈ lines, '\n' ∉ line.toList ∧ line.toList.getLast? ≠ some '\r') :
    Text.lines text = lines.map String.toList := by
  induction spelled with
  | none => exact lines_nil
  | @unended line filled =>
    have absent := (whole line List.mem_cons_self).1
    have inside : ∀ c ∈ line.toList, c ≠ '\n' := by
      rintro c member rfl
      exact absent member
    have nothing : behindLine line.toList = [] := by
      have all := takeLine_append_behindLine line.toList
      rw [takeLine_of_unended inside] at all
      exact List.append_right_eq_self.mp all
    rw [lines_of_ne_nil (by simpa using filled), firstLine, takeLine_of_unended inside, nothing,
      dropLineEnd_of_not_mem absent, lines_nil]
    rfl
  | @more line lines text rest ih =>
    obtain ⟨absent, last⟩ := whole line List.mem_cons_self
    have inside : ∀ c ∈ line.toList, c ≠ '\n' := by
      rintro c member rfl
      exact absent member
    rw [lines_of_ne_nil (by simp), firstLine, takeLine_append_lineFeed inside,
      behindLine_append_lineFeed inside, dropLineEnd_append_lineFeed_of_ne last,
      ih fun line member => whole line (List.mem_cons_of_mem _ member)]
    rfl

/-! ## Bytes -/

def bytes (cs : List Char) : List UInt8 :=
  cs.flatMap String.utf8EncodeChar

theorem bytes_append (front back : List Char) : bytes (front ++ back) = bytes front ++ bytes back :=
  List.flatMap_append

theorem eq_nil_of_bytes_eq_nil {cs : List Char} (none : bytes cs = []) : cs = [] := by
  cases cs with
  | nil => rfl
  | cons c cs => exact absurd (List.append_eq_nil_iff.mp none).1 String.utf8EncodeChar_ne_nil

theorem toByteArray_bytes (cs : List Char) :
    (bytes cs).toByteArray = (String.ofList cs).toByteArray := by
  rw [String.toByteArray_ofList, List.utf8Encode, bytes]

theorem toNat_mod_of_ofNat {n : Nat} (equal : Reader.lineFeed = UInt8.ofNat n) : n % 256 = 10 := by
  simpa [Reader.lineFeed] using (congrArg UInt8.toNat equal).symm

theorem eq_of_lineFeed_mem {c : Char} (member : Reader.lineFeed ∈ String.utf8EncodeChar c) :
    c = '\n' := by
  unfold String.utf8EncodeChar at member
  dsimp only at member
  split at member
  · have value := toNat_mod_of_ofNat (List.mem_singleton.mp member)
    apply Char.ext
    apply UInt32.toNat_inj.mp
    show c.val.toNat = 10
    omega
  -- The bytes of a longer encoding are at least `0x80`.
  split at member
  · simp only [List.mem_cons, List.not_mem_nil, or_false] at member
    rcases member with equal | equal <;> have value := toNat_mod_of_ofNat equal <;> omega
  split at member
  · simp only [List.mem_cons, List.not_mem_nil, or_false] at member
    rcases member with equal | equal | equal <;> have value := toNat_mod_of_ofNat equal <;> omega
  · simp only [List.mem_cons, List.not_mem_nil, or_false] at member
    rcases member with equal | equal | equal | equal <;>
      have value := toNat_mod_of_ofNat equal <;> omega

theorem span_bytes (cs : List Char) :
    (bytes cs).takeWhile (· != Reader.lineFeed) = bytes (cs.takeWhile (· != '\n')) ∧
      (bytes cs).dropWhile (· != Reader.lineFeed) = bytes (cs.dropWhile (· != '\n')) := by
  induction cs with
  | nil => exact ⟨rfl, rfl⟩
  | cons c cs ih =>
    by_cases feed : c = '\n'
    · subst feed
      exact ⟨rfl, rfl⟩
    · have others (b : UInt8) (member : b ∈ String.utf8EncodeChar c) : b != Reader.lineFeed := by
        simp only [bne_iff_ne]
        rintro rfl
        exact feed (eq_of_lineFeed_mem member)
      have split : bytes (c :: cs) = String.utf8EncodeChar c ++ bytes cs := rfl
      have kept : (c != '\n') = true := by simpa using feed
      rw [split, List.takeWhile_append_of_pos others, List.dropWhile_append_of_pos others, ih.1,
        ih.2]
      simp only [List.takeWhile_cons, List.dropWhile_cons, kept, if_true]
      exact ⟨rfl, trivial⟩

theorem take_one_bytes {cs : List Char} (stops : ∀ c ∈ cs.head?, c = '\n') :
    (bytes cs).take 1 = bytes (cs.take 1) ∧ (bytes cs).drop 1 = bytes (cs.drop 1) := by
  cases cs with
  | nil => exact ⟨rfl, rfl⟩
  | cons c cs =>
    obtain rfl : c = '\n' := stops c rfl
    exact ⟨rfl, rfl⟩

theorem bytes_takeLine (cs : List Char) :
    bytes (takeLine cs) = (bytes cs).takeWhile (· != Reader.lineFeed) ++
        ((bytes cs).dropWhile (· != Reader.lineFeed)).take 1 ∧
      bytes (behindLine cs) = ((bytes cs).dropWhile (· != Reader.lineFeed)).drop 1 := by
  have stops : ∀ c ∈ (cs.dropWhile (· != '\n')).head?, c = '\n' := by
    intro c member
    have stop := List.head?_dropWhile_not (· != '\n') cs
    rw [Option.mem_def.mp member] at stop
    simpa using stop
  obtain ⟨taken, left⟩ := span_bytes cs
  obtain ⟨feed, rest⟩ := take_one_bytes stops
  rw [taken, left, feed, rest, takeLine, behindLine, bytes_append]
  exact ⟨rfl, rfl⟩

end StackMachine.Text
