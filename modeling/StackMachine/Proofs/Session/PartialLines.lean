import Mathlib.Data.List.Forall2
import Mathlib.Data.List.TakeWhile
import StackMachine.Session.PartialLine

/-!
# What a partial line holds back

A text is the lines that it completes and a rest without a line feed. A partial line hands out the
former and holds back the latter, so nothing is lost and nothing is added, and what it holds back
depends on all that was pushed and not on how that was divided.
-/

namespace StackMachine

/-! ## Complete lines -/

theorem splitLines_append (cs : List Char) : (splitLines cs).1 ++ (splitLines cs).2 = cs := by
  rw [splitLines, ← List.reverse_append, List.takeWhile_append_dropWhile, List.reverse_reverse]

theorem not_mem_splitLines (cs : List Char) : '\n' ∉ (splitLines cs).2 := by
  intro member
  have kept := List.mem_takeWhile_imp (List.mem_reverse.mp member)
  simp at kept

theorem splitLines_append_of_not_mem (front : List Char) {back : List Char} (absent : '\n' ∉ back) :
    splitLines (front ++ back) = ((splitLines front).1, (splitLines front).2 ++ back) := by
  have inside : ∀ c ∈ back.reverse, c != '\n' := by
    intro c member
    simp only [bne_iff_ne]
    rintro rfl
    exact absent (List.mem_reverse.mp member)
  simp only [splitLines, List.reverse_append]
  rw [List.takeWhile_append_of_pos inside, List.dropWhile_append_of_pos inside]
  simp

theorem splitLines_of_not_mem {cs : List Char} (absent : '\n' ∉ cs) : splitLines cs = ([], cs) :=
  splitLines_append_of_not_mem [] absent

theorem splitLines_append_lineFeed (front back : List Char) :
    (splitLines (front ++ '\n' :: back)).2 = (splitLines back).2 := by
  simp only [splitLines, List.reverse_append, List.reverse_cons, List.append_assoc,
    List.singleton_append, List.takeWhile_append]
  split
  · rename_i whole
    have same := (List.takeWhile_prefix (p := (· != '\n')) (l := back.reverse)).eq_of_length whole
    simp [same]
  · rfl

theorem splitLines_held_append (front back : List Char) :
    (splitLines ((splitLines front).2 ++ back)).2 = (splitLines (front ++ back)).2 := by
  by_cases feed : '\n' ∈ back
  -- A line feed completes what was held back, whatever it was.
  · obtain ⟨before, behind, rfl⟩ := List.append_of_mem feed
    rw [← List.append_assoc, ← List.append_assoc, splitLines_append_lineFeed,
      splitLines_append_lineFeed]
  · rw [splitLines_append_of_not_mem _ feed, splitLines_append_of_not_mem _ feed,
      splitLines_of_not_mem (not_mem_splitLines front)]

theorem splitLines_eq_nil_iff {cs : List Char} :
    (splitLines cs).2 = [] ↔ ∀ c ∈ cs.getLast?, c = '\n' := by
  rw [splitLines, List.reverse_eq_nil_iff, List.takeWhile_eq_nil_iff, ← List.head?_reverse]
  cases cs.reverse with
  | nil => simp
  | cons c back => simp

theorem getLast?_splitLines {cs : List Char} (feed : '\n' ∈ cs) :
    (splitLines cs).1.getLast? = some '\n' := by
  have stops := List.head?_dropWhile_not (· != '\n') cs.reverse
  rw [splitLines, List.getLast?_reverse]
  cases back : cs.reverse.dropWhile (· != '\n') with
  | nil => simpa using List.dropWhile_eq_nil_iff.mp back _ (List.mem_reverse.mpr feed)
  | cons c rest =>
    rw [back] at stops
    simpa using stops

/-- What ends a line that a text leaves open. -/
def completing (text : String) : String :=
  if text.toList.getLast?.all (· == '\n') then "" else "\n"

theorem completing_eq (text : String) :
    completing text = if (splitLines text.toList).2 = [] then "" else "\n" := by
  have ends : text.toList.getLast?.all (· == '\n') = true ↔ (splitLines text.toList).2 = [] := by
    rw [splitLines_eq_nil_iff, Option.all_eq_true]
    simp
  rw [completing]
  simp only [ends]

namespace PartialLine

/-! ## Pushes -/

theorem push_of_not_mem {line : PartialLine} {text : String}
    (absent : '\n' ∉ (line.pending ++ text).toList) :
    line.push text = (none, { pending := line.pending ++ text }) := by
  have contains : (line.pending ++ text).contains '\n' = false := by
    simpa only [String.contains_char_eq, decide_eq_false_iff_not] using absent
  rw [push, contains]
  rfl

theorem push_of_mem {line : PartialLine} {text : String}
    (feed : '\n' ∈ (line.pending ++ text).toList) :
    line.push text =
      (some (String.ofList (splitLines (line.pending ++ text).toList).1),
        { pending := String.ofList (splitLines (line.pending ++ text).toList).2 }) := by
  have contains : (line.pending ++ text).contains '\n' = true := by
    simpa only [String.contains_char_eq, decide_eq_true_eq] using feed
  rw [push, contains]
  rfl

theorem push_eq (line : PartialLine) (text : String) :
    (line.push text).1.getD "" = String.ofList (splitLines (line.pending ++ text).toList).1 ∧
      (line.push text).2.pending = String.ofList (splitLines (line.pending ++ text).toList).2 := by
  by_cases feed : '\n' ∈ (line.pending ++ text).toList
  · rw [push_of_mem feed]
    exact ⟨rfl, rfl⟩
  · rw [push_of_not_mem feed, splitLines_of_not_mem feed]
    simp

theorem push_append_pending (line : PartialLine) (text : String) :
    (line.push text).1.getD "" ++ (line.push text).2.pending = line.pending ++ text := by
  obtain ⟨complete, held⟩ := line.push_eq text
  rw [complete, held, ← String.ofList_append, splitLines_append, String.ofList_toList]

/-! ## Calls -/

def IsOpen (line : PartialLine) : Prop :=
  '\n' ∉ line.pending.toList

inductive Call where
  | push (text : String)
  | take
deriving DecidableEq, Repr

def Call.text : Call → String
  | push text => text
  | take => ""

def serve : Call → PartialLine → Option String × PartialLine
  | .push text, line => line.push text
  | .take, line => (some line.take.1, line.take.2)

def serveAll : List Call → PartialLine → List (Option String) × PartialLine
  | [], line => ([], line)
  | call :: calls, line =>
    let (answer, between) := serve call line
    let (answers, after) := serveAll calls between
    (answer :: answers, after)

def handed (answers : List (Option String)) : String :=
  String.join (answers.map (·.getD ""))

/-- A push hands out complete lines if it brings the end of one, and a take hands out no line
end. -/
inductive Answers : Call → Option String → Prop
  | held {text : String} (absent : '\n' ∉ text.toList) : Answers (.push text) none
  | completed {text complete : String} (feed : '\n' ∈ text.toList)
      (ended : complete.toList.getLast? = some '\n') : Answers (.push text) (some complete)
  | taken {rest : String} (unended : '\n' ∉ rest.toList) : Answers .take (some rest)

@[simp] theorem serveAll_nil (line : PartialLine) : serveAll [] line = ([], line) := rfl

theorem serveAll_cons (call : Call) (calls : List Call) (line : PartialLine) :
    serveAll (call :: calls) line =
      ((serve call line).1 :: (serveAll calls (serve call line).2).1,
        (serveAll calls (serve call line).2).2) := rfl

@[simp] theorem handed_nil : handed [] = "" := rfl

@[simp] theorem handed_cons (answer : Option String) (answers : List (Option String)) :
    handed (answer :: answers) = answer.getD "" ++ handed answers :=
  String.join_cons

theorem isOpen_serve (call : Call) (line : PartialLine) : (serve call line).2.IsOpen := by
  cases call with
  | push text =>
    rw [IsOpen, serve, (line.push_eq text).2, String.toList_ofList]
    exact not_mem_splitLines _
  | take => simp [IsOpen, serve, take]

theorem serve_append_pending (call : Call) (line : PartialLine) :
    (serve call line).1.getD "" ++ (serve call line).2.pending = line.pending ++ call.text := by
  cases call with
  | push text => exact line.push_append_pending text
  | take => rfl

theorem answers_serve {line : PartialLine} (isOpen : line.IsOpen) (call : Call) :
    Answers call (serve call line).1 := by
  cases call with
  | take => exact .taken isOpen
  | push text =>
    -- the held text brings no line feed, so one in the whole is one in the text
    have brought : '\n' ∈ (line.pending ++ text).toList ↔ '\n' ∈ text.toList := by
      rw [String.toList_append, List.mem_append, or_iff_right isOpen]
    by_cases feed : '\n' ∈ (line.pending ++ text).toList
    · rw [serve, push_of_mem feed]
      refine .completed (brought.mp feed) ?_
      rw [String.toList_ofList, getLast?_splitLines feed]
    · rw [serve, push_of_not_mem feed]
      exact .held fun member => feed (brought.mpr member)

theorem isOpen_serveAll (calls : List Call) {line : PartialLine} (isOpen : line.IsOpen) :
    (serveAll calls line).2.IsOpen := by
  induction calls generalizing line with
  | nil => exact isOpen
  | cons call calls ih => exact ih (isOpen_serve call line)

theorem serveAll_append_pending (calls : List Call) (line : PartialLine) :
    handed (serveAll calls line).1 ++ (serveAll calls line).2.pending =
      line.pending ++ String.join (calls.map Call.text) := by
  induction calls generalizing line with
  | nil => simp
  | cons call calls ih =>
    rw [serveAll_cons, handed_cons, String.append_assoc, ih, ← String.append_assoc,
      serve_append_pending, List.map_cons, String.join_cons, String.append_assoc]

theorem answers_serveAll (calls : List Call) {line : PartialLine} (isOpen : line.IsOpen) :
    List.Forall₂ Answers calls (serveAll calls line).1 := by
  induction calls generalizing line with
  | nil => exact .nil
  | cons call calls ih => exact .cons (answers_serve isOpen call) (ih (isOpen_serve call line))

theorem pending_pushes (texts : List String) {line : PartialLine} (isOpen : line.IsOpen) :
    (serveAll (texts.map .push) line).2.pending.toList =
      (splitLines (line.pending ++ String.join texts).toList).2 := by
  induction texts generalizing line with
  | nil => simp [splitLines_of_not_mem isOpen]
  | cons text texts ih =>
    rw [List.map_cons, serveAll_cons, ih (isOpen_serve _ _), serve, (line.push_eq text).2,
      String.toList_append, String.toList_ofList, splitLines_held_append, ← String.toList_append,
      String.append_assoc, String.join_cons]

theorem handed_pushes (texts : List String) {line : PartialLine} (isOpen : line.IsOpen) :
    (handed (serveAll (texts.map .push) line).1).toList =
      (splitLines (line.pending ++ String.join texts).toList).1 := by
  have whole := congrArg String.toList (serveAll_append_pending (texts.map .push) line)
  have pushed : (texts.map Call.push).map Call.text = texts := by
    rw [List.map_map]
    exact List.map_id texts
  rw [pushed, String.toList_append, pending_pushes texts isOpen] at whole
  exact List.append_cancel_right (whole.trans (splitLines_append _).symm)

/-- The texts handed out and the text held back are, in order, the texts that were pushed. A push
hands out lines if it brings the end of one and nothing otherwise. A take leaves nothing behind,
and wherever a text comes next it makes no difference how it is divided into pushes. -/
theorem serveAll_exact (calls : List Call) :
    let answers := (serveAll calls {}).1
    let line := (serveAll calls {}).2
    handed answers ++ line.pending = String.join (calls.map Call.text) ∧
    line.IsOpen ∧
    List.Forall₂ Answers calls answers ∧
    (serve .take line).2 = {} ∧
    ∀ texts texts' : List String, String.join texts = String.join texts' →
      handed (serveAll (texts.map .push) line).1 = handed (serveAll (texts'.map .push) line).1 ∧
      (serveAll (texts.map .push) line).2 = (serveAll (texts'.map .push) line).2 := by
  intro answers line
  have fresh : IsOpen {} := by simp [IsOpen]
  have isOpen : line.IsOpen := isOpen_serveAll calls fresh
  have whole := serveAll_append_pending calls {}
  rw [String.empty_append] at whole
  refine ⟨whole, isOpen, answers_serveAll calls fresh, rfl, fun texts texts' same => ⟨?_, ?_⟩⟩
  · apply String.toList_inj.mp
    rw [handed_pushes texts isOpen, handed_pushes texts' isOpen, same]
  · have held : (serveAll (texts.map .push) line).2.pending =
        (serveAll (texts'.map .push) line).2.pending := by
      apply String.toList_inj.mp
      rw [pending_pushes texts isOpen, pending_pushes texts' isOpen, same]
    exact congrArg PartialLine.mk held

theorem serveAll_exact_divided :
    let calls : List Call :=
      [.push "Enter: ", .push "é\nb\nc", .take, .take, .push "", .push "ü\n\nö"]
    let line := (serveAll calls {}).2
    let texts := ["x", "\n", "", "\ny"]
    let texts' := ["", "x\n\n", "y"]
    serveAll calls {} =
        ([none, some "Enter: é\nb\n", some "c", some "", none, some "ü\n\n"], { pending := "ö" }) ∧
      handed (serveAll calls {}).1 ++ line.pending = "Enter: é\nb\ncü\n\nö" ∧
      String.join texts = String.join texts' ∧
      handed (serveAll (texts.map .push) line).1 = handed (serveAll (texts'.map .push) line).1 := by
  intro calls line texts texts'
  have same : String.join texts = String.join texts' := by decide +kernel
  obtain ⟨whole, _, _, _, divided⟩ := serveAll_exact calls
  refine ⟨?_, whole.trans (by decide +kernel), same, (divided texts texts' same).1⟩
  simp [calls, serveAll, serve, push, take, splitLines]

end PartialLine

end StackMachine
