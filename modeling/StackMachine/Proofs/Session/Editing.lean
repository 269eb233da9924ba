import StackMachine.Proofs.Console.Reading
import StackMachine.Session.DirectEditor

/-!
# Lines as they are edited

What a session relies on in its line editor. The editor shows the prompt or does not, takes one line
off the input and hands it over without its end; a line with backspaces is edited, in a way that the
line alone decides.
-/

namespace StackMachine

open StackMachine.Action

variable {shows : Option String → Bool} {edit : List Char → Option (List Char)}

def Terminal.prompted (terminal : Terminal) (shows : Option String → Bool) (prompt : String) :
    Terminal :=
  if shows terminal.kind then terminal.write prompt else terminal

namespace LineEditor

/-- What an editor does with input that is not typed. Nothing is said of a line that is not to be
edited, of input that is not text and of devices that fail. -/
structure ReadsDirectly (editor : LineEditor) (shows : Option String → Bool)
    (edit : List Char → Option (List Char)) : Prop where
  line {terminal : Terminal} {text line : List Char} (prompt : String) :
    terminal.reader.Holds text → text ≠ [] → edit (Text.firstLine text) = some line →
    ∃ reader : Reader,
      (editor.readLine prompt).run terminal =
          (.ok (String.ofList line), { terminal.prompted shows prompt with reader }) ∧
        reader.Holds (Text.behindLine text)
  endOfInput {terminal : Terminal} (prompt : String) : terminal.reader.Holds [] →
    ∃ reader : Reader,
      (editor.readLine prompt).run terminal =
          (.error .endOfInput, { terminal.prompted shows prompt with reader }) ∧
        reader.Holds []
  plain {line : List Char} : Text.backspace ∉ line → edit line = some line
  dumb : shows (some "dumb") = true

theorem readsDirectly_direct : direct.ReadsDirectly showsPrompt Text.applyBackspaces where
  line {terminal _ _} prompt holds unread edited := by
    obtain ⟨reader, taken, left⟩ := Reader.run_takeText holds
    refine ⟨reader, ?_, left⟩
    have nonempty := Text.takeLine_ne_nil unread
    rw [Text.firstLine] at edited
    cases shows : showsPrompt terminal.kind <;>
      simp [direct, Terminal.prompted, Terminal.write, run_bind, taken, shows, nonempty, edited]
  endOfInput {terminal} prompt holds := by
    obtain ⟨reader, taken, left⟩ := Reader.run_takeText holds
    refine ⟨reader, ?_, left⟩
    have nothing : Text.takeLine [] = [] := rfl
    cases shows : showsPrompt terminal.kind <;>
      simp [direct, Terminal.prompted, Terminal.write, run_bind, taken, shows, nothing]
  plain := Text.applyBackspaces_of_not_mem
  dumb := by decide +kernel

end LineEditor

/-! ## The lines of a text -/

namespace Text

/-- The lines of a text as they are edited, or nothing if one of them is not to be edited. -/
def editedLines (edit : List Char → Option (List Char)) (text : List Char) :
    Option (List String) :=
  ((lines text).mapM edit).map (·.map String.ofList)

theorem editedLines_nil : editedLines edit [] = some [] := by
  simp [editedLines, lines_nil]

theorem editedLines_of_ne_nil {text : List Char} (unread : text ≠ []) :
    editedLines edit text =
      match edit (firstLine text) with
      | none => none
      | some line => (editedLines edit (behindLine text)).map (String.ofList line :: ·) := by
  rw [editedLines, editedLines, lines_of_ne_nil unread, List.mapM_cons]
  cases edit (firstLine text) with
  | none => rfl
  | some line => cases (lines (behindLine text)).mapM edit <;> rfl

theorem eq_nil_of_editedLines {text : List Char} (edited : editedLines edit text = some []) :
    text = [] := by
  by_contra unread
  rw [editedLines_of_ne_nil unread] at edited
  cases applied : edit (firstLine text) <;> simp [applied] at edited

theorem editedLines_eq_cons {text : List Char} {line : String} {rest : List String}
    (edited : editedLines edit text = some (line :: rest)) :
    text ≠ [] ∧ (edit (firstLine text)).map String.ofList = some line ∧
      editedLines edit (behindLine text) = some rest := by
  have unread : text ≠ [] := by
    rintro rfl
    simp [editedLines_nil] at edited
  rw [editedLines_of_ne_nil unread] at edited
  cases applied : edit (firstLine text) with
  | none => simp [applied] at edited
  | some cs =>
    obtain ⟨others, left, same⟩ : ∃ others, editedLines edit (behindLine text) = some others ∧
        String.ofList cs :: others = line :: rest := by simpa [applied] using edited
    obtain ⟨rfl, rfl⟩ := List.cons.inj same
    exact ⟨unread, rfl, left⟩

theorem mem_of_mem_firstLine {c : Char} {cs : List Char} (member : c ∈ firstLine cs) : c ∈ cs := by
  obtain ⟨line, first⟩ := exists_isFirstLine cs
  rw [firstLine_eq first] at member
  cases first with
  | whole => exact member
  | lineFeed => exact List.mem_append_left _ member
  | both => exact List.mem_append_left _ member

theorem mem_of_mem_behindLine {c : Char} {cs : List Char} (member : c ∈ behindLine cs) :
    c ∈ cs := by
  rw [← takeLine_append_behindLine cs]
  exact List.mem_append_right _ member

theorem editedLines_of_not_mem
    (plain : ∀ {line : List Char}, backspace ∉ line → edit line = some line) {text : List Char}
    (absent : backspace ∉ text) : editedLines edit text = some ((lines text).map String.ofList) := by
  fun_induction lines text with
  | case1 => exact editedLines_nil
  | case2 text unread ih =>
    have first : backspace ∉ firstLine text := mt mem_of_mem_firstLine absent
    have rest : backspace ∉ behindLine text := mt mem_of_mem_behindLine absent
    rw [editedLines_of_ne_nil unread, plain first, ih rest]
    rfl

end Text

end StackMachine
