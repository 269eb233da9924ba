import StackMachine.Console.Buffer
import StackMachine.Proofs.Machine.Consoles
import StackMachine.Proofs.Session.Editing
import StackMachine.Proofs.Session.PartialLines
import StackMachine.Session.Basic

/-!
# Session consoles and buffers

A run in a session is the run on a buffer that holds the lines that are left of the input. The
terminal hands out these lines, and what it shows together with what the console holds back is what
the buffer took, as far as prompts are shown. Behind the run the text is completed if the run left
a line open since it last read one.
-/

namespace StackMachine

open StackMachine.Action

variable {editor : LineEditor} {shows : Option String → Bool}
  {edit : List Char → Option (List Char)}

/-! ## Terminals -/

namespace Terminal

structure Offers (edit : List Char → Option (List Char)) (terminal : Terminal)
    (lines : List String) : Prop where
  unjammed : terminal.isJammed = false
  input : ∃ text, terminal.reader.Holds text ∧ Text.editedLines edit text = some lines

theorem Offers.write {terminal : Terminal} {lines : List String} (offers : Offers edit terminal lines)
    (text : String) : Offers edit (terminal.write text) lines where
  unjammed := offers.unjammed
  input := offers.input

/-- What a terminal comes to that showed a text, if it shows any, and still offers these lines. -/
structure Advances (shows : Option String → Bool) (edit : List Char → Option (List Char))
    (before : Terminal) (shown : String) (lines : List String) (after : Terminal) : Prop where
  offers : Offers edit after lines
  kind_eq : after.kind = before.kind
  output : shows before.kind = true → after.output = before.output ++ shown

theorem Advances.trans {first second third : Terminal} {shown more : String}
    {lines left : List String} (step : Advances shows edit first shown lines second)
    (rest : Advances shows edit second more left third) :
    Advances shows edit first (shown ++ more) left third where
  offers := rest.offers
  kind_eq := rest.kind_eq.trans step.kind_eq
  output visible := by
    rw [rest.output (by rwa [step.kind_eq]), step.output visible, String.append_assoc]

def nextOf : List String → Except LineFailure String
  | [] => .error .endOfInput
  | line :: _ => .ok line

theorem run_ask_of_ne_jammed {terminal after : Terminal} {prompt : String}
    {answer : Except LineFailure String} (unjammed : terminal.isJammed = false)
    (read : (editor.readLine prompt).run terminal = (answer, after))
    (stays : answer ≠ .error .jammed) : (ask editor prompt).run terminal = (answer, after) := by
  show ask editor prompt terminal = _
  rw [ask, unjammed, read]
  split <;> simp_all

theorem advances_prompted {terminal : Terminal} {prompt : String} {reader : Reader}
    {lines : List String} (unjammed : terminal.isJammed = false)
    (left : ∃ text, reader.Holds text ∧ Text.editedLines edit text = some lines) :
    Advances shows edit terminal prompt lines
      { terminal.prompted shows prompt with reader } := by
  rw [prompted]
  split
  · exact ⟨⟨unjammed, left⟩, rfl, fun _ => rfl⟩
  · rename_i hidden
    exact ⟨⟨unjammed, left⟩, rfl, fun visible => absurd visible hidden⟩

theorem run_ask (reads : editor.ReadsDirectly shows edit) {terminal : Terminal}
    {lines : List String} (offers : Offers edit terminal lines) (prompt : String) :
    ∃ after, (ask editor prompt).run terminal = (nextOf lines, after) ∧
      Advances shows edit terminal prompt lines.tail after := by
  obtain ⟨unjammed, text, holds, edited⟩ := offers
  cases lines with
  | nil =>
    obtain rfl := Text.eq_nil_of_editedLines edited
    obtain ⟨reader, read, left⟩ := reads.endOfInput prompt holds
    exact ⟨_, run_ask_of_ne_jammed unjammed read nofun,
      advances_prompted unjammed ⟨[], left, edited⟩⟩
  | cons line rest =>
    obtain ⟨unread, applied, behind⟩ := Text.editedLines_eq_cons edited
    obtain ⟨cs, applied', rfl⟩ := Option.map_eq_some_iff.mp applied
    obtain ⟨reader, read, left⟩ := reads.line prompt holds unread applied'
    exact ⟨_, run_ask_of_ne_jammed unjammed read nofun,
      advances_prompted unjammed ⟨_, left, behind⟩⟩

end Terminal

/-! ## Calls -/

deriving instance DecidableEq for Call

namespace Call

def answers (calls : List Call) : List String :=
  calls.filterMap fun
    | .read (.ok line) => some line
    | _ => none

def sinceRead (calls : List Call) : String :=
  calls.foldl (fun written call =>
    match call with
    | .read _ => ""
    | .write text _ => written ++ text) ""

@[simp] theorem sinceRead_read (calls : List Call) (answer : Except Fault String) :
    sinceRead (calls ++ [.read answer]) = "" := by
  rw [sinceRead, List.foldl_append]
  rfl

@[simp] theorem sinceRead_write (calls : List Call) (text : String) (answer : Except Fault Unit) :
    sinceRead (calls ++ [.write text answer]) = sinceRead calls ++ text := by
  rw [sinceRead, List.foldl_append]
  rfl

end Call

open Call

namespace Recorded

variable {γ : Type} [Console γ]

theorem run_readLine (r : Recorded γ) :
    (Console.readLine : Action Fault (Recorded γ) String).run r =
      ((Console.readLine.run r.console).1,
        { console := (Console.readLine.run r.console).2
          calls := r.calls ++ [.read (Console.readLine.run r.console).1] }) := rfl

theorem run_write (text : String) (r : Recorded γ) :
    (Console.write text : Action Fault (Recorded γ) Unit).run r =
      (((Console.write text).run r.console).1,
        { console := ((Console.write text).run r.console).2
          calls := r.calls ++ [.write text ((Console.write text).run r.console).1] }) := rfl

theorem alike_answers (lines : List String) :
    Console.Alike fun (r : Recorded Buffer) b =>
      r.console = b ∧ lines = answers r.calls ++ b.lines where
  readLine := by
    rintro ⟨⟨left, output⟩, calls⟩ _ ⟨rfl, taken⟩
    refine ⟨rfl, rfl, ?_⟩
    rw [run_readLine]
    cases left with
    | nil => simp [taken, answers, Console.readLine]
    | cons line left => simp [taken, answers, Console.readLine]
  write text := by
    rintro ⟨⟨left, output⟩, calls⟩ _ ⟨rfl, taken⟩
    refine ⟨rfl, rfl, ?_⟩
    rw [run_write]
    simp [taken, answers, Console.write]

end Recorded

/-! ## Consoles -/

namespace SessionConsole

/-- Since the terminal `before`, the console has handed out and taken what the buffer has. -/
structure Mirrors (shows : Option String → Bool) (edit : List Char → Option (List Char))
    (before : Terminal) (console : SessionConsole editor) (r : Recorded Buffer) : Prop where
  offers : Terminal.Offers edit console.terminal r.console.lines
  pending : console.line.pending.toList = (splitLines (sinceRead r.calls).toList).2
  kind_eq : console.terminal.kind = before.kind
  output : shows before.kind = true →
    console.terminal.output ++ console.line.pending = before.output ++ r.console.output

theorem run_readLine (console : SessionConsole editor) :
    (Console.readLine : Action Fault (SessionConsole editor) String).run console =
      (((Terminal.ask editor console.line.pending).run console.terminal).1.mapError
          LineFailure.fault,
        { terminal := ((Terminal.ask editor console.line.pending).run console.terminal).2 }) := rfl

theorem run_write (text : String) (console : SessionConsole editor) :
    (Console.write text : Action Fault (SessionConsole editor) Unit).run console =
      (.ok (),
        { terminal := console.terminal.write ((console.line.push text).1.getD "")
          line := (console.line.push text).2 }) := by
  simp only [Console.write, write, run_modify]
  rcases console.line.push text with ⟨_ | complete, line⟩
  · simp [Terminal.write]
  · rfl

theorem alike_mirrors (reads : editor.ReadsDirectly shows edit) (before : Terminal) :
    Console.Alike (@Mirrors editor shows edit before) where
  readLine := by
    rintro ⟨terminal, line⟩ ⟨⟨lines, output⟩, calls⟩ ⟨offers, _, kind_eq, written⟩
    obtain ⟨after, asked, advances⟩ := Terminal.run_ask reads offers line.pending
    have shown (visible : shows before.kind = true) : after.output = before.output ++ output := by
      rw [advances.output (by rwa [kind_eq])]
      exact written visible
    have kept := advances.kind_eq.trans kind_eq
    have nothing : "".toList = (splitLines "".toList).2 := rfl
    rw [run_readLine, Recorded.run_readLine, asked]
    cases lines with
    | nil =>
      refine ⟨rfl, advances.offers, by simpa using nothing, kept, ?_⟩
      simpa [Console.readLine] using shown
    | cons next lines =>
      refine ⟨rfl, advances.offers, by simpa using nothing, kept, ?_⟩
      simpa [Console.readLine] using shown
  write text := by
    rintro ⟨terminal, line⟩ ⟨⟨lines, output⟩, calls⟩ mirrors
    have held := (line.push_eq text).2
    have whole := line.push_append_pending text
    rw [run_write, Recorded.run_write]
    refine ⟨rfl, mirrors.offers.write _, ?_, mirrors.kind_eq, fun shown => ?_⟩
    · have pending : line.pending.toList = (splitLines (sinceRead calls).toList).2 :=
        mirrors.pending
      rw [sinceRead_write, held, String.toList_ofList, String.toList_append, String.toList_append,
        pending, splitLines_held_append]
    · have shown := mirrors.output shown
      simp only [Terminal.write, Console.write, Buffer.run_write] at shown ⊢
      rw [String.append_assoc, whole, ← String.append_assoc, shown, String.append_assoc]

theorem Mirrors.finish {before : Terminal} {console : SessionConsole editor}
    {r : Recorded Buffer} (mirrors : Mirrors shows edit before console r) :
    Terminal.Advances shows edit before (r.console.output ++ completing (sinceRead r.calls))
      r.console.lines console.finish := by
  obtain ⟨offers, pending, kind_eq, output⟩ := mirrors
  rw [completing_eq, ← pending, SessionConsole.finish]
  by_cases empty : console.line.pending = ""
  · simp only [empty]
    refine ⟨offers, kind_eq, fun shown => ?_⟩
    simpa [empty] using output shown
  · have held : console.line.pending.toList ≠ [] := by simpa using empty
    simp only [String.isEmpty_iff, empty, held, if_false]
    refine ⟨offers.write _, kind_eq, fun shown => ?_⟩
    rw [Terminal.write, ← String.append_assoc, ← String.append_assoc, output shown]

end SessionConsole

end StackMachine
