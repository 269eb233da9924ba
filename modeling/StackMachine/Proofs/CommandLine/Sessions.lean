import StackMachine.CommandLine.Basic
import StackMachine.Proofs.Session.Replay

/-!
# Sessions from outside

What the program reports of a session, by the description of sessions line by line. The lines are
those that the line editor makes of the input; without backspaces they are the lines of the input.
-/

namespace StackMachine.CommandLine

open Session

variable {facilities : Facilities} {shows : Option String → Bool}
  {edit : List Char → Option (List Char)} {arguments : Arguments} {environment : Environment}
  {text : String} {lines : List String}

def openedTerminal (environment : Environment) : Terminal :=
  { kind := environment.terminalKind, reader := [.chunk environment.input], output := banner }

theorem run_eq_resume (editor : LineEditor) (config : Config) (fuel : Nat)
    (environment : Environment) :
    Session.run editor config fuel
        { kind := environment.terminalKind, reader := [.chunk environment.input] } =
      resume editor config fuel { terminal := openedTerminal environment } := rfl

theorem offers_openedTerminal (utf8 : Reader.text? environment.input = some text)
    (edited : Text.editedLines edit text.toList = some lines) :
    Terminal.Offers edit (openedTerminal environment) lines :=
  ⟨rfl, text.toList, Reader.holds_chunk utf8, edited⟩

theorem runSession_of_replays (reads : facilities.editor.ReadsDirectly shows edit)
    (utf8 : Reader.text? environment.input = some text)
    (edited : Text.editedLines edit text.toList = some lines) {transcript : Transcript}
    (replays : Replays arguments.config lines transcript) :
    ∃ fuel output,
      (∀ more, fuel ≤ more → runSession facilities more arguments environment =
        some
          { exitCode := 0
            output
            errorOutput := String.join (transcript.faults.map errorLine) }) ∧
      (shows environment.terminalKind = true → output = (banner ++ transcript.shown).toUTF8) := by
  obtain ⟨last, ⟨fuel, resumed⟩, reported, advances⟩ :=
    comesTo_of_replays reads replays { terminal := openedTerminal environment }
      (offers_openedTerminal utf8 edited)
  have faults : last.reported = transcript.faults := reported
  refine ⟨fuel, last.terminal.output.toUTF8, fun more le => ?_, fun visible => ?_⟩
  · simp only [runSession]
    rw [run_eq_resume, resumed more le, ← faults]
  · rw [advances.output visible]
    rfl

theorem replays_of_runSession (reads : facilities.editor.ReadsDirectly shows edit)
    (utf8 : Reader.text? environment.input = some text)
    (edited : Text.editedLines edit text.toList = some lines) {fuel : Nat} {report : Report}
    (ended : runSession facilities fuel arguments environment = some report) :
    ∃ transcript, Replays arguments.config lines transcript := by
  simp only [runSession] at ended
  rw [run_eq_resume] at ended
  cases resumed : resume facilities.editor arguments.config fuel
      { terminal := openedTerminal environment } with
  | none =>
    rw [resumed] at ended
    cases ended
  | some result => exact replays_of_resume reads (offers_openedTerminal utf8 edited) resumed

/-- What a session takes, reports and shows is what is described for the lines of its input, as they
are edited. It ends only if there is a description, and there is one if every run ends. -/
theorem runSession_replays (reads : facilities.editor.ReadsDirectly shows edit)
    (utf8 : Reader.text? environment.input = some text) :
    (Text.backspace ∉ text.toList →
      Text.editedLines edit text.toList = some ((Text.lines text.toList).map String.ofList)) ∧
    ∀ lines, Text.editedLines edit text.toList = some lines →
      (∀ transcript, Replays arguments.config lines transcript →
        lines = transcript.taken ++ transcript.left ∧
        ∃ fuel output,
          (∀ more, fuel ≤ more → runSession facilities more arguments environment =
            some
              { exitCode := 0
                output
                errorOutput := String.join (transcript.faults.map errorLine) }) ∧
          (environment.terminalKind = some "dumb" ∨ shows environment.terminalKind = true →
            output = (banner ++ transcript.shown).toUTF8)) ∧
      (∀ fuel report, runSession facilities fuel arguments environment = some report →
        ∃ transcript, Replays arguments.config lines transcript) ∧
      ((∀ line rest program, line :: rest <:+ lines →
          arguments.config.load line = .ok program →
          ∃ fuel result,
            (Machine.start arguments.config program ({ lines := rest } : Buffer)).run fuel =
              some result) →
        ∃ transcript, Replays arguments.config lines transcript) := by
  refine ⟨Text.editedLines_of_not_mem reads.plain, fun lines edited => ⟨?_, ?_, exists_replays⟩⟩
  · intro transcript replays
    obtain ⟨fuel, output, reported, shown⟩ := runSession_of_replays reads utf8 edited replays
    refine ⟨replays.lines_eq, fuel, output, reported, ?_⟩
    rintro (dumb | visible)
    · exact shown (by rw [dumb, reads.dumb])
    · exact shown visible
  · exact fun fuel report ended => replays_of_runSession reads utf8 edited ended

theorem runSession_replays_prompt :
    let environment : Environment :=
      { fileBytes := fun _ => .error ""
        input := Text.bytes "'a' print read\nbc\x08\ndrop\nexit\nz\n".toList
        terminalKind := some "dumb" }
    ∃ fuel, ∀ more, fuel ≤ more →
      runSession .standard more {} environment =
        some
          { exitCode := 0
            output := "Hit CTRL+D or type \"exit\" to quit.\n> a> > ".toUTF8
            errorOutput := "error: stack underflow\n" } := by
  intro environment
  let asking := Program.ofList [.literal (.text "a"), .op .print, .op .read]
  let dropping := Program.ofList [.op .drop]
  let leaving := Program.ofList [.op .exit]
  have asked : (Machine.start {} asking ({ lines := ["b", "drop", "exit", "z"] } : Buffer)).Ends
      .finished
      { program := asking, console := { lines := ["drop", "exit", "z"], output := "a" },
        stack := [.text "b"], ip := 3, steps := 3 }
      [.write "a" (.ok ()), .read (.ok "b")] := ⟨3, by decide +kernel, by decide +kernel⟩
  have dropped : (Machine.start {} dropping ({ lines := ["exit", "z"] } : Buffer)).Ends
      (.failed .stackUnderflow)
      { program := dropping, console := { lines := ["exit", "z"] }, ip := 1, steps := 1 } [] :=
    ⟨1, by decide +kernel, by decide +kernel⟩
  have left : (Machine.start {} leaving ({ lines := ["z"] } : Buffer)).Ends .exited
      { program := leaving, console := { lines := ["z"] }, ip := 1, steps := 1 } [] :=
    ⟨1, by decide +kernel, by decide +kernel⟩
  have replays : Replays (Arguments.config {}) ["'a' print read", "b", "drop", "exit", "z"] _ :=
    .ran (by decide) (by decide +kernel) asked (by decide)
      (.ran (by decide) (by decide +kernel) dropped (by decide)
        (.exited (by decide) (by decide +kernel) left))
  have utf8 : Reader.text? environment.input =
      some "'a' print read\nbc\x08\ndrop\nexit\nz\n" := Reader.text?_eq_some_iff.mpr rfl
  have edited : Text.editedLines Text.applyBackspaces
      "'a' print read\nbc\x08\ndrop\nexit\nz\n".toList =
      some ["'a' print read", "b", "drop", "exit", "z"] := by decide +kernel
  have reads : Facilities.standard.editor.ReadsDirectly LineEditor.showsPrompt
      Text.applyBackspaces := LineEditor.readsDirectly_direct
  obtain ⟨_, sessions⟩ := runSession_replays reads utf8
  obtain ⟨_, fuel, output, reported, shown⟩ := (sessions _ edited).1 _ replays
  obtain rfl := shown (.inl rfl)
  exact ⟨fuel, reported⟩

/-- A line is run as it stands with its backspaces carried out, and not as it was sent. -/
theorem runSession_of_backspace :
    let environment : Environment :=
      { fileBytes := fun _ => .error ""
        input := Text.bytes "'é\x08e' println\n".toList
        terminalKind := some "dumb" }
    Reader.text? environment.input = some "'é\x08e' println\n" ∧
      (Text.lines "'é\x08e' println\n".toList).map String.ofList = ["'é\x08e' println"] ∧
      Replays {} ["'é\x08e' println"]
        { taken := ["'é\x08e' println"], shown := "> é\x08e\n> " } ∧
      ∃ fuel, ∀ more, fuel ≤ more → ∃ report,
        runSession .standard more {} environment = some report ∧
          report.output ≠ (banner ++ "> é\x08e\n> ").toUTF8 := by
  intro environment
  let sent := Program.ofList [.literal (.text "é\x08e"), .op .println]
  let kept := Program.ofList [.literal (.text "e"), .op .println]
  have printed : (Machine.start {} sent ({} : Buffer)).Ends .finished
      { program := sent, console := { output := "é\x08e\n" }, ip := 2, steps := 2 }
      [.write "é\x08e\n" (.ok ())] := ⟨2, by decide +kernel, by decide +kernel⟩
  have printed' : (Machine.start {} kept ({} : Buffer)).Ends .finished
      { program := kept, console := { output := "e\n" }, ip := 2, steps := 2 }
      [.write "e\n" (.ok ())] := ⟨2, by decide +kernel, by decide +kernel⟩
  have asSent : Replays {} ["'é\x08e' println"] _ :=
    .ran (by decide) (by decide +kernel) printed (by decide) .closed
  have asKept : Replays (Arguments.config {}) ["'e' println"] _ :=
    .ran (by decide) (by decide +kernel) printed' (by decide) .closed
  have utf8 : Reader.text? environment.input = some "'é\x08e' println\n" :=
    Reader.text?_eq_some_iff.mpr rfl
  have edited : Text.editedLines Text.applyBackspaces "'é\x08e' println\n".toList =
      some ["'e' println"] := by decide +kernel
  have other : banner ++ "> e\n> " ≠ banner ++ "> é\x08e\n> " := by decide
  have reads : Facilities.standard.editor.ReadsDirectly LineEditor.showsPrompt
      Text.applyBackspaces := LineEditor.readsDirectly_direct
  obtain ⟨fuel, output, reported, shown⟩ := runSession_of_replays reads utf8 edited asKept
  obtain rfl := shown reads.dumb
  refine ⟨utf8, by decide +kernel, asSent, fuel, fun more le => ⟨_, reported more le, ?_⟩⟩
  exact fun same => other (String.toByteArray_inj.mp same)

end StackMachine.CommandLine
