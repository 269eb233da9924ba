import StackMachine.Proofs.Machine.Faults
import StackMachine.Proofs.Session.Consoles

/-!
# Sessions line by line

`Session.Replays` describes a session without a terminal: lines are taken from a list, and each is
run on a buffer that holds the lines behind it. A session on a terminal that offers these lines
takes, reports and shows what the description says, and it ends if and only if the description
does.
-/

namespace StackMachine

open StackMachine.Action Call

/-! ## Runs on buffers -/

namespace Machine

def Ends {γ : Type} [Console γ] (machine : Machine γ) (ending : Ending) (after : Machine γ)
    (calls : List Call) : Prop :=
  ∃ fuel, machine.run fuel = some (ending, after) ∧ machine.calls fuel = some calls

variable {machine after : Machine Buffer} {ending : Ending} {calls : List Call}

theorem alike_recorded (machine : Machine Buffer) :
    Alike
      (fun (r : Recorded Buffer) b =>
        r.console = b ∧ machine.console.lines = answers r.calls ++ b.lines)
      machine.recorded machine :=
  ⟨rfl, rfl, rfl, rfl, rfl, rfl, rfl⟩

theorem calls_of_recorded {fuel : Nat} {left : Machine (Recorded Buffer)}
    (recorded : machine.recorded.run fuel = some (ending, left)) :
    machine.calls fuel = some left.console.calls := by
  rw [calls, outcome, recorded]
  rfl

theorem ends_of_recorded {fuel : Nat} {left : Machine (Recorded Buffer)}
    (recorded : machine.recorded.run fuel = some (ending, left)) :
    ∃ after, machine.Ends ending after left.console.calls ∧
      left.console.console = after.console := by
  have same := run_alike (Recorded.alike_answers machine.console.lines) fuel machine.alike_recorded
  rw [recorded] at same
  generalize ended : machine.run fuel = right at same
  cases same with
  | some agree =>
    obtain ⟨rfl, alike⟩ := agree
    exact ⟨_, ⟨fuel, ended, calls_of_recorded recorded⟩, alike.console.1⟩

theorem exists_recorded {fuel : Nat} (ended : machine.run fuel = some (ending, after)) :
    ∃ left, machine.recorded.run fuel = some (ending, left) ∧
      left.console.console = after.console ∧
      machine.console.lines = answers left.console.calls ++ after.console.lines := by
  have same := run_alike (Recorded.alike_answers machine.console.lines) fuel machine.alike_recorded
  rw [ended] at same
  generalize machine.recorded.run fuel = left at same
  cases same with
  | some agree =>
    obtain ⟨rfl, alike⟩ := agree
    exact ⟨_, rfl, alike.console⟩

theorem exists_ends {fuel : Nat} (ended : machine.run fuel = some (ending, after)) :
    ∃ calls, machine.Ends ending after calls := by
  obtain ⟨left, recorded, _⟩ := exists_recorded ended
  exact ⟨_, fuel, ended, calls_of_recorded recorded⟩

theorem Ends.recorded (ends : machine.Ends ending after calls) :
    ∃ fuel left, machine.recorded.run fuel = some (ending, left) ∧
      left.console = { console := after.console, calls } ∧
      machine.console.lines = answers calls ++ after.console.lines := by
  obtain ⟨fuel, ended, called⟩ := ends
  obtain ⟨left, recorded, same, lines⟩ := exists_recorded ended
  rw [calls_of_recorded recorded] at called
  obtain rfl := Option.some.inj called
  refine ⟨fuel, left, recorded, ?_, lines⟩
  rw [← same]

theorem Ends.lines_eq (ends : machine.Ends ending after calls) :
    machine.console.lines = answers calls ++ after.console.lines := by
  obtain ⟨_, _, _, _, lines⟩ := ends.recorded
  exact lines

theorem Ends.uninterrupted (ends : machine.Ends ending after calls) :
    ending ≠ .failed .interrupted := by
  rintro rfl
  obtain ⟨fuel, ended, _⟩ := ends
  exact fault_of_run Buffer.faultsWithin (by simp) ended rfl

end Machine

def Ending.faults : Ending → List Fault
  | .failed fault => [fault]
  | _ => []

namespace Session

/-! ## Transcripts -/

structure Transcript where
  /-- The lines that were used, as source or as the answer to a read. -/
  taken : List String := []
  faults : List Fault := []
  shown : String := ""
  /-- The lines behind the end of the session. -/
  left : List String := []

namespace Transcript

def andThen (first rest : Transcript) : Transcript :=
  { taken := first.taken ++ rest.taken
    faults := first.faults ++ rest.faults
    shown := first.shown ++ rest.shown
    left := rest.left }

def ofRun (line : String) (ending : Ending) (after : Buffer) (calls : List Call) : Transcript :=
  { taken := line :: answers calls
    faults := ending.faults
    shown := prompt ++ (after.output ++ completing (sinceRead calls))
    left := after.lines }

end Transcript

/-- How a session goes that has these lines before it. A run takes the lines that it reads out of
the lines behind its own, and the next line is the first one that it left. -/
inductive Replays (config : Config) : List String → Transcript → Prop
  | closed : Replays config [] { shown := prompt }
  | blank {line : String} {rest : List String} {later : Transcript} :
      Text.isBlank line = true → Replays config rest later →
      Replays config (line :: rest) (.andThen { taken := [line], shown := prompt } later)
  | refused {line : String} {rest : List String} {fault : Fault} {later : Transcript} :
      Text.isBlank line = false → config.load line = .error fault → Replays config rest later →
      Replays config (line :: rest)
        (.andThen { taken := [line], faults := [fault], shown := prompt } later)
  | ran {line : String} {rest : List String} {program : Program} {ending : Ending}
      {after : Machine Buffer} {calls : List Call} {later : Transcript} :
      Text.isBlank line = false → config.load line = .ok program →
      (Machine.start config program ({ lines := rest } : Buffer)).Ends ending after calls →
      ending ≠ .exited → Replays config after.console.lines later →
      Replays config (line :: rest) (.andThen (.ofRun line ending after.console calls) later)
  | exited {line : String} {rest : List String} {program : Program} {after : Machine Buffer}
      {calls : List Call} :
      Text.isBlank line = false → config.load line = .ok program →
      (Machine.start config program ({ lines := rest } : Buffer)).Ends .exited after calls →
      Replays config (line :: rest) (.ofRun line .exited after.console calls)

variable {config : Config} {lines : List String} {transcript : Transcript}

theorem Replays.lines_eq (replays : Replays config lines transcript) :
    lines = transcript.taken ++ transcript.left := by
  induction replays with
  | closed => rfl
  | blank _ _ ih => simp [Transcript.andThen, ← ih]
  | refused _ _ _ ih => simp [Transcript.andThen, ← ih]
  | ran _ _ ends _ _ ih =>
    simpa [Transcript.andThen, Transcript.ofRun, Machine.start, ← ih] using ends.lines_eq
  | exited _ _ ends => simpa [Transcript.ofRun, Machine.start] using ends.lines_eq

theorem exists_replays (ends : ∀ line rest program, line :: rest <:+ lines →
      config.load line = .ok program →
      ∃ fuel result, (Machine.start config program ({ lines := rest } : Buffer)).run fuel =
        some result) :
    ∃ transcript, Replays config lines transcript := by
  -- Not along the list, since a run may take any number of lines.
  induction size : lines.length using Nat.strongRecOn generalizing lines with
  | ind n ih =>
    have behind {left : List String} (shorter : left.length < n) (suffix : left <:+ lines) :
        ∃ transcript, Replays config left transcript :=
      ih left.length shorter
        (fun line rest program part => ends line rest program (part.trans suffix)) rfl
    cases lines with
    | nil => exact ⟨_, .closed⟩
    | cons line rest =>
      have shorter : rest.length < n := by
        rw [← size]
        exact Nat.lt_succ_self _
      obtain ⟨later, replays⟩ := behind shorter (List.suffix_cons line rest)
      by_cases blank : Text.isBlank line = true
      · exact ⟨_, .blank blank replays⟩
      have visible : Text.isBlank line = false := by simpa using blank
      cases loaded : config.load line with
      | error fault => exact ⟨_, .refused visible loaded replays⟩
      | ok program =>
        obtain ⟨fuel, ⟨ending, after⟩, ended⟩ := ends line rest program List.suffix_rfl loaded
        obtain ⟨calls, ends⟩ := Machine.exists_ends ended
        by_cases exits : ending = .exited
        · subst exits
          exact ⟨_, .exited visible loaded ends⟩
        have unread : after.console.lines <:+ rest := ⟨answers calls, ends.lines_eq.symm⟩
        obtain ⟨later, replays⟩ := behind (Nat.lt_of_le_of_lt unread.length_le shorter)
          (unread.trans (List.suffix_cons line rest))
        exact ⟨_, .ran visible loaded ends exits replays⟩

/-! ## One line -/

variable {editor : LineEditor} {shows : Option String → Bool}
  {edit : List Char → Option (List Char)} {line : String} {program : Program}
  {terminal : Terminal} {rest : List String}

theorem run_alike_buffer (reads : editor.ReadsDirectly shows edit)
    (offers : Terminal.Offers edit terminal rest) (config : Config) (program : Program)
    (fuel : Nat) :
    Option.Rel
      (fun left right => left.1 = right.1 ∧
        Machine.Alike (SessionConsole.Mirrors shows edit terminal) left.2 right.2)
      ((Machine.start config program ({ terminal } : SessionConsole editor)).run fuel)
      ((Machine.start config program ({ lines := rest } : Buffer)).recorded.run fuel) := by
  have mirrors : SessionConsole.Mirrors shows edit terminal
      ({ terminal } : SessionConsole editor) { console := { lines := rest } } :=
    ⟨offers, rfl, rfl, fun _ => rfl⟩
  exact Machine.run_alike (SessionConsole.alike_mirrors reads terminal) fuel
    ⟨rfl, rfl, rfl, rfl, rfl, mirrors⟩

theorem evaluate_of_ends (reads : editor.ReadsDirectly shows edit)
    (offers : Terminal.Offers edit terminal rest) (loaded : config.load line = .ok program)
    {ending : Ending} {after : Machine Buffer} {calls : List Call}
    (ends : (Machine.start config program ({ lines := rest } : Buffer)).Ends ending after calls) :
    ∃ fuel behind,
      (∀ more, fuel ≤ more →
        evaluate editor config more line terminal = some (.ofEnding ending, behind)) ∧
      Terminal.Advances shows edit terminal
        (after.console.output ++ completing (sinceRead calls)) after.console.lines behind := by
  obtain ⟨fuel, left, ended, console, _⟩ := ends.recorded
  have same := run_alike_buffer reads offers config program fuel
  rw [ended] at same
  generalize plain :
    (Machine.start config program ({ terminal } : SessionConsole editor)).run fuel = result at same
  cases same with
  | some agree =>
    rename_i result
    obtain ⟨ending', machine⟩ := result
    obtain ⟨rfl, alike⟩ := agree
    have advances := alike.console.finish
    rw [console] at advances
    refine ⟨fuel, _, fun more le => ?_, advances⟩
    simp only [evaluate, loaded, Machine.run_mono le plain]

theorem ends_of_evaluate (reads : editor.ReadsDirectly shows edit)
    (offers : Terminal.Offers edit terminal rest) (loaded : config.load line = .ok program)
    {fuel : Nat} {outcome : Outcome} {behind : Terminal}
    (evaluated : evaluate editor config fuel line terminal = some (outcome, behind)) :
    ∃ ending after calls,
      (Machine.start config program ({ lines := rest } : Buffer)).Ends ending after calls ∧
      outcome = .ofEnding ending ∧ Terminal.Offers edit behind after.console.lines := by
  have same := run_alike_buffer reads offers config program fuel
  simp only [evaluate, loaded] at evaluated
  generalize (Machine.start config program ({ terminal } : SessionConsole editor)).run fuel =
    result at same evaluated
  generalize ended :
    (Machine.start config program ({ lines := rest } : Buffer)).recorded.run fuel = right at same
  cases same with
  | none => cases evaluated
  | some agree =>
    rename_i left right
    obtain ⟨ending, machine⟩ := left
    obtain ⟨ending', recorded⟩ := right
    obtain ⟨rfl, alike⟩ := agree
    obtain ⟨after, ends, console⟩ := Machine.ends_of_recorded ended
    cases evaluated
    have advances := alike.console.finish
    rw [console] at advances
    exact ⟨_, after, _, ends, rfl, advances.offers⟩

/-! ## Whole sessions -/

theorem resume_of_evaluate {fuel : Nat} {session : Session} {asked behind : Terminal}
    (read : (Terminal.ask editor prompt).run session.terminal = (.ok line, asked))
    (visible : Text.isBlank line = false) {ending : Ending} (stays : ending ≠ .exited)
    (uninterrupted : ending ≠ .failed .interrupted)
    (evaluated : evaluate editor config fuel line asked = some (.ofEnding ending, behind)) :
    resume editor config (fuel + 1) session =
      resume editor config fuel
        { terminal := behind, reported := session.reported ++ ending.faults } := by
  rw [resume, read]
  simp only [visible, evaluated]
  cases ending with
  | finished => simp [Outcome.ofEnding, Ending.faults]
  | exited => exact absurd rfl stays
  | failed fault =>
    have reports : Outcome.ofEnding (.failed fault) = .report fault := by
      cases fault with
      | interrupted => exact absurd rfl uninterrupted
      | _ => rfl
    simp [reports, Ending.faults]

def ComesTo (editor : LineEditor) (config : Config) (session : Session)
    (result : Closing × Session) : Prop :=
  ∃ fuel, ∀ more, fuel ≤ more → resume editor config more session = some result

theorem comesTo_of_succ {session : Session} {result : Closing × Session} {enough : Nat}
    (last : ∀ n, enough ≤ n → resume editor config (n + 1) session = some result) :
    ComesTo editor config session result := by
  refine ⟨enough + 1, fun more le => ?_⟩
  obtain ⟨n, rfl⟩ : ∃ n, more = n + 1 := ⟨more - 1, by omega⟩
  exact last n (by omega)

theorem ComesTo.of_succ {session next : Session} {result : Closing × Session} {enough : Nat}
    (later : ComesTo editor config next result)
    (step : ∀ n, enough ≤ n → resume editor config (n + 1) session = resume editor config n next) :
    ComesTo editor config session result := by
  obtain ⟨fuel, resumed⟩ := later
  -- One fuel serves for the run of a line and for the prompts behind it.
  apply comesTo_of_succ
  intro n (le : max enough fuel ≤ n)
  rw [step n (by omega), resumed n (by omega)]

theorem comesTo_of_replays (reads : editor.ReadsDirectly shows edit)
    (replays : Replays config lines transcript) (session : Session)
    (offers : Terminal.Offers edit session.terminal lines) :
    ∃ last, ComesTo editor config session (.closed, last) ∧
      last.reported = session.reported ++ transcript.faults ∧
      Terminal.Advances shows edit session.terminal transcript.shown transcript.left
        last.terminal := by
  induction replays generalizing session with
  | closed =>
    obtain ⟨after, asked, advances⟩ := Terminal.run_ask reads offers prompt
    refine ⟨{ session with terminal := after }, ?_, by simp, advances⟩
    apply comesTo_of_succ
    intro n (_ : 0 ≤ n)
    rw [resume, asked, Terminal.nextOf]
  | blank blank _ ih =>
    obtain ⟨after, asked, advances⟩ := Terminal.run_ask reads offers prompt
    obtain ⟨last, later, reported, further⟩ := ih { session with terminal := after } advances.offers
    refine ⟨last, later.of_succ fun n (_ : 0 ≤ n) => ?_, reported, advances.trans further⟩
    rw [resume, asked, Terminal.nextOf]
    simp only [blank, if_true]
  | @refused line rest fault later visible refused _ ih =>
    obtain ⟨after, asked, advances⟩ := Terminal.run_ask reads offers prompt
    obtain ⟨last, later, reported, further⟩ :=
      ih { terminal := after, reported := session.reported ++ [fault] } advances.offers
    refine ⟨last, later.of_succ fun n (_ : 0 ≤ n) => ?_, ?_, advances.trans further⟩
    · rw [resume, asked, Terminal.nextOf]
      simp only [visible, evaluate, refused]
      rfl
    · rw [reported, List.append_assoc]
      rfl
  | @ran line rest program ending machine calls later visible loaded ends stays _ ih =>
    obtain ⟨after, asked, advances⟩ := Terminal.run_ask reads offers prompt
    obtain ⟨enough, behind, evaluated, shown⟩ := evaluate_of_ends reads advances.offers loaded ends
    obtain ⟨last, later, reported, further⟩ :=
      ih { terminal := behind, reported := session.reported ++ ending.faults } shown.offers
    refine ⟨last, later.of_succ fun n (le : enough ≤ n) => ?_, ?_,
      (advances.trans shown).trans further⟩
    · exact resume_of_evaluate asked visible stays ends.uninterrupted (evaluated n le)
    · rw [reported, List.append_assoc]
      rfl
  | exited visible loaded ends =>
    obtain ⟨after, asked, advances⟩ := Terminal.run_ask reads offers prompt
    obtain ⟨enough, behind, evaluated, shown⟩ := evaluate_of_ends reads advances.offers loaded ends
    refine ⟨{ session with terminal := behind }, comesTo_of_succ fun n (le : enough ≤ n) => ?_,
      ?_, advances.trans shown⟩
    · rw [resume, asked, Terminal.nextOf]
      simp only [visible, evaluated n le, Outcome.ofEnding]
      rfl
    · exact (List.append_nil _).symm

theorem replays_of_resume (reads : editor.ReadsDirectly shows edit) {fuel : Nat}
    {session last : Session} {closing : Closing}
    (offers : Terminal.Offers edit session.terminal lines)
    (ended : resume editor config fuel session = some (closing, last)) :
    ∃ transcript, Replays config lines transcript := by
  induction fuel generalizing session lines with
  | zero => cases ended
  | succ fuel ih =>
    obtain ⟨asked, read, advances⟩ := Terminal.run_ask reads offers prompt
    cases lines with
    | nil => exact ⟨_, .closed⟩
    | cons line rest =>
      by_cases blank : Text.isBlank line = true
      · rw [resume, read, Terminal.nextOf] at ended
        simp only [blank, if_true] at ended
        obtain ⟨later, replays⟩ := ih advances.offers ended
        exact ⟨_, .blank blank replays⟩
      have visible : Text.isBlank line = false := by simpa using blank
      cases loaded : config.load line with
      | error fault =>
        rw [resume, read, Terminal.nextOf] at ended
        simp only [visible, evaluate, loaded] at ended
        obtain ⟨later, replays⟩ := ih advances.offers ended
        exact ⟨_, .refused visible loaded replays⟩
      | ok program =>
        cases evaluated : evaluate editor config fuel line asked with
        | none =>
          rw [resume, read, Terminal.nextOf] at ended
          simp [visible, evaluated] at ended
        | some result =>
          obtain ⟨outcome, behind⟩ := result
          obtain ⟨ending, after, calls, ends, rfl, offers⟩ :=
            ends_of_evaluate reads advances.offers loaded evaluated
          by_cases exits : ending = .exited
          · subst exits
            exact ⟨_, .exited visible loaded ends⟩
          · rw [resume_of_evaluate read visible exits ends.uninterrupted evaluated] at ended
            obtain ⟨later, replays⟩ := ih offers ended
            exact ⟨_, .ran visible loaded ends exits replays⟩

end Session

end StackMachine
