import StackMachine.Proofs.Machine.Steps

/-!
# Runs on two consoles

Two consoles that answer alike make no difference to a run. A console that takes down what it is
asked is like the console behind it, so the calls of a run can be read off the same run.
-/

namespace StackMachine

open StackMachine.Action Machine

variable {γ δ : Type} [Console γ] [Console δ]

structure Console.Alike (related : γ → δ → Prop) : Prop where
  readLine : Coupled related (Console.readLine (γ := γ)) (Console.readLine (γ := δ))
  write (text : String) :
    Coupled related (Console.write (γ := γ) text) (Console.write (γ := δ) text)

namespace Machine

omit [Console γ] [Console δ] in
structure Alike (related : γ → δ → Prop) (m : Machine γ) (n : Machine δ) : Prop where
  program_eq : m.program = n.program
  stack_eq : m.stack = n.stack
  ip_eq : m.ip = n.ip
  steps_eq : m.steps = n.steps
  stepLimit_eq : m.stepLimit = n.stepLimit
  console : related m.console n.console

variable {related : γ → δ → Prop}

omit [Console γ] [Console δ] in
theorem Alike.onConsole {α : Type} {left : Action Fault γ α} {right : Action Fault δ α}
    (same : Coupled related left right) :
    Coupled (Alike related) (onConsole left) (onConsole right) := by
  intro m n start
  obtain ⟨answer, kept⟩ := same m.console n.console start.console
  exact ⟨answer, { start with console := kept }⟩

theorem lockstep_alike (alike : Console.Alike related) :
    Coupling.Lockstep (Alike related) where
  stack_eq start := start.stack_eq
  withStack _ start := { start with stack_eq := rfl }
  readLine := Alike.onConsole alike.readLine
  write text := Alike.onConsole (alike.write text)
  size_eq start := congrArg Program.size start.program_eq
  withIp _ start := { start with ip_eq := rfl }

omit [Console γ] [Console δ] in
theorem coupled_count : Coupled (Alike related) count count := by
  refine (coupled_modify fun m n start => ?_).bind fun _ => coupled_get_bind fun m n start => ?_
  · exact { start with steps_eq := congrArg (· + 1) start.steps_eq }
  · rw [start.stepLimit_eq, start.steps_eq]
    cases n.stepLimit with
    | none => exact ⟨rfl, start⟩
    | some limit =>
      by_cases reached : limit < n.steps
      · simp only [if_pos reached]
        exact ⟨rfl, start⟩
      · simp only [if_neg reached]
        exact ⟨rfl, start⟩

theorem coupled_step (alike : Console.Alike related) :
    Coupled (Alike related) step step := by
  refine coupled_get_bind fun m n start => ?_
  rw [start.program_eq, start.ip_eq]
  cases n.program.elements[n.ip]? with
  | none => exact ⟨rfl, start⟩
  | some element =>
    have rest := (lockstep_alike alike).execute element
    refine (coupled_count.bind fun _ => (coupled_modify ?_).bind fun _ => rest) m n start
    intro m n start
    exact { start with ip_eq := congrArg (· + 1) start.ip_eq }

theorem run_alike (alike : Console.Alike related) (fuel : Nat) {m : Machine γ} {n : Machine δ}
    (start : Alike related m n) :
    Option.Rel (fun left right => left.1 = right.1 ∧ Alike related left.2 right.2)
      (run fuel m) (run fuel n) := by
  induction fuel generalizing m n with
  | zero =>
    have sizes : m.program.size = n.program.size := congrArg Program.size start.program_eq
    have places : m.ip = n.ip := start.ip_eq
    by_cases past : m.program.size ≤ m.ip
    · rw [run_of_size_le past, run_of_size_le (by omega)]
      exact .some ⟨rfl, start⟩
    · rw [run_zero_of_lt (by omega), run_zero_of_lt (by omega)]
      exact .none
  | succ fuel ih =>
    have sizes : m.program.size = n.program.size := congrArg Program.size start.program_eq
    have places : m.ip = n.ip := start.ip_eq
    by_cases past : m.program.size ≤ m.ip
    · rw [run_of_size_le past, run_of_size_le (by omega)]
      exact .some ⟨rfl, start⟩
    rw [run_succ_of_lt (by omega), run_succ_of_lt (by omega)]
    obtain ⟨same, kept⟩ := coupled_step alike m n start
    generalize step.run m = left at same kept ⊢
    generalize step.run n = right at same kept ⊢
    obtain ⟨answer, m'⟩ := left
    obtain ⟨answer', n'⟩ := right
    simp only at same kept
    subst same
    rcases answer with fault | flow
    · exact .some ⟨rfl, kept⟩
    cases flow with
    | exit => exact .some ⟨rfl, kept⟩
    | next => exact ih kept

theorem stepTimes_alike (alike : Console.Alike related) (k : Nat) {m : Machine γ} {n : Machine δ}
    (start : Alike related m n) :
    (stepTimes k m).1 = (stepTimes k n).1 ∧
      Alike related (stepTimes k m).2 (stepTimes k n).2 := by
  induction k generalizing m n with
  | zero => exact ⟨rfl, start⟩
  | succ k ih =>
    obtain ⟨same, kept⟩ := coupled_step alike m n start
    obtain ⟨answers, last⟩ := ih kept
    rw [stepTimes_succ, stepTimes_succ, same, answers]
    exact ⟨rfl, last⟩

end Machine

/-! ## Calls -/

inductive Call where
  | read (answer : Except Fault String)
  | write (text : String) (answer : Except Fault Unit)

/-- A console that takes down the calls to the console behind it. -/
structure Recorded (γ : Type) where
  console : γ
  calls : List Call := []

namespace Recorded

def record {α : Type} (action : Action Fault γ α) (call : Except Fault α → Call) :
    Action Fault (Recorded γ) α :=
  fun recorded =>
    let (answer, console) := action.run recorded.console
    (answer, { console, calls := recorded.calls ++ [call answer] })

instance : Console (Recorded γ) where
  readLine := record Console.readLine .read
  write text := record (Console.write text) (.write text)

theorem alike_console : Console.Alike fun (r : Recorded γ) c => r.console = c where
  readLine := by
    rintro r _ rfl
    exact ⟨rfl, rfl⟩
  write text := by
    rintro r _ rfl
    exact ⟨rfl, rfl⟩

end Recorded

namespace Machine

def recorded (machine : Machine γ) : Machine (Recorded γ) :=
  { program := machine.program
    console := { console := machine.console }
    stack := machine.stack
    ip := machine.ip
    steps := machine.steps
    stepLimit := machine.stepLimit }

def calls (fuel : Nat) (machine : Machine γ) : Option (List Call) :=
  (machine.recorded.outcome fuel).map fun (_, w) => w.console.calls

theorem outcome_recorded (fuel : Nat) (machine : Machine γ) :
    (machine.recorded.outcome fuel).map
        (fun (ending, w) => (ending, { stack := w.stack, console := w.console.console })) =
      machine.outcome fuel := by
  have start : Alike (fun (r : Recorded γ) c => r.console = c) machine.recorded machine :=
    ⟨rfl, rfl, rfl, rfl, rfl, rfl⟩
  have same := run_alike Recorded.alike_console fuel start
  unfold outcome
  generalize machine.recorded.run fuel = left at same ⊢
  generalize machine.run fuel = right at same ⊢
  cases same with
  | none => rfl
  | some agree =>
    obtain ⟨ending_eq, alike⟩ := agree
    simp only [Option.map_some, workspace, ending_eq, alike.stack_eq, alike.console]

end Machine

end StackMachine
