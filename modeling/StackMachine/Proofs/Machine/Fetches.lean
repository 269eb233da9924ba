import StackMachine.Console.Buffer
import StackMachine.Proofs.Machine.Uses

/-!
# Fetched elements

A machine looks at its program in two ways: at the element that it is about to execute, and at the
size, against which places and jump targets are checked. Two programs of one size that agree on what
is fetched cannot be told apart, whatever stands in the places that are never reached and however
the jumps are computed.
-/

namespace StackMachine

open StackMachine.Action

namespace Machine

variable {γ : Type}

def withProgram (machine : Machine γ) (program : Program) : Machine γ :=
  { machine with program }

@[simp] theorem program_withProgram (machine : Machine γ) (program : Program) :
    (machine.withProgram program).program = program := rfl

@[simp] theorem ip_withProgram (machine : Machine γ) (program : Program) :
    (machine.withProgram program).ip = machine.ip := rfl

theorem isHalted_withProgram {machine : Machine γ} {other : Program}
    (size_eq : other.size = machine.program.size) :
    (machine.withProgram other).isHalted = machine.isHalted := by
  simp [isHalted, size_eq]

theorem fetch?_withProgram {machine : Machine γ} {other : Program}
    (size_eq : other.size = machine.program.size) :
    (machine.withProgram other).fetch? = machine.fetch? := by
  simp only [fetch?, program_withProgram, size_eq]
  rfl

variable [Console γ]

/-! ## Steps -/

theorem lockstep_withProgram (other : Program) :
    Coupling.Lockstep fun m n : Machine γ =>
      m = n.withProgram other ∧ other.size = n.program.size where
  stack_eq := by
    rintro _ n ⟨rfl, _⟩
    rfl
  withStack := by
    rintro _ n stack ⟨rfl, size_eq⟩
    exact ⟨rfl, size_eq⟩
  readLine := by
    rintro _ n ⟨rfl, size_eq⟩
    exact ⟨rfl, rfl, size_eq⟩
  write text := by
    rintro _ n ⟨rfl, size_eq⟩
    exact ⟨rfl, rfl, size_eq⟩
  size_eq := by
    rintro _ n ⟨rfl, size_eq⟩
    exact size_eq
  withIp := by
    rintro _ n ip ⟨rfl, size_eq⟩
    exact ⟨rfl, size_eq⟩

theorem run_step_withProgram {machine : Machine γ} {other : Program}
    (size_eq : other.size = machine.program.size)
    (same : ∀ i ∈ machine.fetch?, other.elements[i]? = machine.program.elements[i]?) :
    step.run (machine.withProgram other) =
      ((step.run machine).1, (step.run machine).2.withProgram other) := by
  obtain ⟨past, stepped⟩ | ⟨limit, inside, limited, reached, stepped⟩ |
    ⟨element, found, within, stepped⟩ := step_cases machine
  · have past' : (machine.withProgram other).program.size ≤ (machine.withProgram other).ip := by
      simpa [size_eq] using past
    rw [run_step_of_size_le past', stepped]
  · have inside' : (machine.withProgram other).ip < (machine.withProgram other).program.size := by
      simpa [size_eq] using inside
    rw [run_step_of_le inside' limited reached, stepped]
    rfl
  · have inside : machine.ip < machine.program.size := (Array.getElem?_eq_some_iff.mp found).1
    have fetched : machine.fetch? = some machine.ip := if_pos ⟨inside, within⟩
    have found' : (machine.withProgram other).program.elements[(machine.withProgram other).ip]? =
        some element := (same machine.ip fetched).trans found
    obtain ⟨answer, left, _⟩ := (lockstep_withProgram other).execute element
      (machine.begun.withProgram other) machine.begun ⟨rfl, size_eq⟩
    rw [run_step_of_lt found' within, stepped]
    exact Prod.ext answer left

def stepFetches : Nat → Machine γ → List Nat
  | 0, _ => []
  | n + 1, machine => machine.fetch?.toList ++ stepFetches n (step.run machine).2

theorem stepTimes_withProgram {machine : Machine γ} {other : Program}
    (size_eq : other.size = machine.program.size) (n : Nat)
    (same : ∀ i ∈ machine.stepFetches n, other.elements[i]? = machine.program.elements[i]?) :
    (machine.withProgram other).stepTimes n =
        ((machine.stepTimes n).1, (machine.stepTimes n).2.withProgram other) ∧
      (machine.withProgram other).stepFetches n = machine.stepFetches n := by
  induction n generalizing machine with
  | zero => exact ⟨rfl, rfl⟩
  | succ n ih =>
    have kept : (step.run machine).2.program = machine.program := program_step machine
    have stepped := run_step_withProgram size_eq fun i fetched =>
      same i (List.mem_append_left _ (by simpa using fetched))
    obtain ⟨rest, fetches⟩ := ih
      (show other.size = (step.run machine).2.program.size by rwa [kept])
      (fun i member => kept ▸ same i (List.mem_append_right _ member))
    rw [stepTimes_succ, stepped, stepFetches, stepped, fetch?_withProgram size_eq, rest, fetches]
    exact ⟨rfl, rfl⟩

/-! ## Runs -/

theorem run_withProgram {machine : Machine γ} {other : Program}
    (size_eq : other.size = machine.program.size) (fuel : Nat)
    (same : ∀ i ∈ machine.fetches fuel, other.elements[i]? = machine.program.elements[i]?) :
    (machine.withProgram other).run fuel =
      (machine.run fuel).map fun (ending, after) => (ending, after.withProgram other) := by
  induction fuel generalizing machine with
  | zero =>
    rw [run.eq_def, run.eq_def, isHalted_withProgram size_eq]
    split <;> rfl
  | succ fuel ih =>
    rw [run, run, isHalted_withProgram size_eq]
    by_cases halted : machine.isHalted
    · rw [if_pos halted, if_pos halted]
      rfl
    rw [fetches, if_neg halted] at same
    have kept : (step.run machine).2.program = machine.program := program_step machine
    have stepped := run_step_withProgram size_eq fun i fetched =>
      same i (List.mem_append_left _ (by simpa using fetched))
    rw [if_neg halted, if_neg halted, stepped]
    rcases ran : step.run machine with ⟨answer, after⟩
    rw [ran] at same kept
    rcases answer with fault | flow
    · rfl
    cases flow with
    | exit => rfl
    | next =>
      exact ih (show other.size = after.program.size by rwa [kept])
        fun i member => kept ▸ same i (List.mem_append_right _ member)

/-- Steps and runs do not depend on what they do not fetch. Another program of the same size that
holds the same elements in the fetched places gives the same answers and leaves the same stack,
place, count and console, and it is fetched from in the same places. -/
theorem depends_on_fetched (machine : Machine γ) (other : Program)
    (size_eq : other.size = machine.program.size) :
    let changed := { machine with program := other }
    (∀ n, (∀ i ∈ machine.stepFetches n, other.elements[i]? = machine.program.elements[i]?) →
      changed.stepTimes n =
          ((machine.stepTimes n).1, { (machine.stepTimes n).2 with program := other }) ∧
        changed.stepFetches n = machine.stepFetches n) ∧
    ∀ fuel, (∀ i ∈ machine.fetches fuel, other.elements[i]? = machine.program.elements[i]?) →
      changed.run fuel =
        (machine.run fuel).map fun (ending, after) =>
          (ending, { after with program := other }) := by
  intro changed
  exact ⟨fun n same => stepTimes_withProgram size_eq n same,
    fun fuel same => run_withProgram size_eq fuel same⟩

theorem depends_on_fetched_computed :
    let program := Program.ofList
      [.op .read, .op .castInt, .op .jump, .word "frob", .op .drop, .literal (.int 7), .op .exit]
    let other := Program.ofList
      [.op .read, .op .castInt, .op .jump, .op .listing, .op .drop, .literal (.int 7), .op .exit]
    let machine : Machine Buffer := { program, console := { lines := [" 4"] }, stepLimit := some 6 }
    let direct : Machine Buffer := { machine with console := { lines := ["5"] } }
    other.size = program.size ∧ machine.stepFetches 7 = [0, 1, 2, 4, 5, 6] ∧
      ({ machine with program := other } : Machine Buffer).stepTimes 7 =
        ([.ok .next, .ok .next, .ok .next, .error .stackUnderflow, .ok .next, .ok .exit, .ok .next],
          { program := other, console := {}, stack := [.int 7], ip := 7, steps := 6,
            stepLimit := some 6 }) ∧
      ({ direct with program := other } : Machine Buffer).run 5 =
        some (.exited,
          { program := other, console := {}, stack := [.int 7], ip := 7, steps := 5,
            stepLimit := some 6 }) := by
  intro program other machine direct
  have size_eq : other.size = program.size := rfl
  have fetched : machine.stepFetches 7 = [0, 1, 2, 4, 5, 6] := by decide +kernel
  have fetched' : direct.fetches 5 = [0, 1, 2, 5, 6] := by decide +kernel
  have answers : machine.stepTimes 7 =
      ([.ok .next, .ok .next, .ok .next, .error .stackUnderflow, .ok .next, .ok .exit, .ok .next],
        { program, console := {}, stack := [.int 7], ip := 7, steps := 6, stepLimit := some 6 }) := by
    decide +kernel
  have ended : direct.run 5 =
      some (.exited,
        { program, console := {}, stack := [.int 7], ip := 7, steps := 5, stepLimit := some 6 }) := by
    decide +kernel
  have steps := (depends_on_fetched machine other size_eq).1 7 (by rw [fetched]; decide)
  have run := (depends_on_fetched direct other size_eq).2 5 (by rw [fetched']; decide)
  rw [answers] at steps
  rw [ended] at run
  exact ⟨size_eq, fetched, steps.1, run⟩

end Machine

end StackMachine
