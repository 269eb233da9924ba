import StackMachine.Proofs.Machine.StraightLine

/-!
# Steps

What one step does on either side of the limit, and steps taken one after another whatever they
answer. An element reaches the stack, the console and the place in the program; it leaves the
program, the count of steps and the limit alone, and does not see the limit.
-/

namespace StackMachine

open StackMachine.Action Machine

namespace Machine

variable {γ : Type}

def withLimit (machine : Machine γ) (limit : Option Nat) : Machine γ :=
  { machine with stepLimit := limit }

@[simp] theorem program_withLimit (machine : Machine γ) (limit : Option Nat) :
    (machine.withLimit limit).program = machine.program := rfl

@[simp] theorem ip_withLimit (machine : Machine γ) (limit : Option Nat) :
    (machine.withLimit limit).ip = machine.ip := rfl

@[simp] theorem isHalted_withLimit (machine : Machine γ) (limit : Option Nat) :
    (machine.withLimit limit).isHalted = machine.isHalted := rfl

def begun (machine : Machine γ) : Machine γ :=
  { machine with ip := machine.ip + 1, steps := machine.steps + 1 }

variable [Console γ]

/-! ## Elements -/

theorem lockstep_withLimit (origin : Machine γ) (limit : Option Nat) :
    Coupling.Lockstep fun m n : Machine γ => m = n.withLimit limit ∧
      n.program = origin.program ∧ n.steps = origin.steps ∧ n.stepLimit = origin.stepLimit where
  stack_eq := by
    rintro _ n ⟨rfl, _⟩
    rfl
  withStack := by
    rintro _ n stack ⟨rfl, kept⟩
    exact ⟨rfl, kept⟩
  readLine := by
    rintro _ n ⟨rfl, kept⟩
    exact ⟨rfl, rfl, kept⟩
  write text := by
    rintro _ n ⟨rfl, kept⟩
    exact ⟨rfl, rfl, kept⟩
  size_eq := by
    rintro _ n ⟨rfl, _⟩
    rfl
  withIp := by
    rintro _ n ip ⟨rfl, kept⟩
    exact ⟨rfl, kept⟩

theorem run_execute_withLimit (element : Element) (machine : Machine γ) (limit : Option Nat) :
    (execute element).run (machine.withLimit limit) =
      (((execute element).run machine).1,
        ((execute element).run machine).2.withLimit limit) := by
  have start := (lockstep_withLimit machine limit).execute element (machine.withLimit limit)
    machine ⟨rfl, rfl, rfl, rfl⟩
  exact Prod.ext start.1 start.2.1

theorem execute_keeps (element : Element) (machine : Machine γ) :
    ((execute element).run machine).2.program = machine.program ∧
      ((execute element).run machine).2.steps = machine.steps ∧
      ((execute element).run machine).2.stepLimit = machine.stepLimit :=
  ((lockstep_withLimit machine none).execute element (machine.withLimit none) machine
    ⟨rfl, rfl, rfl, rfl⟩).2.2

/-! ## One step -/

theorem run_step_of_size_le {machine : Machine γ} (past : machine.program.size ≤ machine.ip) :
    step.run machine = (.ok .next, machine) := by
  have none : machine.program.elements[machine.ip]? = none := Array.getElem?_eq_none past
  simp only [step, run_bind, run_get, none, run_pure]

theorem run_step_of_lt {machine : Machine γ} {element : Element}
    (found : machine.program.elements[machine.ip]? = some element)
    (within : ∀ limit ∈ machine.stepLimit, machine.steps < limit) :
    step.run machine = (execute element).run machine.begun := by
  simp only [step, run_bind, run_get, found, run_count within, run_modify, begun]

theorem run_step_of_le {machine : Machine γ} {limit : Nat}
    (inside : machine.ip < machine.program.size) (limited : machine.stepLimit = some limit)
    (reached : limit ≤ machine.steps) :
    step.run machine =
      (.error (.stepLimit limit), { machine with steps := machine.steps + 1 }) := by
  have found : machine.program.elements[machine.ip]? = some machine.program.elements[machine.ip] :=
    Array.getElem?_eq_getElem inside
  have beyond : limit < machine.steps + 1 := Nat.lt_succ_of_le reached
  simp [step, count, run_bind, found, limited, beyond]

theorem step_cases (machine : Machine γ) :
    (machine.program.size ≤ machine.ip ∧ step.run machine = (.ok .next, machine)) ∨
    (∃ limit, machine.ip < machine.program.size ∧ machine.stepLimit = some limit ∧
      limit ≤ machine.steps ∧
      step.run machine = (.error (.stepLimit limit), { machine with steps := machine.steps + 1 })) ∨
    (∃ element, machine.program.elements[machine.ip]? = some element ∧
      (∀ limit ∈ machine.stepLimit, machine.steps < limit) ∧
      step.run machine = (execute element).run machine.begun) := by
  by_cases past : machine.program.size ≤ machine.ip
  · exact .inl ⟨past, run_step_of_size_le past⟩
  have inside : machine.ip < machine.program.size := Nat.lt_of_not_le past
  have found : machine.program.elements[machine.ip]? = some machine.program.elements[machine.ip] :=
    Array.getElem?_eq_getElem inside
  by_cases within : ∀ limit ∈ machine.stepLimit, machine.steps < limit
  · exact .inr (.inr ⟨_, found, within, run_step_of_lt found within⟩)
  · obtain ⟨limit, limited, reached⟩ :
        ∃ limit, machine.stepLimit = some limit ∧ limit ≤ machine.steps := by simpa using within
    exact .inr (.inl ⟨limit, inside, limited, reached, run_step_of_le inside limited reached⟩)

theorem program_step (machine : Machine γ) : (step.run machine).2.program = machine.program := by
  obtain ⟨_, answer⟩ | ⟨_, _, _, _, answer⟩ | ⟨element, _, _, answer⟩ := step_cases machine
  · rw [answer]
  · rw [answer]
  · rw [answer]
    exact (execute_keeps element machine.begun).1

/-! ## Steps in a row -/

/-- The answers of steps taken in a row, failed ones included, and the machine that is left. -/
def stepTimes : Nat → Machine γ → List (Except Fault Flow) × Machine γ
  | 0, machine => ([], machine)
  | n + 1, machine =>
    let (answer, after) := step.run machine
    let (answers, last) := stepTimes n after
    (answer :: answers, last)

theorem stepTimes_succ (n : Nat) (machine : Machine γ) :
    machine.stepTimes (n + 1) =
      ((step.run machine).1 :: ((step.run machine).2.stepTimes n).1,
        ((step.run machine).2.stepTimes n).2) := rfl

theorem stepTimes_straight {machine : Machine γ}
    (straight : machine.program.hasJump = false) (unlimited : machine.stepLimit = none) {n : Nat}
    (unended : machine.run n = none) :
    (machine.stepTimes n).2 =
      machine.behind
        (pass ((machine.program.toList.drop machine.ip).take n) machine.workspace) := by
  induction n generalizing machine with
  | zero => rfl
  | succ n ih =>
    by_cases past : machine.program.size ≤ machine.ip
    · rw [run_of_size_le past] at unended
      cases unended
    have inside : machine.ip < machine.program.size := Nat.lt_of_not_le past
    have found : machine.program.elements[machine.ip]? =
        some machine.program.elements[machine.ip] := Array.getElem?_eq_getElem inside
    have left : machine.program.toList.drop machine.ip =
        machine.program.elements[machine.ip] :: machine.program.toList.drop (machine.ip + 1) :=
      List.drop_eq_getElem_cons inside
    have stepped := run_step found (ne_jump_of_getElem? straight found) (by simp [unlimited])
    rw [run_succ_of_lt inside, stepped] at unended
    rw [stepTimes_succ, stepped, left, List.take_succ_cons, pass]
    generalize machine.program.elements[machine.ip].effect machine.workspace = result at *
    obtain ⟨answer, w⟩ := result
    rcases answer with fault | flow
    · cases unended
    cases flow with
    | exit => cases unended
    | next =>
      have rest : ((machine.advance w).stepTimes n).2 =
          (machine.advance w).behind
            (pass ((machine.program.toList.drop (machine.ip + 1)).take n) w) :=
        ih straight unlimited unended
      exact rest.trans (behind_advance machine w _)

end Machine

end StackMachine
