import StackMachine.Console.Buffer
import StackMachine.Proofs.Machine.Steps

/-!
# Step limits

A limit cuts a run and changes nothing else. A run that counts no more steps than the limit allows
goes as it goes without a limit. Any other run is stopped where it would begin one step too many,
and that step is refused without an effect.
-/

namespace StackMachine

open StackMachine.Action

namespace Machine

variable {γ : Type} [Console γ]

def stopped (machine : Machine γ) (limit : Nat) : Machine γ :=
  { machine with steps := limit + 1, stepLimit := some limit }

/-! ## Steps below a limit -/

theorem run_step_of_running {machine : Machine γ} (running : ¬ machine.isHalted)
    (within : ∀ limit ∈ machine.stepLimit, machine.steps < limit) :
    ∃ element, machine.program.elements[machine.ip]? = some element ∧
      step.run machine = (execute element).run machine.begun := by
  have inside : machine.ip < machine.program.size := by simpa [isHalted] using running
  have found : machine.program.elements[machine.ip]? = some machine.program.elements[machine.ip] :=
    Array.getElem?_eq_getElem inside
  exact ⟨_, found, run_step_of_lt found within⟩

theorem run_step_withLimit {machine : Machine γ} (unlimited : machine.stepLimit = none)
    (running : ¬ machine.isHalted) {limit : Nat} (below : machine.steps < limit) :
    step.run (machine.withLimit (some limit)) =
      ((step.run machine).1, (step.run machine).2.withLimit (some limit)) := by
  obtain ⟨element, found, free⟩ := run_step_of_running running (by simp [unlimited])
  have limited : step.run (machine.withLimit (some limit)) =
      (execute element).run (machine.begun.withLimit (some limit)) :=
    run_step_of_lt found (by simpa [withLimit] using below)
  rw [limited, free, run_execute_withLimit]

theorem run_step_refused {machine : Machine γ} (running : ¬ machine.isHalted) :
    step.run (machine.withLimit (some machine.steps)) =
      (.error (.stepLimit machine.steps), machine.stopped machine.steps) :=
  run_step_of_le (by simpa [isHalted] using running) rfl (Nat.le_refl _)

theorem step_counts {machine after : Machine γ} {answer : Except Fault Flow}
    (unlimited : machine.stepLimit = none) (running : ¬ machine.isHalted)
    (stepped : step.run machine = (answer, after)) :
    after.stepLimit = none ∧ after.steps = machine.steps + 1 := by
  obtain ⟨element, _, free⟩ := run_step_of_running running (by simp [unlimited])
  obtain ⟨_, steps, limit⟩ := execute_keeps element machine.begun
  rw [← free, stepped] at steps limit
  exact ⟨limit.trans unlimited, steps⟩

/-! ## Fuel and steps -/

theorem steps_le_of_run {machine after : Machine γ} (unlimited : machine.stepLimit = none)
    {fuel : Nat} {ending : Ending} (ended : machine.run fuel = some (ending, after)) :
    machine.steps ≤ after.steps ∧ after.steps ≤ machine.steps + fuel := by
  fun_induction machine.run fuel with
  | case1 fuel machine halted =>
    cases ended
    omega
  | case2 => cases ended
  | case3 machine running fuel between stepped ih =>
    have counted := step_counts unlimited running stepped
    have rest := ih counted.1 ended
    omega
  | case4 machine running fuel between stepped =>
    have counted := step_counts unlimited running stepped
    cases ended
    omega
  | case5 machine running fuel fault between stepped =>
    have counted := step_counts unlimited running stepped
    cases ended
    omega

theorem run_of_steps_le {machine after : Machine γ} (unlimited : machine.stepLimit = none)
    {fuel n : Nat} {ending : Ending} (ended : machine.run fuel = some (ending, after))
    (enough : after.steps ≤ machine.steps + n) : machine.run n = some (ending, after) := by
  fun_induction machine.run fuel generalizing n with
  | case1 fuel machine halted => rw [run.eq_def, if_pos halted, ended]
  | case2 => cases ended
  | case3 machine running fuel between stepped ih =>
    have counted := step_counts unlimited running stepped
    have rest := steps_le_of_run counted.1 ended
    obtain ⟨n, rfl⟩ : ∃ k, n = k + 1 := ⟨n - 1, by omega⟩
    rw [run, if_neg running, stepped]
    exact ih counted.1 ended (by omega)
  | case4 machine running fuel between stepped =>
    have counted := step_counts unlimited running stepped
    cases ended
    obtain ⟨n, rfl⟩ : ∃ k, n = k + 1 := ⟨n - 1, by omega⟩
    rw [run, if_neg running, stepped]
  | case5 machine running fuel fault between stepped =>
    have counted := step_counts unlimited running stepped
    cases ended
    obtain ⟨n, rfl⟩ : ∃ k, n = k + 1 := ⟨n - 1, by omega⟩
    rw [run, if_neg running, stepped]

theorem run_eq_none_iff {machine after : Machine γ} (unlimited : machine.stepLimit = none)
    {fuel : Nat} {ending : Ending} (ended : machine.run fuel = some (ending, after)) (n : Nat) :
    machine.run n = none ↔ machine.steps + n < after.steps := by
  constructor
  · intro unended
    refine Nat.lt_of_not_le fun enough => ?_
    rw [run_of_steps_le unlimited ended enough] at unended
    cases unended
  · intro more
    cases early : machine.run n with
    | none => rfl
    | some result =>
      obtain rfl := run_unique early ended
      exact absurd (steps_le_of_run unlimited early).2 (Nat.not_le_of_lt more)

theorem stepTimes_of_run_eq_none {machine : Machine γ} (unlimited : machine.stepLimit = none)
    {n : Nat} (unended : machine.run n = none) :
    (∀ answer ∈ (machine.stepTimes n).1, answer = .ok .next) ∧
      (machine.stepTimes n).2.steps = machine.steps + n := by
  fun_induction machine.run n with
  | case1 => cases unended
  | case2 machine running => exact ⟨by simp [stepTimes], rfl⟩
  | case3 machine running n between stepped ih =>
    have counted := step_counts unlimited running stepped
    obtain ⟨answers, steps⟩ := ih counted.1 unended
    rw [stepTimes_succ, stepped]
    exact ⟨by simpa using answers, steps.trans (by omega)⟩
  | case4 => cases unended
  | case5 => cases unended

/-! ## Runs below a limit -/

theorem run_withLimit {machine : Machine γ} (unlimited : machine.stepLimit = none)
    {limit left : Nat} (total : machine.steps + left = limit) :
    (machine.withLimit (some limit)).run (left + 1) =
      match machine.run left with
      | some (ending, after) => some (ending, after.withLimit (some limit))
      | none => some (.failed (.stepLimit limit), (machine.stepTimes left).2.stopped limit) := by
  fun_induction machine.run left with
  | case1 left machine halted => rw [run, isHalted_withLimit, if_pos halted]
  | case2 machine running =>
    obtain rfl : machine.steps = limit := total
    rw [run, isHalted_withLimit, if_neg running, run_step_refused running]
    rfl
  | case3 machine running fuel between stepped ih =>
    have counted := step_counts unlimited running stepped
    have below := run_step_withLimit unlimited running (show machine.steps < limit by omega)
    rw [run, isHalted_withLimit, if_neg running, below, stepped, stepTimes_succ, stepped]
    exact ih counted.1 (by omega)
  | case4 machine running fuel between stepped =>
    rw [run, isHalted_withLimit, if_neg running,
      run_step_withLimit unlimited running (by omega), stepped]
  | case5 machine running fuel fault between stepped =>
    rw [run, isHalted_withLimit, if_neg running,
      run_step_withLimit unlimited running (by omega), stepped]

/-- A run that counts no more steps than the limit allows ends under the limit as it ends without
one. Any other run takes as many steps as are allowed and is stopped there, so under a limit every
run ends. -/
theorem run_cut_at_limit (program : Program) (stack : Stack) (console : γ) (limit : Nat) :
    let free : Machine γ := { program, stack, console }
    let limited : Machine γ := { program, stack, console, stepLimit := some limit }
    (∀ fuel ending after, free.run fuel = some (ending, after) → after.steps ≤ limit →
      limited.run (limit + 1) = some (ending, { after with stepLimit := some limit })) ∧
    ((∀ fuel ending after, free.run fuel = some (ending, after) → limit < after.steps) →
      let (answers, reached) := free.stepTimes limit
      (∀ answer ∈ answers, answer = .ok .next) ∧ reached.steps = limit ∧
        limited.run (limit + 1) = some (.failed (.stepLimit limit),
          { reached with steps := limit + 1, stepLimit := some limit })) ∧
    ∃ ending after, limited.run (limit + 1) = some (ending, after) := by
  intro free limited
  have cut : limited.run (limit + 1) =
      match free.run limit with
      | some (ending, after) => some (ending, after.withLimit (some limit))
      | none => some (.failed (.stepLimit limit), (free.stepTimes limit).2.stopped limit) :=
    run_withLimit (show free.stepLimit = none from rfl) (Nat.zero_add limit)
  refine ⟨?_, ?_, ?_⟩
  · intro fuel ending after ended few
    have within : free.run limit = some (ending, after) :=
      run_of_steps_le rfl ended (by simpa [free] using few)
    rw [cut, within]
    rfl
  · intro many
    have unended : free.run limit = none := by
      cases ended : free.run limit with
      | none => rfl
      | some result =>
        have few := (steps_le_of_run rfl ended).2
        have beyond := many limit _ _ ended
        simp only [free, Nat.zero_add] at few
        omega
    obtain ⟨answers, steps⟩ := stepTimes_of_run_eq_none rfl unended
    refine ⟨answers, by simpa [free] using steps, ?_⟩
    rw [cut, unended]
    rfl
  · rw [cut]
    cases free.run limit with
    | some result => exact ⟨_, _, rfl⟩
    | none => exact ⟨_, _, rfl⟩

theorem run_cut_at_limit_loop :
    let loop := Program.ofList [.literal (.int 0), .op .jump]
    let leaving := Program.ofList [.literal (.int 7), .op .exit, .word "never"]
    let free : Machine Silence := { program := loop, console := {} }
    (∀ fuel ending after, free.run fuel = some (ending, after) → 3 < after.steps) ∧
      run 4 { program := loop, console := ({} : Silence), stepLimit := some 3 } =
        some (.failed (.stepLimit 3),
          { program := loop, console := {}, stack := [.int 0], ip := 1, steps := 4,
            stepLimit := some 3 }) ∧
      run 3 { program := leaving, console := ({} : Silence), stepLimit := some 2 } =
        some (.exited,
          { program := leaving, console := {}, stack := [.int 7], ip := 3, steps := 2,
            stepLimit := some 2 }) := by
  intro loop leaving free
  have endless : ∀ fuel ending after, free.run fuel = some (ending, after) → 3 < after.steps := by
    intro fuel ending after ended
    refine Nat.lt_of_not_le fun few => ?_
    have early : free.run 3 = some (ending, after) :=
      run_of_steps_le rfl ended (by simpa [free] using few)
    have unended : free.run 3 = none := rfl
    rw [unended] at early
    cases early
  refine ⟨endless, ?_, ?_⟩
  · exact ((run_cut_at_limit loop [] ({} : Silence) 3).2.1 endless).2.2
  · have ended : run 2 { program := leaving, console := ({} : Silence) } =
        some (.exited,
          { program := leaving, console := {}, stack := [.int 7], ip := 3, steps := 2 }) := rfl
    exact (run_cut_at_limit leaving [] ({} : Silence) 2).1 _ _ _ ended (Nat.le_refl 2)

end Machine

end StackMachine
