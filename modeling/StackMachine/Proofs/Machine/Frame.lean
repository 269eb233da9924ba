import StackMachine.Console.Buffer
import StackMachine.Proofs.Machine.Steps

/-!
# Values below the stack

Values that lie below the stack of a machine are neither read nor changed, as long as no step
reaches down to them. A machine without them fails with an underflow where it would reach them, so
every run without underflows can be repeated above any other values. Only the listing of the stack
looks at all of it.
-/

namespace StackMachine

open StackMachine.Action Machine

namespace Machine

variable {γ : Type}

def raised (machine : Machine γ) (below : Stack) : Machine γ :=
  { machine with stack := machine.stack ++ below }

variable [Console γ] {below : Stack}

theorem run_enact_raised {deed : Deed} (unlisted : deed ≠ .list) (machine : Machine γ) :
    (enact deed).run (machine.raised below) =
      (((enact deed).run machine).1, ((enact deed).run machine).2.raised below) := by
  cases deed with
  | push values => simp [enact, raised]
  | fail fault => rfl
  | jump target =>
    simp only [enact, run_jump, raised]
    cases machine.program.index? target <;> rfl
  | write text => rfl
  | read =>
    simp only [enact, run_bind, onConsole, run_within, raised]
    cases (Console.readLine.run machine.console).1 <;> rfl
  | list => exact absurd rfl unlisted

theorem run_perform_raised {op : Op} (unlisted : op ≠ .listing) {machine : Machine γ}
    (deep : ((perform op).run machine).1 ≠ .error .stackUnderflow) :
    (perform op).run (machine.raised below) =
      (((perform op).run machine).1, ((perform op).run machine).2.raised below) := by
  obtain short | ⟨operands, rest, taken, shape⟩ := op.short_or_supplied machine.stack
  · -- An underflow stops the operation before it reaches the values below.
    rw [run_perform_of_short short] at deep
    exact absurd rfl deep
  have shape' : (machine.raised below).stack = operands ++ (rest ++ below) := by
    rw [← List.append_assoc, ← shape]
    rfl
  rw [run_perform_operands taken shape', run_perform_operands taken shape]
  refine run_enact_raised (fun lists => ?_) { machine with stack := rest }
  have befits := op.befits_deed taken
  rw [lists] at befits
  exact unlisted befits

theorem run_execute_raised {element : Element} (unlisted : element ≠ .op .listing)
    {machine : Machine γ} (deep : ((execute element).run machine).1 ≠ .error .stackUnderflow) :
    (execute element).run (machine.raised below) =
      (((execute element).run machine).1, ((execute element).run machine).2.raised below) := by
  cases element with
  | literal v => rfl
  | word word => rfl
  | op op =>
    have unlisted' : op ≠ .listing := fun equal => unlisted (congrArg Element.op equal)
    have above (deep : ((perform op).run machine).1 ≠ .error .stackUnderflow) :
        (perform op).run (machine.raised below) = _ := run_perform_raised unlisted' deep
    rw [run_execute_op] at deep
    rw [run_execute_op, run_execute_op]
    rcases performed : (perform op).run machine with ⟨answer, after⟩
    rw [performed] at above deep
    cases answer with
    | error fault => rw [above (by simpa using deep)]
    | ok _ =>
      rw [above nofun]
      cases op.flow <;> rfl

/-! ## Steps -/

theorem run_step_raised {machine : Machine γ}
    (unlisted : .op .listing ∉ machine.program.toList)
    (deep : (step.run machine).1 ≠ .error .stackUnderflow) :
    step.run (machine.raised below) =
      ((step.run machine).1, (step.run machine).2.raised below) := by
  obtain ⟨past, stepped⟩ | ⟨limit, inside, limited, reached, stepped⟩ |
    ⟨element, found, within, stepped⟩ := step_cases machine
  · have above : step.run (machine.raised below) = (.ok .next, machine.raised below) :=
      run_step_of_size_le past
    rw [above, stepped]
  · have above : step.run (machine.raised below) = (.error (.stepLimit limit), _) :=
      run_step_of_le inside limited reached
    rw [above, stepped]
    rfl
  · have above : step.run (machine.raised below) =
        (execute element).run (machine.begun.raised below) := run_step_of_lt found within
    have member : element ∈ machine.program.toList := by
      rw [Program.toList, Array.mem_toList_iff]
      exact Array.mem_of_getElem? found
    have unlisted' : element ≠ .op .listing := by
      rintro rfl
      exact unlisted member
    rw [stepped] at deep ⊢
    rw [above]
    exact run_execute_raised unlisted' deep

/-- Steps that go without an underflow go in the same way above any values, whether they fail
otherwise or not, and leave those values where they are. -/
theorem stepTimes_raised (machine : Machine γ) (below : Stack) (n : Nat)
    (unlisted : .op .listing ∉ machine.program.toList)
    (deep : .error .stackUnderflow ∉ (machine.stepTimes n).1) :
    (machine.raised below).stepTimes n =
      ((machine.stepTimes n).1, (machine.stepTimes n).2.raised below) := by
  induction n generalizing machine with
  | zero => rfl
  | succ n ih =>
    simp only [stepTimes_succ, List.mem_cons, not_or] at deep
    have first : step.run (machine.raised below) = _ := run_step_raised unlisted (Ne.symm deep.1)
    have rest := ih (step.run machine).2 (by rwa [program_step]) deep.2
    rw [stepTimes_succ, first, rest]
    rfl

theorem stepTimes_raised_failing :
    let program := Program.ofList [.literal (.int 1), .literal (.int 0), .op (.arith .div),
      .op .print, .literal (.int 7), .op .jump]
    let machine : Machine Buffer := { program, console := {}, stack := [.text "s"] }
    .op .listing ∉ program.toList ∧ .error .stackUnderflow ∉ (machine.stepTimes 6).1 ∧
      ({ machine with stack := [.text "s", .int 9] } : Machine Buffer).stepTimes 6 =
        ([.ok .next, .ok .next, .error .divisionByZero, .ok .next, .ok .next,
            .error (.badJump (.int 7) 6)],
          { program, console := { output := "s" }, stack := [.int 9], ip := 6, steps := 6 }) := by
  intro program machine
  have unlisted : .op .listing ∉ program.toList := by decide
  have alone : machine.stepTimes 6 =
      ([.ok .next, .ok .next, .error .divisionByZero, .ok .next, .ok .next,
          .error (.badJump (.int 7) 6)],
        { program, console := { output := "s" }, ip := 6, steps := 6 }) := by decide +kernel
  have deep : .error .stackUnderflow ∉ (machine.stepTimes 6).1 := by simp [alone]
  have above := stepTimes_raised machine [.int 9] 6 unlisted deep
  rw [alone] at above
  exact ⟨unlisted, deep, above⟩

end Machine

end StackMachine
