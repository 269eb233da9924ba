import StackMachine.Proofs.Machine.StackDepth

/-!
# Operands and what is left of them

An operation takes its operands before anything can fail. Short of operands it empties the stack
and touches nothing else; with enough of them it keeps the values below, and where it fails, nothing
is left above these. So a host that goes on behind a failure finds the machine in a known state.
-/

namespace StackMachine

open StackMachine.Action Machine

namespace Machine

variable {γ : Type} [Console γ]

theorem run_apply (op : Op) (machine : Machine γ) :
    (apply op).run machine =
      (((perform op).run machine).1.map fun _ => op.flow, ((perform op).run machine).2) := by
  rw [apply, run_bind]
  rcases (perform op).run machine with ⟨answer, after⟩
  cases answer <;> rfl

theorem perform_keeps (op : Op) (machine : Machine γ) :
    ((perform op).run machine).2.program = machine.program ∧
      ((perform op).run machine).2.steps = machine.steps ∧
      ((perform op).run machine).2.stepLimit = machine.stepLimit := by
  have applied := (lockstep_withLimit machine none).apply op (machine.withLimit none) machine
    ⟨rfl, rfl, rfl, rfl⟩
  rw [run_apply, run_apply] at applied
  exact applied.2.2

theorem failure_of_execute {op : Op} {machine after : Machine γ} {fault : Fault}
    (ran : (execute (.op op)).run machine = (.error fault, after)) :
    (perform op).run machine = (.error fault, after) := by
  rw [run_execute_op] at ran
  rcases performed : (perform op).run machine with ⟨answer, between⟩
  rw [performed] at ran
  cases answer with
  | ok _ => cases ran
  | error fault' =>
    cases ran
    rfl

end Machine

/-! ## What is left -/

/-- What an operation leaves of a machine, by how it ended. -/
structure Op.Leaves {γ α : Type} (op : Op) (machine : Machine γ) (answer : Except Fault α)
    (after : Machine γ) : Prop where
  underflows_iff : answer = .error .stackUnderflow ↔ machine.stack.length < op.need
  emptied : answer = .error .stackUnderflow → after = { machine with stack := [] }
  below : op.need ≤ machine.stack.length → machine.stack.drop op.need <:+ after.stack
  consumed {fault : Fault} : answer = .error fault → fault ≠ .stackUnderflow →
    after.stack = machine.stack.drop op.need
  ip_eq : (op = .jump → ∃ fault, answer = .error fault) → after.ip = machine.ip
  console_eq : op.callsConsole = false → after.console = machine.console
  others : after.program = machine.program ∧ after.steps = machine.steps ∧
    after.stepLimit = machine.stepLimit

theorem Op.Leaves.map {γ α β : Type} {op : Op} {machine after : Machine γ}
    {answer : Except Fault α} (leaves : op.Leaves machine answer after) (f : α → β) :
    op.Leaves machine (answer.map f) after where
  underflows_iff := map_eq_error_iff.trans leaves.underflows_iff
  emptied failed := leaves.emptied (map_eq_error_iff.mp failed)
  below := leaves.below
  consumed failed := leaves.consumed (map_eq_error_iff.mp failed)
  ip_eq stays := leaves.ip_eq fun jumps =>
    (stays jumps).imp fun _ failed => map_eq_error_iff.mp failed
  console_eq := leaves.console_eq
  others := leaves.others

namespace Machine

variable {γ : Type} [Console γ] [Console.Ordinary γ]

theorem leaves_perform (op : Op) (machine : Machine γ) :
    op.Leaves machine ((perform op).run machine).1 ((perform op).run machine).2 := by
  have underflows := perform_underflows_iff op machine
  have others := perform_keeps op machine
  obtain short | ⟨operands, rest, taken, shape⟩ := op.short_or_supplied machine.stack
  · rw [run_perform_of_short short] at underflows others ⊢
    exact {
      underflows_iff := underflows
      emptied := fun _ => rfl
      below := fun enough => absurd short (Nat.not_lt.mpr enough)
      consumed := fun failed other => absurd (Except.error.inj failed).symm other
      ip_eq := fun _ => rfl
      console_eq := fun _ => rfl
      others := others }
  have left : machine.stack.drop op.need = rest := by rw [shape, List.drop_left' taken]
  have deep : ((perform op).run machine).1 ≠ .error .stackUnderflow := by
    rw [ne_eq, underflows, shape, List.length_append, taken]
    omega
  have stays (other : op ≠ .jump) : ((perform op).run machine).2.ip = machine.ip := by
    rw [run_perform other]
    rfl
  have console (silent : op.callsConsole = false) :=
    console_of_enact (op.befits_deed taken) silent { machine with stack := rest }
  have ends := enact_cases (op.deed operands) { machine with stack := rest }
  rw [← run_perform_operands taken shape] at console ends
  obtain ⟨fault, _, ran⟩ | ⟨values, _, _, _, ran⟩ := ends
  · rw [ran] at underflows others deep console ⊢
    exact {
      underflows_iff := underflows
      emptied := fun failed => absurd failed deep
      below := fun _ => left ▸ List.suffix_rfl
      consumed := fun _ _ => left.symm
      ip_eq := fun _ => rfl
      console_eq := console
      others := others }
  · rw [ran] at underflows others deep console stays ⊢
    exact {
      underflows_iff := underflows
      emptied := fun failed => absurd failed deep
      below := fun _ => left ▸ List.suffix_append values rest
      consumed := nofun
      ip_eq := fun still => stays fun jumps => nomatch still jumps
      console_eq := console
      others := others }

/-- Whether an operation underflows depends on the depth alone, and what it leaves is known in every
case. A step that fails short of the limit was counted and has moved on by one place. -/
theorem leaves_known_state (machine : Machine γ) :
    (∀ op : Op,
      op.Leaves machine ((apply op).run machine).1 ((apply op).run machine).2) ∧
    ∀ fault after, step.run machine = (.error fault, after) →
      (∀ limit, fault ≠ .stepLimit limit) →
      after.ip = machine.ip + 1 ∧ after.steps = machine.steps + 1 ∧
      ((∃ word, machine.program.elements[machine.ip]? = some (.word word) ∧
          fault = .unknownWord word ∧ after.stack = machine.stack ∧
          after.console = machine.console) ∨
        ∃ op, machine.program.elements[machine.ip]? = some (.op op) ∧
          op.Leaves machine.begun (.error fault : Except Fault Flow) after) := by
  constructor
  · intro op
    rw [run_apply]
    exact (leaves_perform op machine).map fun _ => op.flow
  intro fault after failed unlimited
  obtain ⟨_, ran⟩ | ⟨limit, _, _, _, ran⟩ | ⟨element, found, _, ran⟩ := step_cases machine
  · cases failed.symm.trans ran
  · cases failed.symm.trans ran
    exact absurd rfl (unlimited limit)
  rw [failed] at ran
  cases element with
  | literal v => cases ran
  | word word =>
    cases ran
    exact ⟨rfl, rfl, .inl ⟨word, found, rfl, rfl, rfl⟩⟩
  | op op =>
    have leaves := leaves_perform op machine.begun
    rw [failure_of_execute ran.symm] at leaves
    refine ⟨leaves.ip_eq fun _ => ⟨fault, rfl⟩, leaves.others.2.1, .inr ⟨op, found, ?_⟩⟩
    exact leaves.map fun _ => op.flow

theorem leaves_known_state_broken :
    let gone : IoFailure := { kind := .brokenPipe, message := "gone" }
    let machine : Machine Stream :=
      { program := .ofList [.op .print]
        console := { writer := { writes := [some gone] } }
        stack := [.int 2, .int 1] }
    ∃ after, step.run machine = (.error (.io "gone"), after) ∧
      (∀ limit, Fault.io "gone" ≠ .stepLimit limit) ∧
      after.ip = 1 ∧ after.steps = 1 ∧ after.stack = [.int 1] := by
  intro gone machine
  obtain ⟨after, failed⟩ : ∃ after, step.run machine = (.error (.io "gone"), after) := ⟨_, rfl⟩
  have unlimited : ∀ limit, Fault.io "gone" ≠ .stepLimit limit := nofun
  obtain ⟨ip, steps, ⟨word, found, _⟩ | ⟨op, found, leaves⟩⟩ :=
    (leaves_known_state machine).2 _ after failed unlimited
  · cases found
  · obtain rfl : Op.print = op := Element.op.inj (Option.some.inj found)
    exact ⟨after, failed, unlimited, ip, steps, leaves.consumed rfl nofun⟩

end Machine

end StackMachine
