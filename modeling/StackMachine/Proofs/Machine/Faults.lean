import StackMachine.Console.Buffer
import StackMachine.Console.Stream
import StackMachine.Proofs.Machine.Steps
import StackMachine.Session.Terminal

/-!
# Faults of runs

A machine fails on its own by its stack, its operators, its jumps and its limit. The end of the
input, interruptions and failing devices come from the console, so a run fails in one of these ways
only if a call to the console does.
-/

namespace StackMachine

namespace Action

variable {ε φ σ τ α β : Type} {allowed : ε → Prop}

def FailsWithin (allowed : ε → Prop) (action : Action ε σ α) : Prop :=
  ∀ s e, (action.run s).1 = .error e → allowed e

theorem failsWithin_pure (a : α) : FailsWithin allowed (pure a : Action ε σ α) := by
  intro s e failed
  cases failed

theorem failsWithin_modify (f : σ → σ) : FailsWithin allowed (modify f : Action ε σ Unit) := by
  intro s e failed
  cases failed

theorem failsWithin_throw {e : ε} (fine : allowed e) :
    FailsWithin allowed (throw e : Action ε σ α) := by
  rintro s _ ⟨⟩
  exact fine

theorem FailsWithin.within {part : σ → τ} {replace : σ → τ → σ} {action : Action ε τ α}
    (fine : FailsWithin allowed action) : FailsWithin allowed (action.within part replace) :=
  fun s e failed => fine (part s) e failed

theorem failsWithin_reporting {allowed : φ → Prop} {report : ε → φ} (fine : ∀ e, allowed (report e))
    (action : Action ε σ α) : FailsWithin allowed (action.reporting report) := by
  intro s e failed
  rw [run_reporting] at failed
  cases answer : (action.run s).1 with
  | ok a => simp [answer] at failed
  | error e' =>
    rw [answer] at failed
    cases failed
    exact fine e'

theorem FailsWithin.bind {action : Action ε σ α} {next : α → Action ε σ β}
    (first : FailsWithin allowed action) (rest : ∀ a, FailsWithin allowed (next a)) :
    FailsWithin allowed (action >>= next) := by
  intro s e failed
  rw [run_bind] at failed
  rcases ran : action.run s with ⟨answer, s'⟩
  rw [ran] at failed
  cases answer with
  | ok a => exact rest a s' e failed
  | error e' =>
    cases failed
    exact first s e (by rw [ran])

theorem failsWithin_get_bind {next : σ → Action ε σ α}
    (rest : ∀ s, FailsWithin allowed (next s)) : FailsWithin allowed (get >>= next) := by
  refine FailsWithin.bind ?_ rest
  intro s e failed
  cases failed

end Action

open StackMachine.Action

/-- The faults that elements have of themselves, whatever the console and the limit. -/
def Fault.IsElementFault : Fault → Prop
  | stackUnderflow | unknownWord _ | badJump _ _ => True
  | fault => fault.IsValueFault

theorem Fault.IsValueFault.isElementFault {fault : Fault} (own : fault.IsValueFault) :
    fault.IsElementFault := by
  cases fault <;> first | exact own | exact own.elim

structure Console.FaultsWithin (γ : Type) [Console γ] (allowed : Fault → Prop) : Prop where
  own (fault : Fault) : fault.IsElementFault → allowed fault
  readLine : FailsWithin allowed (Console.readLine : Action Fault γ String)
  write (text : String) : FailsWithin allowed (Console.write text : Action Fault γ Unit)

theorem Console.Ordinary.faultsWithin {γ : Type} [Console γ] [Console.Ordinary γ]
    {allowed : Fault → Prop} (own : ∀ fault : Fault, fault.IsElementFault → allowed fault)
    (console : ∀ fault : Fault, fault.IsConsoleFault → allowed fault) :
    Console.FaultsWithin γ allowed where
  own := own
  readLine c fault failed := console fault (readLine_fault c fault failed)
  write text c fault failed := console fault (write_fault text c fault failed)

/-! ## Machines -/

namespace Machine

variable {γ : Type} [Console γ] {allowed : Fault → Prop}

theorem failsWithin_pop (faults : Console.FaultsWithin γ allowed) :
    FailsWithin allowed (pop : Action Fault (Machine γ) Value) := by
  refine FailsWithin.within (failsWithin_get_bind fun stack => ?_)
  cases stack with
  | nil => exact failsWithin_throw (faults.own .stackUnderflow trivial)
  | cons v rest => exact FailsWithin.bind (failsWithin_modify _) fun _ => failsWithin_pure v

omit [Console γ] in
theorem failsWithin_push (v : Value) :
    FailsWithin allowed (push v : Action Fault (Machine γ) Unit) :=
  FailsWithin.within (failsWithin_modify _)

theorem failsWithin_enact {op : Op} {deed : Deed} (befits : deed.Befits op)
    (own : ∀ fault : Fault, fault.IsValueFault → allowed fault)
    (astray : ∀ target size, allowed (.badJump target size))
    (readLine : FailsWithin allowed (Console.readLine : Action Fault γ String))
    (write : ∀ text, FailsWithin allowed (Console.write text : Action Fault γ Unit)) :
    FailsWithin allowed (enact deed : Action Fault (Machine γ) Unit) := by
  cases deed with
  | push values => exact failsWithin_modify _
  | fail fault => exact failsWithin_throw (own fault befits.1)
  | jump target =>
    refine failsWithin_get_bind fun machine => ?_
    cases machine.program.index? target with
    | some ip => exact failsWithin_modify _
    | none => exact failsWithin_throw (astray _ _)
  | write text => exact (write text).within
  | read => exact FailsWithin.bind readLine.within fun line => failsWithin_push _
  | list => exact failsWithin_get_bind fun machine => (write _).within

theorem failsWithin_perform (faults : Console.FaultsWithin γ allowed) (op : Op) :
    FailsWithin allowed (perform op : Action Fault (Machine γ) Unit) := by
  intro machine fault failed
  obtain short | ⟨operands, rest, taken, shape⟩ := op.short_or_supplied machine.stack
  · rw [run_perform_of_short short] at failed
    cases failed
    exact faults.own .stackUnderflow trivial
  · rw [run_perform_operands taken shape] at failed
    exact failsWithin_enact (op.befits_deed taken)
      (fun value own => faults.own value own.isElementFault) (fun _ _ => faults.own _ trivial)
      faults.readLine faults.write _ fault failed

theorem perform_underflows_iff [Console.Ordinary γ] (op : Op) (machine : Machine γ) :
    ((perform op).run machine).1 = .error .stackUnderflow ↔ machine.stack.length < op.need := by
  refine ⟨fun underflows => ?_, fun short => by rw [run_perform_of_short short]⟩
  obtain short | ⟨operands, rest, taken, shape⟩ := op.short_or_supplied machine.stack
  · exact short
  have others : FailsWithin (· ≠ .stackUnderflow)
      (enact (op.deed operands) : Action Fault (Machine γ) Unit) := by
    refine failsWithin_enact (op.befits_deed taken) ?_ (fun _ _ => nofun) ?_ ?_
    · rintro _ own rfl
      exact own
    · rintro console _ failed rfl
      exact Console.Ordinary.readLine_fault console _ failed
    · rintro text console _ failed rfl
      exact Console.Ordinary.write_fault text console _ failed
  rw [run_perform_operands taken shape] at underflows
  exact absurd rfl (others _ _ underflows)

theorem failsWithin_apply (faults : Console.FaultsWithin γ allowed) (op : Op) :
    FailsWithin allowed (apply op : Action Fault (Machine γ) Flow) :=
  (failsWithin_perform faults op).bind fun _ => failsWithin_pure _

theorem failsWithin_execute (faults : Console.FaultsWithin γ allowed) (element : Element) :
    FailsWithin allowed (execute element : Action Fault (Machine γ) Flow) := by
  cases element with
  | literal v => exact (failsWithin_push v).bind fun _ => failsWithin_pure _
  | word word => exact failsWithin_throw (faults.own _ trivial)
  | op op =>
    refine (failsWithin_apply faults op).bind fun flow => ?_
    cases flow with
    | next => exact failsWithin_pure _
    | exit => exact (failsWithin_modify _).bind fun _ => failsWithin_pure _

theorem failsWithin_step (faults : Console.FaultsWithin γ allowed)
    (limited : ∀ limit, allowed (.stepLimit limit)) :
    FailsWithin allowed (step : Action Fault (Machine γ) Flow) := by
  intro machine fault failed
  obtain ⟨_, ran⟩ | ⟨limit, _, _, _, ran⟩ | ⟨element, _, _, ran⟩ := step_cases machine
  · rw [ran] at failed
    cases failed
  · rw [ran] at failed
    cases failed
    exact limited limit
  · rw [ran] at failed
    exact failsWithin_execute faults element machine.begun fault failed

theorem fault_of_run (faults : Console.FaultsWithin γ allowed)
    (limited : ∀ limit, allowed (.stepLimit limit)) {fuel : Nat} {machine after : Machine γ}
    {fault : Fault}
    (failed : machine.run fuel = some (.failed fault, after)) : allowed fault := by
  fun_induction machine.run fuel with
  | case1 => cases failed
  | case2 => cases failed
  | case3 machine running fuel between stepped ih => exact ih failed
  | case4 => cases failed
  | case5 machine running fuel fault' between stepped =>
    cases failed
    exact failsWithin_step faults limited machine fault (by rw [stepped])

end Machine

/-! ## Consoles -/

theorem Fault.isConsoleFault_ofIo (failure : IoFailure) : (ofIo failure).IsConsoleFault := by
  unfold ofIo
  split <;> trivial

theorem LineFailure.isConsoleFault (failure : LineFailure) : failure.fault.IsConsoleFault := by
  cases failure with
  | io failure => exact Fault.isConsoleFault_ofIo failure
  | _ => trivial

instance : Console.Ordinary Stream where
  readLine_fault := by
    show FailsWithin Fault.IsConsoleFault Stream.readLine
    apply (failsWithin_reporting Fault.isConsoleFault_ofIo _).bind
    intro _
    apply (failsWithin_reporting Fault.isConsoleFault_ofIo _).bind
    intro line
    cases line.isEmpty with
    | true => exact failsWithin_throw trivial
    | false => exact failsWithin_pure _
  write_fault text := by
    show FailsWithin Fault.IsConsoleFault (Stream.write text)
    apply (failsWithin_reporting Fault.isConsoleFault_ofIo _).bind
    intro _
    exact failsWithin_reporting Fault.isConsoleFault_ofIo _

instance (editor : LineEditor) : Console.Ordinary (SessionConsole editor) where
  readLine_fault := by
    show FailsWithin Fault.IsConsoleFault SessionConsole.readLine
    apply failsWithin_get_bind
    intro console
    refine FailsWithin.bind (failsWithin_modify _) fun _ => ?_
    exact failsWithin_reporting LineFailure.isConsoleFault _
  write_fault text := failsWithin_modify _

theorem Buffer.faultsWithin : Console.FaultsWithin Buffer (· ≠ .interrupted) where
  own := by
    rintro _ other rfl
    exact other
  readLine := by
    refine failsWithin_get_bind fun buffer => ?_
    cases buffer.lines with
    | nil => exact failsWithin_throw (by decide)
    | cons line rest => exact FailsWithin.bind (failsWithin_modify _) fun _ => failsWithin_pure line
  write text := failsWithin_modify _

end StackMachine
