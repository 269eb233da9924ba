import StackMachine.Proofs.Machine.Operations

/-!
# Machines that run alike

Two actions are coupled by a relation on their states if they give the same answer from related
states and leave related states. Machines with one stack come to the same deeds, so what an
operation does to a pair of them follows from what its deed does. The relation is chosen later:
machines on two kinds of consoles, or with one stack and console in two programs.
-/

namespace StackMachine

namespace Action

variable {ε σ τ α β : Type} {related : σ → τ → Prop}

def Coupled (related : σ → τ → Prop) (left : Action ε σ α) (right : Action ε τ α) : Prop :=
  ∀ s t, related s t →
    (left.run s).1 = (right.run t).1 ∧ related (left.run s).2 (right.run t).2

theorem coupled_pure (a : α) : Coupled related (pure a : Action ε σ α) (pure a) :=
  fun _ _ start => ⟨rfl, start⟩

theorem coupled_throw (e : ε) : Coupled related (throw e : Action ε σ α) (throw e) :=
  fun _ _ start => ⟨rfl, start⟩

theorem Coupled.bind {left : Action ε σ α} {right : Action ε τ α} {next : α → Action ε σ β}
    {after : α → Action ε τ β} (first : Coupled related left right)
    (rest : ∀ a, Coupled related (next a) (after a)) :
    Coupled related (left >>= next) (right >>= after) := by
  intro s t start
  obtain ⟨same, kept⟩ := first s t start
  rw [run_bind, run_bind]
  rcases atLeft : left.run s with ⟨answer, s'⟩
  rcases atRight : right.run t with ⟨answer', t'⟩
  simp only [atLeft, atRight] at same kept
  subst same
  cases answer with
  | ok a => exact rest a s' t' kept
  | error e => exact ⟨rfl, kept⟩

theorem coupled_get_bind {next : σ → Action ε σ β} {after : τ → Action ε τ β}
    (rest : ∀ s t, related s t →
      ((next s).run s).1 = ((after t).run t).1 ∧
        related ((next s).run s).2 ((after t).run t).2) :
    Coupled related (get >>= next) (get >>= after) := by
  intro s t start
  rw [run_bind, run_bind]
  exact rest s t start

theorem coupled_modify {f : σ → σ} {g : τ → τ}
    (kept : ∀ s t, related s t → related (f s) (g t)) :
    Coupled related (modify f : Action ε σ Unit) (modify g) :=
  fun s t start => ⟨rfl, kept s t start⟩

end Action

namespace Machine

open StackMachine.Action

variable {γ δ : Type} [Console γ] [Console δ]

/-- Related machines hold the same stack and stay related under what operations do to stacks and
consoles. -/
structure Coupling (related : Machine γ → Machine δ → Prop) : Prop where
  stack_eq {m n} : related m n → m.stack = n.stack
  withStack {m n} (stack : Stack) : related m n → related { m with stack } { n with stack }
  readLine : Coupled related (onConsole Console.readLine) (onConsole Console.readLine)
  write (text : String) :
    Coupled related (onConsole (Console.write text)) (onConsole (Console.write text))

structure Coupling.Lockstep (related : Machine γ → Machine δ → Prop) : Prop
    extends Coupling related where
  size_eq {m n} : related m n → m.program.size = n.program.size
  withIp {m n} (ip : Nat) : related m n → related { m with ip } { n with ip }

namespace Coupling

variable {related : Machine γ → Machine δ → Prop}

theorem push (coupling : Coupling related) (values : List Value) :
    Coupled related (enact (.push values)) (enact (.push values)) := by
  apply coupled_modify
  intro m n start
  rw [coupling.stack_eq start]
  exact coupling.withStack _ start

theorem enact (coupling : Coupling related) {deed : Deed} (stays : ∀ target, deed ≠ .jump target) :
    Coupled related (enact deed) (enact deed) := by
  cases deed with
  | push values => exact coupling.push values
  | fail fault => exact coupled_throw fault
  | jump target => exact absurd rfl (stays target)
  | write text => exact coupling.write text
  | read => exact coupling.readLine.bind fun line => coupling.push [.text line]
  | list =>
    apply coupled_get_bind
    intro m n start
    rw [coupling.stack_eq start]
    exact coupling.write _ m n start

theorem perform_of_enact (coupling : Coupling related) {op : Op}
    (enacts : ∀ operands, (op.deed operands).Befits op →
      Coupled related (Machine.enact (op.deed operands)) (Machine.enact (op.deed operands))) :
    Coupled related (perform op) (perform op) := by
  intro m n start
  have same : m.stack = n.stack := coupling.stack_eq start
  obtain short | ⟨operands, rest, taken, shape⟩ := op.short_or_supplied n.stack
  · rw [run_perform_of_short (same ▸ short), run_perform_of_short short]
    exact ⟨rfl, coupling.withStack [] start⟩
  · rw [run_perform_operands taken (same.trans shape), run_perform_operands taken shape]
    exact enacts operands (op.befits_deed taken) _ _ (coupling.withStack rest start)

theorem perform (coupling : Coupling related) {op : Op} (stays : op ≠ .jump) :
    Coupled related (perform op) (perform op) := by
  refine coupling.perform_of_enact fun operands befits => coupling.enact fun target jumps => ?_
  rw [jumps] at befits
  exact stays befits

end Coupling

namespace Coupling.Lockstep

variable {related : Machine γ → Machine δ → Prop}

theorem jump (coupling : Coupling.Lockstep related) (target : Value) :
    Coupled related (jump target) (jump target) := by
  apply coupled_get_bind
  intro m n start
  have sizes : m.program.size = n.program.size := coupling.size_eq start
  have indices : m.program.index? target = n.program.index? target := by
    simp only [Program.index?, sizes]
  rw [indices]
  cases n.program.index? target with
  | some ip => exact ⟨rfl, coupling.withIp ip start⟩
  | none => exact ⟨by simp [sizes], start⟩

theorem halt (coupling : Coupling.Lockstep related) : Coupled related halt halt := by
  apply coupled_modify
  intro m n start
  rw [coupling.size_eq start]
  exact coupling.withIp _ start

theorem apply (coupling : Coupling.Lockstep related) (op : Op) :
    Coupled related (apply op) (apply op) := by
  refine (coupling.perform_of_enact fun operands _ => ?_).bind fun _ => coupled_pure _
  generalize op.deed operands = deed
  cases deed with
  | jump target => exact coupling.jump target
  | _ => exact coupling.enact nofun

theorem execute (coupling : Coupling.Lockstep related) (element : Element) :
    Coupled related (execute element) (execute element) := by
  cases element with
  | literal v => exact (coupling.push [v]).bind fun _ => coupled_pure _
  | op op =>
    refine (coupling.apply op).bind fun flow => ?_
    cases flow with
    | next => exact coupled_pure _
    | exit => exact coupling.halt.bind fun _ => coupled_pure _
  | word word => exact coupled_throw _

end Coupling.Lockstep

end Machine

end StackMachine
