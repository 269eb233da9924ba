import StackMachine.Proofs.Machine.Coupling

/-!
# Straight-line programs

A program without a jump executes its elements in order. `pass` is what a row of elements does to
a stack and a console, with no program and no place in it, and `run_straight` says that the run of
such a program is the pass through the elements that are left.
-/

namespace StackMachine

open StackMachine.Action Machine

/-- All that an element can reach if it does not jump. -/
structure Workspace (γ : Type) where
  stack : Stack
  console : γ

theorem Program.not_mem_of_straight {program : Program} (straight : program.hasJump = false) :
    .op .jump ∉ program.toList := by
  simpa [hasJump] using straight

variable {γ : Type}

def Machine.workspace (machine : Machine γ) : Workspace γ :=
  { stack := machine.stack, console := machine.console }

def Machine.withWorkspace (machine : Machine γ) (w : Workspace γ) : Machine γ :=
  { machine with stack := w.stack, console := w.console }

def Workspace.idle (w : Workspace γ) : Machine γ :=
  { program := {}, console := w.console, stack := w.stack }

@[simp] theorem Workspace.workspace_idle (w : Workspace γ) : w.idle.workspace = w := rfl

namespace Machine

@[simp] theorem program_withWorkspace (machine : Machine γ) (w : Workspace γ) :
    (machine.withWorkspace w).program = machine.program := rfl

variable [Console γ]

/-! ## Elements apart from programs -/

theorem coupling_idle (machine : Machine γ) :
    Coupling fun (m n : Machine γ) => ∃ w, m = machine.withWorkspace w ∧ n = w.idle where
  stack_eq := by
    rintro _ _ ⟨w, rfl, rfl⟩
    rfl
  withStack := by
    rintro _ _ stack ⟨w, rfl, rfl⟩
    exact ⟨{ w with stack }, rfl, rfl⟩
  readLine := by
    rintro _ _ ⟨w, rfl, rfl⟩
    exact ⟨rfl, { w with console := (Console.readLine.run w.console).2 }, rfl, rfl⟩
  write text := by
    rintro _ _ ⟨w, rfl, rfl⟩
    exact ⟨rfl, { w with console := ((Console.write text).run w.console).2 }, rfl, rfl⟩

theorem run_perform {op : Op} (stays : op ≠ .jump) (machine : Machine γ) :
    (perform op).run machine =
      (((perform op).run machine.workspace.idle).1,
        machine.withWorkspace ((perform op).run machine.workspace.idle).2.workspace) := by
  obtain ⟨answer, w, left, right⟩ := (coupling_idle machine).perform stays machine
    machine.workspace.idle ⟨machine.workspace, rfl, rfl⟩
  refine Prod.ext answer ?_
  rw [left, right, Workspace.workspace_idle]

theorem run_execute_op (op : Op) (machine : Machine γ) :
    (execute (.op op)).run machine =
      match (perform op).run machine with
      | (.ok _, after) =>
        (.ok op.flow, if op.flow = .exit then { after with ip := after.program.size } else after)
      | (.error fault, after) => (.error fault, after) := by
  simp only [execute, apply, run_bind]
  rcases (perform op).run machine with ⟨answer, after⟩
  cases answer with
  | error fault => rfl
  | ok _ => cases op.flow <;> rfl

end Machine

variable [Console γ]

def Flow.place (size ip : Nat) : Except Fault Flow → Nat
  | .ok .exit => size
  | _ => ip

def Element.effect (element : Element) (w : Workspace γ) : Except Fault Flow × Workspace γ :=
  let (answer, after) := (execute element).run w.idle
  (answer, after.workspace)

@[simp] theorem Element.effect_literal (v : Value) (w : Workspace γ) :
    effect (.literal v) w = (.ok .next, { w with stack := v :: w.stack }) := rfl

theorem Element.effect_op (op : Op) (w : Workspace γ) :
    effect (.op op) w =
      (((perform op).run w.idle).1.map fun _ => op.flow,
        ((perform op).run w.idle).2.workspace) := by
  unfold effect
  rw [run_execute_op]
  rcases (perform op).run w.idle with ⟨answer, after⟩
  cases answer with
  | error fault => rfl
  | ok _ => cases op.flow <;> rfl

theorem Element.exits_iff (element : Element) (w : Workspace γ) :
    (element.effect w).1 = .ok .exit ↔ element = .op .exit := by
  cases element with
  | literal v => simp
  | word word => simp [effect, execute]
  | op op =>
    have exits : op.flow = .exit ↔ op = .exit := by cases op <;> simp [Op.flow]
    rw [effect_op, Element.op.injEq, ← exits]
    constructor
    · intro answer
      cases performed : ((perform op).run w.idle).1 with
      | error fault => simp [performed, Except.map] at answer
      | ok _ => simpa [performed, Except.map] using answer
    · intro flow
      obtain rfl : op = .exit := exits.mp flow
      rfl

theorem Machine.run_execute {element : Element} (stays : element ≠ .op .jump)
    (machine : Machine γ) :
    (execute element).run machine =
      ((element.effect machine.workspace).1,
        { machine.withWorkspace (element.effect machine.workspace).2 with
          ip := Flow.place machine.program.size machine.ip
            (element.effect machine.workspace).1 }) := by
  cases element with
  | literal v => rfl
  | word word => rfl
  | op op =>
    have other : op ≠ .jump := fun equal => stays (congrArg Element.op equal)
    simp only [Element.effect, run_execute_op]
    rw [run_perform other machine]
    rcases (perform op).run machine.workspace.idle with ⟨answer, after⟩
    cases answer with
    | error fault => rfl
    | ok _ => cases op.flow <;> rfl

/-! ## Rows of elements -/

structure Passage (γ : Type) where
  ending : Ending
  /-- The number of elements that were executed, the one that failed included. -/
  count : Nat
  workspace : Workspace γ

namespace Passage

def behind (passage : Passage γ) (count : Nat) : Passage γ :=
  { passage with count := count + passage.count }

omit [Console γ] in
theorem behind_behind (passage : Passage γ) (m n : Nat) :
    (passage.behind m).behind n = passage.behind (n + m) := by
  simp [behind, Nat.add_assoc]

def outcome (passage : Passage γ) : Ending × Workspace γ :=
  (passage.ending, passage.workspace)

def place (passage : Passage γ) (size ip : Nat) : Nat :=
  match passage.ending with
  | .exited => size
  | _ => ip + passage.count

def andThen (passage : Passage γ) (next : Workspace γ → Passage γ) : Passage γ :=
  match passage.ending with
  | .finished => (next passage.workspace).behind passage.count
  | _ => passage

omit [Console γ] in
theorem andThen_of_finished {passage : Passage γ} (finished : passage.ending = .finished)
    (next : Workspace γ → Passage γ) :
    passage.andThen next = (next passage.workspace).behind passage.count := by
  rw [andThen, finished]

omit [Console γ] in
theorem andThen_of_ne_finished {passage : Passage γ} (unfinished : passage.ending ≠ .finished)
    (next : Workspace γ → Passage γ) : passage.andThen next = passage := by
  obtain ⟨ending, count, w⟩ := passage
  cases ending with
  | finished => exact absurd rfl unfinished
  | exited => rfl
  | failed fault => rfl

omit [Console γ] in
theorem andThen_behind (passage : Passage γ) (count : Nat) (next : Workspace γ → Passage γ) :
    (passage.behind count).andThen next = (passage.andThen next).behind count := by
  obtain ⟨ending, counted, w⟩ := passage
  cases ending <;> simp [andThen, behind, Nat.add_assoc]

end Passage

/-- Executes elements in order until one of them exits or fails. -/
def pass : List Element → Workspace γ → Passage γ
  | [], w => { ending := .finished, count := 0, workspace := w }
  | element :: rest, w =>
    match element.effect w with
    | (.ok .next, w) => (pass rest w).behind 1
    | (.ok .exit, w) => { ending := .exited, count := 1, workspace := w }
    | (.error fault, w) => { ending := .failed fault, count := 1, workspace := w }

theorem pass_append (front back : List Element) (w : Workspace γ) :
    pass (front ++ back) w = (pass front w).andThen (pass back) := by
  fun_induction pass front w with
  | case1 w => simp [Passage.andThen, Passage.behind]
  | case2 element front w after goesOn ih =>
    rw [List.cons_append, pass, goesOn]
    exact (congrArg (·.behind 1) ih).trans (Passage.andThen_behind _ 1 _).symm
  | case3 element front w after exits =>
    rw [List.cons_append, pass, exits]
    rfl
  | case4 element front w fault after fails =>
    rw [List.cons_append, pass, fails]
    rfl

theorem count_of_finished {elements : List Element} {w : Workspace γ}
    (finished : (pass elements w).ending = .finished) :
    (pass elements w).count = elements.length := by
  fun_induction pass elements w with
  | case1 => rfl
  | case2 element rest w after goesOn ih =>
    exact (congrArg (1 + ·) (ih finished)).trans (Nat.add_comm 1 rest.length)
  | case3 => cases finished
  | case4 => cases finished

/-! ## Runs -/

namespace Machine

def outcome (fuel : Nat) (machine : Machine γ) : Option (Ending × Workspace γ) :=
  (machine.run fuel).map fun (ending, after) => (ending, after.workspace)

omit [Console γ] in
theorem run_count {machine : Machine γ}
    (within : ∀ limit ∈ machine.stepLimit, machine.steps < limit) :
    count.run machine = (.ok (), { machine with steps := machine.steps + 1 }) := by
  simp only [count, run_bind, run_modify, run_get]
  cases limited : machine.stepLimit with
  | none => rfl
  | some limit =>
    have below : ¬ limit < machine.steps + 1 := Nat.not_lt.mpr (within limit limited)
    simp [below]

theorem run_step {machine : Machine γ} {element : Element}
    (found : machine.program.elements[machine.ip]? = some element) (stays : element ≠ .op .jump)
    (within : ∀ limit ∈ machine.stepLimit, machine.steps < limit) :
    step.run machine =
      ((element.effect machine.workspace).1,
        { machine.withWorkspace (element.effect machine.workspace).2 with
          ip := Flow.place machine.program.size (machine.ip + 1)
            (element.effect machine.workspace).1
          steps := machine.steps + 1 }) := by
  simp only [step, run_bind, run_get, found, run_count within, run_modify]
  exact run_execute stays { machine with ip := machine.ip + 1, steps := machine.steps + 1 }

def behind (machine : Machine γ) (passage : Passage γ) : Machine γ :=
  { machine.withWorkspace passage.workspace with
    ip := passage.place machine.program.size machine.ip
    steps := machine.steps + passage.count }

def advance (machine : Machine γ) (w : Workspace γ) : Machine γ :=
  { machine.withWorkspace w with ip := machine.ip + 1, steps := machine.steps + 1 }

omit [Console γ] in
theorem behind_advance (machine : Machine γ) (w : Workspace γ) (passage : Passage γ) :
    (machine.advance w).behind passage = machine.behind (passage.behind 1) := by
  obtain ⟨ending, counted, after⟩ := passage
  cases ending <;>
    simp [behind, advance, Passage.behind, Passage.place, withWorkspace, Nat.add_assoc]

theorem ne_jump_of_getElem? {program : Program} (straight : program.hasJump = false) {ip : Nat}
    {element : Element} (found : program.elements[ip]? = some element) :
    element ≠ .op .jump := by
  rintro rfl
  refine Program.not_mem_of_straight straight ?_
  rw [Program.toList, Array.mem_toList_iff]
  exact Array.mem_of_getElem? found

/-- Elements that do not jump are passed, and if they neither exit nor fail, the run goes on behind
them with the fuel that is left. -/
theorem run_through {machine : Machine γ} {elements rest : List Element}
    (ahead : machine.program.toList.drop machine.ip = elements ++ rest)
    (straight : .op .jump ∉ elements) (unlimited : machine.stepLimit = none) (fuel : Nat) :
    machine.run (elements.length + fuel) =
      let passage := pass elements machine.workspace
      match passage.ending with
      | .finished => (machine.behind passage).run fuel
      | ending => some (ending, machine.behind passage) := by
  induction elements generalizing machine with
  | nil =>
    rw [List.length_nil, Nat.zero_add]
    rfl
  | cons element elements ih =>
    have found : machine.program.elements[machine.ip]? = some element := by
      have first := congrArg List.head? ahead
      rwa [List.head?_drop, Program.toList, Array.getElem?_toList] at first
    have inside : machine.ip < machine.program.size := (Array.getElem?_eq_some_iff.mp found).1
    have stays : element ≠ .op .jump := by
      rintro rfl
      exact straight List.mem_cons_self
    have length : (element :: elements).length + fuel = elements.length + fuel + 1 := by
      rw [List.length_cons]
      omega
    rw [length, run_succ_of_lt inside, run_step found stays (by simp [unlimited])]
    simp only [pass]
    rcases element.effect machine.workspace with ⟨answer, w⟩
    rcases answer with fault | flow
    · rfl
    cases flow with
    | exit => rfl
    | next =>
      have left : (machine.advance w).program.toList.drop (machine.advance w).ip =
          elements ++ rest := by
        have behind := congrArg List.tail ahead
        rwa [List.tail_drop] at behind
      have further := ih left (fun member => straight (List.mem_cons_of_mem _ member)) unlimited
      refine further.trans ?_
      have same : pass elements (machine.advance w).workspace = pass elements w := rfl
      simp only [same, behind_advance]
      rfl

theorem run_straight {machine : Machine γ} (straight : machine.program.hasJump = false)
    (unlimited : machine.stepLimit = none) {fuel : Nat}
    (enough : machine.program.size ≤ machine.ip + fuel) :
    machine.run fuel =
      let passage := pass (machine.program.toList.drop machine.ip) machine.workspace
      some (passage.ending, machine.behind passage) := by
  have length : (machine.program.toList.drop machine.ip).length =
      machine.program.size - machine.ip := List.length_drop
  obtain ⟨more, rfl⟩ := Nat.exists_eq_add_of_le
    (show (machine.program.toList.drop machine.ip).length ≤ fuel by omega)
  have stays : .op .jump ∉ machine.program.toList.drop machine.ip :=
    fun member => Program.not_mem_of_straight straight (List.mem_of_mem_drop member)
  rw [run_through (List.append_nil _).symm stays unlimited]
  cases ended : (pass (machine.program.toList.drop machine.ip) machine.workspace).ending with
  | finished =>
    have counted := count_of_finished ended
    have past : machine.program.size ≤ machine.ip +
        (pass (machine.program.toList.drop machine.ip) machine.workspace).count := by omega
    simp only [ended]
    refine run_of_size_le ?_ more
    simpa [behind, Passage.place, ended] using past
  | exited => simp only [ended]
  | failed fault => simp only [ended]

theorem finished_of_run_eq_none {machine : Machine γ} (straight : machine.program.hasJump = false)
    (unlimited : machine.stepLimit = none) {n : Nat} (unended : machine.run n = none) :
    (pass ((machine.program.toList.drop machine.ip).take n) machine.workspace).ending =
        .finished ∧
      machine.ip + n < machine.program.size := by
  have inside : machine.ip + n < machine.program.size := by
    refine Nat.lt_of_not_le fun enough => ?_
    rw [run_straight straight unlimited enough] at unended
    cases unended
  refine ⟨?_, inside⟩
  have ahead := (List.take_append_drop n (machine.program.toList.drop machine.ip)).symm
  have stays : .op .jump ∉ (machine.program.toList.drop machine.ip).take n := fun member =>
    Program.not_mem_of_straight straight (List.mem_of_mem_drop (List.mem_of_mem_take member))
  have length : ((machine.program.toList.drop machine.ip).take n).length = n := by
    have size : machine.program.toList.length = machine.program.size := rfl
    simp only [List.length_take, List.length_drop]
    omega
  have through := run_through ahead stays unlimited 0
  rw [length, Nat.add_zero, unended] at through
  cases ended : (pass ((machine.program.toList.drop machine.ip).take n) machine.workspace).ending with
  | finished => rfl
  | exited => simp [ended] at through
  | failed fault => simp [ended] at through

theorem outcome_straight {machine : Machine γ} (straight : machine.program.hasJump = false)
    (unlimited : machine.stepLimit = none) {fuel : Nat}
    (enough : machine.program.size ≤ machine.ip + fuel) :
    machine.outcome fuel =
      some (pass (machine.program.toList.drop machine.ip) machine.workspace).outcome := by
  rw [outcome, run_straight straight unlimited enough]
  rfl

end Machine

end StackMachine
