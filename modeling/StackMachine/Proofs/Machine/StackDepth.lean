import Mathlib.Algebra.Ring.Int.Defs
import Mathlib.Data.List.TakeWhile
import StackMachine.Console.Buffer
import StackMachine.Proofs.Machine.Faults
import StackMachine.Proofs.Machine.StepLimit

/-!
# The depth of the stack

An operation underflows exactly if fewer values are on the stack than it needs, and where it
succeeds it changes the depth by a number that its name determines. So in a straight-line program
the depth at each element is known ahead of the run, and so is the first element that would
underflow, whatever the values are.
-/

namespace StackMachine

open StackMachine.Action Machine

/-! ## What names tell -/

namespace Element

def need : Element → Nat
  | op o => o.need
  | _ => 0

def net : Element → Int
  | literal _ => 1
  | op o => o.net
  | word _ => 0

/-- No element behind it is executed. -/
def isLast : Element → Bool
  | op .exit | word _ => true
  | _ => false

end Element

def netOf (elements : List Element) : Int :=
  (elements.map Element.net).sum

@[simp] theorem netOf_nil : netOf [] = 0 := rfl

@[simp] theorem netOf_cons (element : Element) (rest : List Element) :
    netOf (element :: rest) = element.net + netOf rest := by
  simp [netOf]

def IsSupplied (depth : Int) (elements : List Element) : Prop :=
  ∀ i (inside : i < elements.length), (elements[i].need : Int) ≤ depth + netOf (elements.take i)

theorem isSupplied_cons {depth : Int} {element : Element} {rest : List Element} :
    IsSupplied depth (element :: rest) ↔
      (element.need : Int) ≤ depth ∧ IsSupplied (depth + element.net) rest := by
  constructor
  · intro supplied
    refine ⟨by simpa using supplied 0 (Nat.zero_lt_succ _), fun i inside => ?_⟩
    simpa [Int.add_assoc] using supplied (i + 1) (Nat.succ_lt_succ inside)
  · rintro ⟨first, supplied⟩ i inside
    cases i with
    | zero => simpa using first
    | succ i => simpa [Int.add_assoc] using supplied i (Nat.lt_of_succ_lt_succ inside)

/-! ## What elements do to the depth -/

variable {γ : Type} [Console γ]

theorem Machine.length_of_perform {op : Op} {machine after : Machine γ}
    (performed : (perform op).run machine = (.ok (), after)) :
    (after.stack.length : Int) = machine.stack.length + op.net := by
  obtain short | ⟨operands, rest, taken, shape⟩ := op.short_or_supplied machine.stack
  · rw [run_perform_of_short short] at performed
    cases performed
  rw [run_perform_operands taken shape] at performed
  have gained := (op.befits_deed taken).gain_eq fun fault fails => by
    rw [fails] at performed
    cases performed
  obtain ⟨_, _, ran⟩ | ⟨values, _, _, length, ran⟩ :=
    enact_cases (op.deed operands) { machine with stack := rest }
  · cases performed.symm.trans ran
  · cases performed.symm.trans ran
    simp only [shape, List.length_append, length, taken]
    omega

theorem Element.length_of_effect {element : Element} {w after : Workspace γ} {flow : Flow}
    (succeeds : element.effect w = (.ok flow, after)) :
    (after.stack.length : Int) = w.stack.length + element.net := by
  cases element with
  | literal v =>
    cases succeeds
    exact Int.natCast_succ _
  | word word => cases succeeds
  | op op =>
    rw [effect_op] at succeeds
    rcases performed : (perform op).run w.idle with ⟨_ | _, left⟩
    · rw [performed] at succeeds
      cases succeeds
    · rw [performed] at succeeds
      cases succeeds
      exact length_of_perform performed

/-! ## Passages -/

theorem length_of_finished {elements : List Element} {w : Workspace γ}
    (finished : (pass elements w).ending = .finished) :
    ((pass elements w).workspace.stack.length : Int) = w.stack.length + netOf elements := by
  fun_induction pass elements w with
  | case1 => simp
  | case2 element rest w after goesOn ih =>
    have first := Element.length_of_effect goesOn
    have further := ih finished
    simp only [Passage.behind, netOf_cons] at further ⊢
    omega
  | case3 => cases finished
  | case4 => cases finished

section Ordinary

variable [Console.Ordinary γ]

theorem Element.underflows_iff (element : Element) (w : Workspace γ) :
    (element.effect w).1 = .error .stackUnderflow ↔ w.stack.length < element.need := by
  cases element with
  | literal v => simp [need]
  | word word => simp [effect, execute, need]
  | op op =>
    rw [effect_op, map_eq_error_iff, Machine.perform_underflows_iff]
    rfl

theorem ne_underflow_of_isSupplied {elements : List Element} {w : Workspace γ}
    (supplied : IsSupplied w.stack.length elements) :
    (pass elements w).ending ≠ .failed .stackUnderflow := by
  fun_induction pass elements w with
  | case1 => simp
  | case2 element rest w after goesOn ih =>
    obtain ⟨_, further⟩ := isSupplied_cons.mp supplied
    rw [← Element.length_of_effect goesOn] at further
    exact ih further
  | case3 => simp
  | case4 element rest w fault after fails =>
    obtain ⟨enough, _⟩ := isSupplied_cons.mp supplied
    have goes := mt (element.underflows_iff w).mp (by omega)
    rw [fails] at goes
    simpa using goes

theorem pass_of_short {element : Element} {w : Workspace γ} (rest : List Element)
    (short : w.stack.length < element.need) :
    (pass (element :: rest) w).ending = .failed .stackUnderflow ∧
      (pass (element :: rest) w).count = 1 := by
  have underflows := (element.underflows_iff w).mpr short
  rw [pass]
  generalize element.effect w = result at underflows ⊢
  obtain ⟨answer, between⟩ := result
  cases underflows
  exact ⟨rfl, rfl⟩

end Ordinary

theorem count_le_length (elements : List Element) (w : Workspace γ) :
    (pass elements w).count ≤ elements.length := by
  fun_induction pass elements w with
  | case1 => exact Nat.le_refl 0
  | case2 element rest w after goesOn ih =>
    simp only [Passage.behind, List.length_cons]
    omega
  | case3 => exact Nat.le_add_left 1 _
  | case4 => exact Nat.le_add_left 1 _

theorem exists_isLast_of_exited {elements : List Element} {w : Workspace γ}
    (exited : (pass elements w).ending = .exited) :
    ∃ element ∈ elements, element.isLast = true := by
  fun_induction pass elements w with
  | case1 => cases exited
  | case2 element rest w after goesOn ih =>
    obtain ⟨last, member, isLast⟩ := ih exited
    exact ⟨last, List.mem_cons_of_mem _ member, isLast⟩
  | case3 element rest w after exits =>
    obtain rfl := (element.exits_iff w).mp (congrArg Prod.fst exits)
    exact ⟨.op .exit, List.mem_cons_self, rfl⟩
  | case4 => cases exited

theorem ne_underflow_of_isLast {element : Element} (last : element.isLast = true)
    (rest : List Element) (w : Workspace γ) :
    (pass (element :: rest) w).ending ≠ .failed .stackUnderflow := by
  match element, last with
  | .op .exit, _ => exact nofun
  | .word word, _ => exact nofun

/-! ## Runs -/

theorem Machine.length_of_run_eq_none {machine : Machine γ}
    (straight : machine.program.hasJump = false) (unlimited : machine.stepLimit = none) {i : Nat}
    (unended : machine.run i = none) :
    let reached := (machine.stepTimes i).2
    reached.ip = machine.ip + i ∧ machine.ip + i < machine.program.size ∧
      (reached.stack.length : Int) =
        machine.stack.length + netOf ((machine.program.toList.drop machine.ip).take i) := by
  intro reached
  obtain ⟨finished, inside⟩ := finished_of_run_eq_none straight unlimited unended
  have at_reached : reached = machine.behind _ := stepTimes_straight straight unlimited unended
  have size : machine.program.toList.length = machine.program.size := rfl
  have count := count_of_finished finished
  rw [List.length_take_of_le (by rw [List.length_drop]; omega)] at count
  rw [at_reached]
  refine ⟨?_, inside, length_of_finished finished⟩
  simp [behind, Passage.place, finished, count]

namespace Program

/-- The elements before the first one that nothing is executed behind. -/
def front (program : Program) : List Element :=
  program.toList.takeWhile fun element => !element.isLast

theorem exists_front (program : Program) :
    ∃ back, program.toList = program.front ++ back ∧
      ∀ element ∈ back.head?, element.isLast = true := by
  refine ⟨program.toList.dropWhile fun element => !element.isLast,
    List.takeWhile_append_dropWhile.symm, fun element first => ?_⟩
  have stops := List.head?_dropWhile_not (fun element : Element => !element.isLast) program.toList
  rw [Option.mem_def.mp first] at stops
  simpa using stops

theorem take_front {program : Program} {i : Nat} (inside : i ≤ program.front.length) :
    program.toList.take i = program.front.take i := by
  obtain ⟨back, whole, _⟩ := program.exists_front
  rw [whole, List.take_append_of_le_length inside]

theorem not_isLast_of_mem_front {program : Program} {element : Element}
    (member : element ∈ program.front) : element.isLast = false := by
  simpa using List.mem_takeWhile_imp member

variable [Console.Ordinary γ]

theorem ne_underflow_of_front {program : Program} {w : Workspace γ}
    (supplied : IsSupplied w.stack.length program.front) :
    (pass program.toList w).ending ≠ .failed .stackUnderflow := by
  obtain ⟨back, whole, first⟩ := program.exists_front
  rw [whole, pass_append]
  by_cases finished : (pass program.front w).ending = .finished
  · rw [Passage.andThen_of_finished finished]
    cases back with
    | nil => exact nofun
    | cons element rest => exact ne_underflow_of_isLast (first element rfl) rest _
  · rw [Passage.andThen_of_ne_finished finished]
    exact ne_underflow_of_isSupplied supplied

omit [Console.Ordinary γ] in
theorem failed_of_ne_finished {program : Program} {w : Workspace γ} {k : Nat}
    (unfinished : (pass (program.front.take k) w).ending ≠ .finished) :
    ∃ fault, (pass (program.front.take k) w).ending = .failed fault := by
  cases ended : (pass (program.front.take k) w).ending with
  | finished => exact absurd ended unfinished
  | failed fault => exact ⟨fault, rfl⟩
  | exited =>
    obtain ⟨element, member, last⟩ := exists_isLast_of_exited ended
    rw [not_isLast_of_mem_front (List.mem_of_mem_take member)] at last
    cases last

theorem fails_of_short {program : Program} {w : Workspace γ} {k : Nat}
    (inside : k < program.front.length)
    (supplied : IsSupplied w.stack.length (program.front.take k))
    (short : w.stack.length + netOf (program.front.take k) < program.front[k].need) :
    ∃ fault, (pass program.toList w).ending = .failed fault ∧
      (pass program.toList w).count ≤ k + 1 ∧
      (fault = .stackUnderflow ↔ (pass program.toList w).count = k + 1) := by
  obtain ⟨back, whole, _⟩ := program.exists_front
  have split : program.toList = program.front.take k ++
      program.front[k] :: (program.front.drop (k + 1) ++ back) := by
    rw [whole, ← List.cons_append, ← List.append_assoc, ← List.drop_eq_getElem_cons inside,
      List.take_append_drop]
  have length : (program.front.take k).length = k := List.length_take_of_le (Nat.le_of_lt inside)
  rw [split, pass_append]
  by_cases finished : (pass (program.front.take k) w).ending = .finished
  · have depth := length_of_finished finished
    have shallow : (pass (program.front.take k) w).workspace.stack.length <
        program.front[k].need := by omega
    obtain ⟨underflow, one⟩ := pass_of_short (program.front.drop (k + 1) ++ back) shallow
    have count := count_of_finished finished
    rw [Passage.andThen_of_finished finished]
    refine ⟨.stackUnderflow, underflow, ?_, ?_⟩ <;>
      simp [Passage.behind, one, count, length]
  · obtain ⟨fault, failed⟩ := failed_of_ne_finished finished
    have other := ne_underflow_of_isSupplied supplied
    have few := count_le_length (program.front.take k) w
    rw [Passage.andThen_of_ne_finished finished]
    refine ⟨fault, failed, by omega, ?_⟩
    constructor
    · rintro rfl
      exact absurd failed other
    · omega

/-- In a straight-line program the depth at each element that is executed, and whether one of them
underflows, follow from the names of the operations. -/
theorem underflow_by_names {program : Program} (straight : program.hasJump = false) (stack : Stack)
    (console : γ) :
    let free : Machine γ := { program, console, stack }
    let depth (i : Nat) : Int := stack.length + netOf (program.toList.take i)
    (∀ i, free.run i = none →
      let reached := (free.stepTimes i).2
      reached.ip = i ∧ i < program.size ∧ (reached.stack.length : Int) = depth i) ∧
    ((∀ i (inside : i < program.front.length), (program.front[i].need : Int) ≤ depth i) →
      ∃ ending after,
        (∀ fuel, program.size ≤ fuel → free.run fuel = some (ending, after)) ∧
        ending ≠ .failed .stackUnderflow) ∧
    ∀ k (inside : k < program.front.length),
      (∀ i (before : i < k), (program.front[i].need : Int) ≤ depth i) →
      depth k < program.front[k].need →
      ∃ fault after,
        (∀ fuel, program.size ≤ fuel → free.run fuel = some (.failed fault, after)) ∧
        after.ip ≤ k + 1 ∧
        (fault = .stackUnderflow ↔ after.ip = k + 1) ∧
        (fault = .stackUnderflow ↔ free.run k = none) := by
  intro free depth
  have unlimited : free.stepLimit = none := rfl
  let w : Workspace γ := { stack, console }
  have runs (fuel : Nat) (enough : program.size ≤ fuel) : free.run fuel =
      some ((pass program.toList w).ending, free.behind (pass program.toList w)) :=
    run_straight straight unlimited (by rwa [Nat.zero_add])
  refine ⟨?_, ?_, ?_⟩
  · intro i unended
    obtain ⟨ip, inside, length⟩ := length_of_run_eq_none straight unlimited unended
    exact ⟨by simpa [free] using ip, by simpa [free] using inside, length⟩
  · intro supplied
    refine ⟨_, _, runs, ne_underflow_of_front fun i inside => ?_⟩
    rw [← take_front (Nat.le_of_lt inside)]
    exact supplied i inside
  · intro k inside supplied short
    have supplied' : IsSupplied w.stack.length (program.front.take k) := by
      intro i before
      have below : i < k := List.length_take_of_le (Nat.le_of_lt inside) ▸ before
      rw [List.getElem_take, List.take_take, Nat.min_eq_left (Nat.le_of_lt below),
        ← take_front (Nat.le_of_lt (Nat.lt_trans below inside))]
      exact supplied i below
    obtain ⟨fault, failed, few, precise⟩ := fails_of_short (w := w) inside supplied' (by
      rwa [← take_front (Nat.le_of_lt inside)])
    have ip : (free.behind (pass program.toList w)).ip = (pass program.toList w).count := by
      simp [free, behind, Passage.place, failed]
    have executed : free.run k = none ↔ (pass program.toList w).count = k + 1 := by
      have steps : free.steps + k < (free.behind (pass program.toList w)).steps ↔
          k < (pass program.toList w).count := by simp [free, behind]
      rw [run_eq_none_iff unlimited (runs program.size (Nat.le_refl _)), steps]
      omega
    refine ⟨fault, free.behind (pass program.toList w), fun fuel enough => ?_, ?_, ?_, ?_⟩
    · rw [runs fuel enough, failed]
    · rwa [ip]
    · rwa [ip]
    · rwa [executed]

theorem underflow_by_names_preempted :
    let program := ofList [.literal (.int 1), .op .dup, .op .print, .op .drop, .op .drop]
    let gone : IoFailure := { kind := .brokenPipe, message := "gone" }
    let broken : Stream := { writer := { writes := [some gone] } }
    program.hasJump = false ∧ 4 < program.front.length ∧
      (∃ after, run 5 { program, console := ({} : Buffer) } =
          some (.failed .stackUnderflow, after) ∧ after.ip = 5) ∧
      ∃ after, run 5 { program, console := broken } = some (.failed (.io "gone"), after) ∧
        after.ip ≤ 5 ∧ after.ip ≠ 5 := by
  intro program gone broken
  have straight : program.hasJump = false := by decide
  have inside : 4 < program.front.length := by decide
  have supplied : ∀ i (before : i < 4), (program.front[i].need : Int) ≤
      ([] : Stack).length + netOf (program.toList.take i) := by decide +revert
  have short : ([] : Stack).length + netOf (program.toList.take 4) <
      (program.front[4].need : Int) := by decide +revert
  refine ⟨straight, inside, ?_, ?_⟩
  · obtain ⟨last, ended⟩ : ∃ last, run 5 { program, console := ({} : Buffer) } =
        some (.failed .stackUnderflow, last) := ⟨_, rfl⟩
    obtain ⟨fault, after, runs, _, precise, _⟩ :=
      (underflow_by_names straight [] ({} : Buffer)).2.2 4 inside supplied short
    cases (runs 5 (Nat.le_refl 5)).symm.trans ended
    exact ⟨last, ended, precise.mp rfl⟩
  · obtain ⟨last, ended⟩ : ∃ last, run 5 { program, console := broken } =
        some (.failed (.io "gone"), last) := ⟨_, rfl⟩
    obtain ⟨fault, after, runs, few, precise, _⟩ :=
      (underflow_by_names straight [] broken).2.2 4 inside supplied short
    cases (runs 5 (Nat.le_refl 5)).symm.trans ended
    exact ⟨last, ended, few, mt precise.mpr nofun⟩

end Program

end StackMachine
