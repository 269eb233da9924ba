import StackMachine.Proofs.Machine.Fetches
import StackMachine.Proofs.Machine.StackDepth

/-!
# Straight-line programs end

In a program without jumps each step takes the next element, whether the one before it failed or
not, and behind an exit no element is left. So such a program is through after at most as many steps
as it has elements, and the place in it and the count of steps tell the same. `Paced` says how so
many steps in a row go, and a run is steps in a row up to the first one that does not go on.
-/

namespace StackMachine

/-- The answer of the last step of a run. A run that finished has no step of its own for that. -/
def Ending.last : Ending → List (Except Fault Flow)
  | finished => []
  | exited => [.ok .exit]
  | failed fault => [.error fault]

namespace Machine

variable {γ : Type} [Console γ]

/-! ## Steps in a row -/

theorem stepTimes_add (m n : Nat) (machine : Machine γ) :
    machine.stepTimes (m + n) =
      ((machine.stepTimes m).1 ++ ((machine.stepTimes m).2.stepTimes n).1,
        ((machine.stepTimes m).2.stepTimes n).2) := by
  induction m generalizing machine with
  | zero => rw [Nat.zero_add]; rfl
  | succ m ih => rw [Nat.add_right_comm, stepTimes_succ, stepTimes_succ, ih]; rfl

theorem stepTimes_one_more (n : Nat) (machine : Machine γ) :
    machine.stepTimes (n + 1) =
      ((machine.stepTimes n).1 ++ [(step.run (machine.stepTimes n).2).1],
        (step.run (machine.stepTimes n).2).2) :=
  stepTimes_add n 1 machine

theorem run_step_of_stepTimes {machine after : Machine γ} {n : Nat}
    {answers : List (Except Fault Flow)} {answer : Except Fault Flow}
    (taken : machine.stepTimes (n + 1) = (answers ++ [answer], after)) :
    step.run (machine.stepTimes n).2 = (answer, after) := by
  rw [stepTimes_one_more, Prod.mk.injEq] at taken
  exact Prod.ext (List.singleton_inj.mp (List.append_inj' taken.1 rfl).2) taken.2

theorem stepTimes_keeps (n : Nat) (machine : Machine γ) :
    (machine.stepTimes n).2.program = machine.program ∧
      (machine.stepTimes n).2.stepLimit = machine.stepLimit := by
  induction n with
  | zero => exact ⟨rfl, rfl⟩
  | succ n ih =>
    have sound := sound_step (machine.stepTimes n).2
    rw [stepTimes_one_more]
    exact ⟨sound.program_eq.trans ih.1, sound.stepLimit_eq.trans ih.2⟩

theorem stepTimes_of_size_le {machine : Machine γ} (past : machine.program.size ≤ machine.ip)
    (n : Nat) : (machine.stepTimes n).2 = machine ∧ machine.stepFetches n = [] := by
  have unfetched : machine.fetch? = none := if_neg fun fetched => absurd fetched.1 (by omega)
  induction n with
  | zero => exact ⟨rfl, rfl⟩
  | succ n ih => simpa [stepTimes_succ, stepFetches, run_step_of_size_le past, unfetched] using ih

/-! ## Runs as steps in a row -/

def GoesOn (machine : Machine γ) (n : Nat) : Prop :=
  (machine.stepTimes n).1 = List.replicate n (.ok .next)

instance (machine : Machine γ) (n : Nat) : Decidable (machine.GoesOn n) :=
  inferInstanceAs (Decidable (_ = _))

theorem goesOn_succ {machine : Machine γ} {n : Nat} :
    machine.GoesOn (n + 1) ↔
      (step.run machine).1 = .ok .next ∧ (step.run machine).2.GoesOn n := by
  rw [GoesOn, stepTimes_succ, List.replicate_succ, List.cons.injEq]
  rfl

theorem goesOn_one_more {machine : Machine γ} {n : Nat} :
    machine.GoesOn (n + 1) ↔
      machine.GoesOn n ∧ (step.run (machine.stepTimes n).2).1 = .ok .next := by
  rw [GoesOn, stepTimes_one_more, List.replicate_succ']
  constructor
  · intro same
    obtain ⟨going, answer⟩ := List.append_inj' same rfl
    exact ⟨going, List.singleton_inj.mp answer⟩
  · rintro ⟨going, answer⟩
    rw [going, answer]

theorem GoesOn.of_le {machine : Machine γ} {m n : Nat} (going : machine.GoesOn n) (le : m ≤ n) :
    machine.GoesOn m := by
  induction le with
  | refl => exact going
  | step _ ih => exact ih (goesOn_one_more.mp going).1

theorem run_of_goesOn {machine : Machine γ} {n : Nat} (going : machine.GoesOn n) (fuel : Nat) :
    machine.run (n + fuel) = (machine.stepTimes n).2.run fuel := by
  induction n generalizing machine with
  | zero =>
    rw [Nat.zero_add]
    rfl
  | succ n ih =>
    obtain ⟨answer, going⟩ := goesOn_succ.mp going
    rw [Nat.add_right_comm, stepTimes_succ, ← ih going]
    by_cases past : machine.program.size ≤ machine.ip
    · rw [run_step_of_size_le past, run_of_size_le past, run_of_size_le past]
    · rw [run_succ_of_lt (Nat.lt_of_not_le past)]
      generalize step.run machine = result at answer ⊢
      obtain ⟨_, after⟩ := result
      cases answer
      rfl

theorem stepTimes_of_run {machine after : Machine γ} {fuel : Nat} {ending : Ending}
    (ended : machine.run fuel = some (ending, after)) :
    ∃ n, machine.GoesOn n ∧
      machine.stepTimes (n + ending.last.length) =
        (List.replicate n (.ok .next) ++ ending.last, after) ∧
      machine.stepFetches (n + ending.last.length) = machine.fetches fuel ∧
      ∀ i < n + ending.last.length, ¬ (machine.stepTimes i).2.isHalted := by
  fun_induction machine.run fuel with
  | case1 fuel machine halted =>
    cases ended
    refine ⟨0, rfl, rfl, ?_, by simp [Ending.last]⟩
    cases fuel with
    | zero => rfl
    | succ fuel => exact (if_pos halted).symm
  | case2 => cases ended
  | case3 machine running fuel between stepped ih =>
    obtain ⟨n, going, taken, fetched, running'⟩ := ih ended
    refine ⟨n + 1, goesOn_succ.mpr (by rw [stepped]; exact ⟨rfl, going⟩), ?_, ?_, ?_⟩
    · rw [Nat.add_right_comm, stepTimes_succ, stepped, taken]
      rfl
    · rw [Nat.add_right_comm, stepFetches, fetches, if_neg running, stepped, fetched]
    · intro i below
      cases i with
      | zero => exact running
      | succ i =>
        rw [stepTimes_succ, stepped]
        exact running' i (by omega)
  | case4 machine running fuel between stepped =>
    cases ended
    refine ⟨0, rfl, ?_, ?_, ?_⟩
    · simp [Ending.last, stepTimes, stepped]
    · simp [Ending.last, stepFetches, fetches, running, stepped]
    · simpa [Ending.last, stepTimes] using running
  | case5 machine running fuel fault between stepped =>
    cases ended
    refine ⟨0, rfl, ?_, ?_, ?_⟩
    · simp [Ending.last, stepTimes, stepped]
    · simp [Ending.last, stepFetches, fetches, running, stepped]
    · simpa [Ending.last, stepTimes] using running

theorem run_of_last {machine : Machine γ} {n : Nat} (going : machine.GoesOn n) {ending : Ending}
    (last : ending.last = [(step.run (machine.stepTimes n).2).1])
    (other : (step.run (machine.stepTimes n).2).1 ≠ .ok .next) :
    machine.run (n + 1) = some (ending, (machine.stepTimes (n + 1)).2) := by
  have running : (machine.stepTimes n).2.ip < (machine.stepTimes n).2.program.size := by
    refine Nat.lt_of_not_le fun past => other ?_
    rw [run_step_of_size_le past]
  rw [run_of_goesOn going, run_succ_of_lt running, stepTimes_one_more]
  generalize step.run (machine.stepTimes n).2 = result at last other
  obtain ⟨answer, after⟩ := result
  cases ending with
  | finished => cases last
  | exited =>
    cases last
    rfl
  | failed fault =>
    cases last
    rfl

/-! ## The pace of a straight-line program -/

/-- The machine takes the next `count` elements one by one, and then it is halted for good. -/
structure Paced (machine : Machine γ) (count : Nat) : Prop where
  inside : machine.ip + count ≤ machine.program.size
  ip_eq (n : Nat) : n < count → (machine.stepTimes n).2.ip = machine.ip + n
  steps_eq (n : Nat) : n ≤ count → (machine.stepTimes n).2.steps = machine.steps + n
  past : machine.program.size ≤ (machine.stepTimes count).2.ip
  fetches_eq (n : Nat) : machine.stepFetches n = List.range' machine.ip (min n count)

theorem step_straight {machine : Machine γ} (straight : machine.program.hasJump = false)
    (unlimited : machine.stepLimit = none) (inside : machine.ip < machine.program.size) :
    ((step.run machine).1 = .ok .exit ↔ machine.program.elements[machine.ip] = .op .exit) ∧
      (step.run machine).2.ip =
        Flow.place machine.program.size (machine.ip + 1) (step.run machine).1 ∧
      (step.run machine).2.steps = machine.steps + 1 := by
  have found : machine.program.elements[machine.ip]? = some machine.program.elements[machine.ip] :=
    Array.getElem?_eq_getElem inside
  rw [run_step found (ne_jump_of_getElem? straight found) (by simp [unlimited])]
  exact ⟨Element.exits_iff _ _, rfl, rfl⟩

theorem paced_of_halted {machine : Machine γ} (past : machine.ip = machine.program.size) :
    machine.Paced 0 where
  inside := Nat.le_of_eq past
  ip_eq n below := absurd below (Nat.not_lt_zero n)
  steps_eq n none := by
    obtain rfl := Nat.le_zero.mp none
    rfl
  past := Nat.le_of_eq past.symm
  fetches_eq n := by
    rw [Nat.min_zero]
    exact (stepTimes_of_size_le (Nat.le_of_eq past.symm) n).2

theorem Paced.cons {machine : Machine γ} (straight : machine.program.hasJump = false)
    (unlimited : machine.stepLimit = none) (inside : machine.ip < machine.program.size)
    {count : Nat} (rest : (step.run machine).2.Paced count)
    (next : (step.run machine).2.ip = machine.ip + 1 ∨ count = 0) : machine.Paced (count + 1) := by
  have kept : (step.run machine).2.program = machine.program := program_step machine
  have counted := (step_straight straight unlimited inside).2.2
  have fetched : machine.fetch? = some machine.ip := if_pos ⟨inside, by simp [unlimited]⟩
  refine { inside := ?inside, ip_eq := ?ip_eq, steps_eq := ?steps_eq, past := ?past,
           fetches_eq := ?fetches_eq }
  case inside =>
    have within := rest.inside
    rw [kept] at within
    omega
  case ip_eq =>
    intro n below
    cases n with
    | zero => rfl
    | succ n =>
      have reached := rest.ip_eq n (by omega)
      show ((step.run machine).2.stepTimes n).2.ip = machine.ip + (n + 1)
      omega
  case steps_eq =>
    intro n below
    cases n with
    | zero => rfl
    | succ n =>
      have reached := rest.steps_eq n (by omega)
      show ((step.run machine).2.stepTimes n).2.steps = machine.steps + (n + 1)
      omega
  case past =>
    rw [stepTimes_succ, ← kept]
    exact rest.past
  case fetches_eq =>
    intro n
    cases n with
    | zero =>
      rw [Nat.zero_min]
      rfl
    | succ n =>
      rw [stepFetches, fetched, rest.fetches_eq, Nat.succ_min_succ, List.range'_succ]
      rcases next with next | rfl
      · rw [next]
        rfl
      · rw [Nat.min_zero]
        rfl

theorem exists_paced {machine : Machine γ} (straight : machine.program.hasJump = false)
    (unlimited : machine.stepLimit = none) (start : machine.ip ≤ machine.program.size) :
    ∃ count, machine.Paced count := by
  generalize left : machine.program.size - machine.ip = fuel
  induction fuel generalizing machine with
  | zero => exact ⟨0, paced_of_halted (by omega)⟩
  | succ fuel ih =>
    have inside : machine.ip < machine.program.size := by omega
    have kept : (step.run machine).2.program = machine.program := program_step machine
    have unlimited' : (step.run machine).2.stepLimit = none :=
      (sound_step machine).stepLimit_eq.trans unlimited
    obtain ⟨_, reached, _⟩ := step_straight straight unlimited inside
    by_cases exits : (step.run machine).1 = .ok .exit
    · rw [exits, Flow.place, ← kept] at reached
      exact ⟨1, (paced_of_halted reached).cons straight unlimited inside (.inr rfl)⟩
    · have next : (step.run machine).2.ip = machine.ip + 1 := by
        rw [reached]
        generalize (step.run machine).1 = answer at exits
        rcases answer with fault | flow
        · rfl
        cases flow with
        | next => rfl
        | exit => exact absurd rfl exits
      obtain ⟨count, rest⟩ := ih (by rwa [kept]) unlimited' (by rw [kept]; omega)
        (by rw [kept]; omega)
      exact ⟨count + 1, rest.cons straight unlimited inside (.inl next)⟩

namespace Paced

variable {machine : Machine γ} {count : Nat}

theorem stays (paced : machine.Paced count) {n : Nat} (le : count ≤ n) :
    (machine.stepTimes n).2 = (machine.stepTimes count).2 := by
  obtain ⟨more, rfl⟩ := Nat.exists_eq_add_of_le le
  have past := paced.past
  rw [← (stepTimes_keeps count machine).1] at past
  rw [stepTimes_add]
  exact (stepTimes_of_size_le past more).1

theorem isHalted_of_le (paced : machine.Paced count) {n : Nat} (le : count ≤ n) :
    (machine.stepTimes n).2.isHalted := by
  rw [paced.stays le, isHalted, (stepTimes_keeps count machine).1]
  exact decide_eq_true paced.past

theorem answers_next (paced : machine.Paced count) {n : Nat} (le : count ≤ n) :
    (step.run (machine.stepTimes n).2).1 = .ok .next := by
  have past : (machine.stepTimes n).2.program.size ≤ (machine.stepTimes n).2.ip := by
    simpa [isHalted] using paced.isHalted_of_le le
  rw [run_step_of_size_le past]

theorem step (paced : machine.Paced count) (straight : machine.program.hasJump = false)
    (unlimited : machine.stepLimit = none) {n : Nat} (below : n < count) :
    ((Machine.step.run (machine.stepTimes n).2).1 = .ok .exit ↔
        machine.program.elements[machine.ip + n]? = some (.op .exit)) ∧
      (machine.stepTimes (n + 1)).2.ip =
        Flow.place machine.program.size (machine.ip + n + 1)
          (Machine.step.run (machine.stepTimes n).2).1 := by
  obtain ⟨kept, unlimited'⟩ := stepTimes_keeps n machine
  have reached := paced.ip_eq n below
  have within := paced.inside
  have inside : (machine.stepTimes n).2.ip < (machine.stepTimes n).2.program.size := by
    rw [reached, kept]
    omega
  obtain ⟨exits, next, _⟩ :=
    step_straight (by rwa [kept]) (unlimited'.trans unlimited) inside
  refine ⟨?_, ?_⟩
  · rw [exits, ← Option.some_inj, ← Array.getElem?_eq_getElem inside, kept, reached]
  · rw [stepTimes_one_more, next, reached, kept]

theorem lt_of_goesOn (paced : machine.Paced count) (straight : machine.program.hasJump = false)
    (unlimited : machine.stepLimit = none) {n : Nat} (going : machine.GoesOn n)
    (inside : machine.ip + n < machine.program.size) : n < count := by
  refine Nat.lt_of_not_le fun le => ?_
  have past := paced.past
  cases count with
  | zero =>
    have start : machine.program.size ≤ machine.ip := past
    omega
  | succ count =>
    obtain ⟨_, answer⟩ := goesOn_one_more.mp (going.of_le le)
    have reached := (paced.step straight unlimited (Nat.lt_succ_self count)).2
    rw [answer, Flow.place] at reached
    · omega
    · simp

theorem of_run (paced : machine.Paced count) {fuel : Nat} {ending : Ending} {after : Machine γ}
    (ended : machine.run fuel = some (ending, after)) :
    ∃ n, machine.GoesOn n ∧ n + ending.last.length ≤ count ∧
      machine.stepTimes (n + ending.last.length) =
        (List.replicate n (.ok .next) ++ ending.last, after) ∧
      machine.fetches fuel = List.range' machine.ip (n + ending.last.length) ∧
      after.steps = machine.steps + (n + ending.last.length) := by
  obtain ⟨n, going, taken, fetched, running⟩ := stepTimes_of_run ended
  have le : n + ending.last.length ≤ count :=
    Nat.le_of_not_lt fun beyond => running count beyond (paced.isHalted_of_le (Nat.le_refl count))
  refine ⟨n, going, le, taken, ?_, ?_⟩
  · rw [← fetched, paced.fetches_eq, Nat.min_eq_left le]
  · rw [← paced.steps_eq _ le, taken]

theorem finished_of_goesOn (paced : machine.Paced count) {n : Nat} (le : count ≤ n)
    (going : machine.GoesOn n) : machine.run n = some (.finished, (machine.stepTimes n).2) := by
  have halted := paced.isHalted_of_le le
  rw [← Nat.add_zero n, run_of_goesOn going, run.eq_def, if_pos halted, Nat.add_zero]

theorem exited_of_goesOn (paced : machine.Paced count)
    (straight : machine.program.hasJump = false) (unlimited : machine.stepLimit = none) {i : Nat}
    (found : machine.program.elements[machine.ip + i]? = some (.op .exit))
    (going : machine.GoesOn i) :
    i < count ∧ machine.run (i + 1) = some (.exited, (machine.stepTimes (i + 1)).2) ∧
      (machine.stepTimes (i + 1)).2.ip = machine.program.size ∧
      ∀ j < i, machine.program.elements[machine.ip + j]? ≠ some (.op .exit) := by
  have below := paced.lt_of_goesOn straight unlimited going (Array.getElem?_eq_some_iff.mp found).1
  obtain ⟨exits, next⟩ := paced.step straight unlimited below
  have answer := exits.mpr found
  rw [answer] at next
  refine ⟨below, run_of_last going (by rw [answer]; rfl) (by simp [answer]), next, ?_⟩
  intro j before earlier
  have answer' := (goesOn_one_more.mp (going.of_le before)).2
  rw [(paced.step straight unlimited (Nat.lt_trans before below)).1.mpr earlier] at answer'
  cases answer'

theorem failed_of_goesOn (paced : machine.Paced count)
    (straight : machine.program.hasJump = false) (unlimited : machine.stepLimit = none) {i : Nat}
    {fault : Fault} (going : machine.GoesOn i)
    (fails : (Machine.step.run (machine.stepTimes i).2).1 = .error fault) :
    i < count ∧ machine.run (i + 1) = some (.failed fault, (machine.stepTimes (i + 1)).2) ∧
      (machine.stepTimes (i + 1)).2.ip = machine.ip + i + 1 := by
  have below : i < count := by
    refine Nat.lt_of_not_le fun le => ?_
    cases fails.symm.trans (paced.answers_next le)
  have next := (paced.step straight unlimited below).2
  rw [fails] at next
  exact ⟨below, run_of_last going (by rw [fails]; rfl) (by simp [fails]), next⟩

theorem exited_iff (paced : machine.Paced count) (straight : machine.program.hasJump = false)
    (unlimited : machine.stepLimit = none) {fuel : Nat} {ending : Ending} {after : Machine γ}
    (ended : machine.run fuel = some (ending, after)) :
    ending = .exited ↔
      ∃ i, machine.program.elements[machine.ip + i]? = some (.op .exit) ∧ machine.GoesOn i := by
  constructor
  · rintro rfl
    obtain ⟨n, going, le, taken, _⟩ := paced.of_run ended
    have last := congrArg Prod.fst (run_step_of_stepTimes taken)
    exact ⟨n, (paced.step straight unlimited (Nat.lt_of_succ_le le)).1.mp last, going⟩
  · rintro ⟨i, found, going⟩
    have exits := (paced.exited_of_goesOn straight unlimited found going).2.1
    exact congrArg Prod.fst (run_unique ended exits)

theorem failed_iff (paced : machine.Paced count) (straight : machine.program.hasJump = false)
    (unlimited : machine.stepLimit = none) {fuel : Nat} {ending : Ending} {after : Machine γ}
    (ended : machine.run fuel = some (ending, after)) (fault : Fault) :
    ending = .failed fault ↔
      ∃ i, machine.GoesOn i ∧ (Machine.step.run (machine.stepTimes i).2).1 = .error fault := by
  constructor
  · rintro rfl
    obtain ⟨n, going, _, taken, _⟩ := paced.of_run ended
    exact ⟨n, going, congrArg Prod.fst (run_step_of_stepTimes taken)⟩
  · rintro ⟨i, going, failed⟩
    have fails := (paced.failed_of_goesOn straight unlimited going failed).2.1
    exact congrArg Prod.fst (run_unique ended fails)

end Paced

section Straight

variable {program : Program}

theorem exists_paced_start (straight : program.hasJump = false) (stack : Stack) (console : γ) :
    let start : Machine γ := { program, stack, console }
    ∃ count ≤ program.size, start.Paced count ∧
      ∀ n ≤ count, (start.stepTimes n).2.steps = n ∧ (n < count → (start.stepTimes n).2.ip = n) := by
  intro start
  obtain ⟨count, paced⟩ : ∃ count, start.Paced count :=
    exists_paced straight rfl (Nat.zero_le _)
  refine ⟨count, by simpa [start] using paced.inside, paced, fun n le => ⟨?_, fun below => ?_⟩⟩
  · exact (paced.steps_eq n le).trans (Nat.zero_add n)
  · exact (paced.ip_eq n below).trans (Nat.zero_add n)

theorem straight_run_ends (straight : program.hasJump = false) (stack : Stack) (console : γ) :
    let start : Machine γ := { program, stack, console }
    let answer (n : Nat) := (step.run (start.stepTimes n).2).1
    ∃ ending after,
      (∀ fuel, program.size ≤ fuel →
        start.run fuel = some (ending, after) ∧ start.fetches fuel = List.range after.steps) ∧
      after.steps ≤ program.size ∧
      (∀ n < after.steps, (start.stepTimes n).2.ip = n ∧ (start.stepTimes n).2.steps = n) ∧
      (ending = .finished ↔ start.GoesOn program.size) ∧
      (ending = .finished → after.steps = program.size) ∧
      (ending = .exited ↔ ∃ i, program.elements[i]? = some (.op .exit) ∧ start.GoesOn i) ∧
      (∀ i, program.elements[i]? = some (.op .exit) → start.GoesOn i →
        (∀ j < i, program.elements[j]? ≠ some (.op .exit)) ∧
          after.steps = i + 1 ∧ after.ip = program.size) ∧
      (∀ fault, ending = .failed fault ↔ ∃ i, start.GoesOn i ∧ answer i = .error fault) ∧
      ∀ i fault, start.GoesOn i → answer i = .error fault →
        after.steps = i + 1 ∧ after.ip = i + 1 := by
  intro start answer
  obtain ⟨count, inside, paced, front⟩ := exists_paced_start straight stack console
  have ended (fuel : Nat) (enough : program.size ≤ fuel) :
      start.run fuel = some ((pass program.toList start.workspace).ending,
        start.behind (pass program.toList start.workspace)) :=
    run_straight straight rfl (by rwa [Nat.zero_add])
  have whole : (pass program.toList start.workspace).ending = .finished →
      (start.behind (pass program.toList start.workspace)).steps = program.size :=
    fun finished => (Nat.zero_add _).trans (count_of_finished finished)
  generalize (pass program.toList start.workspace).ending = ending at ended whole
  generalize start.behind (pass program.toList start.workspace) = after at ended whole
  have run_eq := ended program.size (Nat.le_refl _)
  obtain ⟨n, going, le, _, _, counted⟩ := paced.of_run run_eq
  rw [Nat.zero_add] at counted
  have exited := paced.exited_iff straight rfl run_eq
  simp only [Nat.zero_add] at exited
  refine ⟨ending, after, ?_, by omega, ?_, ?_, whole, exited, ?_,
    paced.failed_iff straight rfl run_eq, ?_⟩
  · intro fuel enough
    obtain ⟨_, _, _, _, fetched, counted'⟩ := paced.of_run (ended fuel enough)
    rw [Nat.zero_add] at counted'
    rw [fetched, counted', List.range_eq_range']
    exact ⟨ended fuel enough, rfl⟩
  · intro i before
    obtain ⟨steps, ip⟩ := front i (by omega)
    exact ⟨ip (by omega), steps⟩
  · constructor
    · rintro rfl
      have reached := whole rfl
      rw [counted] at reached
      exact reached ▸ going
    · intro going
      exact congrArg Prod.fst (run_unique run_eq (paced.finished_of_goesOn inside going))
  · intro i found going
    obtain ⟨below, ran, ip, first⟩ :=
      paced.exited_of_goesOn straight rfl (by rwa [Nat.zero_add]) going
    obtain rfl : after = (start.stepTimes (i + 1)).2 := congrArg Prod.snd (run_unique run_eq ran)
    exact ⟨fun j before => by simpa only [Nat.zero_add] using first j before,
      (front (i + 1) below).1, ip⟩
  · intro i fault going failed
    obtain ⟨below, ran, ip⟩ := paced.failed_of_goesOn straight rfl going failed
    obtain rfl : after = (start.stepTimes (i + 1)).2 := congrArg Prod.snd (run_unique run_eq ran)
    exact ⟨(front (i + 1) below).1, by rw [ip, Nat.zero_add]⟩

theorem straight_steps_end (straight : program.hasJump = false) (stack : Stack) (console : γ) :
    let start : Machine γ := { program, stack, console }
    let answer (n : Nat) := (step.run (start.stepTimes n).2).1
    ∃ count ≤ program.size,
      (∀ n < count, (start.stepTimes n).2.ip = n ∧ (start.stepTimes n).2.steps = n) ∧
      (∀ n < count, ∀ fault, answer n = .error fault → (start.stepTimes (n + 1)).2.ip = n + 1) ∧
      (start.stepTimes count).2.isHalted ∧ (start.stepTimes count).2.steps = count ∧
      (∀ n, count ≤ n → (start.stepTimes n).2 = (start.stepTimes count).2) ∧
      ∀ n, start.stepFetches n = List.range (min n count) := by
  intro start answer
  obtain ⟨count, inside, paced, front⟩ := exists_paced_start straight stack console
  refine ⟨count, inside, fun n below => ?_, fun n below fault failed => ?_,
    paced.isHalted_of_le (Nat.le_refl count), (front count (Nat.le_refl count)).1,
    fun n => paced.stays, fun n => ?_⟩
  · obtain ⟨steps, ip⟩ := front n (Nat.le_of_lt below)
    exact ⟨ip below, steps⟩
  · have next := (paced.step straight rfl below).2
    rw [show (step.run (start.stepTimes n).2).1 = .error fault from failed] at next
    exact next.trans (congrArg (· + 1) (Nat.zero_add n))
  · rw [paced.fetches_eq, List.range_eq_range']

end Straight

/-- A straight-line program is through after at most as many steps as it has elements, whether they
are taken by a run or one by one with every fault ignored. In front of each step the place is the
number of steps before it. A run finishes if all elements go on, exits at the first exit that is
reached, and fails right behind the element that fails. -/
theorem straight_line_ends {program : Program} (straight : program.hasJump = false) (stack : Stack)
    (console : γ) :
    let start : Machine γ := { program, stack, console }
    let answer (n : Nat) := (step.run (start.stepTimes n).2).1
    (∃ ending after,
      (∀ fuel, program.size ≤ fuel →
        start.run fuel = some (ending, after) ∧ start.fetches fuel = List.range after.steps) ∧
      after.steps ≤ program.size ∧
      (∀ n < after.steps, (start.stepTimes n).2.ip = n ∧ (start.stepTimes n).2.steps = n) ∧
      (ending = .finished ↔ start.GoesOn program.size) ∧
      (ending = .finished → after.steps = program.size) ∧
      (ending = .exited ↔ ∃ i, program.elements[i]? = some (.op .exit) ∧ start.GoesOn i) ∧
      (∀ i, program.elements[i]? = some (.op .exit) → start.GoesOn i →
        (∀ j < i, program.elements[j]? ≠ some (.op .exit)) ∧
          after.steps = i + 1 ∧ after.ip = program.size) ∧
      (∀ fault, ending = .failed fault ↔ ∃ i, start.GoesOn i ∧ answer i = .error fault) ∧
      ∀ i fault, start.GoesOn i → answer i = .error fault →
        after.steps = i + 1 ∧ after.ip = i + 1) ∧
    ∃ count ≤ program.size,
      (∀ n < count, (start.stepTimes n).2.ip = n ∧ (start.stepTimes n).2.steps = n) ∧
      (∀ n < count, ∀ fault, answer n = .error fault → (start.stepTimes (n + 1)).2.ip = n + 1) ∧
      (start.stepTimes count).2.isHalted ∧ (start.stepTimes count).2.steps = count ∧
      (∀ n, count ≤ n → (start.stepTimes n).2 = (start.stepTimes count).2) ∧
      ∀ n, start.stepFetches n = List.range (min n count) := by
  intro start answer
  exact ⟨straight_run_ends straight stack console, straight_steps_end straight stack console⟩

theorem straight_line_ends_exiting :
    let program := Program.ofList [.literal (.int 1), .op .drop, .op .drop, .literal (.int 7),
      .op .exit, .word "never"]
    let start : Machine Silence := { program, console := {} }
    program.hasJump = false ∧
      (∃ after, start.run 6 = some (.failed .stackUnderflow, after) ∧
        start.fetches 6 = [0, 1, 2] ∧ after.steps = 3 ∧ after.ip = 3) ∧
      start.stepFetches 100 = [0, 1, 2, 3, 4] ∧ (start.stepTimes 100).2.isHalted ∧
      (start.stepTimes 100).2.steps = 5 := by
  intro program start
  have straight : program.hasJump = false := by decide
  have going : start.GoesOn 2 := by decide +kernel
  have failed : (step.run (start.stepTimes 2).2).1 = .error .stackUnderflow := by decide +kernel
  obtain ⟨⟨ending, after, ended, _, _, _, _, _, _, fails, counted⟩, count, le, _, _, halted, steps,
    stays, fetched⟩ := straight_line_ends straight [] ({} : Silence)
  obtain ⟨ran, indices⟩ := ended 6 (Nat.le_refl 6)
  obtain rfl := (fails .stackUnderflow).mpr ⟨2, going, failed⟩
  obtain ⟨third, place⟩ := counted 2 .stackUnderflow going failed
  rw [third] at indices
  obtain rfl : count = 5 := by
    have six : (start.stepTimes 6).2.steps = 5 := by decide +kernel
    rw [stays 6 le] at six
    exact steps.symm.trans six
  rw [stays 100 (by decide)]
  exact ⟨straight, ⟨after, ran, indices, third, place⟩, fetched 100, halted, steps⟩

end Machine

end StackMachine
