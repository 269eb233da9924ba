import StackMachine.Proofs.Machine.Faults
import StackMachine.Proofs.Machine.Steps

/-!
# Uses of machines

A host may take steps and runs in any order, reach for the stack and the console in between, apply
operations by themselves and go on behind every failure. `Sound` is what all of this keeps to: the
place stays in the program or right behind it, and the elements that were executed are counted
against the limit. It composes, so a use is as sound as the elements and requests it consists of.
-/

namespace StackMachine

open StackMachine.Action Machine

theorem Program.lt_size_of_index? {program : Program} {target : Value} {place : Nat}
    (found : program.index? target = some place) : place < program.size := by
  cases target with
  | text s => cases found
  | int n =>
    rw [index?] at found
    split at found
    · rename_i inside
      cases found
      omega
    · cases found

def Ending.fault? : Ending → Option Fault
  | failed fault => some fault
  | _ => none

namespace Machine

variable {γ : Type}

/-! ## Soundness -/

/-- The number of steps that were taken, those that the limit refused left out. -/
def taken (machine : Machine γ) : Nat :=
  match machine.stepLimit with
  | none => machine.steps
  | some limit => min machine.steps limit

theorem taken_le {machine : Machine γ} {limit : Nat} (limited : limit ∈ machine.stepLimit) :
    machine.taken ≤ limit := by
  rw [taken, Option.mem_def.mp limited]
  exact Nat.min_le_right _ _

/-- What holds between a machine and the one that is left after the elements at the given indices
were executed. -/
structure Sound (machine : Machine γ) (executed : List Nat) (after : Machine γ) : Prop where
  program_eq : after.program = machine.program
  stepLimit_eq : after.stepLimit = machine.stepLimit
  ip_le : machine.ip ≤ machine.program.size → after.ip ≤ machine.program.size
  inside : ∀ i ∈ executed, i < machine.program.size
  steps_le : machine.steps ≤ after.steps
  taken_eq : after.taken = machine.taken + executed.length

namespace Sound

variable {machine between after : Machine γ} {executed fetched : List Nat}

theorem nil (program_eq : after.program = machine.program)
    (stepLimit_eq : after.stepLimit = machine.stepLimit) (steps_eq : after.steps = machine.steps)
    (ip_le : machine.ip ≤ machine.program.size → after.ip ≤ machine.program.size) :
    Sound machine [] after where
  program_eq := program_eq
  stepLimit_eq := stepLimit_eq
  ip_le := ip_le
  inside := by simp
  steps_le := Nat.le_of_eq steps_eq.symm
  taken_eq := by
    simp only [taken, stepLimit_eq, steps_eq]
    rfl

theorem refl (machine : Machine γ) : Sound machine [] machine :=
  nil rfl rfl rfl id

theorem trans (first : Sound machine executed between) (rest : Sound between fetched after) :
    Sound machine (executed ++ fetched) after where
  program_eq := rest.program_eq.trans first.program_eq
  stepLimit_eq := rest.stepLimit_eq.trans first.stepLimit_eq
  ip_le start := by
    have reached := rest.ip_le
    rw [first.program_eq] at reached
    exact reached (first.ip_le start)
  inside i member := by
    rcases List.mem_append.mp member with before | behind
    · exact first.inside i before
    · rw [← first.program_eq]
      exact rest.inside i behind
  steps_le := Nat.le_trans first.steps_le rest.steps_le
  taken_eq := by rw [rest.taken_eq, first.taken_eq, List.length_append, Nat.add_assoc]

theorem of_workspace (reaches : after = machine.withWorkspace after.workspace) :
    Sound machine [] after := by
  rw [reaches]
  exact nil rfl rfl rfl id

theorem withIp {place : Nat} (inside : place ≤ machine.program.size) :
    Sound machine [] { machine with ip := place } :=
  nil rfl rfl rfl fun _ => inside

theorem begun (inside : machine.ip < machine.program.size)
    (within : ∀ limit ∈ machine.stepLimit, machine.steps < limit) :
    Sound machine [machine.ip] machine.begun where
  program_eq := rfl
  stepLimit_eq := rfl
  ip_le _ := inside
  inside := by simpa using inside
  steps_le := Nat.le_succ _
  taken_eq := by
    simp only [taken, Machine.begun]
    cases limited : machine.stepLimit with
    | none => rfl
    | some limit =>
      have below := within limit limited
      show min (machine.steps + 1) limit = min machine.steps limit + 1
      omega

theorem refused {limit : Nat} (limited : machine.stepLimit = some limit)
    (reached : limit ≤ machine.steps) :
    Sound machine [] { machine with steps := machine.steps + 1 } where
  program_eq := rfl
  stepLimit_eq := rfl
  ip_le := id
  inside := by simp
  steps_le := Nat.le_succ _
  taken_eq := by
    simp only [taken, limited]
    show min (machine.steps + 1) limit = min machine.steps limit
    omega

end Sound

/-! ## Elements -/

variable [Console γ]

theorem jump_cases (machine : Machine γ) :
    (∃ fault stack, (perform .jump).run machine = (.error fault, { machine with stack })) ∨
      ∃ stack place, place < machine.program.size ∧
        (perform .jump).run machine = (.ok (), { machine with stack, ip := place }) := by
  obtain short | ⟨operands, stack, taken, shape⟩ := Op.jump.short_or_supplied machine.stack
  · exact .inl ⟨_, [], run_perform_of_short short⟩
  obtain ⟨target, rfl⟩ := List.length_eq_one_iff.mp taken
  rw [run_perform_operands taken shape, Op.deed, enact, run_jump]
  cases found : machine.program.index? target with
  | none => exact .inl ⟨_, stack, rfl⟩
  | some place => exact .inr ⟨stack, place, Program.lt_size_of_index? found, rfl⟩

theorem sound_perform (op : Op) (machine : Machine γ) :
    Sound machine [] ((perform op).run machine).2 := by
  by_cases jumps : op = .jump
  · subst jumps
    obtain ⟨fault, stack, ran⟩ | ⟨stack, place, inside, ran⟩ := jump_cases machine
    · rw [ran]
      exact .of_workspace rfl
    · have popped : Sound machine [] { machine with stack } := .of_workspace rfl
      rw [ran]
      exact popped.trans (.withIp (Nat.le_of_lt inside))
  · rw [run_perform jumps]
    exact .of_workspace rfl

theorem sound_execute (element : Element) (machine : Machine γ) :
    Sound machine [] ((execute element).run machine).2 := by
  cases element with
  | literal v => exact .of_workspace rfl
  | word word => exact .refl machine
  | op op =>
    have performed := sound_perform op machine
    rw [run_execute_op]
    generalize (perform op).run machine = result at performed ⊢
    obtain ⟨answer, after⟩ := result
    cases answer with
    | error fault => exact performed
    | ok _ =>
      cases op.flow with
      | next => exact performed
      | exit => exact performed.trans (.withIp (Nat.le_refl _))

/-! ## Steps and runs -/

def fetch? (machine : Machine γ) : Option Nat :=
  if machine.ip < machine.program.size ∧ ∀ limit ∈ machine.stepLimit, machine.steps < limit then
    some machine.ip
  else none

def fetches : Nat → Machine γ → List Nat
  | 0, _ => []
  | fuel + 1, machine =>
    if machine.isHalted then []
    else
      machine.fetch?.toList ++
        match step.run machine with
        | (.ok .next, after) => fetches fuel after
        | _ => []

theorem fetch_cases (machine : Machine γ) :
    (machine.fetch? = none ∧ step.run machine = (.ok .next, machine)) ∨
    (∃ limit, machine.fetch? = none ∧ machine.stepLimit = some limit ∧ limit ≤ machine.steps ∧
      step.run machine = (.error (.stepLimit limit), { machine with steps := machine.steps + 1 })) ∨
    (∃ element, machine.fetch? = some machine.ip ∧
      machine.program.elements[machine.ip]? = some element ∧
      (∀ limit ∈ machine.stepLimit, machine.steps < limit) ∧
      step.run machine = (execute element).run machine.begun) := by
  obtain ⟨past, ran⟩ | ⟨limit, inside, limited, reached, ran⟩ | ⟨element, found, within, ran⟩ :=
    step_cases machine
  · have none : machine.fetch? = none := if_neg fun fetched => absurd fetched.1 (by omega)
    exact .inl ⟨none, ran⟩
  · have none : machine.fetch? = none :=
      if_neg fun fetched => absurd (fetched.2 limit limited) (by omega)
    exact .inr (.inl ⟨limit, none, limited, reached, ran⟩)
  · have inside : machine.ip < machine.program.size := (Array.getElem?_eq_some_iff.mp found).1
    exact .inr (.inr ⟨element, if_pos ⟨inside, within⟩, found, within, ran⟩)

theorem run_step_of_fetch?_eq_some {machine : Machine γ} {i : Nat}
    (fetched : machine.fetch? = some i) :
    ∃ element, machine.program.elements[i]? = some element ∧
      step.run machine = (execute element).run machine.begun := by
  obtain ⟨none, _⟩ | ⟨limit, none, _⟩ | ⟨element, some, found, _, ran⟩ := fetch_cases machine
  · cases none.symm.trans fetched
  · cases none.symm.trans fetched
  · cases some.symm.trans fetched
    exact ⟨element, found, ran⟩

theorem run_step_of_fetch?_eq_none {machine : Machine γ} (unfetched : machine.fetch? = none) :
    ∃ steps, (step.run machine).2 = { machine with steps } := by
  obtain ⟨_, ran⟩ | ⟨limit, _, _, _, ran⟩ | ⟨element, some, _⟩ := fetch_cases machine
  · exact ⟨machine.steps, by rw [ran]⟩
  · exact ⟨machine.steps + 1, by rw [ran]⟩
  · cases some.symm.trans unfetched

theorem sound_step (machine : Machine γ) :
    Sound machine machine.fetch?.toList (step.run machine).2 := by
  obtain ⟨fetched, ran⟩ | ⟨limit, fetched, limited, reached, ran⟩ |
    ⟨element, fetched, found, within, ran⟩ := fetch_cases machine
  · rw [fetched, ran]
    exact .refl machine
  · rw [fetched, ran]
    exact .refused limited reached
  · have inside : machine.ip < machine.program.size := (Array.getElem?_eq_some_iff.mp found).1
    rw [fetched, ran]
    exact (Sound.begun inside within).trans (sound_execute element machine.begun)

theorem exists_sound_fetches (fuel : Nat) (machine : Machine γ) :
    ∃ after, Sound machine (machine.fetches fuel) after ∧
      ∀ ending last, machine.run fuel = some (ending, last) → last = after := by
  induction fuel generalizing machine with
  | zero =>
    refine ⟨machine, .refl machine, fun ending last ended => ?_⟩
    rw [run.eq_def] at ended
    split at ended <;> cases ended
    rfl
  | succ fuel ih =>
    rw [fetches, run]
    by_cases halted : machine.isHalted
    · rw [if_pos halted, if_pos halted]
      refine ⟨machine, .refl machine, fun ending last ended => ?_⟩
      cases ended
      rfl
    rw [if_neg halted, if_neg halted]
    have first := sound_step machine
    generalize step.run machine = result at first ⊢
    obtain ⟨answer, between⟩ := result
    rcases answer with fault | flow
    · refine ⟨between, first.trans (.refl between), fun ending last ended => ?_⟩
      cases ended
      rfl
    cases flow with
    | exit =>
      refine ⟨between, first.trans (.refl between), fun ending last ended => ?_⟩
      cases ended
      rfl
    | next =>
      obtain ⟨after, rest, reached⟩ := ih between
      exact ⟨after, first.trans rest, reached⟩

/-! ## Uses -/

inductive Request where
  | apply (op : Op)
  | push (v : Value)
  | pop
  | dup
  | readLine
  | write (text : String)

def fault? {α : Type} : Except Fault α → Option Fault
  | .ok _ => none
  | .error fault => some fault

def serve (request : Request) (machine : Machine γ) : Option Fault × Machine γ :=
  match request with
  | .apply op => report (Machine.apply op)
  | .push v => report (Machine.push v)
  | .pop => report Machine.pop
  | .dup => report (onStack Stack.dup)
  | .readLine => report (onConsole Console.readLine)
  | .write text => report (onConsole (Console.write text))
where
  report {α : Type} (action : Action Fault (Machine γ) α) : Option Fault × Machine γ :=
    let (answer, after) := action.run machine
    (fault? answer, after)

/-- One use of a machine, with the indices of the elements that it executed, the fault that it
answered if it failed, and the machine that it left. -/
inductive Use (machine : Machine γ) : List Nat → Option Fault → Machine γ → Prop where
  | step : Use machine machine.fetch?.toList (fault? (step.run machine).1) (step.run machine).2
  | run {fuel : Nat} {ending : Ending} {after : Machine γ} :
      machine.run fuel = some (ending, after) →
        Use machine (machine.fetches fuel) ending.fault? after
  | request (request : Request) : Use machine [] (serve request machine).1 (serve request machine).2

inductive Uses (machine : Machine γ) : List Nat → Machine γ → Prop where
  | refl : Uses machine [] machine
  | next {executed fetched : List Nat} {fault : Option Fault} {between after : Machine γ} :
      Uses machine executed between → Use between fetched fault after →
        Uses machine (executed ++ fetched) after

variable {machine after : Machine γ} {executed : List Nat}

theorem sound_serve (request : Request) (machine : Machine γ) :
    Sound machine [] (serve request machine).2 := by
  cases request with
  | apply op =>
    have state : (serve (.apply op) machine).2 = ((perform op).run machine).2 := by
      simp only [serve, serve.report, apply, run_bind]
      rcases (perform op).run machine with ⟨answer, after⟩
      cases answer <;> rfl
    rw [state]
    exact sound_perform op machine
  | push v => exact .of_workspace rfl
  | pop => exact .of_workspace rfl
  | dup => exact .of_workspace rfl
  | readLine => exact .of_workspace rfl
  | write text => exact .of_workspace rfl

theorem Use.sound {fault : Option Fault} (use : Use machine executed fault after) :
    Sound machine executed after := by
  cases use with
  | step => exact sound_step machine
  | @run fuel ending after ended =>
    obtain ⟨reached, sound, same⟩ := exists_sound_fetches fuel machine
    rwa [same ending after ended]
  | request request => exact sound_serve request machine

theorem Uses.sound (uses : Uses machine executed after) : Sound machine executed after := by
  induction uses with
  | refl => exact .refl machine
  | next _ use ih => exact ih.trans use.sound

/-! ## Faults of uses -/

omit [Console γ] in
theorem fault?_eq_some {α : Type} {answer : Except Fault α} {fault : Fault}
    (failed : fault? answer = some fault) : answer = .error fault := by
  cases answer with
  | ok a => cases failed
  | error inner =>
    cases failed
    rfl

theorem fault_of_serve {allowed : Fault → Prop} (faults : Console.FaultsWithin γ allowed)
    {request : Request} {fault : Fault} (failed : (serve request machine).1 = some fault) :
    allowed fault := by
  have reported {α : Type} {action : Action Fault (Machine γ) α}
      (within : FailsWithin allowed action)
      (failed : (serve.report machine action).1 = some fault) : allowed fault :=
    within machine fault (fault?_eq_some failed)
  cases request with
  | apply op => exact reported (failsWithin_apply faults op) failed
  | push v => exact reported (failsWithin_push v) failed
  | pop => exact reported (failsWithin_pop faults) failed
  | dup => exact reported (failsWithin_perform faults .dup) failed
  | readLine => exact reported faults.readLine.within failed
  | write text => exact reported (faults.write text).within failed

/-! ## Refusals -/

def Exhausted (limit : Nat) (machine : Machine γ) : Prop :=
  machine.stepLimit = some limit ∧ limit ≤ machine.steps

def Refuses (limit : Nat) (machine : Machine γ) : Prop :=
  let refused := { machine with steps := machine.steps + 1 }
  step.run machine = (.error (.stepLimit limit), refused) ∧
    ∀ fuel, machine.run (fuel + 1) = some (.failed (.stepLimit limit), refused)

theorem Exhausted.refuses {limit : Nat} (exhausted : Exhausted limit machine)
    (running : ¬ machine.isHalted) : Refuses limit machine := by
  have inside : machine.ip < machine.program.size := by simpa [isHalted] using running
  have refused := run_step_of_le inside exhausted.1 exhausted.2
  refine ⟨refused, fun fuel => ?_⟩
  rw [run_succ_of_lt inside, refused]

omit [Console γ] in
theorem Exhausted.sound {limit : Nat} (exhausted : Exhausted limit machine)
    (sound : Sound machine executed after) : Exhausted limit after :=
  ⟨sound.stepLimit_eq.trans exhausted.1, Nat.le_trans exhausted.2 sound.steps_le⟩

theorem faultsWithin_ne_stepLimit [Console.Ordinary γ] :
    Console.FaultsWithin γ fun fault => ∀ limit, fault ≠ .stepLimit limit := by
  apply Console.Ordinary.faultsWithin
  · rintro _ own limit rfl
    exact own
  · rintro _ own limit rfl
    exact own

theorem exhausted_of_step [Console.Ordinary γ] {limit : Nat}
    (failed : step.run machine = (.error (.stepLimit limit), after)) : Exhausted limit after := by
  obtain ⟨_, ran⟩ | ⟨limit', _, limited, reached, ran⟩ | ⟨element, _, _, _, ran⟩ :=
    fetch_cases machine
  · rw [ran] at failed
    cases failed
  · rw [ran] at failed
    cases failed
    exact ⟨limited, Nat.le_succ_of_le reached⟩
  · have other := failsWithin_execute faultsWithin_ne_stepLimit element machine.begun
    rw [← ran, failed] at other
    exact absurd rfl (other (.stepLimit limit) rfl limit)

theorem exhausted_of_run [Console.Ordinary γ] {fuel limit : Nat}
    (failed : machine.run fuel = some (.failed (.stepLimit limit), after)) :
    Exhausted limit after := by
  fun_induction machine.run fuel with
  | case1 => cases failed
  | case2 => cases failed
  | case3 machine running fuel between stepped ih => exact ih failed
  | case4 => cases failed
  | case5 machine running fuel fault between stepped =>
    cases failed
    exact exhausted_of_step stepped

theorem Use.exhausted [Console.Ordinary γ] {limit : Nat}
    (use : Use machine executed (some (.stepLimit limit)) after) : Exhausted limit after := by
  -- `cases` takes the fault of each use apart only where it is a variable.
  generalize failed : some (Fault.stepLimit limit) = fault at use
  cases use with
  | step => exact exhausted_of_step (Prod.ext (fault?_eq_some failed.symm) rfl)
  | @run fuel ending _ ended =>
    cases ending with
    | finished => cases failed
    | exited => cases failed
    | failed fault =>
      cases failed
      exact exhausted_of_run ended
  | request request =>
    exact absurd rfl (fault_of_serve faultsWithin_ne_stepLimit failed.symm limit)

/-! ## All uses -/

theorem lt_size_of_jump {flow : Flow} (jumped : (apply .jump).run machine = (.ok flow, after)) :
    after.ip < machine.program.size := by
  rw [apply, run_bind] at jumped
  obtain ⟨fault, stack, ran⟩ | ⟨stack, place, inside, ran⟩ := jump_cases machine
  · rw [ran] at jumped
    cases jumped
  · rw [ran] at jumped
    cases jumped
    exact inside

theorem run_execute_jump (machine : Machine γ) :
    (execute (.op .jump)).run machine = (apply .jump).run machine := by
  simp only [execute, apply, run_bind]
  rcases (perform .jump).run machine with ⟨answer, after⟩
  cases answer <;> rfl

theorem lt_size_of_step_jump {flow : Flow}
    (next : machine.program.elements[machine.ip]? = some (.op .jump))
    (stepped : step.run machine = (.ok flow, after)) : after.ip < machine.program.size := by
  obtain ⟨past, _⟩ | ⟨limit, _, _, _, ran⟩ | ⟨element, found, _, ran⟩ := step_cases machine
  · rw [Array.getElem?_eq_none past] at next
    cases next
  · rw [ran] at stepped
    cases stepped
  · obtain rfl : element = .op .jump := Option.some.inj (found.symm.trans next)
    rw [ran, run_execute_jump] at stepped
    have inside : after.ip < machine.begun.program.size := lt_size_of_jump stepped
    exact inside

/-- Whatever a host does with a machine, its program stays, its place stays in the program or right
behind it, and one element is executed for each step that is taken, never more than the limit
allows, also in the middle of a run. Once a use is refused, every step and every run that has
something to execute is refused. -/
theorem uses_invariant [Console.Ordinary γ] (config : Config) (program : Program) (console : γ)
    {executed : List Nat} {machine : Machine γ}
    (uses : Uses (start config program console) executed machine) :
    machine.program = program ∧ machine.ip ≤ program.size ∧
      (∀ i, machine.fetch? = some i → ∃ element, program.elements[i]? = some element ∧
        step.run machine = (execute element).run machine.begun) ∧
      (machine.fetch? = none → ∃ steps, (step.run machine).2 = { machine with steps }) ∧
      executed.length = machine.taken ∧
      (∀ fuel, (∀ i ∈ executed ++ machine.fetches fuel, i < program.size) ∧
        ∀ limit ∈ config.stepLimit, (executed ++ machine.fetches fuel).length ≤ limit) ∧
      (∀ flow after, (apply .jump).run machine = (.ok flow, after) → after.ip < program.size) ∧
      (∀ flow after, program.elements[machine.ip]? = some (.op .jump) →
        step.run machine = (.ok flow, after) → after.ip < program.size) ∧
      ∀ limit fetched between, Use machine fetched (some (.stepLimit limit)) between →
        ∀ more later, Uses between more later → ¬ later.isHalted → Refuses limit later := by
  have sound := uses.sound
  have program_eq : machine.program = program := sound.program_eq
  have untaken : (start config program console).taken = 0 := by
    simp only [start, taken]
    cases config.stepLimit with
    | none => rfl
    | some limit => exact Nat.zero_min limit
  refine ⟨program_eq, sound.ip_le (Nat.zero_le _), ?_, run_step_of_fetch?_eq_none, ?_, ?_, ?_, ?_,
    ?_⟩
  · intro i fetched
    rw [← program_eq]
    exact run_step_of_fetch?_eq_some fetched
  · rw [sound.taken_eq, untaken, Nat.zero_add]
  · intro fuel
    obtain ⟨after, run, _⟩ := exists_sound_fetches fuel machine
    have both := sound.trans run
    refine ⟨both.inside, fun limit limited => ?_⟩
    have total := both.taken_eq
    rw [untaken, Nat.zero_add] at total
    rw [← total]
    exact taken_le (both.stepLimit_eq ▸ limited)
  · intro flow after jumped
    rw [← program_eq]
    exact lt_size_of_jump jumped
  · intro flow after next stepped
    rw [← program_eq] at next ⊢
    exact lt_size_of_step_jump next stepped
  · intro limit fetched between use more later rest running
    exact (use.exhausted.sound rest.sound).refuses running

theorem uses_invariant_mixed :
    let program := Program.ofList [.literal (.int 0), .op .jump]
    let config : Config := { stepLimit := some 3 }
    let first := start config program ({ lines := ["x"] } : Buffer)
    let reached : Machine Buffer := { program, console := {}, steps := 2, stepLimit := some 3 }
    let stopped := { reached with stack := [.int 0], ip := 1, steps := 4 }
    let later := { stopped with stack := [.text "y", .int 0] }
    Uses first [0, 1] reached ∧ Use reached [0] (some (.stepLimit 3)) stopped ∧
      Uses stopped [] later ∧ ¬ later.isHalted ∧ ([0, 1] ++ reached.fetches 2).length ≤ 3 ∧
      Refuses 3 later := by
  intro program config first reached stopped later
  let pushed : Machine Buffer := { first with stack := [.int 0], ip := 1, steps := 1 }
  let filled : Machine Buffer := { pushed with console := {}, stack := [.text "x", .int 0] }
  let failed : Machine Buffer := { filled with stack := [.int 0], ip := 2, steps := 2 }
  have step : Uses first ([] ++ [0]) pushed := .next .refl .step
  have read : Uses first ([0] ++ []) filled := step.next (.request (.apply .read))
  have unread : Uses first ([0] ++ []) filled := read.next (.request .readLine)
  have failing : filled.run 2 = some (.failed (.badJump (.text "x") 2), failed) := rfl
  have run : Uses first ([0] ++ [1]) failed := unread.next (.run failing)
  have jump : Uses first ([0, 1] ++ []) reached := run.next (.request (.apply .jump))
  have refusing : reached.run 2 = some (.failed (.stepLimit 3), stopped) := rfl
  have refused : Use reached [0] (some (.stepLimit 3)) stopped := .run refusing
  have push : Uses stopped ([] ++ []) later := .next .refl (.request (.push (.text "y")))
  have exit : Uses stopped ([] ++ []) later := push.next (.request (.apply .exit))
  have running : ¬ later.isHalted := by decide
  obtain ⟨_, _, _, _, _, within, _, _, refuses⟩ := uses_invariant config program _ jump
  exact ⟨jump, refused, exit, running, (within 2).2 3 rfl,
    refuses 3 [0] stopped refused [] later exit running⟩

end Machine

end StackMachine
