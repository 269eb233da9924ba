/-!
# Actions

Computations on a state that may fail. What was done to the state before a failure stays
done, so a failed action leaves a state like any other.
-/

namespace StackMachine

abbrev Action (ε σ : Type) : Type → Type := ExceptT ε (StateM σ)

namespace Action

variable {ε φ σ τ α β : Type}

/-- The answer or the failure, and the state that is left. -/
def run (action : Action ε σ α) (s : σ) : Except ε α × σ :=
  StateT.run (ExceptT.run action) s

def within (part : σ → τ) (replace : σ → τ → σ) (action : Action ε τ α) : Action ε σ α :=
  fun s =>
    let (answer, t) := run action (part s)
    (answer, replace s t)

def reporting (report : ε → φ) (action : Action ε σ α) : Action φ σ α :=
  fun s =>
    let (answer, s') := run action s
    (answer.mapError report, s')

/-- Fails as a computation without a state fails. -/
def ofExcept (answer : Except ε α) : Action ε σ α :=
  fun s => (answer, s)

@[simp] theorem run_pure (a : α) (s : σ) : run (pure a : Action ε σ α) s = (.ok a, s) := rfl

@[simp] theorem run_throw (e : ε) (s : σ) : run (throw e : Action ε σ α) s = (.error e, s) := rfl

@[simp] theorem run_get (s : σ) : run (get : Action ε σ σ) s = (.ok s, s) := rfl

@[simp] theorem run_set (s t : σ) : run (set t : Action ε σ Unit) s = (.ok (), t) := rfl

@[simp] theorem run_modify (f : σ → σ) (s : σ) :
    run (modify f : Action ε σ Unit) s = (.ok (), f s) := rfl

@[simp] theorem run_ofExcept (answer : Except ε α) (s : σ) :
    run (ofExcept answer : Action ε σ α) s = (answer, s) := rfl

@[simp] theorem mapError_ok (report : ε → φ) (a : α) :
    (.ok a : Except ε α).mapError report = .ok a := rfl

@[simp] theorem run_within (part : σ → τ) (replace : σ → τ → σ) (action : Action ε τ α) (s : σ) :
    run (within part replace action) s =
      ((run action (part s)).1, replace s (run action (part s)).2) := rfl

@[simp] theorem run_reporting (report : ε → φ) (action : Action ε σ α) (s : σ) :
    run (reporting report action) s = ((run action s).1.mapError report, (run action s).2) := rfl

theorem run_bind (action : Action ε σ α) (next : α → Action ε σ β) (s : σ) :
    run (action >>= next) s =
      match run action s with
      | (.ok a, s') => run (next a) s'
      | (.error e, s') => (.error e, s') := by
  simp only [run, ExceptT.run, bind, ExceptT.bind, ExceptT.mk, StateT.run, StateT.bind]
  cases action s with
  | mk answer s' => cases answer <;> rfl

end Action

end StackMachine
