import StackMachine.Console.Buffer
import StackMachine.Proofs.Folding.Replacement
import StackMachine.Proofs.Machine.Consoles

/-!
# Runs of folded programs

A window does to a stack and a console what its value does, and it neither exits nor fails. So a
passage through a text ends as it ends after a replacement, whatever stands around the window, and
a run of the folded program ends as the run of the program does, after the same calls.
-/

namespace StackMachine

open Element Machine Program

variable {γ : Type} [Console γ]

/-! ## Windows at work -/

theorem Operator.apply_integers (operator : Operator) (a b : Integer) :
    operator.apply (.int a) (.int b) = (operator.onIntegers a b).map .int := by
  cases operator <;> rfl

theorem Machine.run_perform_arith (operator : Operator) {machine : Machine γ} {a b : Value}
    {stack : Stack} (shape : machine.stack = b :: a :: stack) :
    (perform (.arith operator)).run machine =
      match operator.apply a b with
      | .ok v => (.ok (), { machine with stack := v :: stack })
      | .error fault => (.error fault, { machine with stack }) := by
  rw [run_perform_operands rfl (show machine.stack = [b, a] ++ stack from shape), Op.deed]
  cases operator.apply a b <;> rfl

theorem Element.effect_arith (operator : Operator) (a b : Value) (stack : Stack) (console : γ) :
    effect (.op (.arith operator)) { stack := b :: a :: stack, console } =
      match operator.apply a b with
      | .ok v => (.ok .next, { stack := v :: stack, console })
      | .error fault => (.error fault, { stack, console }) := by
  rw [effect_op, run_perform_arith operator rfl]
  cases operator.apply a b <;> rfl

theorem pass_window {x y z : Element} {value : Integer} (window : Window x y z value)
    (rest : List Element) (w : Workspace γ) :
    pass (x :: y :: z :: rest) w = (pass (.literal (.int value) :: rest) w).behind 2 := by
  obtain ⟨folds, evaluates⟩ := window
  simp only [pass, effect_literal, effect_arith, Operator.apply_integers, evaluates, Except.map,
    Passage.behind_behind]

theorem window_iff_outcome {a b : Integer} {operator : Operator} (folds : operator ≠ .mod)
    (value : Integer) :
    Window (.literal (.int a)) (.literal (.int b)) (.op (.arith operator)) value ↔
      outcome 3
        { program := ofList [.literal (.int a), .literal (.int b), .op (.arith operator)]
          console := ({} : Silence) } =
        some (.finished, { stack := [.int value], console := {} }) := by
  have straight : (ofList [.literal (.int a), .literal (.int b), .op (.arith operator)]).hasJump =
      false := by simp [hasJump, ofList, toList]
  rw [outcome_straight straight rfl (Nat.le_refl 3)]
  simp only [ofList, toList, List.drop_zero, workspace, pass, effect_literal, effect_arith,
    Operator.apply_integers]
  constructor
  · rintro ⟨_, evaluates⟩
    rw [evaluates]
    rfl
  · intro ended
    cases evaluates : operator.onIntegers a b with
    | error fault => simp [evaluates, Except.map, Passage.outcome, Passage.behind] at ended
    | ok n =>
      obtain rfl : n = value := by
        simpa [evaluates, Except.map, Passage.outcome, Passage.behind] using ended
      exact .intro folds evaluates

/-! ## Texts at work -/

omit [Console γ] in
theorem Passage.outcome_andThen {first : Passage γ} {next after : Workspace γ → Passage γ}
    (same : ∀ w, (next w).outcome = (after w).outcome) :
    (first.andThen next).outcome = (first.andThen after).outcome := by
  obtain ⟨ending, count, w⟩ := first
  cases ending with
  | finished => exact same w
  | exited => rfl
  | failed fault => rfl

theorem Replaces.outcome_pass {before after : List Element} (step : Replaces before after)
    (w : Workspace γ) : (pass before w).outcome = (pass after w).outcome := by
  obtain ⟨front, back, window⟩ := step
  rw [pass_append, pass_append]
  apply Passage.outcome_andThen
  intro w
  rw [pass_window window]
  rfl

theorem Replacements.outcome_pass {n : Nat} {before after : List Element}
    (steps : Replacements n before after) (w : Workspace γ) :
    (pass before w).outcome = (pass after w).outcome := by
  induction steps with
  | none => rfl
  | more first rest ih => exact (first.outcome_pass w).trans ih

namespace Program

theorem size_fold_le (program : Program) : program.fold.size ≤ program.size := by
  cases jumps : program.hasJump with
  | true => exact Nat.le_of_eq (congrArg size (fold_of_hasJump jumps))
  | false => exact size_eq_size_fold jumps ▸ Nat.le_add_right _ _

theorem outcome_fold {program : Program} (straight : program.hasJump = false) (console : γ)
    (stack : Stack) {fuel : Nat} (enough : program.size ≤ fuel) :
    ∃ result, outcome fuel { program, console, stack } = some result ∧
      outcome fuel { program := program.fold, console, stack } = some result := by
  refine ⟨(pass program.toList { stack, console }).outcome, ?_, ?_⟩
  · exact outcome_straight straight rfl (by simpa using enough)
  · rw [(replacements_fold straight).outcome_pass]
    exact outcome_straight (hasJump_fold straight) rfl
      (by simpa using Nat.le_trans program.size_fold_le enough)

/-- A program without a jump and its folded form end alike, with the same stack and console,
after the same calls to the console. A program with a jump is left as it is. -/
theorem fold_preserves_runs (program : Program) :
    (program.hasJump = true → program.fold = program ∧ program.foldCount = 0) ∧
      (program.hasJump = false → ∀ (console : γ) (stack : Stack) (fuel : Nat),
        program.size ≤ fuel →
        ∃ result calls,
          outcome fuel { program, console, stack } = some result ∧
          outcome fuel { program := program.fold, console, stack } = some result ∧
          Machine.calls fuel { program, console, stack } = some calls ∧
          Machine.calls fuel { program := program.fold, console, stack } = some calls) := by
  refine ⟨fun jumps => ⟨fold_of_hasJump jumps, foldCount_of_hasJump jumps⟩, ?_⟩
  intro straight console stack fuel enough
  obtain ⟨result, plain, folded⟩ := outcome_fold straight console stack enough
  -- The run does not see whether its console takes the calls down.
  obtain ⟨recorded, plain', folded'⟩ :=
    outcome_fold straight ({ console } : Recorded γ) stack enough
  refine ⟨result, recorded.2.console.calls, plain, folded, ?_, ?_⟩
  · exact congrArg (Option.map _) plain'
  · exact congrArg (Option.map _) folded'

theorem fold_preserves_runs_failing :
    let program := ofList [.literal (.int 2), .literal (.int 3), .op (.arith .add), .op .print,
      .literal (.int 1), .literal (.int 0), .op (.arith .div)]
    program.hasJump = false ∧ program.size ≤ 7 ∧ program.foldCount = 1 ∧
      ∃ calls,
        outcome 7 { program, console := ({} : Buffer) } =
          some (.failed .divisionByZero, { stack := [], console := { output := "5" } }) ∧
        outcome 7 { program := program.fold, console := ({} : Buffer) } =
          some (.failed .divisionByZero, { stack := [], console := { output := "5" } }) ∧
        Machine.calls 7 { program, console := ({} : Buffer) } = some calls ∧
        Machine.calls 7 { program := program.fold, console := ({} : Buffer) } = some calls := by
  intro program
  have straight : program.hasJump = false := by decide
  have enough : program.size ≤ 7 := by decide
  obtain ⟨result, calls, plain, folded, same⟩ :=
    (fold_preserves_runs program).2 straight ({} : Buffer) [] 7 enough
  have ended : outcome 7 { program, console := ({} : Buffer) } =
      some (.failed .divisionByZero, { stack := [], console := { output := "5" } }) := by rfl
  obtain rfl := Option.some.inj (plain.symm.trans ended)
  exact ⟨straight, enough, by decide, calls, plain, folded, same⟩

end Program

end StackMachine
