import StackMachine.Proofs.Folding.Runs
import StackMachine.Proofs.Machine.StepLimit

/-!
# Folding under a step limit

A folded program counts fewer steps, so under one limit it gets further than the program does. If
the program is not cut, neither is the folded one, and both end alike. If the program is cut, the
limit may stand within a window; windows write nothing, so what the program has written by then is
what the folded program writes first.
-/

namespace StackMachine

open Element Machine Program

/-! ## Cut passages -/

section Cut

variable {γ : Type} [Console γ]

theorem Machine.run_straight_limited {program : Program} (straight : program.hasJump = false)
    (console : γ) (stack : Stack) (limit : Nat) :
    let w : Workspace γ := { stack, console }
    let free : Machine γ := { program, console, stack }
    let passage := pass program.toList w
    run (limit + 1) { program, console, stack, stepLimit := some limit } =
      if passage.count ≤ limit then
        some (passage.ending, (free.behind passage).withLimit (some limit))
      else
        some (.failed (.stepLimit limit),
          (free.behind (pass (program.toList.take limit) w)).stopped limit) := by
  intro w free passage
  have unlimited : free.stepLimit = none := rfl
  have cut : run (limit + 1) { program, console, stack, stepLimit := some limit } = _ :=
    run_withLimit unlimited (Nat.zero_add limit)
  have ended : free.run program.size = some (passage.ending, free.behind passage) :=
    run_straight straight rfl (Nat.le_add_left _ _)
  have steps : (free.behind passage).steps = passage.count := Nat.zero_add _
  rw [cut]
  by_cases few : passage.count ≤ limit
  · rw [if_pos few, run_of_steps_le unlimited ended (by simpa [free, steps] using few)]
  · have unended : free.run limit = none := by
      rw [run_eq_none_iff unlimited ended, steps]
      simpa [free] using few
    rw [if_neg few, unended, stepTimes_straight straight unlimited unended]
    rfl

omit [Console γ] in
theorem Passage.count_andThen_le (first : Passage γ) {next after : Workspace γ → Passage γ}
    (fewer : ∀ w, (after w).count ≤ (next w).count) :
    (first.andThen after).count ≤ (first.andThen next).count := by
  obtain ⟨ending, count, w⟩ := first
  cases ending with
  | finished => exact Nat.add_le_add_left (fewer w) count
  | exited => exact Nat.le_refl _
  | failed fault => exact Nat.le_refl _

theorem Replaces.count_pass_le {before after : List Element} (step : Replaces before after)
    (w : Workspace γ) : (pass after w).count ≤ (pass before w).count := by
  obtain ⟨front, back, window⟩ := step
  rw [pass_append, pass_append]
  apply Passage.count_andThen_le
  intro w
  rw [pass_window window]
  exact Nat.le_add_left _ 2

theorem Replacements.count_pass_le {n : Nat} {before after : List Element}
    (steps : Replacements n before after) (w : Workspace γ) :
    (pass after w).count ≤ (pass before w).count := by
  induction steps with
  | none => exact Nat.le_refl _
  | more first rest ih => exact Nat.le_trans ih (first.count_pass_le w)

end Cut

/-! ## What was written by a cut -/

def Buffer.Precedes (earlier later : Buffer) : Prop :=
  ∃ more, later.output = earlier.output ++ more

namespace Buffer.Precedes

theorem refl (buffer : Buffer) : buffer.Precedes buffer :=
  ⟨"", String.append_empty.symm⟩

theorem trans {first second third : Buffer} (earlier : first.Precedes second)
    (later : second.Precedes third) : first.Precedes third := by
  obtain ⟨more, output⟩ := earlier
  obtain ⟨rest, output'⟩ := later
  exact ⟨more ++ rest, by rw [output', output, String.append_assoc]⟩

end Buffer.Precedes

theorem Machine.lockstep_precedes (origin : Buffer) :
    Coupling.Lockstep fun m n : Machine Buffer => m = n ∧ origin.Precedes n.console where
  stack_eq := by
    rintro m _ ⟨rfl, _⟩
    rfl
  withStack := by
    rintro m _ stack ⟨rfl, kept⟩
    exact ⟨rfl, kept⟩
  readLine := by
    rintro m _ ⟨rfl, kept⟩
    refine ⟨rfl, rfl, ?_⟩
    obtain ⟨program, ⟨lines, output⟩, stack, ip, steps, limit⟩ := m
    cases lines with
    | nil => exact kept
    | cons line lines => exact kept
  write text := by
    rintro m _ ⟨rfl, kept⟩
    exact ⟨rfl, rfl, kept.trans ⟨text, rfl⟩⟩
  size_eq := by
    rintro m _ ⟨rfl, _⟩
    rfl
  withIp := by
    rintro m _ ip ⟨rfl, kept⟩
    exact ⟨rfl, kept⟩

theorem Element.precedes_effect (element : Element) (w : Workspace Buffer) :
    w.console.Precedes (element.effect w).2.console :=
  ((lockstep_precedes w.console).execute element w.idle w.idle ⟨rfl, .refl _⟩).2.2

theorem precedes_pass (elements : List Element) (w : Workspace Buffer) :
    w.console.Precedes (pass elements w).workspace.console := by
  fun_induction pass elements w with
  | case1 => exact .refl _
  | case2 element rest w after goesOn ih =>
    have first := element.precedes_effect w
    rw [goesOn] at first
    exact first.trans ih
  | case3 element rest w after exits =>
    have first := element.precedes_effect w
    rwa [exits] at first
  | case4 element rest w fault after fails =>
    have first := element.precedes_effect w
    rwa [fails] at first

theorem Passage.precedes_andThen (first : Passage Buffer)
    {next after : Workspace Buffer → Passage Buffer}
    (further : ∀ w, (next w).workspace.console.Precedes (after w).workspace.console) :
    (first.andThen next).workspace.console.Precedes (first.andThen after).workspace.console := by
  obtain ⟨ending, count, w⟩ := first
  cases ending with
  | finished => exact further w
  | exited => exact .refl _
  | failed fault => exact .refl _

theorem precedes_pass_append (front back : List Element) (w : Workspace Buffer) :
    (pass front w).workspace.console.Precedes (pass (front ++ back) w).workspace.console := by
  rw [pass_append]
  generalize pass front w = first
  obtain ⟨ending, count, w'⟩ := first
  cases ending with
  | finished => exact precedes_pass back w'
  | exited => exact .refl _
  | failed fault => exact .refl _

theorem precedes_pass_take {fewer more : Nat} (le : fewer ≤ more) (elements : List Element)
    (w : Workspace Buffer) :
    (pass (elements.take fewer) w).workspace.console.Precedes
      (pass (elements.take more) w).workspace.console := by
  obtain ⟨extra, rfl⟩ := Nat.exists_eq_add_of_le le
  rw [List.take_add]
  exact precedes_pass_append _ _ w

theorem precedes_pass_window {x y z : Element} {value : Integer} (window : Window x y z value)
    (rest : List Element) (n : Nat) (w : Workspace Buffer) :
    (pass ((x :: y :: z :: rest).take n) w).workspace.console.Precedes
      (pass ((.literal (.int value) :: rest).take n) w).workspace.console := by
  -- A window writes nothing, so it does not matter where within it the limit stands.
  match n with
  | 0 => exact .refl _
  | 1 =>
    obtain ⟨folds, evaluates⟩ := window
    exact .refl _
  | 2 =>
    obtain ⟨folds, evaluates⟩ := window
    exact precedes_pass _ w
  | n + 3 =>
    simp only [List.take_succ_cons]
    rw [pass_window window]
    exact precedes_pass_take (show n + 1 ≤ n + 3 by omega) (.literal (.int value) :: rest) w

theorem Replaces.precedes_pass_take {before after : List Element} (step : Replaces before after)
    (n : Nat) (w : Workspace Buffer) :
    (pass (before.take n) w).workspace.console.Precedes
      (pass (after.take n) w).workspace.console := by
  obtain ⟨front, back, window⟩ := step
  rw [List.take_append, List.take_append, pass_append, pass_append]
  exact Passage.precedes_andThen _ fun w => precedes_pass_window window back _ w

theorem Replacements.precedes_pass_take {steps : Nat} {before after : List Element}
    (replaced : Replacements steps before after) (n : Nat) (w : Workspace Buffer) :
    (pass (before.take n) w).workspace.console.Precedes
      (pass (after.take n) w).workspace.console := by
  induction replaced with
  | none => exact .refl _
  | more first rest ih => exact (first.precedes_pass_take n w).trans ih

/-! ## Programs under a limit -/

namespace Program

/-- Under one limit the folded program ends as the program does unless the program is cut, and
then it has written at least as much. It is cut only where the program is cut. -/
theorem fold_under_limit {program : Program} (straight : program.hasJump = false) (stack : Stack)
    (console : Buffer) (limit : Nat) :
    ∃ ending after ending' after',
      run (limit + 1) { program, console, stack, stepLimit := some limit } =
        some (ending, after) ∧
      run (limit + 1) { program := program.fold, console, stack, stepLimit := some limit } =
        some (ending', after') ∧
      (ending ≠ .failed (.stepLimit limit) →
        ending' = ending ∧ after'.stack = after.stack ∧ after'.console = after.console) ∧
      (ending' = .failed (.stepLimit limit) → ending = .failed (.stepLimit limit)) ∧
      (ending = .failed (.stepLimit limit) →
        ∃ more, after'.console.output = after.console.output ++ more) ∧
      (ending = .finished →
        ending' = .finished ∧ after.steps = after'.steps + 2 * program.foldCount) := by
  have replaced := replacements_fold straight
  have plain := run_straight_limited straight console stack limit
  have folded := run_straight_limited (hasJump_fold straight) console stack limit
  simp only at plain folded
  generalize atStart : ({ stack, console } : Workspace Buffer) = w at plain folded
  have ended := replaced.outcome_pass w
  have fewer := replaced.count_pass_le w
  have written := replaced.precedes_pass_take limit w
  rw [plain, folded]
  by_cases few : (pass program.toList w).count ≤ limit
  · rw [if_pos few, if_pos (Nat.le_trans fewer few)]
    obtain ⟨ending, workspace⟩ := Prod.mk.inj ended
    refine ⟨_, _, _, _, rfl, rfl, fun _ => ⟨ending.symm, ?_, ?_⟩, ?_, ?_, ?_⟩
    · exact congrArg Workspace.stack workspace.symm
    · exact congrArg Workspace.console workspace.symm
    · exact ending.trans
    · intro _
      have same : (pass program.fold.toList w).workspace.console.output =
          (pass program.toList w).workspace.console.output := by rw [workspace]
      exact ⟨"", same.trans String.append_empty.symm⟩
    · intro finished
      have counted := count_of_finished finished
      have counted' := count_of_finished (ending.symm.trans finished)
      have lengths := replaced.length_eq
      refine ⟨ending.symm.trans finished, ?_⟩
      simp only [behind, withLimit, counted, counted']
      omega
  · rw [if_neg few]
    have cut : ∃ more, (pass (program.fold.toList.take limit) w).workspace.console.output =
        (pass (program.toList.take limit) w).workspace.console.output ++ more := written
    by_cases few' : (pass program.fold.toList w).count ≤ limit
    · rw [if_pos few']
      have rest := precedes_pass_append (program.fold.toList.take limit)
        (program.fold.toList.drop limit) w
      rw [List.take_append_drop] at rest
      refine ⟨_, _, _, _, rfl, rfl, fun uncut => absurd rfl uncut, fun _ => rfl, fun _ => ?_, ?_⟩
      · exact written.trans rest
      · intro finished
        cases finished
    · rw [if_neg few']
      refine ⟨_, _, _, _, rfl, rfl, fun uncut => absurd rfl uncut, fun _ => rfl, fun _ => cut, ?_⟩
      intro finished
      cases finished

theorem fold_under_limit_cut :
    let program := ofList [.literal (.text "a"), .op .print, .literal (.int 2), .literal (.int 3),
      .op (.arith .add), .op .print]
    program.hasJump = false ∧
      run 5 { program, console := ({} : Buffer), stepLimit := some 4 } =
        some (.failed (.stepLimit 4),
          { program, console := { output := "a" }, stack := [.int 3, .int 2], ip := 4, steps := 5,
            stepLimit := some 4 }) ∧
      ∃ ending after more,
        run 5 { program := program.fold, console := ({} : Buffer), stepLimit := some 4 } =
          some (ending, after) ∧ after.console.output = "a" ++ more := by
  intro program
  have straight : program.hasJump = false := by decide
  have cut : run 5 { program, console := ({} : Buffer), stepLimit := some 4 } =
      some (.failed (.stepLimit 4),
        { program, console := { output := "a" }, stack := [.int 3, .int 2], ip := 4, steps := 5,
          stepLimit := some 4 }) := by decide +kernel
  obtain ⟨ending, after, ending', after', plain, folded, _, _, further, _⟩ :=
    fold_under_limit straight [] ({} : Buffer) 4
  obtain ⟨rfl, rfl⟩ := Prod.mk.inj (Option.some.inj (plain.symm.trans cut))
  obtain ⟨more, output⟩ := further rfl
  exact ⟨straight, cut, ending', after', more, folded, output⟩

end Program

end StackMachine
