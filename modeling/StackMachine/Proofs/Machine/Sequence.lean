import StackMachine.Console.Buffer
import StackMachine.Proofs.Machine.StraightLine

/-!
# Programs in sequence

A straight-line program with another one behind it runs as one after the other. If the first one
runs to its end, the second one starts from the stack and the console that it leaves; if it exits
or fails, nothing behind it is reached.
-/

namespace StackMachine

open Machine

namespace Program

instance : Append Program where
  append front back := ofList (front.toList ++ back.toList)

@[simp] theorem toList_append (front back : Program) :
    (front ++ back).toList = front.toList ++ back.toList := rfl

@[simp] theorem size_append (front back : Program) :
    (front ++ back).size = front.size + back.size :=
  List.length_append

theorem hasJump_append {front back : Program} (straight : front.hasJump = false)
    (straight' : back.hasJump = false) : (front ++ back).hasJump = false := by
  have absent := not_mem_of_straight straight
  have absent' := not_mem_of_straight straight'
  simp [hasJump, absent, absent']

end Program

namespace Machine

variable {γ : Type} [Console γ]

theorem run_append_of_ne_finished {front : Program} (straight : front.hasJump = false)
    (back : Program) {w : Workspace γ}
    (unfinished : (pass front.toList w).ending ≠ .finished) {fuel : Nat}
    (enough : front.size ≤ fuel) :
    run fuel { program := front ++ back, console := w.console, stack := w.stack } =
      some ((pass front.toList w).ending,
        behind { program := front ++ back, console := w.console, stack := w.stack }
          (pass front.toList w)) := by
  obtain ⟨more, rfl⟩ := Nat.exists_eq_add_of_le enough
  let whole : Machine γ := { program := front ++ back, console := w.console, stack := w.stack }
  have ahead : whole.program.toList.drop whole.ip = front.toList ++ back.toList := rfl
  have start : whole.workspace = w := rfl
  have through := run_through ahead (Program.not_mem_of_straight straight) rfl more
  simp only [start] at through
  refine through.trans ?_
  cases ended : (pass front.toList w).ending with
  | finished => exact absurd ended unfinished
  | exited => rfl
  | failed fault => rfl

theorem run_append_of_finished {front back : Program} (straight : front.hasJump = false)
    (straight' : back.hasJump = false) {w : Workspace γ}
    (finished : (pass front.toList w).ending = .finished) {fuel : Nat}
    (enough : front.size + back.size ≤ fuel) :
    run fuel { program := front ++ back, console := w.console, stack := w.stack } =
      let second := pass back.toList (pass front.toList w).workspace
      some (second.ending,
        behind { program := front ++ back, console := w.console, stack := w.stack }
          (second.behind front.size)) := by
  have counted : (pass front.toList w).count = front.size := count_of_finished finished
  have passed : pass (front ++ back).toList w =
      (pass back.toList (pass front.toList w).workspace).behind front.size := by
    rw [Program.toList_append, pass_append, Passage.andThen_of_finished finished, counted]
  have whole : run fuel { program := front ++ back, console := w.console, stack := w.stack } =
      some ((pass (front ++ back).toList w).ending,
        behind { program := front ++ back, console := w.console, stack := w.stack }
          (pass (front ++ back).toList w)) :=
    run_straight (Program.hasJump_append straight straight') rfl
      (by rwa [Program.size_append, Nat.zero_add])
  rw [passed] at whole
  exact whole

/-- A straight-line program ends alone, and with another program behind it goes on as that program
goes, or ends as it ends alone. -/
theorem run_append {front : Program} (straight : front.hasJump = false) (back : Program)
    (stack : Stack) (console : γ) :
    let whole : Machine γ := { program := front ++ back, console, stack }
    ∃ ending middle,
      (∀ fuel, front.size ≤ fuel →
        run fuel { program := front, console, stack } = some (ending, middle)) ∧
      (ending = .finished → back.hasJump = false → ∃ ending' last,
        (∀ fuel, back.size ≤ fuel →
          run fuel { program := back, console := middle.console, stack := middle.stack } =
            some (ending', last)) ∧
        ∀ fuel, front.size + back.size ≤ fuel →
          whole.run fuel = some (ending',
            { last with
              program := front ++ back
              ip := front.size + last.ip
              steps := middle.steps + last.steps })) ∧
      (ending ≠ .finished → ∀ fuel, front.size ≤ fuel →
        whole.run fuel = some (ending,
          { middle with
            program := front ++ back
            ip := if ending = .exited then (front ++ back).size else middle.ip })) := by
  intro whole
  let w : Workspace γ := { stack, console }
  refine ⟨(pass front.toList w).ending,
    behind { program := front, console, stack } (pass front.toList w), ?_, ?_, ?_⟩
  · intro fuel enough
    exact run_straight straight rfl (by rwa [Nat.zero_add])
  · intro finished straight'
    have counted : (pass front.toList w).count = front.size := count_of_finished finished
    let middle := (pass front.toList w).workspace
    refine ⟨(pass back.toList middle).ending,
      behind { program := back, console := middle.console, stack := middle.stack }
        (pass back.toList middle), ?_, ?_⟩
    · intro fuel enough
      exact run_straight straight' rfl (by rwa [Nat.zero_add])
    · intro fuel enough
      refine (run_append_of_finished (w := w) straight straight' finished enough).trans ?_
      generalize pass back.toList middle = second
      obtain ⟨ending, count, last⟩ := second
      cases ending <;>
        simp [behind, Passage.place, Passage.behind, counted, withWorkspace, w]
  · intro unfinished fuel enough
    refine (run_append_of_ne_finished (w := w) straight back unfinished enough).trans ?_
    generalize pass front.toList w = first at unfinished ⊢
    obtain ⟨ending, count, middle⟩ := first
    cases ending with
    | finished => exact absurd rfl unfinished
    | exited => rfl
    | failed fault => rfl

theorem run_append_exiting :
    let front := Program.ofList [.op .read, .op .dup]
    let back := Program.ofList [.op .print, .op .exit, .word "never"]
    let start (program : Program) : Machine Buffer :=
      { program, console := { lines := ["a"] }, stack := [.int 9] }
    front.hasJump = false ∧ back.hasJump = false ∧
      run 2 (start front) = some (.finished,
        { program := front, console := {}, stack := [.text "a", .text "a", .int 9], ip := 2,
          steps := 2 }) ∧
      run 5 (start (front ++ back)) = some (.exited,
        { program := front ++ back, console := { output := "a" }, stack := [.text "a", .int 9],
          ip := 5, steps := 4 }) := by
  intro front back start
  have straight : front.hasJump = false := by decide
  have straight' : back.hasJump = false := by decide
  have first : run 2 (start front) = some (.finished,
      { program := front, console := {}, stack := [.text "a", .text "a", .int 9], ip := 2,
        steps := 2 }) := by decide +kernel
  have second : run 3 { program := back, console := ({} : Buffer),
                        stack := [.text "a", .text "a", .int 9] } = some (.exited,
      { program := back, console := { output := "a" }, stack := [.text "a", .int 9], ip := 3,
        steps := 2 }) := by decide +kernel
  obtain ⟨ending, middle, alone, onwards, _⟩ :=
    run_append straight back [.int 9] ({ lines := ["a"] } : Buffer)
  obtain ⟨rfl, rfl⟩ := Prod.mk.inj (Option.some.inj ((alone 2 (Nat.le_refl 2)).symm.trans first))
  obtain ⟨ending', last, behind, whole⟩ := onwards rfl straight'
  obtain ⟨rfl, rfl⟩ :=
    Prod.mk.inj (Option.some.inj ((behind 3 (Nat.le_refl 3)).symm.trans second))
  exact ⟨straight, straight', first, whole 5 (Nat.le_refl 5)⟩

end Machine

end StackMachine
