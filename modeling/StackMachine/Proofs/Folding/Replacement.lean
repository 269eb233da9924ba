import Mathlib.Data.List.Induction
import StackMachine.Program.Folding

/-!
# The order of replacements

Windows may be replaced one at a time, anywhere and in any order. No replacement changes what
folding answers for the text as a whole, save that one window less is left to be counted. So every
order ends in the same text after the same number of replacements, and that text is the folded
program.
-/

namespace StackMachine

open Element Program

/-! ## Windows and replacements -/

/-- Three elements in a row that have a value. -/
inductive Element.Window : Element → Element → Element → Integer → Prop
  | intro {a b value : Integer} {operator : Operator} (folds : operator ≠ .mod)
      (evaluates : operator.onIntegers a b = .ok value) :
      Window (.literal (.int a)) (.literal (.int b)) (.op (.arith operator)) value

inductive Replaces : List Element → List Element → Prop
  | intro (front back : List Element) {x y z : Element} {value : Integer}
      (window : Window x y z value) :
      Replaces (front ++ x :: y :: z :: back) (front ++ .literal (.int value) :: back)

inductive Replacements : Nat → List Element → List Element → Prop
  | none (elements : List Element) : Replacements 0 elements elements
  | more {n : Nat} {before between after : List Element} (first : Replaces before between)
      (rest : Replacements n between after) : Replacements (n + 1) before after

def IsReduced (elements : List Element) : Prop :=
  ∀ after, ¬ Replaces elements after

theorem window?_eq_some_iff {x y z : Element} {value : Integer} :
    window? x y z = some value ↔ Window x y z value := by
  constructor
  · intro found
    unfold window? at found
    split at found
    · rename_i a b op
      obtain ⟨operator, folds, evaluates⟩ := Option.bind_eq_some_iff.mp found
      have answer : operator.onIntegers a b = .ok value := by
        cases result : operator.onIntegers a b with
        | error fault => simp [result, Except.toOption] at evaluates
        | ok n => simpa [result, Except.toOption] using evaluates
      cases op with
      | arith other => cases other <;> cases folds <;> exact .intro (by decide) answer
      | _ => cases folds
    · cases found
  · rintro ⟨folds, evaluates⟩
    rename_i a b operator
    cases operator with
    | mod => exact absurd rfl folds
    | _ => simp [window?, Op.foldable?, evaluates, Except.toOption]

theorem window?_literal (x y : Element) (v : Value) : window? x y (.literal v) = none := by
  cases found : window? x y (.literal v) with
  | none => rfl
  | some value => cases window?_eq_some_iff.mp found

/-! ## What folding makes of a text -/

namespace Program.Folding

def raise (folding : Folding) (more : Nat) : Folding :=
  { folding with count := folding.count + more }

theorem snoc_of_none {folding : Folding} {element : Element}
    (closed : ∀ b a rest, folding.folded = b :: a :: rest → window? a b element = none) :
    folding.snoc element = { folding with folded := element :: folding.folded } := by
  unfold snoc
  split
  · rename_i b a rest shape
    rw [closed b a rest shape, shape]
  · rfl

theorem snoc_literal (folding : Folding) (v : Value) :
    folding.snoc (.literal v) = { folding with folded := .literal v :: folding.folded } :=
  snoc_of_none fun b a _ _ => window?_literal a b v

theorem snoc_of_window {folding : Folding} {x y z : Element} {value : Integer}
    {rest : List Element} (shape : folding.folded = y :: x :: rest) (window : Window x y z value) :
    folding.snoc z = { folded := .literal (.int value) :: rest, count := folding.count + 1 } := by
  simp [snoc, shape, window?_eq_some_iff.mpr window]

theorem snoc_window (folding : Folding) {x y z : Element} {value : Integer}
    (window : Window x y z value) :
    ((folding.snoc x).snoc y).snoc z = (folding.snoc (.literal (.int value))).raise 1 := by
  obtain ⟨folds, evaluates⟩ := window
  rw [snoc_literal, snoc_literal, snoc_literal, snoc_of_window rfl (.intro folds evaluates)]
  rfl

theorem snoc_raise (folding : Folding) (more : Nat) (element : Element) :
    (folding.raise more).snoc element = (folding.snoc element).raise more := by
  obtain ⟨folded, count⟩ := folding
  unfold snoc
  simp only [raise]
  split
  · split
    · simp [Nat.add_right_comm]
    · rfl
  · rfl

theorem foldl_snoc_raise (elements : List Element) (folding : Folding) (more : Nat) :
    elements.foldl snoc (folding.raise more) = (elements.foldl snoc folding).raise more := by
  induction elements generalizing folding with
  | nil => rfl
  | cons element elements ih => rw [List.foldl_cons, snoc_raise, ih, List.foldl_cons]

end Program.Folding

open Program.Folding

def foldingOf (elements : List Element) : Folding :=
  elements.foldl snoc {}

theorem foldingOf_snoc (elements : List Element) (element : Element) :
    foldingOf (elements ++ [element]) = (foldingOf elements).snoc element := by
  simp [foldingOf]

/-! ## What a replacement keeps -/

theorem Replaces.foldingOf_eq {before after : List Element} (step : Replaces before after) :
    foldingOf before = (foldingOf after).raise 1 := by
  obtain ⟨front, back, window⟩ := step
  simp only [foldingOf, List.foldl_append, List.foldl_cons]
  rw [snoc_window _ window, foldl_snoc_raise]

theorem Replaces.length_eq {before after : List Element} (step : Replaces before after) :
    before.length = after.length + 2 := by
  obtain ⟨front, back, window⟩ := step
  simp only [List.length_append, List.length_cons]
  omega

theorem Replaces.mem {before after : List Element} (step : Replaces before after)
    {element : Element} (member : element ∈ after) :
    element ∈ before ∨ ∃ n, element = .literal (.int n) := by
  obtain ⟨front, back, window⟩ := step
  simp only [List.mem_append, List.mem_cons] at member ⊢
  rcases member with inFront | rfl | inBack
  · exact .inl (.inl inFront)
  · exact .inr ⟨_, rfl⟩
  · exact .inl (.inr (.inr (.inr (.inr inBack))))

theorem Replaces.append {before after : List Element} (step : Replaces before after)
    (more : List Element) : Replaces (before ++ more) (after ++ more) := by
  obtain ⟨front, back, window⟩ := step
  simpa using Replaces.intro front (back ++ more) window

theorem Replaces.cons {before after : List Element} (step : Replaces before after) (x : Element) :
    Replaces (x :: before) (x :: after) := by
  obtain ⟨front, back, window⟩ := step
  exact .intro (x :: front) back window

namespace Replacements

variable {n : Nat} {before between after : List Element}

theorem foldingOf_eq (steps : Replacements n before after) :
    foldingOf before = (foldingOf after).raise n := by
  induction steps with
  | none => rfl
  | more first rest ih => rw [first.foldingOf_eq, ih]; simp [raise, Nat.add_assoc]

theorem length_eq (steps : Replacements n before after) :
    before.length = after.length + 2 * n := by
  induction steps with
  | none => rfl
  | more first rest ih =>
    have shorter := first.length_eq
    omega

theorem mem (steps : Replacements n before after) {element : Element}
    (member : element ∈ after) : element ∈ before ∨ ∃ n, element = .literal (.int n) := by
  induction steps with
  | none => exact .inl member
  | more first rest ih =>
    rcases ih member with earlier | value
    · exact first.mem earlier
    · exact .inr value

theorem append (steps : Replacements n before after) (more : List Element) :
    Replacements n (before ++ more) (after ++ more) := by
  induction steps with
  | none => exact .none _
  | more first rest ih => exact .more (first.append more) ih

theorem snoc (steps : Replacements n before between) (last : Replaces between after) :
    Replacements (n + 1) before after := by
  induction steps with
  | none => exact .more last (.none _)
  | more first rest ih => exact .more first (ih last)

theorem eq_of_isReduced (reduced : IsReduced before) (steps : Replacements n before after) :
    n = 0 ∧ before = after := by
  cases steps with
  | none => exact ⟨rfl, rfl⟩
  | more first rest => exact absurd first (reduced _)

end Replacements

/-! ## Reduced texts -/

theorem IsReduced.of_append {elements more : List Element}
    (reduced : IsReduced (elements ++ more)) : IsReduced elements :=
  fun _ step => reduced _ (step.append more)

theorem IsReduced.snoc {elements : List Element} {element : Element} (reduced : IsReduced elements)
    (closed : ∀ front x y, elements = front ++ [x, y] → window? x y element = none) :
    IsReduced (elements ++ [element]) := by
  intro after step
  generalize shape : elements ++ [element] = whole at step
  obtain ⟨front, back, window⟩ := step
  rename_i x y z value
  rcases List.eq_nil_or_concat back with rfl | ⟨back, last, rfl⟩
  · have split : elements ++ [element] = (front ++ [x, y]) ++ [z] := by simp [shape]
    obtain ⟨rfl, rfl⟩ := List.append_singleton_inj.mp split
    have none := closed front x y rfl
    rw [window?_eq_some_iff.mpr window] at none
    cases none
  · have split : elements ++ [element] = (front ++ x :: y :: z :: back) ++ [last] := by simp [shape]
    obtain ⟨rfl, rfl⟩ := List.append_singleton_inj.mp split
    exact reduced _ (.intro front back window)

theorem IsReduced.cons {elements : List Element} {x : Element} (reduced : IsReduced elements)
    (closed : ∀ y z back, elements = y :: z :: back → window? x y z = none) :
    IsReduced (x :: elements) := by
  intro after step
  generalize whole : x :: elements = before at step
  obtain ⟨front, back, window⟩ := step
  cases front with
  | nil =>
    obtain ⟨rfl, rfl⟩ := List.cons.inj whole
    have none := closed _ _ back rfl
    rw [window?_eq_some_iff.mpr window] at none
    cases none
  | cons a front =>
    obtain ⟨rfl, rfl⟩ := List.cons.inj whole
    exact reduced _ (.intro front back window)

theorem window?_eq_none_of_isReduced {front : List Element} {x y z : Element}
    (reduced : IsReduced (front ++ [x, y, z])) : window? x y z = none := by
  cases found : window? x y z with
  | none => rfl
  | some value => exact absurd (.intro front [] (window?_eq_some_iff.mp found)) (reduced _)

theorem foldingOf_of_isReduced {elements : List Element} (reduced : IsReduced elements) :
    foldingOf elements = { folded := elements.reverse } := by
  induction elements using List.reverseRecOn with
  | nil => rfl
  | append_singleton elements element ih =>
    rw [foldingOf_snoc, ih reduced.of_append, snoc_of_none]
    · simp
    · intro b a rest shape
      have split : elements = rest.reverse ++ [a, b] := by
        simpa using congrArg List.reverse shape
      rw [split, List.append_assoc] at reduced
      exact window?_eq_none_of_isReduced reduced

theorem isReduced_nil : IsReduced [] := by
  intro after step
  generalize shape : [] = whole at step
  obtain ⟨front, back, window⟩ := step
  simp at shape

theorem replacements_foldingOf (elements : List Element) :
    Replacements (foldingOf elements).count elements (foldingOf elements).folded.reverse ∧
      IsReduced (foldingOf elements).folded.reverse := by
  induction elements using List.reverseRecOn with
  | nil => exact ⟨.none [], isReduced_nil⟩
  | append_singleton elements element ih =>
    obtain ⟨steps, reduced⟩ := ih
    rw [foldingOf_snoc]
    generalize foldingOf elements = folding at steps reduced ⊢
    by_cases closed : ∀ b a rest, folding.folded = b :: a :: rest → window? a b element = none
    · rw [snoc_of_none closed]
      simp only [List.reverse_cons]
      refine ⟨steps.append [element], reduced.snoc ?_⟩
      intro front x y shape
      exact closed y x front.reverse (by simpa using congrArg List.reverse shape)
    · simp only [not_forall] at closed
      obtain ⟨b, a, rest, shape, found⟩ := closed
      obtain ⟨value, found⟩ := Option.ne_none_iff_exists'.mp found
      have window := window?_eq_some_iff.mp found
      rw [snoc_of_window shape window]
      rw [shape] at steps reduced
      simp only [List.reverse_cons, List.append_assoc, List.cons_append, List.nil_append] at *
      constructor
      · -- The last replacement takes the window that the element completes.
        have last : Replaces (rest.reverse ++ [a, b] ++ [element])
            (rest.reverse ++ [.literal (.int value)]) := by
          simpa using Replaces.intro rest.reverse [] window
        exact (steps.append [element]).snoc (by simpa using last)
      · have before : IsReduced rest.reverse := reduced.of_append
        exact before.snoc fun _ x y _ => window?_literal x y _

/-! ## The program that folding answers -/

namespace Program

variable {program : Program}

theorem folding_of_straight (straight : program.hasJump = false) :
    program.folding = foldingOf program.toList := by
  simp [folding, straight, foldingOf]

theorem toList_fold (straight : program.hasJump = false) :
    program.fold.toList = (foldingOf program.toList).folded.reverse := by
  simp [fold, folding_of_straight straight, ofList, toList]

theorem foldCount_of_straight (straight : program.hasJump = false) :
    program.foldCount = (foldingOf program.toList).count := by
  rw [foldCount, folding_of_straight straight]

theorem replacements_fold (straight : program.hasJump = false) :
    Replacements program.foldCount program.toList program.fold.toList := by
  rw [foldCount_of_straight straight, toList_fold straight]
  exact (replacements_foldingOf program.toList).1

theorem size_eq_size_fold (straight : program.hasJump = false) :
    program.size = program.fold.size + 2 * program.foldCount :=
  (replacements_fold straight).length_eq

theorem isReduced_fold (straight : program.hasJump = false) : IsReduced program.fold.toList := by
  rw [toList_fold straight]
  exact (replacements_foldingOf program.toList).2

theorem mem_fold {element : Element} (member : element ∈ program.fold.toList) :
    element ∈ program.toList ∨ ∃ n, element = .literal (.int n) := by
  cases jumps : program.hasJump with
  | true => exact .inl (by rwa [fold_of_hasJump jumps] at member)
  | false => exact (replacements_fold jumps).mem member

theorem hasJump_fold (straight : program.hasJump = false) : program.fold.hasJump = false := by
  have absent : Element.op .jump ∉ program.toList := by simpa [hasJump] using straight
  have absent' : Element.op .jump ∉ program.fold.toList := by
    intro member
    rcases mem_fold member with member | ⟨n, equal⟩
    · exact absent member
    · cases equal
  simpa [hasJump] using absent'

theorem fold_of_isReduced (straight : program.hasJump = false)
    (reduced : IsReduced program.toList) : program.fold = program ∧ program.foldCount = 0 := by
  rw [foldCount_of_straight straight, fold, folding_of_straight straight,
    foldingOf_of_isReduced reduced]
  simp [ofList, toList]

theorem fold_fold (program : Program) : program.fold.fold = program.fold := by
  cases jumps : program.hasJump with
  | true => rw [fold_of_hasJump jumps, fold_of_hasJump jumps]
  | false => exact (fold_of_isReduced (hasJump_fold jumps) (isReduced_fold jumps)).1

theorem replacements_to_fold (straight : program.hasJump = false) {n : Nat} {after : List Element}
    (steps : Replacements n program.toList after) :
    ∃ more, Replacements more after program.fold.toList ∧ n + more = program.foldCount := by
  have same := steps.foldingOf_eq
  refine ⟨(foldingOf after).count, ?_, ?_⟩
  · rw [toList_fold straight, same]
    exact (replacements_foldingOf after).1
  · rw [foldCount_of_straight straight, same, raise, Nat.add_comm]

/-! ## The leftmost window first -/

def replaceFirst : List Element → Option (List Element)
  | x :: y :: z :: rest =>
    match window? x y z with
    | some value => some (.literal (.int value) :: rest)
    | none => (replaceFirst (y :: z :: rest)).map (x :: ·)
  | _ => none

theorem replaces_of_replaceFirst {before after : List Element}
    (found : replaceFirst before = some after) : Replaces before after := by
  fun_induction replaceFirst before generalizing after with
  | case1 x y z rest value reducible =>
    obtain rfl := Option.some.inj found
    exact .intro [] rest (window?_eq_some_iff.mp reducible)
  | case2 x y z rest closed ih =>
    obtain ⟨between, later, rfl⟩ := Option.map_eq_some_iff.mp found
    exact (ih later).cons x
  | case3 => cases found

theorem isReduced_of_replaceFirst {elements : List Element}
    (nowhere : replaceFirst elements = none) : IsReduced elements := by
  fun_induction replaceFirst elements with
  | case1 => cases nowhere
  | case2 x y z rest closed ih =>
    refine (ih (Option.map_eq_none_iff.mp nowhere)).cons ?_
    rintro _ _ _ ⟨rfl, rfl⟩
    exact closed
  | case3 elements short =>
    intro after step
    generalize whole : elements = before at step
    obtain ⟨front, back, window⟩ := step
    rcases front with _ | ⟨a, _ | ⟨b, _ | ⟨c, front⟩⟩⟩ <;> exact short _ _ _ _ whole

def replaceLeftmost (elements : List Element) : List Element × Nat :=
  match _found : replaceFirst elements with
  | none => (elements, 0)
  | some after =>
    let (last, count) := replaceLeftmost after
    (last, count + 1)
termination_by elements.length
decreasing_by
  have shorter := (replaces_of_replaceFirst _found).length_eq
  omega

theorem replaceLeftmost_eq (elements : List Element) :
    replaceLeftmost elements =
      ((foldingOf elements).folded.reverse, (foldingOf elements).count) := by
  fun_induction replaceLeftmost elements with
  | case1 elements nowhere =>
    rw [foldingOf_of_isReduced (isReduced_of_replaceFirst nowhere), List.reverse_reverse]
  | case2 elements after found last count again ih =>
    rw [again] at ih
    obtain ⟨rfl, rfl⟩ := Prod.mk.inj ih
    rw [(replaces_of_replaceFirst found).foldingOf_eq]
    rfl

/-- One pass from left to right is as good as a search from the left behind every replacement. -/
theorem replaceLeftmost_eq_fold (straight : program.hasJump = false) :
    replaceLeftmost program.toList = (program.fold.toList, program.foldCount) := by
  rw [replaceLeftmost_eq, toList_fold straight, foldCount_of_straight straight]

/-- Every order of replacements is finite and ends in the folded program, after as many
replacements as folding counts. -/
theorem replacements_confluent (straight : program.hasJump = false) :
    IsReduced program.fold.toList ∧
      program.fold.fold = program.fold ∧ program.fold.foldCount = 0 ∧
      (∀ n after, Replacements n program.toList after →
        n ≤ program.foldCount ∧
          (IsReduced after → after = program.fold.toList ∧ n = program.foldCount)) ∧
      Replacements program.foldCount program.toList program.fold.toList ∧
      program.size = program.fold.size + 2 * program.foldCount := by
  have reduced := isReduced_fold straight
  have again := fold_of_isReduced (hasJump_fold straight) reduced
  refine ⟨reduced, again.1, again.2, ?_, replacements_fold straight, size_eq_size_fold straight⟩
  intro n after steps
  obtain ⟨more, rest, total⟩ := replacements_to_fold straight steps
  refine ⟨by omega, fun last => ?_⟩
  obtain ⟨rfl, equal⟩ := rest.eq_of_isReduced last
  exact ⟨equal, total⟩

theorem replacements_confluent_nested :
    let program := ofList [.literal (.int 10), .literal (.int 2), .literal (.int 3),
      .op (.arith .add), .op (.arith .sub), .literal (.int 0), .op (.arith .div)]
    program.hasJump = false ∧
      ∀ n after, Replacements n program.toList after →
        n ≤ 2 ∧ (IsReduced after →
          after = [.literal (.int 5), .literal (.int 0), .op (.arith .div)] ∧ n = 2) := by
  intro program
  have straight : program.hasJump = false := by decide
  exact ⟨straight, (replacements_confluent straight).2.2.2.1⟩

end Program

end StackMachine
