import StackMachine.Proofs.Arithmetic.Exact

/-!
# Constant expressions

What folding puts in place of a part of a text is the value of a postfix expression over integer
literals, and the part spells that expression. A text is cut into segments: what is kept, one
element each, and what is folded. A constant expression never reaches across a cut, so folding
misses none.
-/

namespace StackMachine

open Element

/-! ## Expressions -/

inductive Expression where
  | literal (n : Integer)
  | node (operator : Operator) (folds : operator ≠ .mod) (left right : Expression)

namespace Expression

def elements : Expression → List Element
  | literal n => [.literal (.int n)]
  | node operator _ left right => left.elements ++ right.elements ++ [.op (.arith operator)]

def operators : Expression → Nat
  | literal _ => 0
  | node _ _ left right => left.operators + right.operators + 1

def value? : Expression → Option Integer
  | literal n => some n
  | node operator _ left right => do
    let a ← left.value?
    let b ← right.value?
    Integer.ofInt? (← operator.result? a.toInt b.toInt)

variable {operator : Operator} {folds : operator ≠ .mod} {left right : Expression}

theorem elements_ne_nil (expression : Expression) : expression.elements ≠ [] := by
  cases expression <;> simp [elements]

theorem window_iff_result {a b value : Integer} (folds : operator ≠ .mod) :
    Window (.literal (.int a)) (.literal (.int b)) (.op (.arith operator)) value ↔
      (operator.result? a.toInt b.toInt).bind Integer.ofInt? = some value := by
  have answer := operator.onIntegers_eq a b
  constructor
  · rintro ⟨_, evaluates⟩
    rw [evaluates] at answer
    cases exact : operator.result? a.toInt b.toInt with
    | none => simp [exact] at answer
    | some x => cases fits : Integer.ofInt? x <;> simp_all [Operator.onIntegers.fitting]
  · intro evaluates
    obtain ⟨x, exact, fits⟩ := Option.bind_eq_some_iff.mp evaluates
    simp only [exact, fits, Operator.onIntegers.fitting] at answer
    exact .intro folds answer

theorem value?_node_eq_some_iff {value : Integer} :
    (node operator folds left right).value? = some value ↔
      ∃ a b, left.value? = some a ∧ right.value? = some b ∧
        Window (.literal (.int a)) (.literal (.int b)) (.op (.arith operator)) value := by
  simp only [window_iff_result folds, value?, Option.bind_eq_bind, Option.bind_eq_some_iff,
    exists_and_left]

end Expression

/-! ## Segments -/

/-- A part of a text that folding makes one element of. -/
inductive Segment where
  | kept (element : Element)
  | folded (expression : Expression)

namespace Segment

def elements : Segment → List Element
  | kept element => [element]
  | folded expression => expression.elements

def operators : Segment → Nat
  | kept _ => 0
  | folded expression => expression.operators

inductive Makes : Segment → Element → Prop
  | kept (element : Element) : Makes (kept element) element
  | folded {expression : Expression} {value : Integer} (operates : 0 < expression.operators)
      (evaluates : expression.value? = some value) :
      Makes (folded expression) (.literal (.int value))

def expression? : Segment → Option Expression
  | kept (.literal (.int n)) => some (.literal n)
  | kept _ => none
  | folded expression => some expression

theorem elements_ne_nil (segment : Segment) : segment.elements ≠ [] := by
  cases segment with
  | kept element => exact List.cons_ne_nil element []
  | folded expression => exact expression.elements_ne_nil

theorem of_expression? {segment : Segment} {expression : Expression}
    (spelt : segment.expression? = some expression) :
    segment.elements = expression.elements ∧ segment.operators = expression.operators := by
  unfold expression? at spelt
  split at spelt <;> cases spelt <;> exact ⟨rfl, rfl⟩

theorem Makes.value?_iff {segment : Segment} {element : Element} (makes : segment.Makes element)
    (value : Integer) :
    element = .literal (.int value) ↔
      ∃ expression, segment.expression? = some expression ∧ expression.value? = some value := by
  cases makes with
  | folded operates evaluates => simp [expression?, evaluates]
  | kept =>
    constructor
    · rintro rfl
      exact ⟨.literal value, rfl, rfl⟩
    · rintro ⟨expression, spelt, evaluates⟩
      unfold expression? at spelt
      split at spelt
      · rename_i n same
        cases spelt
        cases evaluates
        exact kept.inj same
      · cases spelt
      · rename_i same
        cases same

def merge? (x y : Segment) : Element → Option Expression
  | .op (.arith operator) =>
    if folds : operator ≠ .mod then do
      let whole := .node operator folds (← x.expression?) (← y.expression?)
      if whole.value?.isSome then some whole else none
    else none
  | _ => none

theorem merge?_eq_some_iff {x y : Segment} {z : Element} {whole : Expression} :
    merge? x y z = some whole ↔
      ∃ operator folds left right, z = .op (.arith operator) ∧ x.expression? = some left ∧
        y.expression? = some right ∧ whole = .node operator folds left right ∧
        whole.value?.isSome := by
  constructor
  · intro merged
    unfold merge? at merged
    split at merged
    · rename_i operator
      split at merged
      · rename_i folds
        simp only [Option.bind_eq_bind, Option.bind_eq_some_iff] at merged
        obtain ⟨left, spelt, right, spelt', chosen⟩ := merged
        split at chosen
        · cases chosen
          exact ⟨operator, folds, left, right, rfl, spelt, spelt', rfl, ‹_›⟩
        · cases chosen
      · cases merged
    · cases merged
  · rintro ⟨operator, folds, left, right, rfl, spelt, spelt', rfl, evaluates⟩
    simp [merge?, folds, spelt, spelt', evaluates]

theorem merge?_iff_window {x y : Segment} {a b z : Element} (left : x.Makes a) (right : y.Makes b)
    (value : Integer) :
    Window a b z value ↔ ∃ whole, merge? x y z = some whole ∧ whole.value? = some value := by
  constructor
  · rintro ⟨folds, evaluates⟩
    rename_i m n operator
    obtain ⟨l, spelt, evaluates_l⟩ := (left.value?_iff m).mp rfl
    obtain ⟨r, spelt', evaluates_r⟩ := (right.value?_iff n).mp rfl
    have whole : (Expression.node operator folds l r).value? = some value :=
      Expression.value?_node_eq_some_iff.mpr
        ⟨m, n, evaluates_l, evaluates_r, .intro folds evaluates⟩
    exact ⟨_, merge?_eq_some_iff.mpr
      ⟨operator, folds, l, r, rfl, spelt, spelt', rfl, by simp [whole]⟩, whole⟩
  · rintro ⟨whole, merged, evaluates⟩
    obtain ⟨operator, folds, l, r, rfl, spelt, spelt', rfl, _⟩ := merge?_eq_some_iff.mp merged
    obtain ⟨m, n, evaluates_l, evaluates_r, window⟩ :=
      Expression.value?_node_eq_some_iff.mp evaluates
    obtain rfl := (left.value?_iff m).mpr ⟨l, spelt, evaluates_l⟩
    obtain rfl := (right.value?_iff n).mpr ⟨r, spelt', evaluates_r⟩
    exact window

theorem merge?_counts {x y : Segment} {z : Element} {whole : Expression}
    (merged : merge? x y z = some whole) :
    whole.elements = x.elements ++ y.elements ++ [z] ∧
      whole.operators = x.operators + y.operators + 1 := by
  obtain ⟨operator, folds, left, right, rfl, spelt, spelt', rfl, _⟩ := merge?_eq_some_iff.mp merged
  rw [(of_expression? spelt).1, (of_expression? spelt).2, (of_expression? spelt').1,
    (of_expression? spelt').2]
  exact ⟨rfl, rfl⟩

/-- Puts an element behind the segments, which stand last first. -/
def snoc (segments : List Segment) (z : Element) : List Segment :=
  match segments with
  | y :: x :: rest =>
    match merge? x y z with
    | some whole => folded whole :: rest
    | none => kept z :: y :: x :: rest
  | segments => kept z :: segments

def cut (elements : List Element) : List Segment :=
  elements.foldl snoc []

theorem snoc_cases (segments : List Segment) (z : Element) :
    ((∀ y x rest, segments = y :: x :: rest → merge? x y z = none) ∧
        snoc segments z = kept z :: segments) ∨
      ∃ x y rest whole, segments = y :: x :: rest ∧ merge? x y z = some whole ∧
        snoc segments z = folded whole :: rest := by
  fun_cases snoc segments z with
  | case1 y x rest whole merged => exact .inr ⟨x, y, rest, whole, rfl, merged, rfl⟩
  | case2 y x rest apart =>
    refine .inl ⟨?_, rfl⟩
    rintro _ _ _ ⟨rfl, rfl⟩
    exact apart
  | case3 =>
    rename_i short
    exact .inl ⟨fun y x rest shape => absurd shape (short y x rest), rfl⟩

def spell (segments : List Segment) : List Element :=
  segments.reverse.flatMap elements

@[simp]
theorem spell_cons (segment : Segment) (segments : List Segment) :
    spell (segment :: segments) = spell segments ++ segment.elements := by
  simp [spell]

theorem spell_snoc (segments : List Segment) (z : Element) :
    spell (snoc segments z) = spell segments ++ [z] := by
  obtain ⟨_, kept⟩ | ⟨x, y, rest, whole, rfl, merged, folded⟩ := snoc_cases segments z
  · rw [kept, spell_cons]
    rfl
  · rw [folded]
    simp [elements, (merge?_counts merged).1]

theorem spell_foldl_snoc (elements : List Element) (segments : List Segment) :
    spell (elements.foldl snoc segments) = spell segments ++ elements := by
  induction elements generalizing segments with
  | nil => simp
  | cons z elements ih => simp [ih, spell_snoc]

/-! ## Segments and folding -/

structure Tracks (segments : List Segment) (folding : Program.Folding) : Prop where
  makes : List.Forall₂ Makes segments folding.folded
  operators_eq : (segments.map operators).sum = folding.count

theorem Tracks.snoc {segments : List Segment} {folding : Program.Folding}
    (tracks : Tracks segments folding) (z : Element) :
    Tracks (snoc segments z) (folding.snoc z) := by
  obtain ⟨makes, operators_eq⟩ := tracks
  -- Segments are merged exactly where what they make is a window.
  obtain ⟨apart, kept⟩ | ⟨x, y, rest, whole, rfl, merged, folded⟩ := snoc_cases segments z
  · have closed : ∀ b a rest, folding.folded = b :: a :: rest → window? a b z = none := by
      intro b a rest shape
      rw [shape] at makes
      obtain ⟨y, _, right, makes', rfl⟩ := List.forall₂_cons_right_iff.mp makes
      obtain ⟨x, segments, left, _, rfl⟩ := List.forall₂_cons_right_iff.mp makes'
      by_contra found
      obtain ⟨value, found⟩ := Option.ne_none_iff_exists'.mp found
      obtain ⟨whole, merged, _⟩ :=
        (merge?_iff_window left right value).mp (window?_eq_some_iff.mp found)
      simp [apart y x segments rfl] at merged
    rw [kept, Program.Folding.snoc_of_none closed]
    exact ⟨.cons (.kept z) makes, by simpa [operators] using operators_eq⟩
  · obtain ⟨b, _, right, makes', shape⟩ := List.forall₂_cons_left_iff.mp makes
    obtain ⟨a, made, left, makes, rfl⟩ := List.forall₂_cons_left_iff.mp makes'
    obtain ⟨_, _, _, _, _, _, _, _, evaluates⟩ := merge?_eq_some_iff.mp merged
    obtain ⟨value, evaluates⟩ := Option.isSome_iff_exists.mp evaluates
    have window : Window a b z value :=
      (merge?_iff_window left right value).mpr ⟨whole, merged, evaluates⟩
    have count := (merge?_counts merged).2
    rw [folded, Program.Folding.snoc_of_window shape window]
    refine ⟨.cons (.folded (by omega) evaluates) makes, ?_⟩
    simp only [List.map_cons, List.sum_cons] at operators_eq ⊢
    rw [operators, count]
    omega

theorem tracks_cut (elements : List Element) : Tracks (cut elements) (foldingOf elements) := by
  induction elements using List.reverseRecOn with
  | nil => exact ⟨.nil, rfl⟩
  | append_singleton elements z ih =>
    rw [foldingOf_snoc, cut, List.foldl_append]
    exact ih.snoc z

/-! ## Constant parts -/

def ofExpression : Expression → Segment
  | .literal n => kept (.literal (.int n))
  | .node operator folds left right => folded (.node operator folds left right)

theorem expression?_ofExpression (expression : Expression) :
    (ofExpression expression).expression? = some expression := by
  cases expression <;> rfl

theorem elements_ofExpression (expression : Expression) :
    (ofExpression expression).elements = expression.elements := by
  cases expression <;> rfl

theorem foldl_snoc_elements {expression : Expression} {value : Integer}
    (evaluates : expression.value? = some value) (segments : List Segment) :
    expression.elements.foldl snoc segments = ofExpression expression :: segments := by
  induction expression generalizing value segments with
  | literal n =>
    obtain ⟨_, kept⟩ | ⟨_, _, _, _, _, merged, _⟩ := snoc_cases segments (.literal (.int n))
    · exact kept
    · cases merged
  | node operator folds left right ih_left ih_right =>
    obtain ⟨a, b, evaluates_l, evaluates_r, _⟩ := Expression.value?_node_eq_some_iff.mp evaluates
    have merged : merge? (ofExpression left) (ofExpression right) (.op (.arith operator)) =
        some (.node operator folds left right) :=
      merge?_eq_some_iff.mpr ⟨operator, folds, left, right, rfl, expression?_ofExpression left,
        expression?_ofExpression right, rfl, by simp [evaluates]⟩
    rw [Expression.elements, List.foldl_append, List.foldl_append, ih_left evaluates_l,
      ih_right evaluates_r, List.foldl_cons, List.foldl_nil, snoc, merged]
    rfl

inductive Holds (front piece : List Element) : List Segment → Prop
  | intro (after : List Segment) (segment : Segment) (before : List Segment)
      (left right : List Element) (starts : spell before ++ left = front)
      (holds : segment.elements = left ++ piece ++ right) :
      Holds front piece (after ++ segment :: before)

theorem Holds.snoc {front piece : List Element} {segments : List Segment}
    (held : Holds front piece segments) (z : Element) : Holds front piece (snoc segments z) := by
  obtain ⟨after, segment, before, left, right, starts, holds⟩ := held
  obtain ⟨_, kept⟩ | ⟨x, y, rest, whole, shape, merged, grown⟩ :=
    snoc_cases (after ++ segment :: before) z
  · rw [kept]
    exact .intro (.kept z :: after) segment before left right starts holds
  have spells : (folded whole).elements = x.elements ++ y.elements ++ [z] :=
    (merge?_counts merged).1
  rw [grown]
  -- The segment may be one of the two that are merged.
  rcases after with _ | ⟨last, _ | ⟨_, after⟩⟩
  · obtain ⟨rfl, rfl⟩ := List.cons.inj shape
    refine .intro [] (.folded whole) rest (x.elements ++ left) (right ++ [z]) ?_ ?_
    · simpa using starts
    · simp [spells, holds]
  · obtain ⟨rfl, rfl⟩ := List.cons.inj (List.cons.inj shape).2
    refine .intro [] (.folded whole) before left (right ++ y.elements ++ [z]) starts ?_
    simp [spells, holds]
  · obtain ⟨rfl, rfl⟩ := List.cons.inj (List.cons.inj shape).2
    exact .intro (.folded whole :: after) segment before left right starts holds

theorem Holds.foldl_snoc {front piece : List Element} {segments : List Segment}
    (held : Holds front piece segments) (back : List Element) :
    Holds front piece (back.foldl Segment.snoc segments) := by
  induction back generalizing segments with
  | nil => exact held
  | cons z back ih => exact ih (held.snoc z)

theorem holds_cut (front back : List Element) {expression : Expression} {value : Integer}
    (evaluates : expression.value? = some value) :
    Holds front expression.elements (cut (front ++ expression.elements ++ back)) := by
  rw [cut, List.foldl_append, List.foldl_append, foldl_snoc_elements evaluates]
  refine (Holds.intro [] (ofExpression expression) _ [] [] ?_ ?_).foldl_snoc back
  · rw [spell_foldl_snoc]
    simp [spell]
  · simp [elements_ofExpression]

end Segment

namespace Program

variable {program : Program}

/-- A program without a jump falls into segments, one for each element of the folded program: an
element that is kept, or an expression whose value takes its place. Whatever stands around it, an
expression that has a value lies within one of them. -/
theorem fold_constant_expressions (straight : program.hasJump = false) :
    ∃ segments : List Segment,
      segments.flatMap Segment.elements = program.toList ∧
      (∀ segment ∈ segments, segment.elements ≠ []) ∧
      List.Forall₂ Segment.Makes segments program.fold.toList ∧
      (segments.map Segment.operators).sum = program.foldCount ∧
      ∀ front expression value back, Expression.value? expression = some value →
        program.toList = front ++ expression.elements ++ back →
        ∃ before segment after left right, segments = before ++ segment :: after ∧
          front = before.flatMap Segment.elements ++ left ∧
          segment.elements = left ++ expression.elements ++ right := by
  obtain ⟨makes, operators_eq⟩ := Segment.tracks_cut program.toList
  refine ⟨(Segment.cut program.toList).reverse, ?_, ?_, ?_, ?_, ?_⟩
  · exact Segment.spell_foldl_snoc program.toList []
  · exact fun segment _ => segment.elements_ne_nil
  · rw [toList_fold straight]
    exact List.rel_reverse makes
  · rw [foldCount_of_straight straight, ← operators_eq, List.map_reverse, List.sum_reverse]
  · intro front expression value back evaluates shape
    have held := Segment.holds_cut front back evaluates
    rw [← shape] at held
    generalize Segment.cut program.toList = segments at held
    obtain ⟨after, segment, before, left, right, starts, holds⟩ := held
    exact ⟨before.reverse, segment, after.reverse, left, right, by simp, starts.symm, holds⟩

theorem fold_constant_expressions_division :
    let program := ofList [.literal (.int 1), .literal (.int 0), .op (.arith .div),
      .literal (.int 10), .literal (.int 2), .literal (.int 3), .op (.arith .add),
      .op (.arith .sub)]
    program.hasJump = false ∧
      ∃ segments : List Segment,
        segments.flatMap Segment.elements = program.toList ∧
        List.Forall₂ Segment.Makes segments [.literal (.int 1), .literal (.int 0),
          .op (.arith .div), .literal (.int 5)] ∧
        (segments.map Segment.operators).sum = 2 := by
  intro program
  have straight : program.hasJump = false := by decide
  obtain ⟨segments, spells, _, makes, count, _⟩ := fold_constant_expressions straight
  exact ⟨straight, segments, spells, makes, count⟩

end Program

end StackMachine
