import StackMachine.Config
import StackMachine.Proofs.Folding.Replacement
import StackMachine.Proofs.Program.Parsing

/-!
# Expressible programs

The programs that source text can express are those that read back from what is written of
them. Parsing leads to no others, and folding brings none in.
-/

namespace StackMachine

/-! ## What can be expressed -/

def Decimal.IsLiteral (cs : List Char) : Prop :=
  ∃ digits, IsDigits digits ∧ (cs = digits ∨ cs = '-' :: digits)

def Source.separators : List Char :=
  [' ', '\t', '\r', '\n', '\x0C', '\x22', '\x27', '#']

def Element.IsExpressible : Element → Prop
  | literal (.int _) => True
  | literal (.text s) => '\n' ∉ s.toList ∧ ¬ ('\x22' ∈ s.toList ∧ '\x27' ∈ s.toList)
  | op _ => True
  | word w => w ≠ "" ∧ (∀ c ∈ w.toList, c ∉ Source.separators) ∧ (∀ o : Op, o.name ≠ w) ∧
      ¬ Decimal.IsLiteral w.toList

def Program.IsExpressible (program : Program) : Prop :=
  ∀ element ∈ program.toList, element.IsExpressible

theorem Source.isWordChar_iff_not_mem {c : Char} : isWordChar c ↔ c ∉ separators := by
  simp [isWordChar, isSpace, isQuote, separators, and_assoc, and_left_comm]

theorem Decimal.natural?_eq_none_iff {cs : List Char} : natural? cs = none ↔ ¬ IsDigits cs := by
  simp [natural?]

theorem Decimal.not_isDigits_minus (cs : List Char) : ¬ IsDigits ('-' :: cs) :=
  fun digits => absurd digits.head_isDigit (by decide)

theorem Decimal.isLiteral_minus {cs : List Char} : IsLiteral ('-' :: cs) ↔ IsDigits cs := by
  constructor
  · rintro ⟨digits, isDigits, rfl | same⟩
    · exact absurd isDigits (not_isDigits_minus cs)
    · rwa [(List.cons.inj same).2]
  · intro isDigits
    exact ⟨cs, isDigits, .inr rfl⟩

theorem Decimal.isLiteral_of_ne_minus {cs : List Char} (plain : ∀ rest, cs ≠ '-' :: rest) :
    IsLiteral cs ↔ IsDigits cs := by
  constructor
  · rintro ⟨digits, isDigits, rfl | same⟩
    · exact isDigits
    · exact absurd same (plain digits)
  · intro isDigits
    exact ⟨cs, isDigits, .inl rfl⟩

theorem Decimal.literal?_eq_none_iff {cs : List Char} : literal? cs = none ↔ ¬ IsLiteral cs := by
  unfold literal?
  split
  · rename_i digits
    rw [isLiteral_minus, ← natural?_eq_none_iff]
    cases natural? digits <;> simp
  · rename_i plain
    rw [isLiteral_of_ne_minus plain, ← natural?_eq_none_iff]
    cases natural? cs <;> simp

theorem Op.ofName?_eq_none_iff {name : String} : ofName? name = none ↔ ∀ o : Op, o.name ≠ name := by
  simp [ofName?, mem_all]

/-! ## Elements -/

theorem Op.literal?_name (o : Op) : Decimal.literal? o.name.toList = none := by
  cases o with
  | arith operator =>
    cases operator <;> simp [name, Operator.symbol, Decimal.literal?, Decimal.natural?,
      Decimal.IsDigits]
  | _ => simp [name, Decimal.literal?, Decimal.natural?, Decimal.IsDigits]

theorem Op.name_ne_nil (o : Op) : o.name.toList ≠ [] := by
  cases o with
  | arith operator => cases operator <;> simp [name, Operator.symbol]
  | _ => simp [name]

theorem Op.isWordChar_of_mem_name {o : Op} : ∀ c ∈ o.name.toList, Source.isWordChar c := by
  cases o with
  | arith operator =>
    cases operator <;> simp [name, Operator.symbol, Source.isWordChar, Source.isSpace,
      Source.isQuote]
  | _ => simp [name, Source.isWordChar, Source.isSpace, Source.isQuote]

theorem Source.isWordChar_of_isDigit {c : Char} (digit : c.isDigit) : isWordChar c := by
  rw [isWordChar_iff_not_mem]
  intro member
  simp only [separators, List.mem_cons, List.not_mem_nil, or_false] at member
  rcases member with rfl | rfl | rfl | rfl | rfl | rfl | rfl | rfl <;> revert digit <;> decide

theorem Decimal.isLiteral_of_literal? {cs : List Char} {m : Int} (read : literal? cs = some m) :
    IsLiteral cs := by
  by_contra other
  rw [literal?_eq_none_iff.mpr other] at read
  cases read

theorem Decimal.IsLiteral.mem {cs : List Char} (isLiteral : IsLiteral cs) :
    ∀ c ∈ cs, c = '-' ∨ c.isDigit := by
  intro c member
  obtain ⟨digits, isDigits, rfl | rfl⟩ := isLiteral
  · exact .inr (isDigits.2 c member)
  · rcases List.mem_cons.mp member with rfl | member
    · exact .inl rfl
    · exact .inr (isDigits.2 c member)

theorem Decimal.IsLiteral.isWordChar {cs : List Char} (isLiteral : IsLiteral cs) :
    ∀ c ∈ cs, Source.isWordChar c := by
  intro c member
  rcases isLiteral.mem c member with rfl | digit
  · decide
  · exact Source.isWordChar_of_isDigit digit

theorem Integer.isWordChar_of_mem_render (n : Integer) :
    ∀ c ∈ n.render.toList, Source.isWordChar c := by
  rw [render, String.toList_ofList]
  exact (Decimal.isLiteral_of_literal? (Decimal.literal?_render n.toInt)).isWordChar

theorem Integer.render_ne_empty (n : Integer) : n.render ≠ "" := by
  have digits := Decimal.isDigits_toDigits n.toInt.natAbs
  have written : Decimal.render n.toInt ≠ [] := by
    unfold Decimal.render
    split
    · simp
    · exact digits.1
  simpa [render] using written

namespace Element

theorem render_text (s : String) :
    ∃ quote, Source.isQuote quote ∧
      (literal (.text s)).render = String.ofList (quote :: s.toList ++ [quote]) ∧
      (quote ∈ s.toList → '\x22' ∈ s.toList ∧ '\x27' ∈ s.toList) := by
  by_cases double : '\x22' ∈ s.toList
  · refine ⟨'\x27', rfl, ?_, fun single => ⟨double, single⟩⟩
    apply String.toList_injective
    simp [render, quoteFor, double]
  · refine ⟨'\x22', rfl, ?_, fun member => absurd member double⟩
    apply String.toList_injective
    simp [render, quoteFor, double]

theorem isToken_render {element : Element} (expressible : element.IsExpressible)
    {before after : List Char} (starts : ∀ c ∈ before.getLast?, ¬ Source.isWordChar c)
    (stops : ∀ c ∈ after.head?, ¬ Source.isWordChar c) :
    Source.IsToken before element.render.toList after := by
  cases element with
  | literal v =>
    cases v with
    | int n =>
      have nonempty : n.render.toList ≠ [] := by simpa using n.render_ne_empty
      exact .word nonempty n.isWordChar_of_mem_render starts stops
    | text s =>
      obtain ⟨line, quotes⟩ := expressible
      obtain ⟨quote, opens, written, both⟩ := render_text s
      have inside : ∀ c ∈ s.toList, c ≠ quote ∧ c ≠ '\n' := by
        intro c member
        refine ⟨?_, ?_⟩
        · rintro rfl
          exact quotes (both member)
        · rintro rfl
          exact line member
      rw [written, String.toList_ofList]
      exact .quoted opens inside
  | op o =>
    exact .word o.name_ne_nil Op.isWordChar_of_mem_name starts stops
  | word w =>
    obtain ⟨nonempty, inside, _⟩ := expressible
    have some : w.toList ≠ [] := by simpa using nonempty
    refine .word some ?_ starts stops
    intro c member
    exact Source.isWordChar_iff_not_mem.mpr (inside c member)

theorem ofToken_of_literal? {token : String} {m : Int}
    (read : Decimal.literal? token.toList = some m) :
    ofToken token =
      match Integer.ofInt? m with
      | some n => .ok (literal (.int n))
      | none => .error (.literalOutOfRange token) := by
  have unquoted := unquote?_of_word (Decimal.isLiteral_of_literal? read).isWordChar
  have unnamed : Op.ofName? token = none := by
    rw [Op.ofName?_eq_none_iff]
    rintro o rfl
    rw [Op.literal?_name] at read
    cases read
  cases fits : Integer.ofInt? m <;> simp only [ofToken, unquoted, unnamed, read, fits]

theorem ofToken_render {element : Element} (expressible : element.IsExpressible) :
    ofToken element.render = .ok element := by
  cases element with
  | literal v =>
    cases v with
    | int n =>
      have read : Decimal.literal? n.render.toList = some n.toInt := by
        rw [Integer.render, String.toList_ofList, Decimal.literal?_render]
      rw [render, ofToken_of_literal? read, Integer.ofInt?_toInt]
    | text s =>
      obtain ⟨quote, opens, written, both⟩ := render_text s
      rw [written, ofToken_quoted opens, String.ofList_toList]
  | op o =>
    have unquoted := unquote?_of_word (Op.isWordChar_of_mem_name (o := o))
    simp [ofToken, render, unquoted, Op.ofName?_name]
  | word w =>
    obtain ⟨nonempty, inside, unnamed, notLiteral⟩ := expressible
    have unquoted : unquote? w.toList = none :=
      unquote?_of_word fun c member => Source.isWordChar_iff_not_mem.mpr (inside c member)
    have unread := Decimal.literal?_eq_none_iff.mpr notLiteral
    simp [ofToken, render, unquoted, Op.ofName?_eq_none_iff.mpr unnamed, unread]

theorem isExpressible_of_ofToken {before token after : List Char}
    (isToken : Source.IsToken before token after) {element : Element}
    (spelled : ofToken (String.ofList token) = .ok element) : element.IsExpressible := by
  cases isToken with
  | @quoted quote body _ opens inside =>
    rw [ofToken_quoted opens] at spelled
    cases spelled
    simp only [IsExpressible, String.toList_ofList]
    refine ⟨fun member => (inside _ member).2 rfl, ?_⟩
    rintro ⟨double, single⟩
    have other : quote ≠ '\x22' ∧ quote ≠ '\x27' :=
      ⟨(inside _ double).1.symm, (inside _ single).1.symm⟩
    simp [Source.isQuote, other] at opens
  | word nonempty inside =>
    unfold ofToken at spelled
    rw [String.toList_ofList, unquote?_of_word inside] at spelled
    dsimp only at spelled
    split at spelled
    · cases spelled
      trivial
    rename_i unnamed
    split at spelled
    · rename_i unread
      cases spelled
      simp only [IsExpressible, String.toList_ofList]
      refine ⟨by simpa using nonempty, ?_, Op.ofName?_eq_none_iff.mp unnamed,
        Decimal.literal?_eq_none_iff.mp unread⟩
      intro c member
      exact Source.isWordChar_iff_not_mem.mp (inside c member)
    · split at spelled
      · cases spelled
        trivial
      · cases spelled

end Element

/-! ## Programs -/

theorem isExpressible_of_reading {before cs last rest : List Char} {parts : List Source.Part}
    (reading : Source.Reading before cs parts last rest) {elements : List Element}
    (spelled : Spelled parts elements) : ∀ element ∈ elements, element.IsExpressible := by
  induction reading generalizing elements with
  | stop =>
    cases spelled
    simp
  | part first isToken more ih =>
    cases spelled with
    | cons spelled others =>
      intro element member
      rcases List.mem_cons.mp member with rfl | member
      · exact Element.isExpressible_of_ofToken isToken spelled
      · exact ih others element member

theorem spelled_render {element : Element} (expressible : element.IsExpressible)
    (gap : List Char) {parts : List Source.Part} {elements : List Element}
    (more : Spelled parts elements) :
    Spelled ({ gap, token := element.render.toList } :: parts) (element :: elements) := by
  refine .cons ?_ more
  rw [String.ofList_toList]
  exact Element.ofToken_render expressible

-- The first element stands behind `gap`, and a blank is the gap in front of every other.
theorem exists_reading_render (element : Element) (more : List Element)
    (expressible : ∀ e ∈ element :: more, e.IsExpressible) (before gap : List Char)
    (between : ∀ rest, Source.Gap gap rest)
    (starts : ∀ c ∈ (before ++ gap).getLast?, ¬ Source.isWordChar c) :
    ∃ parts, Source.Reading before
        (gap ++ (" ".intercalate ((element :: more).map Element.render)).toList) parts [] [] ∧
      Spelled parts (element :: more) := by
  have blank : ¬ Source.isWordChar ' ' := by decide
  induction more generalizing element before gap with
  | nil =>
    have expressible' := expressible element List.mem_cons_self
    have isToken : Source.IsToken (before ++ gap) element.render.toList [] :=
      Element.isToken_render expressible' starts (by simp)
    have behind : Source.Reading (before ++ gap ++ element.render.toList) [] [] [] [] :=
      .stop (.nil [])
    have reading := Source.Reading.part (between _) isToken behind
    refine ⟨[{ gap, token := element.render.toList }], ?_, spelled_render expressible' gap .nil⟩
    simpa using reading
  | cons next more ih =>
    have expressible' := expressible element List.mem_cons_self
    have others : ∀ e ∈ next :: more, e.IsExpressible :=
      fun e member => expressible e (List.mem_cons_of_mem element member)
    obtain ⟨parts, behind, spelled⟩ := ih next others (before ++ gap ++ element.render.toList)
      [' '] (fun rest => .space rfl (.nil rest)) (by simpa using blank)
    have isToken : Source.IsToken (before ++ gap) element.render.toList
        ([' '] ++ (" ".intercalate ((next :: more).map Element.render)).toList) :=
      Element.isToken_render expressible' starts (by simpa using blank)
    have reading := Source.Reading.part (between _) isToken behind
    refine ⟨{ gap, token := element.render.toList } :: parts, ?_, ?_⟩
    · simpa using reading
    · exact spelled_render expressible' gap spelled

namespace Program

theorem isExpressible_of_parse {source : String} {program : Program}
    (parsed : parse source = .ok program) : program.IsExpressible := by
  obtain ⟨parts, last, reading, spelled⟩ := parse_eq_ok_iff.mp parsed
  exact isExpressible_of_reading reading spelled

theorem isExpressible_fold {program : Program} (expressible : program.IsExpressible) :
    program.fold.IsExpressible := by
  intro element member
  rcases mem_fold member with member | ⟨n, rfl⟩
  · exact expressible element member
  · trivial

theorem isExpressible_of_load {config : Config} {source : String} {program : Program}
    (loaded : config.load source = .ok program) : program.IsExpressible := by
  obtain ⟨parsed, found, prepared⟩ := bind_eq_ok_iff.mp loaded
  have expressible := isExpressible_of_parse found
  rw [← Except.ok.inj prepared, Config.prepare]
  split
  · exact isExpressible_fold expressible
  · exact expressible

theorem parse_render {program : Program} (expressible : program.IsExpressible) :
    parse program.render = .ok program := by
  rw [parse_eq_ok_iff, render]
  unfold IsExpressible at expressible
  cases shape : program.toList with
  | nil =>
    have reading : Source.Reading [] [] [] [] [] := .stop (.nil [])
    exact ⟨[], [], by simpa using reading, .nil⟩
  | cons element more =>
    rw [shape] at expressible
    obtain ⟨parts, reading, spelled⟩ :=
      exists_reading_render element more expressible [] [] .nil (by simp)
    exact ⟨parts, [], reading, spelled⟩

/-- A program reads back from what is written of it exactly when text can express it, and every
program that was read from a text can be expressed, whether it was folded or not. -/
theorem parse_render_iff (program : Program) :
    (parse program.render = .ok program ↔ program.IsExpressible) ∧
    (∀ source, parse source = .ok program → program.IsExpressible) ∧
    (∀ (config : Config) source, config.load source = .ok program →
      program.IsExpressible ∧ parse program.render = .ok program) := by
  refine ⟨⟨isExpressible_of_parse, parse_render⟩, fun _ => isExpressible_of_parse, ?_⟩
  intro config source loaded
  have expressible := isExpressible_of_load loaded
  exact ⟨expressible, parse_render expressible⟩

theorem parse_render_iff_quoted :
    let program := ofList [.literal (.text "a\"#b"), .op .jump, .word "-7x"]
    let other := ofList [.word "-07"]
    parse program.render = .ok program ∧ parse other.render ≠ .ok other := by
  intro program other
  constructor
  · apply (parse_render_iff program).1.mpr
    have unnamed : ∀ o : Op, o.name ≠ "-7x" := Op.ofName?_eq_none_iff.mp rfl
    have notLiteral : ¬ Decimal.IsLiteral "-7x".toList := by
      rw [← Decimal.literal?_eq_none_iff]
      simp [Decimal.literal?, Decimal.natural?, Decimal.IsDigits]
    simpa [program, IsExpressible, ofList, toList, Element.IsExpressible, Source.separators,
      unnamed] using notLiteral
  · intro parsed
    have member : Element.word "-07" ∈ other.toList := by simp [other, ofList, toList]
    have expressible := (parse_render_iff other).1.mp parsed _ member
    exact expressible.2.2.2 ⟨['0', '7'], by simp [Decimal.IsDigits], .inr (by simp)⟩

end Program

end StackMachine
