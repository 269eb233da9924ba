import StackMachine.Proofs.Program.Literals

/-!
# Loading

A source text is cut into tokens first, and then each token becomes one element. Quotes decide
before anything else what a token is: between them stands a text, whatever it reads as, and
without them there is none. A source is refused where the tokenizer refuses it, and otherwise for
the first integer that is out of range.
-/

namespace StackMachine

/-! ## Quoted and bare tokens -/

namespace Source

def Token.Quotes (token : Token) (s : String) : Prop :=
  ∃ quote, isQuote quote ∧ token.text = String.ofList (quote :: s.toList ++ [quote])

def Token.IsBare (token : Token) : Prop :=
  token.text ≠ "" ∧ ∀ c ∈ token.text.toList, isWordChar c

def Token.IsOutOfRange (token : Token) : Prop :=
  ∃ m, Decimal.Denotes token.text.toList m ∧ ¬ Fits m

/-- What a token of the source stands for. -/
inductive Token.Spells (source : String) (token : Token) : Element → Prop
  | quoted {s : String} (quotes : token.Quotes s)
      (inside : source.toByteArray.extract (token.start + 1) (token.stop - 1) = s.toByteArray) :
      Spells source token (.literal (.text s))
  | op {o : Op} (bare : token.IsBare) (named : o.name = token.text) : Spells source token (.op o)
  | int {n : Integer} (bare : token.IsBare) (unnamed : ∀ o : Op, o.name ≠ token.text)
      (denotes : Decimal.Denotes token.text.toList n.toInt) :
      Spells source token (.literal (.int n))
  | word (bare : token.IsBare) (unnamed : ∀ o : Op, o.name ≠ token.text)
      (other : ∀ m, ¬ Decimal.Denotes token.text.toList m) :
      Spells source token (.word token.text)

theorem IsToken.quotes_or_isBare {before chars after : List Char}
    (isToken : IsToken before chars after) (start : Nat) :
    (∃ s, Token.Quotes { text := String.ofList chars, start } s) ∨
      Token.IsBare { text := String.ofList chars, start } := by
  cases isToken with
  | @quoted quote body _ opens =>
    exact .inl ⟨String.ofList body, quote, opens, by rw [String.toList_ofList]⟩
  | word nonempty inside => exact .inr ⟨by simpa using nonempty, by simpa using inside⟩

theorem Reading.quotes_or_isBare {before cs last rest : List Char} {parts : List Part}
    (reading : Reading before cs parts last rest) {offset : Nat} {token : Token}
    (member : token ∈ tokensFrom offset parts) : (∃ s, token.Quotes s) ∨ token.IsBare := by
  induction reading generalizing offset with
  | stop => simp [tokensFrom] at member
  | part _ isToken _ ih =>
    rcases List.mem_cons.mp member with rfl | member
    · exact isToken.quotes_or_isBare _
    · exact ih member

theorem Token.Quotes.inside_eq {source s : String} {token : Token} (quotes : token.Quotes s)
    (isIn : token.IsIn source) :
    source.toByteArray.extract (token.start + 1) (token.stop - 1) = s.toByteArray := by
  obtain ⟨quote, opens, written⟩ := quotes
  have narrow : (String.singleton quote).utf8ByteSize = 1 := by
    simp only [isQuote, Bool.or_eq_true, beq_iff_eq] at opens
    rcases opens with rfl | rfl <;> decide
  have cut : token.text = String.singleton quote ++ s ++ String.singleton quote := by
    rw [written]
    apply String.toList_inj.mp
    simp
  have stop : token.stop = token.start + (1 + s.utf8ByteSize + 1) := by
    rw [Token.stop, cut, String.utf8ByteSize_append, String.utf8ByteSize_append, narrow]
  have between := extract_between (String.singleton quote) s (String.singleton quote)
  rw [← cut, ← isIn.bytes, narrow, ByteArray.extract_extract] at between
  rw [← between, stop, Nat.min_eq_left (by omega)]
  rfl

theorem Token.spells_of_ofToken {source : String} {token : Token} (isIn : token.IsIn source)
    (shape : (∃ s, token.Quotes s) ∨ token.IsBare) {element : Element}
    (spelled : Element.ofToken token.text = .ok element) : token.Spells source element := by
  rcases shape with ⟨s, quotes⟩ | bare
  · obtain ⟨quote, opens, written⟩ := quotes
    rw [written, Element.ofToken_quoted opens, String.ofList_toList] at spelled
    cases spelled
    exact .quoted ⟨quote, opens, written⟩ (Quotes.inside_eq ⟨quote, opens, written⟩ isIn)
  · -- without quotes the name is asked for first, then the digits, and then their value
    unfold Element.ofToken at spelled
    rw [Element.unquote?_of_word bare.2] at spelled
    dsimp only at spelled
    split at spelled
    · rename_i o found
      cases spelled
      exact .op bare (Op.name_of_ofName?_eq_some found)
    rename_i unnamed
    have unnamed' := Op.ofName?_eq_none_iff.mp unnamed
    split at spelled
    · rename_i unread
      cases spelled
      refine .word bare unnamed' fun m denotes => ?_
      rw [Decimal.literal?_eq_some_iff.mpr denotes] at unread
      cases unread
    rename_i m read
    split at spelled
    · rename_i n fits
      cases spelled
      refine .int bare unnamed' ?_
      rw [Integer.ofInt?_eq_some_iff.mp fits]
      exact Decimal.literal?_eq_some_iff.mp read
    · cases spelled

theorem Token.Spells.ofToken_eq {source : String} {token : Token} {element : Element}
    (spells : token.Spells source element) : Element.ofToken token.text = .ok element := by
  cases spells with
  | quoted quotes =>
    obtain ⟨quote, opens, written⟩ := quotes
    rw [written, Element.ofToken_quoted opens, String.ofList_toList]
  | @op o _ named =>
    have rendered : Element.ofToken (Element.op o).render = .ok (.op o) :=
      Element.ofToken_render trivial
    exact named ▸ rendered
  | int _ _ denotes => exact Element.ofToken_eq_int_iff.mpr denotes
  | word bare unnamed other =>
    have unread : Decimal.literal? token.text.toList = none :=
      Option.eq_none_iff_forall_ne_some.mpr fun m read =>
        other m (Decimal.literal?_eq_some_iff.mp read)
    simp [Element.ofToken, Element.unquote?_of_word bare.2, Op.ofName?_eq_none_iff.mpr unnamed,
      unread]

theorem Token.exists_ofToken_iff {token : Token} :
    (∃ element, Element.ofToken token.text = .ok element) ↔ ¬ token.IsOutOfRange := by
  constructor
  · rintro ⟨element, spelled⟩ outOfRange
    rw [Element.ofToken_eq_error_iff.mpr ⟨rfl, outOfRange⟩] at spelled
    cases spelled
  · intro fits
    cases spelled : Element.ofToken token.text with
    | ok element => exact ⟨element, rfl⟩
    | error fault => exact absurd (Element.ofToken_eq_error_iff.mp spelled).2 fits

theorem fits_of_spells {source : String} {tokens : List Token} {elements : List Element}
    (spelled : List.Forall₂ (Token.Spells source) tokens elements) :
    ∀ token ∈ tokens, ¬ token.IsOutOfRange := by
  induction spelled with
  | nil => exact nofun
  | cons spells _ ih =>
    exact List.forall_mem_cons.mpr ⟨Token.exists_ofToken_iff.mp ⟨_, spells.ofToken_eq⟩, ih⟩

theorem exists_ofToken_of_fits {tokens : List Token}
    (fits : ∀ token ∈ tokens, ¬ token.IsOutOfRange) :
    ∀ text ∈ tokens.map Token.text, ∃ element, Element.ofToken text = .ok element :=
  List.forall_mem_map.mpr fun token member => Token.exists_ofToken_iff.mpr (fits token member)

theorem spells_iff_of_tokenize {source : String} {tokens : List Token}
    (found : tokenize source = .ok tokens) {token : Token} (member : token ∈ tokens)
    {element : Element} :
    token.Spells source element ↔ Element.ofToken token.text = .ok element := by
  refine ⟨Token.Spells.ofToken_eq, fun spelled => ?_⟩
  obtain ⟨parts, last, reading, rfl⟩ := tokenize_eq_ok_iff.mp found
  have isIn := reading.isIn token member
  rw [List.nil_append, String.ofList_toList] at isIn
  exact Token.spells_of_ofToken isIn (reading.quotes_or_isBare member) spelled

end Source

/-! ## Sources -/

namespace Program

theorem parse_of_tokenize {source : String} {tokens : List Source.Token}
    (found : Source.tokenize source = .ok tokens) :
    parse source = ofTokens (tokens.map Source.Token.text) := by
  rw [parse, found]
  rfl

theorem ofTokens_eq_ok_iff_spells {source : String} {tokens : List Source.Token}
    (found : Source.tokenize source = .ok tokens) {program : Program} :
    ofTokens (tokens.map Source.Token.text) = .ok program ↔
      List.Forall₂ (Source.Token.Spells source) tokens program.toList := by
  rw [ofTokens_eq_ok_iff, List.forall₂_map_left_iff, List.forall₂_iff_get, List.forall₂_iff_get]
  refine and_congr_right fun _ => forall_congr' fun i => forall₂_congr fun inside _ => ?_
  exact (Source.spells_iff_of_tokenize found (List.get_mem tokens ⟨i, inside⟩)).symm

theorem ofTokens_eq_error {front back : List String} {token : String} {fault : Fault}
    (fine : ∀ earlier ∈ front, ∃ element, Element.ofToken earlier = .ok element)
    (fails : Element.ofToken token = .error fault) :
    ofTokens (front ++ token :: back) = .error fault := by
  rw [ofTokens, mapM_eq_error fine fails]
  rfl

theorem exists_ofTokens_eq_ok {tokens : List String}
    (fine : ∀ token ∈ tokens, ∃ element, Element.ofToken token = .ok element) :
    ∃ program, ofTokens tokens = .ok program := by
  obtain ⟨elements, found⟩ := exists_mapM_eq_ok fine
  refine ⟨ofList elements, ?_⟩
  rw [ofTokens, found]
  rfl

end Program

namespace Config

/-- A source is loaded unless the tokenizer refuses it or, failing that, a token is out of range.
The program then has one element for each token, and is folded if the configuration says so. -/
theorem load_token_by_token (config : Config) (source : String) :
    (∀ fault, Source.tokenize source = .error fault → config.load source = .error fault) ∧
    ∀ tokens, Source.tokenize source = .ok tokens →
      (∀ front token back, tokens = front ++ token :: back →
        (∀ earlier ∈ front, ¬ earlier.IsOutOfRange) → token.IsOutOfRange →
        config.load source = .error (.literalOutOfRange token.text)) ∧
      ((∀ token ∈ tokens, ¬ token.IsOutOfRange) → ∃ program,
        (∀ other : Program,
          List.Forall₂ (Source.Token.Spells source) tokens other.toList ↔ other = program) ∧
        config.load source = .ok (if config.foldConstants then program.fold else program)) := by
  refine ⟨fun fault refused => ?_, fun tokens found => ⟨?_, fun fits => ?_⟩⟩
  · rw [load, Program.parse, refused]
    rfl
  · rintro front token back rfl fits outOfRange
    have fails := Element.ofToken_eq_error_iff.mpr ⟨rfl, outOfRange⟩
    rw [load, Program.parse_of_tokenize found, List.map_append, List.map_cons,
      Program.ofTokens_eq_error (Source.exists_ofToken_of_fits fits) fails]
    rfl
  · obtain ⟨program, parsed⟩ :=
      Program.exists_ofTokens_eq_ok (Source.exists_ofToken_of_fits fits)
    refine ⟨program, fun other => ?_, ?_⟩
    · rw [← Program.ofTokens_eq_ok_iff_spells found, parsed, Except.ok.injEq, eq_comm]
    · rw [load, Program.parse_of_tokenize found, parsed]
      rfl

theorem load_token_by_token_quoted :
    let folding : Config := {}
    let plain : Config := { foldConstants := false }
    let program := Program.ofList [.literal (.text "dup"), .literal (.text "7"), .word "é",
      .literal (.int (-7)), .literal (.int 8), .op (.arith .add)]
    folding.load "9223372036854775808 'a" = .error (.unclosedQuote 20 "'a") ∧
      folding.load "'9e' -9223372036854775809 9223372036854775808" =
        .error (.literalOutOfRange "-9223372036854775809") ∧
      plain.load "'dup'\"7\"é -007 8 +" = .ok program ∧
      folding.load "'dup'\"7\"é -007 8 +" = .ok (.ofList [.literal (.text "dup"),
        .literal (.text "7"), .word "é", .literal (.int 1)]) := by
  intro folding plain program
  refine ⟨(load_token_by_token folding _).1 _ (by decide +kernel), ?_, ?_⟩
  · have found : Source.tokenize "'9e' -9223372036854775809 9223372036854775808" =
        .ok ([⟨"'9e'", 0⟩] ++ ⟨"-9223372036854775809", 5⟩ :: [⟨"9223372036854775808", 26⟩]) := by
      decide +kernel
    have quoted : ¬ Source.Token.IsOutOfRange ⟨"'9e'", 0⟩ :=
      Source.Token.exists_ofToken_iff.mp ⟨.literal (.text "9e"), by decide +kernel⟩
    have least : Decimal.Denotes "-9223372036854775809".toList (-9223372036854775809) :=
      Decimal.literal?_eq_some_iff.mp (by decide +kernel)
    exact ((load_token_by_token folding _).2 _ found).1 _ _ _ rfl (by simpa using quoted)
      ⟨_, least, by simp [Fits]⟩
  · have found : Source.tokenize "'dup'\"7\"é -007 8 +" =
        .ok [⟨"'dup'", 0⟩, ⟨"\"7\"", 5⟩, ⟨"é", 8⟩, ⟨"-007", 11⟩, ⟨"8", 16⟩, ⟨"+", 18⟩] := by
      decide +kernel
    have spelled := (Program.ofTokens_eq_ok_iff_spells found).mp
      (show Program.ofTokens _ = .ok program by decide +kernel)
    obtain ⟨unfolded, only, loaded⟩ := ((load_token_by_token plain _).2 _ found).2
      (Source.fits_of_spells spelled)
    obtain ⟨whole, only', loaded'⟩ := ((load_token_by_token folding _).2 _ found).2
      (Source.fits_of_spells spelled)
    obtain rfl := (only program).mp spelled
    obtain rfl := (only' program).mp spelled
    exact ⟨loaded, loaded'.trans (by decide +kernel)⟩

end Config

end StackMachine
