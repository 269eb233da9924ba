import StackMachine.Proofs.Source.Tokenizing
import StackMachine.Proofs.Text.Lines

/-!
# The grammar of program text

The tokenizer accepts the texts that a reading takes up whole. Each token then stands in the text
where its place says. On any other text the tokenizer fails at the quote that stops the reading,
and its error shows that quote with the rest of its line.
-/

namespace StackMachine.Source

/-! ## Where tokens stand -/

/-- The bytes of a text from the start to the stop of a token are its own, and they are whole
characters. -/
structure Token.IsIn (token : Token) (source : String) : Prop where
  start_isValid : String.Pos.Raw.IsValid source ⟨token.start⟩
  stop_isValid : String.Pos.Raw.IsValid source ⟨token.stop⟩
  start_lt_stop : token.start < token.stop
  bytes : source.toByteArray.extract token.start token.stop = token.text.toByteArray

theorem extract_between (front text back : String) :
    (front ++ text ++ back).toByteArray.extract front.utf8ByteSize
      (front.utf8ByteSize + text.utf8ByteSize) = text.toByteArray := by
  have behind : (front.toByteArray ++ (text.toByteArray ++ back.toByteArray)).extract
      (front.utf8ByteSize + 0) (front.utf8ByteSize + text.utf8ByteSize) =
      (text.toByteArray ++ back.toByteArray).extract 0 text.utf8ByteSize :=
    ByteArray.extract_append_size_add' rfl
  have front_of : (text.toByteArray ++ back.toByteArray).extract 0 text.utf8ByteSize =
      text.toByteArray := ByteArray.extract_append_eq_left rfl
  rw [front_of, Nat.add_zero, ← ByteArray.append_assoc] at behind
  simpa only [String.toByteArray_append] using behind

theorem Token.isIn_append {text : String} (nonempty : text ≠ "") (front back : String) :
    Token.IsIn { text, start := front.utf8ByteSize } (front ++ text ++ back) where
  start_isValid := by
    rw [String.Pos.Raw.isValid_iff_exists_append]
    refine ⟨front, text ++ back, String.append_assoc, ?_⟩
    simp [String.Pos.Raw.ext_iff]
  stop_isValid := by
    rw [String.Pos.Raw.isValid_iff_exists_append]
    refine ⟨front ++ text, back, rfl, ?_⟩
    simp [String.Pos.Raw.ext_iff, Token.stop]
  start_lt_stop := by
    have some : text.utf8ByteSize ≠ 0 := by simpa using nonempty
    simp only [Token.stop]
    omega
  bytes := extract_between front text back

theorem Reading.isIn {before cs last rest : List Char} {parts : List Part}
    (reading : Reading before cs parts last rest) (token : Token)
    (member : token ∈ tokensFrom (byteSize before) parts) :
    token.IsIn (String.ofList (before ++ cs)) := by
  induction reading with
  | stop => simp [tokensFrom] at member
  | @part before gap chars after _ _ _ first isToken more ih =>
    rcases List.mem_cons.mp member with rfl | member
    · have some : String.ofList chars ≠ "" := by simpa using isToken.ne_nil
      have placed := Token.isIn_append some (String.ofList (before ++ gap)) (String.ofList after)
      rw [← byteSize, byteSize_append] at placed
      simpa [String.ofList_append, String.append_assoc] using placed
    · have placed := ih (by simpa [Part.chars, byteSize_append, Nat.add_assoc] using member)
      simpa using placed

theorem start_ge_of_mem {offset : Nat} {parts : List Part} {token : Token}
    (member : token ∈ tokensFrom offset parts) : offset ≤ token.start := by
  induction parts generalizing offset with
  | nil => simp [tokensFrom] at member
  | cons part parts ih =>
    rcases List.mem_cons.mp member with rfl | member
    · exact Nat.le_add_right ..
    · exact Nat.le_of_add_right_le (ih member)

theorem pairwise_tokensFrom (offset : Nat) (parts : List Part) :
    (tokensFrom offset parts).Pairwise fun token later => token.stop ≤ later.start := by
  induction parts generalizing offset with
  | nil => exact .nil
  | cons part parts ih =>
    refine .cons ?_ (ih _)
    intro later member
    have behind := start_ge_of_mem member
    rw [Part.chars, byteSize_append, ← Nat.add_assoc] at behind
    exact behind

/-! ## The grammar -/

/-- A text is accepted exactly when a reading takes it up whole, which it does in one way only.
The tokens are those of the reading, each of them where it stands. Otherwise the error tells the
place and the line of the quote that stops the reading. -/
theorem tokenize_grammar (source : String) :
    (∀ tokens, tokenize source = .ok tokens ↔
      ∃ parts last, Reading [] source.toList parts last [] ∧ tokens = tokensFrom 0 parts) ∧
    (∀ parts parts' last last', Reading [] source.toList parts last [] →
      Reading [] source.toList parts' last' [] → parts = parts' ∧ last = last') ∧
    (∀ tokens, tokenize source = .ok tokens → (∀ token ∈ tokens, token.IsIn source) ∧
      tokens.Pairwise fun token later => token.stop ≤ later.start) ∧
    (∀ fault, tokenize source = .error fault ↔
      ∃ parts last quote after line, Reading [] source.toList parts last (quote :: after) ∧
        IsUnclosed quote after ∧ Text.IsFirstLine line (quote :: after) ∧
        fault = .unclosedQuote (byteSize (parts.flatMap Part.chars ++ last))
          (String.ofList line)) := by
  refine ⟨fun _ => tokenize_eq_ok_iff, ?_, ?_, ?_⟩
  · intro parts parts' last last' reading reading'
    obtain ⟨same, same', _⟩ := reading.unique reading' (.inl rfl) (.inl rfl)
    exact ⟨same, same'⟩
  · intro tokens found
    obtain ⟨parts, last, reading, rfl⟩ := tokenize_eq_ok_iff.mp found
    refine ⟨?_, pairwise_tokensFrom 0 parts⟩
    intro token member
    simpa using reading.isIn token member
  · intro fault
    simp [tokenize_eq_error_iff, Text.isFirstLine_iff]

theorem tokenize_grammar_quotes :
    tokenize "é'#'x #'" = .ok [⟨"é", 0⟩, ⟨"'#'", 2⟩, ⟨"x", 5⟩] ∧
      tokenize "é 'a\r\n'" = .error (.unclosedQuote 3 "'a") := by
  have wide : isWordChar 'é' := by decide
  have narrow : isWordChar 'x' := by decide
  have others : ¬ isWordChar ' ' ∧ ¬ isWordChar '\'' := by decide
  have first (after : List Char) (stops : ∀ c ∈ after.head?, ¬ isWordChar c) :
      IsToken [] ['é'] after := .word (by simp) (by simpa using wide) (by simp) stops
  constructor
  · apply ((tokenize_grammar _).1 _).mpr
    refine ⟨[⟨[], ['é']⟩, ⟨[], ['\'', '#', '\'']⟩, ⟨[], ['x']⟩], [' ', '#', '\''], ?_, by rfl⟩
    have start : IsToken [] ['é'] ['\'', '#', '\'', 'x', ' ', '#', '\''] :=
      first _ (by simpa using others.2)
    have second : IsToken ['é'] ('\'' :: ['#'] ++ ['\'']) ['x', ' ', '#', '\''] :=
      .quoted rfl (by simp)
    have third : IsToken ['é', '\'', '#', '\''] ['x'] [' ', '#', '\''] :=
      .word (by simp) (by simpa using narrow) (by simpa using others.2) (by simpa using others.1)
    have comment : Gap ('#' :: ['\''] ++ []) [] := .comment (by simp) (by simp) (.nil [])
    have last : Reading ['é', '\'', '#', '\'', 'x'] [' ', '#', '\''] [] [' ', '#', '\''] [] :=
      .stop (.space rfl comment)
    have whole := Reading.token start (Reading.token second (Reading.token third last))
    exact whole
  · apply ((tokenize_grammar _).2.2.2 _).mpr
    refine ⟨[⟨[], ['é']⟩], [' '], '\'', ['a', '\r', '\n', '\''], ['\'', 'a'], ?_, ?_, ?_, by rfl⟩
    · have start : IsToken [] ['é'] [' ', '\'', 'a', '\r', '\n', '\''] :=
        first _ (by simpa using others.1)
      have last : Reading ['é'] [' ', '\'', 'a', '\r', '\n', '\''] [] [' ']
          ['\'', 'a', '\r', '\n', '\''] := .stop (.space rfl (.nil _))
      have whole := Reading.token start last
      exact whole
    · exact ⟨rfl, by simp⟩
    · exact .both (by simp)

end StackMachine.Source
