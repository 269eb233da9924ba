import StackMachine.Proofs.Source.Grammar

/-!
# Line by line

No token, gap or quoted run crosses a line feed that stands between two texts, so the two are read
one after the other and the places of the second move along. Where the first text cannot be read,
what stands behind the line feed makes no difference.
-/

namespace StackMachine

/-! ## First lines -/

theorem Text.exists_firstLine_append_line (cs : List Char) :
    ∃ line, (∀ more, firstLine (cs ++ '\n' :: more) = line) ∧
      (line = firstLine cs ∨ cs.getLast? = some '\r' ∧ firstLine cs = line ++ ['\r']) := by
  obtain ⟨line, first⟩ := exists_isFirstLine cs
  rw [firstLine_eq first]
  cases first with
  | whole inside =>
    by_cases last : cs.getLast? = some '\r'
    · obtain ⟨front, rfl⟩ := List.getLast?_eq_some_iff.mp last
      refine ⟨front, fun more => firstLine_eq ?_, .inr ⟨last, rfl⟩⟩
      rw [List.append_assoc]
      exact .both fun c member => inside c (List.mem_append_left _ member)
    · exact ⟨cs, fun more => firstLine_eq (.lineFeed inside last), .inl rfl⟩
  | @lineFeed back inside last =>
    refine ⟨line, fun more => firstLine_eq ?_, .inl rfl⟩
    rw [List.append_assoc]
    exact .lineFeed inside last
  | @both back inside =>
    refine ⟨line, fun more => firstLine_eq ?_, .inl rfl⟩
    rw [List.append_assoc]
    exact .both inside

namespace Source

/-! ## Readings in front of a line feed -/

theorem Gap.append_line {gap rest : List Char} (between : Gap gap rest) (more : List Char) :
    Gap gap (rest ++ '\n' :: more) := by
  induction between with
  | nil => exact .nil _
  | space blank _ ih => exact .space blank ih
  | @comment body gap rest inside stops _ ih =>
    refine .comment inside ?_ ih
    intro c first
    rw [← List.append_assoc] at first
    cases whole : gap ++ rest with
    | nil => simpa [whole, eq_comm] using first
    | cons d back => exact stops c (by simpa [whole] using first)

theorem IsToken.append_line {before token after : List Char} (isToken : IsToken before token after)
    (more : List Char) : IsToken before token (after ++ '\n' :: more) := by
  cases isToken with
  | quoted opens inside => exact .quoted opens inside
  | word nonempty inside starts stops =>
    refine .word nonempty inside starts fun c first => ?_
    cases after with
    | nil =>
      obtain rfl : '\n' = c := by simpa using first
      decide
    | cons d after => exact stops c first

theorem Reading.append_line {before cs last rest : List Char} {parts : List Part}
    (reading : Reading before cs parts last rest) (more : List Char) :
    Reading before (cs ++ '\n' :: more) parts last (rest ++ '\n' :: more) := by
  induction reading with
  | stop gap =>
    rw [List.append_assoc]
    exact .stop (gap.append_line more)
  | part first isToken _ ih =>
    have gap := first.append_line more
    rw [List.append_assoc] at gap
    rw [List.append_assoc, List.append_assoc]
    exact .part gap (isToken.append_line more) ih

theorem IsUnclosed.append_line {quote : Char} {after : List Char} (unclosed : IsUnclosed quote after)
    (more : List Char) : IsUnclosed quote (after ++ '\n' :: more) := by
  refine ⟨unclosed.1, ?_⟩
  have line : (after ++ '\n' :: more).takeWhile (· != '\n') = after.takeWhile (· != '\n') := by
    rw [List.takeWhile_append]
    split
    · rename_i whole
      rw [(List.takeWhile_prefix _).eq_of_length whole]
      simp
    · rfl
  rw [line]
  exact unclosed.2

/-! ## Readings behind a line feed -/

theorem Gap.append {gap gap' rest : List Char} (first : Gap gap (gap' ++ rest))
    (second : Gap gap' rest) : Gap (gap ++ gap') rest := by
  generalize whole : gap' ++ rest = back at first
  induction first with
  | nil => exact second
  | space blank _ ih => exact .space blank (ih whole)
  | comment inside stops _ ih =>
    subst whole
    rw [List.append_assoc]
    refine .comment inside ?_ (ih rfl)
    rwa [List.append_assoc]

theorem Reading.behind {before cs last rest : List Char} {parts : List Part}
    (reading : Reading before cs parts last rest) {front : List Char}
    (ends : ∀ c ∈ front.getLast?, ¬ isWordChar c) :
    Reading (front ++ before) cs parts last rest := by
  induction reading with
  | stop gap => exact .stop gap
  | @part before gap token after last rest parts first isToken _ ih =>
    have placed : IsToken (front ++ (before ++ gap)) token after := by
      cases isToken with
      | quoted opens inside => exact .quoted opens inside
      | word nonempty inside starts stops =>
        refine .word nonempty inside ?_ stops
        intro c final
        rw [List.getLast?_append] at final
        cases inner : (before ++ gap).getLast? with
        | none => exact ends c (by simpa [inner] using final)
        | some d => exact starts c (by simpa [inner] using final)
    rw [← List.append_assoc] at placed
    refine .part first placed ?_
    simpa only [List.append_assoc] using ih

theorem Reading.trans {before cs last between last' rest : List Char} {parts parts' : List Part}
    (first : Reading before cs parts last between)
    (second : Reading (before ++ (parts.flatMap Part.chars ++ last)) between parts' last' rest)
    (offset : Nat) :
    ∃ whole gap, Reading before cs whole gap rest ∧
      tokensFrom offset whole = tokensFrom offset parts ++
        tokensFrom (offset + byteSize (parts.flatMap Part.chars ++ last)) parts' := by
  induction first generalizing offset with
  | @stop before last rest gap =>
    obtain ⟨whole, gap', reading, located⟩ := second.widen
      (fun _ _ shape behind => (shape ▸ gap).append behind) offset
    exact ⟨whole, gap', reading, located⟩
  | @part before gap token after last rest parts first isToken _ ih =>
    have ahead : (({ gap, token } :: parts : List Part).flatMap Part.chars ++ last) =
        gap ++ token ++ (parts.flatMap Part.chars ++ last) := by simp [Part.chars]
    rw [ahead] at second ⊢
    obtain ⟨whole, gap', reading, located⟩ :=
      ih (by simpa only [List.append_assoc] using second) (offset + byteSize (gap ++ token))
    refine ⟨_, gap', .part first isToken reading, ?_⟩
    rw [byteSize_append (gap ++ token), ← Nat.add_assoc]
    exact congrArg (_ :: ·) located

/-! ## Tokens of two texts -/

def Token.moved (token : Token) (count : Nat) : Token :=
  { token with start := token.start + count }

@[simp] theorem Token.stop_moved (token : Token) (count : Nat) :
    (token.moved count).stop = token.stop + count :=
  Nat.add_right_comm ..

theorem tokensFrom_add (offset count : Nat) (parts : List Part) :
    tokensFrom (offset + count) parts = (tokensFrom offset parts).map (·.moved count) := by
  induction parts generalizing offset with
  | nil => rfl
  | cons part parts ih =>
    simp only [tokensFrom, List.map_cons, Token.moved, Nat.add_right_comm offset count, ih]

theorem Reading.join {front back last last' rest : List Char} {parts parts' : List Part}
    (first : Reading [] front parts last []) (second : Reading [] back parts' last' rest) :
    ∃ whole gap, Reading [] (front ++ '\n' :: back) whole gap rest ∧
      tokensFrom 0 whole =
        tokensFrom 0 parts ++ (tokensFrom 0 parts').map (·.moved (byteSize front + 1)) := by
  have read : parts.flatMap Part.chars ++ last = front := by simpa using first.chars_eq
  have ends : ∀ c ∈ (front ++ ['\n']).getLast?, ¬ isWordChar c := by
    have feed : ¬ isWordChar '\n' := by decide
    simpa using feed
  have behind : Reading (front ++ ['\n']) back parts' last' rest := by
    simpa using second.behind ends
  have blank : ∀ c ∈ ['\n'], isSpace c := by simp [isSpace]
  obtain ⟨parts'', last'', reading, located⟩ :=
    behind.widen (fun _ _ _ gap => gap_spaces blank gap) (byteSize front)
  obtain ⟨whole, gap, joined, located'⟩ := (first.append_line back).trans
    (show Reading ([] ++ _) ('\n' :: back) parts'' last'' rest by rwa [read]) 0
  refine ⟨whole, gap, joined, ?_⟩
  rw [located', read, Nat.zero_add, located, ← Nat.zero_add (byteSize front + _), tokensFrom_add]
  rfl

theorem tokenize_join_of_ok {front back : String} {tokens more : List Token}
    (first : tokenize front = .ok tokens) (second : tokenize back = .ok more) :
    tokenize (front ++ "\n" ++ back) =
      .ok (tokens ++ more.map (·.moved (front.utf8ByteSize + 1))) := by
  obtain ⟨parts, last, reading, rfl⟩ := tokenize_eq_ok_iff.mp first
  obtain ⟨parts', last', reading', rfl⟩ := tokenize_eq_ok_iff.mp second
  obtain ⟨whole, gap, joined, located⟩ := reading.join reading'
  refine tokenize_eq_ok_iff.mpr ⟨whole, gap, by simpa using joined, ?_⟩
  simp [located, byteSize]

theorem tokenize_join_of_error_behind {front back : String} {tokens : List Token} {offset : Nat}
    {line : String} (first : tokenize front = .ok tokens)
    (second : tokenize back = .error (.unclosedQuote offset line)) :
    tokenize (front ++ "\n" ++ back) =
      .error (.unclosedQuote (offset + (front.utf8ByteSize + 1)) line) := by
  obtain ⟨parts, last, reading, _⟩ := tokenize_eq_ok_iff.mp first
  obtain ⟨parts', last', quote, after, reading', unclosed, fault⟩ := tokenize_eq_error_iff.mp second
  obtain ⟨whole, gap, joined, _⟩ := reading.join reading'
  refine tokenize_eq_error_iff.mpr
    ⟨whole, gap, quote, after, by simpa using joined, unclosed, ?_⟩
  -- What was read in front of the quote is the first text, the line feed, and the second text up
  -- to the quote.
  have read : whole.flatMap Part.chars ++ gap =
      front.toList ++ '\n' :: (parts'.flatMap Part.chars ++ last') := by
    refine List.append_cancel_right (joined.chars_eq.trans ?_)
    rw [List.append_assoc, List.cons_append, reading'.chars_eq]
  have size : byteSize (whole.flatMap Part.chars ++ gap) =
      byteSize (parts'.flatMap Part.chars ++ last') + (front.utf8ByteSize + 1) := by
    have feed : byteSize ['\n'] = 1 := rfl
    rw [read, ← List.singleton_append, byteSize_append, byteSize_append ['\n'], feed, byteSize,
      String.ofList_toList]
    omega
  cases fault
  rw [size]

theorem tokenize_join_of_error {front : String} {offset : Nat} {line : String}
    (first : tokenize front = .error (.unclosedQuote offset line)) :
    ∃ shown, (∀ back, tokenize (front ++ "\n" ++ back) = .error (.unclosedQuote offset shown)) ∧
      (shown = line ∨ front.toList.getLast? = some '\r' ∧ line = shown ++ "\r") := by
  obtain ⟨parts, last, quote, after, reading, unclosed, fault⟩ := tokenize_eq_error_iff.mp first
  cases fault
  obtain ⟨shown, unseen, same⟩ := Text.exists_firstLine_append_line (quote :: after)
  refine ⟨String.ofList shown, fun back => ?_, ?_⟩
  · have joined := reading.append_line back.toList
    refine tokenize_eq_error_iff.mpr
      ⟨parts, last, quote, _, ?_, unclosed.append_line back.toList, ?_⟩
    · simpa using joined
    · rw [← unseen back.toList]
      rfl
  · have ends : front.toList.getLast? = (quote :: after).getLast? := by
      rw [← reading.chars_eq, List.getLast?_append, List.getLast?_cons]
      rfl
    rw [ends]
    rcases same with same | ⟨final, longer⟩
    · exact .inl (congrArg String.ofList same)
    · refine .inr ⟨final, ?_⟩
      rw [longer, String.ofList_append]

/-- Two texts with a line feed between them are read one after the other: the tokens of the second
one, and the quote where it cannot be read, stand as far behind the first one as it is long, the
line feed counted. Where the first one cannot be read, the second one makes no difference, and only
a carriage return at the end of the first one, which now ends its line, is not shown. -/
theorem tokenize_line_by_line (front : String) :
    (∀ back tokens more, tokenize front = .ok tokens → tokenize back = .ok more →
      tokenize (front ++ "\n" ++ back) =
        .ok (tokens ++ more.map (·.moved (front.utf8ByteSize + 1)))) ∧
    (∀ back tokens offset line, tokenize front = .ok tokens →
      tokenize back = .error (.unclosedQuote offset line) →
        tokenize (front ++ "\n" ++ back) =
          .error (.unclosedQuote (offset + (front.utf8ByteSize + 1)) line)) ∧
    (∀ offset line, tokenize front = .error (.unclosedQuote offset line) →
      ∃ shown, (∀ back, tokenize (front ++ "\n" ++ back) = .error (.unclosedQuote offset shown)) ∧
        (shown = line ∨ front.toList.getLast? = some '\r' ∧ line = shown ++ "\r")) ∧
    ∀ source fault, tokenize source = .error fault →
      ∃ offset line, fault = .unclosedQuote offset line := by
  refine ⟨fun _ _ _ => tokenize_join_of_ok, fun _ _ _ _ => tokenize_join_of_error_behind,
    fun _ _ => tokenize_join_of_error, ?_⟩
  intro source fault failed
  obtain ⟨_, _, _, _, _, _, told⟩ := tokenize_eq_error_iff.mp failed
  exact ⟨_, _, told⟩

theorem tokenize_line_by_line_quotes :
    tokenize ("é # \"" ++ "\n" ++ "x '#'") = .ok [⟨"é", 0⟩, ⟨"x", 7⟩, ⟨"'#'", 9⟩] ∧
      tokenize ("é # \"" ++ "\n" ++ "x 'é") = .error (.unclosedQuote 9 "'é") ∧
      tokenize "é 'x\r" = .error (.unclosedQuote 3 "'x\r") ∧
      ∀ back, tokenize ("é 'x\r" ++ "\n" ++ back) = .error (.unclosedQuote 3 "'x") := by
  have front : tokenize "é # \"" = .ok [⟨"é", 0⟩] := by decide +kernel
  have closed : tokenize "x '#'" = .ok [⟨"x", 0⟩, ⟨"'#'", 2⟩] := by decide +kernel
  have unclosed : tokenize "x 'é" = .error (.unclosedQuote 2 "'é") := by decide +kernel
  have broken : tokenize "é 'x\r" = .error (.unclosedQuote 3 "'x\r") := by decide +kernel
  obtain ⟨shown, failed, _⟩ := (tokenize_line_by_line "é 'x\r").2.2.1 3 "'x\r" broken
  have alone : tokenize ("é 'x\r" ++ "\n" ++ "") = .error (.unclosedQuote 3 "'x") := by
    decide +kernel
  cases (failed "").symm.trans alone
  exact ⟨(tokenize_line_by_line _).1 _ _ _ front closed,
    (tokenize_line_by_line _).2.1 _ _ _ _ front unclosed, broken, failed⟩

end Source

end StackMachine
