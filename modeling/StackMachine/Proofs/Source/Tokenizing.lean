import Mathlib.Data.List.TakeWhile
import StackMachine.Proofs.Source.Reading

/-!
# The tokenizer and the grammar

`exists_reading` says that the lexemes of a text make up a reading of it. Since no text has two,
the tokens of a text are those of its reading wherever it comes from, and the tokenizer fails at
the quote where the reading is stuck.
-/

namespace StackMachine.Source

def byteSize (cs : List Char) : Nat :=
  (String.ofList cs).utf8ByteSize

theorem byteSize_append (front back : List Char) :
    byteSize (front ++ back) = byteSize front + byteSize back := by
  simp [byteSize, String.ofList_append]

def Part.chars (part : Part) : List Char :=
  part.gap ++ part.token

def tokensFrom (offset : Nat) : List Part → List Token
  | [] => []
  | part :: more =>
    { text := String.ofList part.token, start := offset + byteSize part.gap } ::
      tokensFrom (offset + byteSize part.chars) more

theorem tokensFrom_nil_gap (offset : Nat) (token : List Char) (parts : List Part) :
    tokensFrom offset ({ gap := [], token } :: parts) =
      { text := String.ofList token, start := offset } ::
        tokensFrom (offset + byteSize token) parts := by
  simp [tokensFrom, Part.chars, byteSize]

theorem Reading.chars_eq {before cs last rest : List Char} {parts : List Part}
    (reading : Reading before cs parts last rest) :
    parts.flatMap Part.chars ++ last ++ rest = cs := by
  induction reading with
  | stop => rfl
  | part first isToken more ih => simp [Part.chars, ← ih]

/-! ## What lexemes stand for -/

inductive Lexeme.Stands : Lexeme → List Char → Prop
  | space {chars rest : List Char} (nonempty : chars ≠ []) (inside : ∀ c ∈ chars, isSpace c) :
      Stands (.space chars) rest
  | comment {body rest : List Char} (inside : ∀ c ∈ body, c ≠ '\n')
      (stops : ∀ c ∈ rest.head?, c = '\n') : Stands (.comment body) rest
  | quoted {quote : Char} {body rest : List Char} (opens : isQuote quote)
      (inside : ∀ c ∈ body, c ≠ quote ∧ c ≠ '\n') : Stands (.quoted quote body) rest
  | word {chars rest : List Char} (nonempty : chars ≠ []) (inside : ∀ c ∈ chars, isWordChar c)
      (stops : ∀ c ∈ rest.head?, ¬ isWordChar c) : Stands (.word chars) rest

theorem not_of_mem_head?_dropWhile {p : Char → Bool} {cs : List Char} {c : Char}
    (first : c ∈ (cs.dropWhile p).head?) : ¬ p c := by
  have boundary := List.head?_dropWhile_not p cs
  rw [Option.mem_def.mp first] at boundary
  simp [boundary]

theorem takeWhile_line {front back : List Char} (inside : ∀ c ∈ front, c ≠ '\n')
    (stops : ∀ c ∈ back.head?, c = '\n') : (front ++ back).takeWhile (· != '\n') = front := by
  rw [List.takeWhile_append_of_pos fun c member => by simpa using inside c member]
  cases back with
  | nil => exact List.append_nil front
  | cons c back => simp [stops c rfl]

theorem Lexeme.stands_of_cut? {c : Char} {cs rest : List Char} {lexeme : Lexeme}
    (found : cut? c cs = some (lexeme, rest)) : lexeme.Stands rest := by
  unfold cut? at found
  split at found
  · rename_i blank
    cases found
    refine .space (by simp) ?_
    intro d member
    rcases List.mem_cons.mp member with rfl | member
    · exact blank
    · exact List.mem_takeWhile_imp member
  rename_i visible
  split at found
  · cases found
    refine .comment ?_ ?_
    · intro d member
      simpa using List.mem_takeWhile_imp member
    · intro d first
      simpa using not_of_mem_head?_dropWhile first
  rename_i sharp
  split at found
  · rename_i opens
    dsimp only at found
    split at found
    · cases found
    · split at found
      · cases found
        refine .quoted opens ?_
        intro d member
        simpa using List.mem_takeWhile_imp member
      · cases found
  · rename_i plain
    cases found
    refine .word (by simp) ?_ fun d first => not_of_mem_head?_dropWhile first
    intro d member
    rcases List.mem_cons.mp member with rfl | member
    · exact isWordChar_iff.mpr ⟨visible, plain, sharp⟩
    · exact List.mem_takeWhile_imp member

theorem Lexeme.isUnclosed_of_cut? {c : Char} {cs : List Char} (nowhere : cut? c cs = none) :
    IsUnclosed c cs := by
  unfold cut? at nowhere
  split at nowhere
  · cases nowhere
  split at nowhere
  · cases nowhere
  split at nowhere
  · rename_i opens
    refine ⟨opens, ?_⟩
    dsimp only at nowhere
    generalize kind : (fun d => d != c && d != '\n') = inside at nowhere
    have plain (d : Char) (member : d ∈ cs.takeWhile inside) : d ≠ c ∧ d ≠ '\n' := by
      have held := List.mem_takeWhile_imp member
      simpa [← kind] using held
    have stops : ∀ d ∈ (cs.dropWhile inside).head?, d = '\n' := by
      intro d first
      have other := not_of_mem_head?_dropWhile first
      split at nowhere
      · rename_i shape
        simp [shape] at first
      · rename_i shape
        obtain rfl : _ = d := by simpa [shape] using first
        split at nowhere
        · cases nowhere
        · rename_i different
          simpa [← kind, different] using other
    have line := takeWhile_line (fun d member => (plain d member).2) stops
    rw [List.takeWhile_append_dropWhile] at line
    rw [line]
    exact fun member => (plain c member).1 rfl
  · cases nowhere

def Apart (before after : List Char) : Prop :=
  ∀ c ∈ before.getLast?, ∀ d ∈ after.head?, isWordChar c → ¬ isWordChar d

theorem Lexeme.Stands.apart {lexeme : Lexeme} {rest : List Char} (stands : lexeme.Stands rest)
    (before : List Char) : Apart (before ++ lexeme.chars) rest := by
  intro c last d first wordChar
  cases stands with
  | @space chars _ nonempty inside =>
    rw [Lexeme.chars, List.getLast?_append, List.getLast?_eq_some_getLast nonempty] at last
    obtain rfl : chars.getLast nonempty = c := Option.some.inj last
    exact absurd (inside _ (List.getLast_mem nonempty)) (isWordChar_iff.mp wordChar).1
  | comment inside stops =>
    obtain rfl := stops d first
    decide
  | @quoted quote body _ opens inside =>
    rw [Lexeme.chars, ← List.append_assoc, List.getLast?_concat] at last
    obtain rfl : quote = c := Option.some.inj last
    exact absurd opens (isWordChar_iff.mp wordChar).2.1
  | word nonempty inside stops => exact stops d first

/-! ## The reading that lexemes make up -/

theorem Reading.token {before token after last rest : List Char} {parts : List Part}
    (isToken : IsToken before token after)
    (more : Reading (before ++ token) after parts last rest) :
    Reading before (token ++ after) ({ gap := [], token } :: parts) last rest := by
  rw [← List.append_nil before] at isToken more
  exact .part (.nil _) isToken more

theorem Reading.widen {before cs last rest front : List Char} {parts : List Part}
    (reading : Reading (before ++ front) cs parts last rest)
    (joins : ∀ gap back, gap ++ back = cs → Gap gap back → Gap (front ++ gap) back)
    (offset : Nat) :
    ∃ parts' last', Reading before (front ++ cs) parts' last' rest ∧
      tokensFrom offset parts' = tokensFrom (offset + byteSize front) parts := by
  cases reading with
  | @stop _ last _ gap =>
    refine ⟨[], front ++ last, ?_, rfl⟩
    rw [← List.append_assoc]
    exact .stop (joins last rest rfl gap)
  | @part _ gap token after _ _ parts first isToken more =>
    refine ⟨{ gap := front ++ gap, token } :: parts, last, ?_, ?_⟩
    · rw [← List.append_assoc]
      rw [List.append_assoc before] at isToken more
      exact .part (joins gap (token ++ after) rfl first) isToken more
    · simp [tokensFrom, Part.chars, byteSize_append, Nat.add_assoc]

theorem gap_spaces {chars gap rest : List Char} (inside : ∀ c ∈ chars, isSpace c)
    (more : Gap gap rest) : Gap (chars ++ gap) rest := by
  induction chars with
  | nil => exact more
  | cons c chars ih =>
    exact .space (inside c List.mem_cons_self)
      (ih fun d member => inside d (List.mem_cons_of_mem c member))

theorem exists_reading_lexemes (cs before : List Char) (offset : Nat) (apart : Apart before cs) :
    ∃ parts last, Reading before cs parts last (lexemes cs).2 ∧
      locate offset (lexemes cs).1 = tokensFrom offset parts := by
  fun_induction lexemes cs generalizing before offset with
  | case1 => exact ⟨[], [], .stop (.nil []), rfl⟩
  | case2 c cs => exact ⟨[], [], .stop (.nil (c :: cs)), rfl⟩
  | case3 c cs lexeme rest found more left recursive ih =>
    have stands := Lexeme.stands_of_cut? found
    rw [recursive] at ih
    obtain ⟨parts, last, reading, located⟩ :=
      ih (before ++ lexeme.chars) (offset + lexeme.text.utf8ByteSize) (stands.apart before)
    rw [← Lexeme.chars_append_of_cut? found] at apart ⊢
    -- Quoted runs and words are parts. The rest belongs to the gap of the part that comes next.
    cases stands with
    | @space chars _ nonempty inside =>
      obtain ⟨parts', last', wider, same⟩ :=
        reading.widen (fun gap back _ => gap_spaces inside) offset
      exact ⟨parts', last', wider, located.trans same.symm⟩
    | comment inside stops =>
      obtain ⟨parts', last', wider, same⟩ :=
        reading.widen (fun gap back shape => .comment inside (shape ▸ stops)) offset
      exact ⟨parts', last', wider, located.trans same.symm⟩
    | @quoted quote body _ opens inside =>
      refine ⟨_, last, .token (.quoted opens inside) reading, ?_⟩
      rw [tokensFrom_nil_gap]
      exact congrArg _ located
    | @word chars _ nonempty inside stops =>
      obtain ⟨d, cs, rfl⟩ := List.exists_cons_of_ne_nil nonempty
      have starts : ∀ c ∈ before.getLast?, ¬ isWordChar c := by
        intro c final wordChar
        exact apart c final d rfl wordChar (inside d List.mem_cons_self)
      refine ⟨_, last, .token (.word nonempty inside starts stops) reading, ?_⟩
      rw [tokensFrom_nil_gap]
      exact congrArg _ located

theorem isStuck_lexemes (cs : List Char) : IsStuck (lexemes cs).2 := by
  fun_induction lexemes cs with
  | case1 => exact .inl rfl
  | case2 c cs nowhere => exact .inr ⟨c, cs, rfl, Lexeme.isUnclosed_of_cut? nowhere⟩
  | case3 c cs lexeme rest found more left recursive ih =>
    rw [recursive] at ih
    exact ih

/-! ## The answer of the tokenizer -/

def answer (parts : List Part) (last rest : List Char) : Except Fault (List Token) :=
  match rest with
  | [] => .ok (tokensFrom 0 parts)
  | rest =>
    .error (.unclosedQuote (byteSize (parts.flatMap Part.chars ++ last))
      (String.ofList (Text.firstLine rest)))

theorem exists_reading (source : String) :
    ∃ parts last rest, Reading [] source.toList parts last rest ∧ IsStuck rest ∧
      tokenize source = answer parts last rest := by
  have start : Apart [] source.toList := fun c last => nomatch last
  obtain ⟨parts, last, reading, located⟩ := exists_reading_lexemes source.toList [] 0 start
  refine ⟨parts, last, _, reading, isStuck_lexemes source.toList, ?_⟩
  have whole := (chars_lexemes source.toList).trans reading.chars_eq.symm
  have read := List.append_cancel_right whole
  unfold tokenize answer
  rw [← located, ← read]
  generalize lexemes source.toList = cut
  obtain ⟨pieces, _ | ⟨quote, after⟩⟩ := cut <;> rfl

theorem tokenize_eq_answer {source : String} {parts : List Part} {last rest : List Char}
    (reading : Reading [] source.toList parts last rest) (stuck : IsStuck rest) :
    tokenize source = answer parts last rest := by
  obtain ⟨parts', last', rest', reading', stuck', answered⟩ := exists_reading source
  obtain ⟨rfl, rfl, rfl⟩ := reading.unique reading' stuck stuck'
  exact answered

theorem tokenize_eq_ok_iff {source : String} {tokens : List Token} :
    tokenize source = .ok tokens ↔
      ∃ parts last, Reading [] source.toList parts last [] ∧ tokens = tokensFrom 0 parts := by
  constructor
  · intro found
    obtain ⟨parts, last, rest, reading, stuck, answered⟩ := exists_reading source
    rw [answered] at found
    cases rest with
    | nil => exact ⟨parts, last, reading, (Except.ok.inj found).symm⟩
    | cons => cases found
  · rintro ⟨parts, last, reading, rfl⟩
    exact tokenize_eq_answer reading (.inl rfl)

theorem tokenize_eq_error_iff {source : String} {fault : Fault} :
    tokenize source = .error fault ↔
      ∃ parts last quote after, Reading [] source.toList parts last (quote :: after) ∧
        IsUnclosed quote after ∧
        fault = .unclosedQuote (byteSize (parts.flatMap Part.chars ++ last))
          (String.ofList (Text.firstLine (quote :: after))) := by
  constructor
  · intro found
    obtain ⟨parts, last, rest, reading, stuck, answered⟩ := exists_reading source
    rw [answered] at found
    rcases stuck with rfl | ⟨quote, after, rfl, unclosed⟩
    · cases found
    · exact ⟨parts, last, quote, after, reading, unclosed, (Except.error.inj found).symm⟩
  · rintro ⟨parts, last, quote, after, reading, unclosed, rfl⟩
    exact tokenize_eq_answer reading (.inr ⟨quote, after, rfl, unclosed⟩)

end StackMachine.Source
