import StackMachine.Source.Token

/-!
# Readings of program text

The grammar of program text, said apart from the tokenizer: gaps and tokens in turn, each in the
place where it stands. A reading goes from left to right as far as it can. It is stuck at the end
of the text and at a quote that is not closed on its line, and no text has two readings.
-/

namespace StackMachine.Source

/-! ## Gaps and tokens -/

/-- A gap in front of a text. A comment in it goes up to the end of its line. -/
inductive Gap : List Char → List Char → Prop
  | nil (rest : List Char) : Gap [] rest
  | space {c : Char} {gap rest : List Char} (blank : isSpace c) (more : Gap gap rest) :
      Gap (c :: gap) rest
  | comment {body gap rest : List Char} (inside : ∀ c ∈ body, c ≠ '\n')
      (stops : ∀ c ∈ (gap ++ rest).head?, c = '\n') (more : Gap gap rest) :
      Gap ('#' :: body ++ gap) rest

/-- A token between two texts. A word takes all that it can on both sides. -/
inductive IsToken (before : List Char) : List Char → List Char → Prop
  | quoted {quote : Char} {body after : List Char} (opens : isQuote quote)
      (inside : ∀ c ∈ body, c ≠ quote ∧ c ≠ '\n') : IsToken before (quote :: body ++ [quote]) after
  | word {chars after : List Char} (nonempty : chars ≠ []) (inside : ∀ c ∈ chars, isWordChar c)
      (starts : ∀ c ∈ before.getLast?, ¬ isWordChar c)
      (stops : ∀ c ∈ after.head?, ¬ isWordChar c) : IsToken before chars after

structure Part where
  gap : List Char
  token : List Char
deriving DecidableEq, Repr

/-- What stands behind `before` reads as parts and a last gap, up to a rest that is not read. -/
inductive Reading : List Char → List Char → List Part → List Char → List Char → Prop
  | stop {before last rest : List Char} (gap : Gap last rest) :
      Reading before (last ++ rest) [] last rest
  | part {before gap token after last rest : List Char} {parts : List Part}
      (first : Gap gap (token ++ after)) (second : IsToken (before ++ gap) token after)
      (more : Reading (before ++ gap ++ token) after parts last rest) :
      Reading before (gap ++ (token ++ after)) ({ gap, token } :: parts) last rest

def IsUnclosed (quote : Char) (after : List Char) : Prop :=
  isQuote quote ∧ quote ∉ after.takeWhile (· != '\n')

def IsStuck (rest : List Char) : Prop :=
  rest = [] ∨ ∃ quote after, rest = quote :: after ∧ IsUnclosed quote after

/-! ## Where one thing ends and the next begins -/

theorem not_isSpace_of_isQuote {c : Char} (quote : isQuote c) : ¬ isSpace c := by
  simp only [isQuote, Bool.or_eq_true, beq_iff_eq] at quote
  rcases quote with rfl | rfl <;> decide

theorem ne_sharp_of_isQuote {c : Char} (quote : isQuote c) : c ≠ '#' := by
  rintro rfl
  revert quote
  decide

theorem isWordChar_iff {c : Char} : isWordChar c ↔ ¬ isSpace c ∧ ¬ isQuote c ∧ c ≠ '#' := by
  simp [isWordChar, and_assoc]

theorem span_unique {p : Char → Prop} {front front' back back' : List Char}
    (inside : ∀ c ∈ front, p c) (stops : ∀ c ∈ back.head?, ¬ p c)
    (inside' : ∀ c ∈ front', p c) (stops' : ∀ c ∈ back'.head?, ¬ p c)
    (same : front ++ back = front' ++ back') : front = front' ∧ back = back' := by
  induction front generalizing front' with
  | nil =>
    cases front' with
    | nil => exact ⟨rfl, same⟩
    | cons c front' =>
      have first : c ∈ back.head? := by simpa using congrArg List.head? same
      exact absurd (inside' c List.mem_cons_self) (stops c first)
  | cons c front ih =>
    cases front' with
    | nil =>
      have first : c ∈ back'.head? := by simpa using (congrArg List.head? same).symm
      exact absurd (inside c List.mem_cons_self) (stops' c first)
    | cons d front' =>
      simp only [List.cons_append, List.cons.injEq] at same
      obtain ⟨rfl, same⟩ := same
      obtain ⟨rfl, rfl⟩ := ih (fun d member => inside d (List.mem_cons_of_mem _ member))
        (fun d member => inside' d (List.mem_cons_of_mem _ member)) same
      exact ⟨rfl, rfl⟩

def BeginsNoGap (rest : List Char) : Prop :=
  ∀ c ∈ rest.head?, ¬ isSpace c ∧ c ≠ '#'

theorem IsToken.ne_nil {before token after : List Char} (isToken : IsToken before token after) :
    token ≠ [] := by
  cases isToken with
  | quoted => simp
  | word nonempty => exact nonempty

theorem IsToken.beginsNoGap {before token after : List Char}
    (isToken : IsToken before token after) : BeginsNoGap (token ++ after) := by
  intro c first
  cases isToken with
  | quoted opens inside =>
    obtain rfl : _ = c := by simpa using first
    exact ⟨not_isSpace_of_isQuote opens, ne_sharp_of_isQuote opens⟩
  | word nonempty inside =>
    obtain ⟨d, chars, rfl⟩ := List.exists_cons_of_ne_nil nonempty
    obtain rfl : d = c := by simpa using first
    obtain ⟨blank, quote, sharp⟩ := isWordChar_iff.mp (inside d List.mem_cons_self)
    exact ⟨blank, sharp⟩

theorem IsStuck.beginsNoGap {rest : List Char} (stuck : IsStuck rest) : BeginsNoGap rest := by
  intro c first
  rcases stuck with rfl | ⟨quote, after, rfl, opens, _⟩
  · cases first
  · obtain rfl : quote = c := by simpa using first
    exact ⟨not_isSpace_of_isQuote opens, ne_sharp_of_isQuote opens⟩

theorem IsToken.not_isStuck {before token after : List Char}
    (isToken : IsToken before token after) : ¬ IsStuck (token ++ after) := by
  rintro (empty | ⟨quote, rest, shape, opens, unclosed⟩)
  · cases isToken with
    | quoted => simp at empty
    | word nonempty => exact nonempty (List.append_eq_nil_iff.mp empty).1
  cases isToken with
  | quoted opens' inside =>
    rename_i quote' body
    simp only [List.cons_append, List.append_assoc, List.nil_append, List.cons.injEq] at shape
    obtain ⟨rfl, rfl⟩ := shape
    apply unclosed
    rw [List.takeWhile_append_of_pos fun c member => by simpa using (inside c member).2]
    have other : quote' ≠ '\n' := by
      rintro rfl
      exact absurd opens (by decide)
    simp [other]
  | word nonempty inside =>
    obtain ⟨d, chars, rfl⟩ := List.exists_cons_of_ne_nil nonempty
    obtain rfl : d = quote := (List.cons.inj shape).1
    exact (isWordChar_iff.mp (inside d List.mem_cons_self)).2.1 opens

/-! ## One reading -/

theorem Gap.nil_of_beginsNoGap {gap rest : List Char} (between : Gap gap rest)
    (ends : BeginsNoGap (gap ++ rest)) : gap = [] := by
  cases between with
  | nil => rfl
  | space blank => exact absurd blank (ends _ rfl).1
  | comment => exact absurd rfl (ends _ rfl).2

theorem Gap.unique {gap gap' rest rest' : List Char} (first : Gap gap rest)
    (second : Gap gap' rest') (ends : BeginsNoGap rest) (ends' : BeginsNoGap rest')
    (same : gap ++ rest = gap' ++ rest') : gap = gap' ∧ rest = rest' := by
  induction first generalizing gap' with
  | nil rest =>
    rw [List.nil_append] at same
    obtain rfl := second.nil_of_beginsNoGap (same ▸ ends)
    exact ⟨rfl, same⟩
  | @space c gap rest blank more ih =>
    cases second with
    | nil => exact absurd blank (ends' c (by simpa using (congrArg List.head? same).symm)).1
    | @space d gap' _ blank' more' =>
      simp only [List.cons_append, List.cons.injEq] at same
      obtain ⟨rfl, same⟩ := same
      obtain ⟨rfl, rfl⟩ := ih more' ends same
      exact ⟨rfl, rfl⟩
    | comment =>
      obtain rfl : c = '#' := (List.cons.inj same).1
      exact absurd blank (by decide)
  | @comment body gap rest inside stops more ih =>
    cases second with
    | nil => exact absurd rfl (ends' _ (by simpa using (congrArg List.head? same).symm)).2
    | @space d _ _ blank' =>
      obtain rfl : '#' = d := (List.cons.inj same).1
      exact absurd blank' (by decide)
    | @comment body' gap' _ inside' stops' more' =>
      simp only [List.cons_append, List.append_assoc, List.cons.injEq, true_and] at same
      obtain ⟨rfl, behind⟩ := span_unique inside (fun c first => not_not_intro (stops c first))
        inside' (fun c first => not_not_intro (stops' c first)) same
      obtain ⟨rfl, rfl⟩ := ih more' ends behind
      exact ⟨rfl, rfl⟩

theorem IsToken.unique {before token token' after after' : List Char}
    (first : IsToken before token after) (second : IsToken before token' after')
    (same : token ++ after = token' ++ after') : token = token' ∧ after = after' := by
  cases first with
  | @quoted quote body _ opens inside =>
    cases second with
    | @quoted quote' body' _ opens' inside' =>
      simp only [List.cons_append, List.append_assoc, List.nil_append, List.cons.injEq] at same
      obtain ⟨rfl, same⟩ := same
      have closes (after : List Char) : ∀ c ∈ (quote :: after).head?, ¬ c ≠ quote := by simp
      obtain ⟨rfl, behind⟩ := span_unique (fun c member => (inside c member).1) (closes after)
        (fun c member => (inside' c member).1) (closes after') same
      exact ⟨rfl, (List.cons.inj behind).2⟩
    | word nonempty' inside' =>
      obtain ⟨d, chars, rfl⟩ := List.exists_cons_of_ne_nil nonempty'
      obtain rfl : quote = d := (List.cons.inj same).1
      exact absurd opens (isWordChar_iff.mp (inside' quote List.mem_cons_self)).2.1
  | word nonempty inside starts stops =>
    cases second with
    | @quoted quote' body' _ opens' inside' =>
      obtain ⟨d, chars, rfl⟩ := List.exists_cons_of_ne_nil nonempty
      obtain rfl : d = quote' := (List.cons.inj same).1
      exact absurd opens' (isWordChar_iff.mp (inside d List.mem_cons_self)).2.1
    | word nonempty' inside' starts' stops' => exact span_unique inside stops inside' stops' same

theorem Reading.unique {before cs last last' rest rest' : List Char} {parts parts' : List Part}
    (first : Reading before cs parts last rest) (second : Reading before cs parts' last' rest')
    (stuck : IsStuck rest) (stuck' : IsStuck rest') :
    parts = parts' ∧ last = last' ∧ rest = rest' := by
  -- No token begins where a reading is stuck, so both readings stop at one place or both go on.
  induction first generalizing parts' with
  | @stop before last rest gap =>
    generalize whole : last ++ rest = cs at second
    cases second with
    | stop gap' =>
      obtain ⟨rfl, rfl⟩ := gap.unique gap' stuck.beginsNoGap stuck'.beginsNoGap whole
      exact ⟨rfl, rfl, rfl⟩
    | part gap' token' more' =>
      obtain ⟨rfl, rfl⟩ := gap.unique gap' stuck.beginsNoGap token'.beginsNoGap whole
      exact absurd stuck token'.not_isStuck
  | @part before gap token after last rest parts first isToken more ih =>
    generalize whole : gap ++ (token ++ after) = cs at second
    cases second with
    | stop gap' =>
      obtain ⟨rfl, rfl⟩ := first.unique gap' isToken.beginsNoGap stuck'.beginsNoGap whole
      exact absurd stuck' isToken.not_isStuck
    | part gap' token' more' =>
      obtain ⟨rfl, behind⟩ := first.unique gap' isToken.beginsNoGap token'.beginsNoGap whole
      obtain ⟨rfl, rfl⟩ := isToken.unique token' behind
      obtain ⟨rfl, rfl, rfl⟩ := ih more' stuck
      exact ⟨rfl, rfl, rfl⟩

end StackMachine.Source
