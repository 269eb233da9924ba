import StackMachine.Proofs.Arithmetic.Exact
import StackMachine.Proofs.Program.Expressible

/-!
# Integer literals

A program and a machine read integers from text in two places: tokens are read as literals when a
program is parsed, and texts are cast when it runs. Both go by the value of the digits and by
whether an integer of 64 bits can hold it, and what is written of an integer is read back by both.
-/

namespace StackMachine

open StackMachine.Action

/-! ## Numerals -/

namespace Decimal

inductive IsNumeral : List Char → Nat → Prop
  | digit {d : Nat} (lt : d < 10) : IsNumeral [d.digitChar] d
  | more {digits : List Char} {n d : Nat} (front : IsNumeral digits n) (lt : d < 10) :
      IsNumeral (digits ++ [d.digitChar]) (10 * n + d)

inductive Denotes : List Char → Int → Prop
  | plain {digits : List Char} {n : Nat} (numeral : IsNumeral digits n) : Denotes digits n
  | minus {digits : List Char} {n : Nat} (numeral : IsNumeral digits n) :
      Denotes ('-' :: digits) (-n)

inductive DenotesSigned : List Char → Int → Prop
  | literal {cs : List Char} {m : Int} (denotes : Denotes cs m) : DenotesSigned cs m
  | plus {digits : List Char} {n : Nat} (numeral : IsNumeral digits n) :
      DenotesSigned ('+' :: digits) n

theorem exists_digitChar_eq {c : Char} (digit : c.isDigit) : ∃ d < 10, c = Nat.digitChar d := by
  have bounds : 48 ≤ c.toNat ∧ c.toNat ≤ 57 := Char.isDigit_iff_toNat.mp digit
  refine ⟨c.toNat - 48, by omega, ?_⟩
  apply Char.toNat_inj.mp
  rw [Nat.toNat_digitChar_of_lt_ten (by omega)]
  omega

theorem ofDigitChars_digitChar {d : Nat} (lt : d < 10) (n : Nat) :
    Nat.ofDigitChars 10 [d.digitChar] n = 10 * n + d := by
  have code := Nat.toNat_digitChar_of_lt_ten lt
  rw [Nat.ofDigitChars_cons, code]
  simp [Nat.ofDigitChars]

theorem isNumeral_of_isDigits {cs : List Char} (digits : IsDigits cs) :
    IsNumeral cs (Nat.ofDigitChars 10 cs 0) := by
  induction cs using List.reverseRecOn with
  | nil => exact absurd rfl digits.1
  | append_singleton front c ih =>
    obtain ⟨d, lt, rfl⟩ := exists_digitChar_eq (digits.2 c (by simp))
    rw [Nat.ofDigitChars_append, ofDigitChars_digitChar lt]
    by_cases single : front = []
    · subst single
      simpa using IsNumeral.digit lt
    · exact .more (ih ⟨single, fun c member => digits.2 c (by simp [member])⟩) lt

theorem IsNumeral.isDigits {digits : List Char} {n : Nat} (numeral : IsNumeral digits n) :
    IsDigits digits := by
  induction numeral with
  | digit lt => simp [IsDigits, Nat.isDigit_digitChar, lt]
  | more front lt ih =>
    refine ⟨by simp, ?_⟩
    intro c member
    rcases List.mem_append.mp member with member | member
    · exact ih.2 c member
    · rw [List.mem_singleton.mp member, Nat.isDigit_digitChar, decide_eq_true lt]

theorem IsNumeral.ofDigitChars_eq {digits : List Char} {n : Nat} (numeral : IsNumeral digits n) :
    Nat.ofDigitChars 10 digits 0 = n := by
  induction numeral with
  | digit lt => rw [ofDigitChars_digitChar lt, Nat.mul_zero, Nat.zero_add]
  | more front lt ih => rw [Nat.ofDigitChars_append, ofDigitChars_digitChar lt, ih]

theorem natural?_eq_some_iff {cs : List Char} {n : Nat} :
    natural? cs = some n ↔ IsNumeral cs n := by
  constructor
  · intro read
    unfold natural? at read
    split at read
    · rename_i digits
      rw [← Option.some.inj read]
      exact isNumeral_of_isDigits digits
    · cases read
  · intro numeral
    rw [natural?, if_pos numeral.isDigits, numeral.ofDigitChars_eq]

theorem literal?_eq_some_iff {cs : List Char} {m : Int} : literal? cs = some m ↔ Denotes cs m := by
  constructor
  · intro read
    unfold literal? at read
    split at read
    · rename_i digits
      obtain ⟨n, found, rfl⟩ : ∃ n, natural? digits = some n ∧ -(n : Int) = m := by
        simpa [Option.bind_eq_some_iff] using read
      exact .minus (natural?_eq_some_iff.mp found)
    · obtain ⟨n, found, rfl⟩ : ∃ n, natural? cs = some n ∧ (n : Int) = m := by
        simpa [Option.bind_eq_some_iff] using read
      exact .plain (natural?_eq_some_iff.mp found)
  · rintro (numeral | numeral)
    · rw [literal?_of_isDigits numeral.isDigits, natural?_eq_some_iff.mpr numeral]
      rfl
    · rw [literal?, natural?_eq_some_iff.mpr numeral]
      rfl

theorem not_denotes_plus {cs : List Char} {m : Int} : ¬ Denotes ('+' :: cs) m := by
  intro denotes
  cases denotes with
  | plain numeral => exact absurd numeral.isDigits.head_isDigit (by decide)

theorem signed?_eq_some_iff {cs : List Char} {m : Int} :
    signed? cs = some m ↔ DenotesSigned cs m := by
  constructor
  · intro read
    unfold signed? at read
    split at read
    · rename_i digits
      obtain ⟨n, found, rfl⟩ : ∃ n, natural? digits = some n ∧ (n : Int) = m := by
        simpa [Option.bind_eq_some_iff] using read
      exact .plus (natural?_eq_some_iff.mp found)
    · exact .literal (literal?_eq_some_iff.mp read)
  · rintro (denotes | numeral)
    · unfold signed?
      split
      · exact absurd denotes not_denotes_plus
      · exact literal?_eq_some_iff.mpr denotes
    · rw [signed?, natural?_eq_some_iff.mpr numeral]
      rfl

theorem denotes_render (m : Int) : Denotes (render m) m :=
  literal?_eq_some_iff.mp (literal?_render m)

end Decimal

/-! ## White space -/

namespace Text

def IsPadded (core cs : List Char) : Prop :=
  ∃ before after, (∀ c ∈ before, isWhiteSpace c) ∧ (∀ c ∈ after, isWhiteSpace c) ∧
    cs = before ++ core ++ after

theorem IsPadded.refl (cs : List Char) : IsPadded cs cs :=
  ⟨[], [], nofun, nofun, by simp⟩

theorem isPadded_trim (cs : List Char) : IsPadded (trim cs) cs := by
  have left := List.takeWhile_append_dropWhile (p := isWhiteSpace) (l := cs)
  have right := List.takeWhile_append_dropWhile (p := isWhiteSpace) (l := (trimLeft cs).reverse)
  refine ⟨cs.takeWhile isWhiteSpace, ((trimLeft cs).reverse.takeWhile isWhiteSpace).reverse,
    fun c => List.mem_takeWhile_imp,
    fun c member => List.mem_takeWhile_imp (List.mem_reverse.mp member), ?_⟩
  have kept := congrArg List.reverse right
  rw [List.reverse_append, List.reverse_reverse] at kept
  rw [List.append_assoc, trim, trimRight, trimLeft, kept]
  exact left.symm

theorem trimLeft_eq_self {cs : List Char} (bare : ∀ c ∈ cs.head?, ¬ isWhiteSpace c) :
    trimLeft cs = cs := by
  cases cs with
  | nil => rfl
  | cons c cs => exact List.dropWhile_cons_of_neg (bare c rfl)

theorem trim_eq_of_isPadded {core cs : List Char} (padded : IsPadded core cs) (some : core ≠ [])
    (bare : ∀ c ∈ core, ¬ isWhiteSpace c) : trim cs = core := by
  obtain ⟨before, after, white, white', rfl⟩ := padded
  have first : trimLeft (core ++ after) = core ++ after := by
    refine trimLeft_eq_self fun c head => bare c ?_
    rw [List.head?_append_of_ne_nil core some] at head
    exact List.mem_of_mem_head? head
  have last : trimLeft core.reverse = core.reverse := by
    refine trimLeft_eq_self fun c head => bare c ?_
    exact List.mem_reverse.mp (List.mem_of_mem_head? head)
  rw [trim, List.append_assoc, trimLeft_append_of_whiteSpace white, first,
    trimRight_append_of_whiteSpace white', trimRight, last, List.reverse_reverse]

theorem not_isWhiteSpace_of_isDigit {c : Char} (digit : c.isDigit) : ¬ isWhiteSpace c := by
  have bounds : 48 ≤ c.toNat ∧ c.toNat ≤ 57 := Char.isDigit_iff_toNat.mp digit
  simp only [isWhiteSpace, whiteSpaceRanges, List.any_cons, List.any_nil, Bool.or_false,
    Bool.or_eq_true, Bool.and_eq_true, decide_eq_true_eq]
  omega

end Text

/-! ## Tokens -/

namespace Decimal

theorem DenotesSigned.ne_nil {cs : List Char} {m : Int} (denotes : DenotesSigned cs m) :
    cs ≠ [] := by
  rintro rfl
  have read := signed?_eq_some_iff.mpr denotes
  simp [signed?, literal?, natural?, IsDigits] at read

theorem DenotesSigned.not_isWhiteSpace {cs : List Char} {m : Int} (denotes : DenotesSigned cs m) :
    ∀ c ∈ cs, ¬ Text.isWhiteSpace c := by
  intro c member
  cases denotes with
  | literal denotes =>
    have isLiteral := isLiteral_of_literal? (literal?_eq_some_iff.mpr denotes)
    rcases isLiteral.mem c member with rfl | digit
    · decide
    · exact Text.not_isWhiteSpace_of_isDigit digit
  | plus numeral =>
    rcases List.mem_cons.mp member with rfl | member
    · decide
    · exact Text.not_isWhiteSpace_of_isDigit (numeral.isDigits.2 c member)

end Decimal

namespace Element

theorem ofToken_of_literal?_eq_none {token : String}
    (unread : Decimal.literal? token.toList = none) :
    ∃ element, ofToken token = .ok element ∧ element.integer? = none := by
  unfold ofToken
  split
  · exact ⟨_, rfl, rfl⟩
  · split
    · exact ⟨_, rfl, rfl⟩
    · rw [unread]
      exact ⟨_, rfl, rfl⟩

theorem ofToken_eq_int_iff {token : String} {n : Integer} :
    ofToken token = .ok (literal (.int n)) ↔ Decimal.Denotes token.toList n.toInt := by
  rw [← Decimal.literal?_eq_some_iff]
  constructor
  · intro parsed
    cases read : Decimal.literal? token.toList with
    | none =>
      obtain ⟨element, parsed', other⟩ := ofToken_of_literal?_eq_none read
      rw [parsed'] at parsed
      cases parsed
      cases other
    | some m =>
      rw [ofToken_of_literal? read] at parsed
      split at parsed
      · rename_i fits
        cases parsed
        rw [Integer.ofInt?_eq_some_iff.mp fits]
      · cases parsed
  · intro read
    rw [ofToken_of_literal? read, Integer.ofInt?_toInt]

theorem ofToken_eq_error_iff {token : String} {fault : Fault} :
    ofToken token = .error fault ↔
      fault = .literalOutOfRange token ∧ ∃ m, Decimal.Denotes token.toList m ∧ ¬ Fits m := by
  simp only [← Decimal.literal?_eq_some_iff]
  constructor
  · intro failed
    cases read : Decimal.literal? token.toList with
    | none =>
      obtain ⟨element, parsed, _⟩ := ofToken_of_literal?_eq_none read
      rw [parsed] at failed
      cases failed
    | some m =>
      rw [ofToken_of_literal? read] at failed
      split at failed
      · cases failed
      · rename_i unfit
        cases failed
        exact ⟨rfl, m, rfl, Integer.ofInt?_eq_none_iff.mp unfit⟩
  · rintro ⟨rfl, m, read, unfit⟩
    rw [ofToken_of_literal? read, Integer.ofInt?_eq_none_iff.mpr unfit]

end Element

/-! ## Casts -/

theorem Integer.ofText?_eq_some_iff {text : String} {n : Integer} :
    ofText? text = some n ↔
      ∃ core, Text.IsPadded core text.toList ∧ Decimal.DenotesSigned core n.toInt := by
  rw [ofText?, Option.bind_eq_some_iff]
  constructor
  · rintro ⟨m, read, fits⟩
    rw [← ofInt?_eq_some_iff.mp fits] at read
    exact ⟨_, Text.isPadded_trim _, Decimal.signed?_eq_some_iff.mp read⟩
  · rintro ⟨core, padded, denotes⟩
    rw [Text.trim_eq_of_isPadded padded denotes.ne_nil denotes.not_isWhiteSpace]
    exact ⟨_, Decimal.signed?_eq_some_iff.mpr denotes, ofInt?_toInt n⟩

namespace Value

theorem toInteger_text_eq_ok_iff {s : String} {n : Integer} :
    (text s).toInteger = .ok n ↔
      ∃ core, Text.IsPadded core s.toList ∧ Decimal.DenotesSigned core n.toInt := by
  rw [← Integer.ofText?_eq_some_iff, toInteger]
  cases Integer.ofText? s <;> simp

theorem toInteger_text_eq_error_iff {s : String} {fault : Fault} :
    (text s).toInteger = .error fault ↔
      fault = .notAnInteger s ∧ ∀ n, (text s).toInteger ≠ .ok n := by
  rw [toInteger]
  cases Integer.ofText? s with
  | none => simp [eq_comm]
  | some n => simp

theorem toInteger_of_isPadded {token s : String} {m : Int}
    (padded : Text.IsPadded token.toList s.toList) (denotes : Decimal.Denotes token.toList m) :
    (text s).toInteger =
      match Integer.ofInt? m with
      | some n => .ok n
      | none => .error (.notAnInteger s) := by
  have signed := Decimal.DenotesSigned.literal denotes
  have trimmed := Text.trim_eq_of_isPadded padded signed.ne_nil signed.not_isWhiteSpace
  rw [toInteger, Integer.ofText?, trimmed, Decimal.signed?_eq_some_iff.mpr signed]
  rfl

end Value

namespace Machine

variable {γ : Type} [Console γ] {machine : Machine γ} {v : Value} {rest : Stack}

theorem run_castText (top : machine.stack = v :: rest) :
    (apply .castText).run machine =
      (.ok .next, { machine with stack := .text v.render :: rest }) := by
  rw [apply, run_bind, run_perform_operands rfl (show machine.stack = [v] ++ rest from top)]
  rfl

theorem run_castInt (top : machine.stack = v :: rest) {n : Integer} (read : v.toInteger = .ok n) :
    (apply .castInt).run machine = (.ok .next, { machine with stack := .int n :: rest }) := by
  rw [apply, run_bind, run_perform_operands rfl (show machine.stack = [v] ++ rest from top),
    Op.deed, read]
  rfl

end Machine

/-- Literals and casts read the same numbers. A token is an integer exactly when it denotes one that
fits, it is refused exactly when it denotes one that does not, and a text with white space around
the token is cast likewise. Beyond that a cast takes a plus sign. What is written of an integer is
read back by both, so casting an integer to a text and back changes nothing. -/
theorem literals_agree_with_casts {γ : Type} [Console γ] :
    (∀ token n, Element.ofToken token = .ok (.literal (.int n)) ↔
      Decimal.Denotes token.toList n.toInt) ∧
    (∀ token fault, Element.ofToken token = .error fault ↔
      fault = .literalOutOfRange token ∧ ∃ m, Decimal.Denotes token.toList m ∧ ¬ Fits m) ∧
    (∀ token s : String, Text.IsPadded token.toList s.toList →
      (∀ n, Element.ofToken token = .ok (.literal (.int n)) → (Value.text s).toInteger = .ok n) ∧
      (Element.ofToken token = .error (.literalOutOfRange token) →
        (Value.text s).toInteger = .error (.notAnInteger s))) ∧
    (∀ s n, (Value.text s).toInteger = .ok n ↔
      ∃ core, Text.IsPadded core s.toList ∧ Decimal.DenotesSigned core n.toInt) ∧
    (∀ s fault, (Value.text s).toInteger = .error fault ↔
      fault = .notAnInteger s ∧ ∀ n, (Value.text s).toInteger ≠ .ok n) ∧
    (∀ n : Integer, Element.ofToken n.render = .ok (.literal (.int n)) ∧
      (Value.text n.render).toInteger = .ok n) ∧
    ∀ (machine : Machine γ) (n : Integer) (rest : Stack), machine.stack = .int n :: rest →
      (do let _ ← Machine.apply .castText; Machine.apply .castInt).run machine =
        (.ok .next, machine) := by
  have written (n : Integer) : Decimal.Denotes n.render.toList n.toInt := by
    rw [Integer.render, String.toList_ofList]
    exact Decimal.denotes_render n.toInt
  have cast (n : Integer) : (Value.text n.render).toInteger = .ok n := by
    rw [Value.toInteger_of_isPadded (.refl _) (written n), Integer.ofInt?_toInt]
  refine ⟨fun _ _ => Element.ofToken_eq_int_iff, fun _ _ => Element.ofToken_eq_error_iff,
    fun token s padded => ⟨fun n read => ?_, fun failed => ?_⟩,
    fun _ _ => Value.toInteger_text_eq_ok_iff, fun _ _ => Value.toInteger_text_eq_error_iff,
    fun n => ⟨Element.ofToken_eq_int_iff.mpr (written n), cast n⟩, fun machine n rest top => ?_⟩
  · have denotes := Element.ofToken_eq_int_iff.mp read
    rw [Value.toInteger_of_isPadded padded denotes, Integer.ofInt?_toInt]
  · obtain ⟨_, m, denotes, unfit⟩ := Element.ofToken_eq_error_iff.mp failed
    rw [Value.toInteger_of_isPadded padded denotes, Integer.ofInt?_eq_none_iff.mpr unfit]
  · have back := Machine.run_castInt
      (show { machine with stack := .text n.render :: rest }.stack = _ from rfl) (cast n)
    rw [run_bind, Machine.run_castText top]
    dsimp only [Value.render]
    rw [back, ← top]

theorem literals_agree_with_casts_least :
    let least := "-0009223372036854775808"
    let above := "9223372036854775808"
    let machine : Machine Buffer := { program := .ofList [], console := {}, stack := [.int (-7)] }
    Element.ofToken least = .ok (.literal (.int Int64.minValue)) ∧
      (Value.text ("\u3000" ++ least ++ "\x85\n")).toInteger = .ok Int64.minValue ∧
      Element.ofToken above = .error (.literalOutOfRange above) ∧
      (Value.text (" " ++ above)).toInteger = .error (.notAnInteger (" " ++ above)) ∧
      (∀ n, Element.ofToken "+7" ≠ .ok (.literal (.int n))) ∧
      (Value.text "+7\r").toInteger = .ok 7 ∧
      (do let _ ← Machine.apply .castText; Machine.apply .castInt).run machine =
        (.ok .next, machine) := by
  intro least above machine
  obtain ⟨tokens, refused, padded, casts, _, _, back⟩ := @literals_agree_with_casts Buffer _
  have least_denotes : Decimal.Denotes least.toList Int64.minValue.toInt :=
    Decimal.literal?_eq_some_iff.mp (by decide +kernel)
  have above_denotes : Decimal.Denotes above.toList (2 ^ 63) :=
    Decimal.literal?_eq_some_iff.mp (by decide +kernel)
  have read := (tokens least Int64.minValue).mpr least_denotes
  have failed := (refused above _).mpr ⟨rfl, _, above_denotes, by simp [Fits]⟩
  have blanks : Text.IsPadded least.toList ("\u3000" ++ least ++ "\x85\n").toList :=
    ⟨['\u3000'], ['\x85', '\n'], by simp [Text.isWhiteSpace, Text.whiteSpaceRanges],
      by simp [Text.isWhiteSpace, Text.whiteSpaceRanges], by decide⟩
  have blank : Text.IsPadded above.toList (" " ++ above).toList :=
    ⟨[' '], [], by simp [Text.isWhiteSpace, Text.whiteSpaceRanges], nofun, by decide⟩
  refine ⟨read, (padded _ _ blanks).1 _ read, failed, (padded _ _ blank).2 failed, ?_, ?_, ?_⟩
  · intro n plus
    exact Decimal.not_denotes_plus ((tokens _ _).mp plus)
  · have seven : Text.IsPadded ['+', '7'] "+7\r".toList :=
      ⟨[], ['\r'], nofun, by simp [Text.isWhiteSpace, Text.whiteSpaceRanges], by decide⟩
    exact (casts _ _).mpr ⟨_, seven, Decimal.signed?_eq_some_iff.mp (by decide +kernel)⟩
  · exact back machine (-7) [] rfl

end StackMachine
