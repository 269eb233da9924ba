import StackMachine.Text.Line

/-!
# Lexemes

The pieces that program text is made of, the ones without meaning included. Each piece is as
long as it can be, and `chars_lexemes` says that the pieces put together are the text again.
-/

namespace StackMachine.Source

def isSpace (c : Char) : Bool :=
  c == ' ' || c == '\t' || c == '\n' || c == '\r' || c == '\x0C'

def isQuote (c : Char) : Bool :=
  c == '\x22' || c == '\x27'

def isWordChar (c : Char) : Bool :=
  !isSpace c && !isQuote c && c != '#'

inductive Lexeme where
  | space (chars : List Char)
  /-- A comment, with what follows its number sign. -/
  | comment (body : List Char)
  | quoted (quote : Char) (body : List Char)
  | word (chars : List Char)
deriving DecidableEq, Repr

namespace Lexeme

def chars : Lexeme → List Char
  | space chars => chars
  | comment body => '#' :: body
  | quoted quote body => quote :: body ++ [quote]
  | word chars => chars

def text (lexeme : Lexeme) : String :=
  String.ofList lexeme.chars

def isToken : Lexeme → Bool
  | quoted .. | word _ => true
  | _ => false

/-- Cuts the first lexeme off the text `c :: cs`. Only a quote that is not closed on its line
cannot be cut. -/
def cut? (c : Char) (cs : List Char) : Option (Lexeme × List Char) :=
  if isSpace c then
    some (space (c :: cs.takeWhile isSpace), cs.dropWhile isSpace)
  else if c = '#' then
    some (comment (cs.takeWhile (· != '\n')), cs.dropWhile (· != '\n'))
  else if isQuote c then
    let inside := fun d => d != c && d != '\n'
    match cs.dropWhile inside with
    | [] => none
    | d :: rest => if d = c then some (quoted c (cs.takeWhile inside), rest) else none
  else
    some (word (c :: cs.takeWhile isWordChar), cs.dropWhile isWordChar)

theorem chars_append_of_cut? {c : Char} {cs rest : List Char} {lexeme : Lexeme}
    (found : cut? c cs = some (lexeme, rest)) : lexeme.chars ++ rest = c :: cs := by
  unfold cut? at found
  split at found
  · cases found
    simp [chars]
  split at found
  · rename_i sign
    cases found
    simp [chars, sign]
  split at found
  · dsimp only at found
    split at found
    · contradiction
    · rename_i d back shape
      split at found
      · rename_i closed
        cases found
        subst closed
        simp only [chars, List.cons_append, List.append_assoc, List.nil_append, List.cons.injEq,
          true_and]
        rw [← shape, List.takeWhile_append_dropWhile]
      · contradiction
  · cases found
    simp [chars]

theorem chars_ne_nil_of_cut? {c : Char} {cs rest : List Char} {lexeme : Lexeme}
    (found : cut? c cs = some (lexeme, rest)) : lexeme.chars ≠ [] := by
  unfold cut? at found
  split at found
  · cases found
    simp [chars]
  split at found
  · cases found
    simp [chars]
  split at found
  · dsimp only at found
    split at found
    · contradiction
    · split at found
      · cases found
        simp [chars]
      · contradiction
  · cases found
    simp [chars]

theorem length_lt_of_cut? {c : Char} {cs rest : List Char} {lexeme : Lexeme}
    (found : cut? c cs = some (lexeme, rest)) : rest.length < (c :: cs).length := by
  have whole := congrArg List.length (chars_append_of_cut? found)
  have some := List.length_pos_iff.mpr (chars_ne_nil_of_cut? found)
  rw [List.length_append] at whole
  omega

end Lexeme

/-- The lexemes of a text, and what is left where none can be cut. -/
def lexemes (cs : List Char) : List Lexeme × List Char :=
  match cs with
  | [] => ([], [])
  | c :: cs =>
    match _found : Lexeme.cut? c cs with
    | none => ([], c :: cs)
    | some (lexeme, rest) =>
      let (more, left) := lexemes rest
      (lexeme :: more, left)
termination_by cs.length
decreasing_by exact Lexeme.length_lt_of_cut? _found

def charsOf (pieces : List Lexeme) : List Char :=
  pieces.flatMap Lexeme.chars

theorem chars_lexemes (cs : List Char) :
    charsOf (lexemes cs).1 ++ (lexemes cs).2 = cs := by
  fun_induction lexemes cs with
  | case1 => rfl
  | case2 => rfl
  | case3 c cs lexeme rest found more left recursive ih =>
    rw [recursive] at ih
    simpa [charsOf, ← Lexeme.chars_append_of_cut? found] using ih

end StackMachine.Source
