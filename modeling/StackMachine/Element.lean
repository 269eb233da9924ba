import StackMachine.Fault
import StackMachine.Source.Lexeme

/-!
# Elements

One slot of a program. A word that is neither a literal nor the name of an operation is an
element too, and fails only if it is reached.
-/

namespace StackMachine

inductive Element where
  | literal (v : Value)
  | op (op : Op)
  | word (word : String)
deriving DecidableEq, Repr, Inhabited

namespace Element

def integer? : Element → Option Integer
  | literal v => v.integer?
  | _ => none

def op? : Element → Option Op
  | op o => some o
  | _ => none

def unquote? : List Char → Option (List Char)
  | [] => none
  | quote :: rest =>
    if Source.isQuote quote ∧ rest.getLast? = some quote then some rest.dropLast else none

/-- Quotes make a text, whatever stands between them. Of what is not quoted, names of operations
come first and then integers. -/
def ofToken (token : String) : Except Fault Element :=
  match unquote? token.toList with
  | some text => .ok (literal (.text (String.ofList text)))
  | none =>
    match Op.ofName? token with
    | some o => .ok (op o)
    | none =>
      match Decimal.literal? token.toList with
      | none => .ok (word token)
      | some n =>
        match Integer.ofInt? n with
        | some n => .ok (literal (.int n))
        | none => .error (.literalOutOfRange token)

/-- The quote that a text is written in: the double one, unless the text holds it. -/
def quoteFor (text : String) : String :=
  if '\x22' ∈ text.toList then "'" else "\""

def render : Element → String
  | literal (.int n) => n.render
  | literal (.text s) => quoteFor s ++ s ++ quoteFor s
  | op o => o.name
  | word w => w

end Element

end StackMachine
