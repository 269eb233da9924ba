import StackMachine.Integer

/-!
# Values

What the machine computes with: integers and text. Two values are equal only if they are of
one kind, so `7` and the text `"7"` differ.
-/

namespace StackMachine

inductive Kind where
  | int
  | text
deriving DecidableEq, Repr

def Kind.name : Kind → String
  | .int => "int"
  | .text => "str"

inductive Value where
  | int (n : Integer)
  | text (s : String)
deriving DecidableEq, Repr, Inhabited

namespace Value

def kind : Value → Kind
  | int _ => .int
  | text _ => .text

/-- Zero and the empty text are false. -/
def isTrue : Value → Bool
  | int n => n != 0
  | text s => !s.isEmpty

def render : Value → String
  | int n => n.render
  | text s => s

def integer? : Value → Option Integer
  | int n => some n
  | text _ => none

end Value

end StackMachine
