import StackMachine.Element
import StackMachine.Source.Token

/-!
# Programs

A sequence of elements, which source text spells and `render` writes out.
-/

namespace StackMachine

structure Program where
  elements : Array Element := #[]
deriving DecidableEq, Repr, Inhabited

namespace Program

def ofList (elements : List Element) : Program :=
  { elements := elements.toArray }

def toList (program : Program) : List Element :=
  program.elements.toList

def size (program : Program) : Nat :=
  program.elements.size

def isEmpty (program : Program) : Bool :=
  program.elements.isEmpty

def ofTokens (tokens : List String) : Except Fault Program :=
  return ofList (← tokens.mapM Element.ofToken)

/-- The program that a source text spells. No token is looked at before all were found. -/
def parse (source : String) : Except Fault Program := do
  ofTokens ((← Source.tokenize source).map Source.Token.text)

def hasJump (program : Program) : Bool :=
  program.toList.contains (.op .jump)

/-- The elements with a blank between any two. -/
def render (program : Program) : String :=
  " ".intercalate (program.toList.map Element.render)

end Program

end StackMachine
