import StackMachine.Arithmetic
import StackMachine.Program.Basic

/-!
# Constant folding

Two integer literals with a foldable operator behind them are a window. Folding replaces
windows by their values until none is left. A window without a value stays, so that its fault
still arises in the run. A program that jumps is left alone, because its targets are indices.

One pass from left to right is enough. A value that is put in place of a window is a literal,
and it takes an operator at the end of the text so far to make a window.
-/

namespace StackMachine

namespace Element

def window? : Element → Element → Element → Option Integer
  | literal (.int a), literal (.int b), op o =>
    o.foldable?.bind fun operator => (operator.onIntegers a b).toOption
  | _, _, _ => none

end Element

namespace Program

structure Folding where
  /-- The folded elements, last first. -/
  folded : List Element := []
  count : Nat := 0

def Folding.snoc (folding : Folding) (element : Element) : Folding :=
  match folding.folded with
  | b :: a :: rest =>
    match Element.window? a b element with
    | some n => { folded := .literal (.int n) :: rest, count := folding.count + 1 }
    | none => { folding with folded := element :: b :: a :: rest }
  | folded => { folding with folded := element :: folded }

def folding (program : Program) : Folding :=
  if program.hasJump then { folded := program.toList.reverse }
  else program.toList.foldl Folding.snoc {}

def fold (program : Program) : Program :=
  ofList program.folding.folded.reverse

def foldCount (program : Program) : Nat :=
  program.folding.count

theorem fold_of_hasJump {program : Program} (jumps : program.hasJump) :
    program.fold = program := by
  simp [fold, folding, jumps, ofList, toList]

theorem foldCount_of_hasJump {program : Program} (jumps : program.hasJump) :
    program.foldCount = 0 := by
  simp [foldCount, folding, jumps]

end Program

end StackMachine
