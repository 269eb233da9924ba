import StackMachine.Program.Folding

/-!
# Configuration

What loading and running a program leave to choose.
-/

namespace StackMachine

structure Config where
  foldConstants : Bool := true
  /-- The number of steps that a run may take, where there is a limit. Limits from `2 ^ 64` on are
  left out. -/
  stepLimit : Option Nat := none
deriving DecidableEq, Repr

namespace Config

def prepare (config : Config) (program : Program) : Program :=
  if config.foldConstants then program.fold else program

def load (config : Config) (source : String) : Except Fault Program :=
  return config.prepare (← Program.parse source)

end Config

end StackMachine
