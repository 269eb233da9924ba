import StackMachine.Action
import StackMachine.Fault

/-!
# Consoles

A console hands out lines of input and takes text. The machine reads and prints through a
console alone, whatever stands behind it.
-/

namespace StackMachine

class Console (γ : Type) where
  readLine : Action Fault γ String
  write (text : String) : Action Fault γ Unit

namespace Console

/-- A console that fails only as consoles have reason to. -/
class Ordinary (γ : Type) [Console γ] : Prop where
  readLine_fault (console : γ) (fault : Fault) :
    (readLine.run console).1 = .error fault → fault.IsConsoleFault
  write_fault (text : String) (console : γ) (fault : Fault) :
    ((write text).run console).1 = .error fault → fault.IsConsoleFault

end Console

end StackMachine
