import StackMachine.CommandLine.Report
import StackMachine.Session.DirectEditor
import StackMachine.Text.Visible

/-!
# The command line

The program with the line editor and the log that it runs with.
-/

namespace StackMachine.CommandLine

def Facilities.standard : Facilities where
  editor := .direct
  logLine message := " ERROR svm: " ++ Text.visible message ++ "\n"

def run (fuel : Nat) (arguments : List String) (environment : Environment) : Option Report :=
  runWith .standard fuel arguments environment

end StackMachine.CommandLine
