import StackMachine.CommandLine.Basic

/-!
The program itself: it takes the arguments, the input and the files from outside, and passes
the report on.
-/

namespace StackMachine.CommandLine

/-- The message of the system for a file that cannot be read, with its number. The number may come
with its sign turned. -/
def numberedMessage (code : UInt32) (details : String) : String :=
  let number := min code.toNat (UInt32.size - code.toNat)
  let message := match number with
    | 2 => "No such file or directory"
    | 13 => "Permission denied"
    | 20 => "Not a directory"
    | 21 => "Is a directory"
    | 36 => "File name too long"
    | 40 => "Too many levels of symbolic links"
    | _ => details.capitalize
  message ++ " (os error " ++ toString number ++ ")"

def systemMessage : IO.Error → String
  | .noFileOrDirectory _ code details => numberedMessage code details
  | .permissionDenied _ code details => numberedMessage code details
  | .inappropriateType _ code details => numberedMessage code details
  | .invalidArgument _ code details => numberedMessage code details
  | error => toString error

/-- Reads ahead what the program may ask for: the input, and the file that is named. -/
def environment (arguments : List String) : IO Environment := do
  let input ← (← IO.getStdin).readBinToEnd
  let terminalKind ← IO.getEnv "TERM"
  let file ← match parse arguments with
    | some (.run { file := some path, .. }) =>
      try pure (Except.ok (← IO.FS.readBinFile path))
      catch error => pure (Except.error (systemMessage error))
    | _ => pure (Except.ok .empty)
  return { fileBytes := fun _ => file, input := input.toList, terminalKind }

end StackMachine.CommandLine

open StackMachine in
/-- Reports the outcome of `CommandLine.run`. The fuel outlasts any run. -/
def main (arguments : List String) : IO UInt32 := do
  let environment ← CommandLine.environment arguments
  match CommandLine.run 1000000000000000000 arguments environment with
  | none => return 1
  | some report =>
    (← IO.getStdout).write report.output
    (← IO.getStderr).putStr report.errorOutput
    return report.exitCode.toUInt32
