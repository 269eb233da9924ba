import StackMachine.CommandLine.Arguments
import StackMachine.Console.Stream
import StackMachine.Session.Basic

/-!
# Reports

With a file the program in it is run on the standard input and output; without one a session
starts. The report is all that can be seen from outside, but for what the parser of the arguments
says of those that it does not accept.
-/

namespace StackMachine.CommandLine

/-- What is left to others: to read lines at a terminal, and to lay out the lines of the log. -/
structure Facilities where
  editor : LineEditor
  logLine : String → String

structure Environment where
  /-- The bytes of a file, or the message of the failure to read it. -/
  fileBytes : String → Except String ByteArray
  input : List UInt8
  terminalKind : Option String

structure Report where
  exitCode : Nat := 0
  output : ByteArray := .empty
  errorOutput : String := ""

def version : String := "svm 0.1.0\n"

def errorLine (fault : Fault) : String :=
  "error: " ++ fault.message ++ "\n"

def readSource (environment : Environment) (path : String) : Except String String := do
  let bytes ← environment.fileBytes path
  match String.fromUTF8? bytes with
  | some source => return source
  | none => throw IoFailure.notText.message

variable (facilities : Facilities) (fuel : Nat)

def failure (message : String) : Report :=
  { exitCode := 1, errorOutput := facilities.logLine message }

def Report.ofRun (arguments : Arguments) (ending : Ending) (machine : Machine Stream) : Report :=
  let delivered := machine.console.writer.delivered
  let output := if arguments.stack then delivered ++ machine.stack.listing.toUTF8 else delivered
  match ending with
  | .failed fault => { failure facilities ("runtime error: " ++ fault.message) with output }
  | _ => { output }

def runFile (arguments : Arguments) (environment : Environment) (path : String) :
    Option Report :=
  match readSource environment path with
  | .error message => some (failure facilities ("failed to read " ++ path ++ ": " ++ message))
  | .ok source =>
    match arguments.config.load source with
    | .error fault =>
      some (failure facilities ("failed to load " ++ path ++ ": " ++ fault.message))
    | .ok program =>
      let dumped := if arguments.dump then program.render ++ "\n" else ""
      let console : Stream :=
        { reader := [.chunk environment.input], writer := { delivered := dumped.toUTF8 } }
      match (Machine.start arguments.config program console).run fuel with
      | none => none
      | some (ending, machine) => some (.ofRun facilities arguments ending machine)

def runSession (arguments : Arguments) (environment : Environment) : Option Report :=
  let terminal : Terminal :=
    { kind := environment.terminalKind, reader := [.chunk environment.input] }
  match Session.run facilities.editor arguments.config fuel terminal with
  | none => none
  | some (closing, session) =>
    let output := session.terminal.output.toUTF8
    let errors := String.join (session.reported.map errorLine)
    match closing with
    | .closed => some { output, errorOutput := errors }
    | .broken message =>
      let failed := failure facilities ("REPL failed: " ++ message)
      some { failed with output, errorOutput := errors ++ failed.errorOutput }
    | .abandoned => some { exitCode := 101, output, errorOutput := errors }

/-- The whole program. It answers nothing only if the fuel does not suffice. -/
def runWith (arguments : List String) (environment : Environment) : Option Report :=
  match parse arguments with
  | none => some { exitCode := 2 }
  | some .version => some { output := version.toUTF8 }
  | some (.run arguments) =>
    match arguments.file with
    | some path => runFile facilities fuel arguments environment path
    | none => runSession facilities fuel arguments environment

end StackMachine.CommandLine
