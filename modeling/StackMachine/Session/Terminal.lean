import StackMachine.Console.Basic
import StackMachine.Console.Reader
import StackMachine.Session.PartialLine

/-!
# Terminals

Where a session reads its lines behind prompts and shows its output. The lines are read by a line
editor, which is a parameter here: it acts on the terminal, and hands over a line or says why there
is none.
-/

namespace StackMachine

structure Terminal where
  /-- The kind of terminal, where it is known. -/
  kind : Option String := none
  reader : Reader := []
  output : String := ""
  isJammed : Bool := false
deriving DecidableEq, Repr

inductive LineFailure where
  | endOfInput
  | interrupted
  | io (failure : IoFailure)
  | other (message : String)
  /-- The editor gave up, and the program with it. -/
  | jammed
deriving DecidableEq, Repr

/-- A run is interrupted by an editor that gives up. -/
def LineFailure.fault : LineFailure → Fault
  | endOfInput => .endOfInput
  | interrupted => .interrupted
  | io failure => .ofIo failure
  | other message => .io message
  | jammed => .interrupted

structure LineEditor where
  readLine (prompt : String) : Action LineFailure Terminal String

namespace Terminal

def write (terminal : Terminal) (text : String) : Terminal :=
  { terminal with output := terminal.output ++ text }

/-- Asks for the next line. An editor that gave up is not asked again. -/
def ask (editor : LineEditor) (prompt : String) : Action LineFailure Terminal String :=
  fun terminal =>
    if terminal.isJammed then (.error .jammed, terminal)
    else
      match (editor.readLine prompt).run terminal with
      | (.error .jammed, terminal) => (.error .jammed, { terminal with isJammed := true })
      | result => result

end Terminal

/-- The console of one run in a session. Text that is held back becomes the prompt of the next
line that is read, and with the prompt it is gone. -/
structure SessionConsole (editor : LineEditor) where
  terminal : Terminal
  line : PartialLine := {}
deriving DecidableEq, Repr

namespace SessionConsole

variable {editor : LineEditor}

def readLine : Action Fault (SessionConsole editor) String := do
  let console ← get
  let (prompt, line) := console.line.take
  modify fun console => { console with line }
  ((Terminal.ask editor prompt).within SessionConsole.terminal
    fun console terminal => { console with terminal }).reporting LineFailure.fault

def write (text : String) : Action Fault (SessionConsole editor) Unit :=
  modify fun console =>
    match console.line.push text with
    | (none, line) => { console with line }
    | (some complete, line) => { terminal := console.terminal.write complete, line }

instance : Console (SessionConsole editor) where
  readLine := readLine
  write := write

/-- The terminal behind a run. A line that was not completed is completed now. -/
def finish (console : SessionConsole editor) : Terminal :=
  let rest := console.line.pending
  if rest.isEmpty then console.terminal else console.terminal.write (rest ++ "\n")

end SessionConsole

end StackMachine
