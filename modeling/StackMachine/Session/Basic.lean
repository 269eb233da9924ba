import StackMachine.Machine.Run
import StackMachine.Session.Terminal
import StackMachine.Text.WhiteSpace

/-!
# Sessions

A session takes one line of source after another and runs each on a machine of its own. A line
that fails is reported and the session goes on; `exit` and the end of the input end it.
-/

namespace StackMachine

structure Session where
  terminal : Terminal
  reported : List Fault := []
deriving DecidableEq, Repr

namespace Session

def banner : String := "Hit CTRL+D or type \"exit\" to quit.\n"

def prompt : String := "> "

inductive Outcome where
  | proceed
  | report (fault : Fault)
  | quit
deriving DecidableEq, Repr

/-- An interrupted run is not worth a report. -/
def Outcome.ofEnding : Ending → Outcome
  | .finished => proceed
  | .exited => quit
  | .failed .interrupted => proceed
  | .failed fault => report fault

/-- Loads and runs one line, and answers nothing if the fuel does not suffice. -/
def evaluate (editor : LineEditor) (config : Config) (fuel : Nat) (line : String)
    (terminal : Terminal) : Option (Outcome × Terminal) :=
  match config.load line with
  | .error fault => some (.report fault, terminal)
  | .ok program =>
    match (Machine.start config program ({ terminal } : SessionConsole editor)).run fuel with
    | none => none
    | some (ending, machine) => some (.ofEnding ending, machine.console.finish)

inductive Closing where
  | closed
  | broken (message : String)
  | abandoned
deriving DecidableEq, Repr

/-- Goes on until the session ends. The fuel bounds the number of prompts and the length of
every run. -/
def resume (editor : LineEditor) (config : Config) : Nat → Session → Option (Closing × Session)
  | 0, _ => none
  | fuel + 1, session =>
    match (Terminal.ask editor prompt).run session.terminal with
    | (.error .endOfInput, terminal) => some (.closed, { session with terminal })
    | (.error .interrupted, terminal) => resume editor config fuel { session with terminal }
    | (.error (.io failure), terminal) => some (.broken failure.message, { session with terminal })
    | (.error (.other message), terminal) => some (.broken message, { session with terminal })
    | (.error .jammed, terminal) => some (.abandoned, { session with terminal })
    | (.ok line, terminal) =>
      if Text.isBlank line then resume editor config fuel { session with terminal }
      else
        match evaluate editor config fuel line terminal with
        | none => none
        | some (.proceed, terminal) => resume editor config fuel { session with terminal }
        | some (.quit, terminal) => some (.closed, { session with terminal })
        | some (.report fault, terminal) =>
          resume editor config fuel { terminal, reported := session.reported ++ [fault] }

def run (editor : LineEditor) (config : Config) (fuel : Nat) (terminal : Terminal) :
    Option (Closing × Session) :=
  resume editor config fuel { terminal := terminal.write banner }

end Session

end StackMachine
