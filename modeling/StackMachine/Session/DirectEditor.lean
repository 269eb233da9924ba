import StackMachine.Session.Terminal
import StackMachine.Text.Backspace
import StackMachine.Text.Line

/-!
# The line editor for input that is not typed

The lines of the input are taken as they come, and their backspaces are carried out. Most kinds of
terminal show no prompt then.
-/

namespace StackMachine.LineEditor

/-- The kinds of terminal that show prompts whatever the input is. -/
def showsPrompt (kind : Option String) : Bool :=
  kind.any fun kind => ["dumb", "cons25", "emacs"].contains (kind.map Char.toLower)

/-- It gives up where a backspace asks for a part of a character. -/
def direct : LineEditor where
  readLine prompt := do
    let terminal ← get
    if showsPrompt terminal.kind then set (terminal.write prompt)
    let line ← (Reader.takeText.within Terminal.reader
      fun terminal reader => { terminal with reader }).reporting LineFailure.io
    if line.isEmpty then throw .endOfInput
    match Text.applyBackspaces (Text.dropLineEnd line.toList) with
    | some line => return String.ofList line
    | none => throw .jammed

end StackMachine.LineEditor
