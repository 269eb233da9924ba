import StackMachine.Console.Basic
import StackMachine.Console.Reader
import StackMachine.Console.Writer
import StackMachine.Text.Line

/-!
# Stream consoles

A console over a byte reader and a byte writer. Output is flushed before input is read, so
that it is seen first, and behind every write.
-/

namespace StackMachine

structure Stream where
  reader : Reader := []
  writer : Writer := {}

namespace Stream

def onReader {α : Type} (action : Action IoFailure Reader α) : Action Fault Stream α :=
  (action.within Stream.reader fun stream reader => { stream with reader }).reporting Fault.ofIo

def onWriter {α : Type} (action : Action IoFailure Writer α) : Action Fault Stream α :=
  (action.within Stream.writer fun stream writer => { stream with writer }).reporting Fault.ofIo

def readLine : Action Fault Stream String := do
  onWriter Writer.flush
  let line ← onReader Reader.takeText
  if line.isEmpty then throw .endOfInput
  return String.ofList (Text.dropLineEnd line.toList)

def write (text : String) : Action Fault Stream Unit := do
  onWriter (Writer.writeAll text)
  onWriter Writer.flush

instance : Console Stream where
  readLine := readLine
  write := write

end Stream

end StackMachine
