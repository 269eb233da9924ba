import StackMachine.Console.Basic

/-!
# Buffered consoles

A console in memory, with the lines that it will hand out and the text that it has taken,
and one that has no input and keeps no output.
-/

namespace StackMachine

structure Buffer where
  lines : List String := []
  output : String := ""
deriving DecidableEq, Repr

namespace Buffer

def readLine : Action Fault Buffer String := do
  let buffer ← get
  match buffer.lines with
  | [] => throw .endOfInput
  | line :: rest =>
    set { buffer with lines := rest }
    return line

def write (text : String) : Action Fault Buffer Unit :=
  modify fun buffer => { buffer with output := buffer.output ++ text }

instance : Console Buffer where
  readLine := readLine
  write := write

def takeOutput : Action Fault Buffer String := do
  let buffer ← get
  set { buffer with output := "" }
  return buffer.output

@[simp] theorem run_readLine_nil (output : String) :
    readLine.run { lines := [], output } = (.error .endOfInput, { lines := [], output }) := rfl

@[simp] theorem run_readLine_cons (line : String) (lines : List String) (output : String) :
    readLine.run { lines := line :: lines, output } = (.ok line, { lines, output }) := rfl

@[simp] theorem run_write (text : String) (lines : List String) (output : String) :
    (write text).run { lines, output } = (.ok (), { lines, output := output ++ text }) := rfl

instance : Console.Ordinary Buffer where
  readLine_fault console fault failed := by
    obtain ⟨lines, output⟩ := console
    cases lines with
    | nil =>
      cases failed
      trivial
    | cons => cases failed
  write_fault _ _ _ failed := by cases failed

end Buffer

/-- Closed input, and output that goes nowhere. -/
structure Silence where
deriving DecidableEq, Repr

namespace Silence

instance : Console Silence where
  readLine := throw .endOfInput
  write _ := pure ()

instance : Console.Ordinary Silence where
  readLine_fault _ _ failed := by
    cases failed
    trivial
  write_fault _ _ _ failed := by cases failed

end Silence

end StackMachine
