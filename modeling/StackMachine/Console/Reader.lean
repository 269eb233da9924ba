import StackMachine.Action
import StackMachine.Fault

/-!
# Byte readers

A reader delivers bytes in chunks of any size and may report failures between them. A line
is taken across chunks, and an interruption does not end it.
-/

namespace StackMachine

inductive Arrival where
  | chunk (bytes : List UInt8)
  | failure (failure : IoFailure)
deriving DecidableEq, Repr

/-- What is still to arrive. Behind the last arrival is the end of the input. -/
abbrev Reader := List Arrival

namespace Reader

def lineFeed : UInt8 := 0x0A

/-- Adds to `line` what arrives up to and including a line feed or the end of the input. A
failure other than an interruption is answered at once, and what arrived of the line is lost. -/
def collect (line : List UInt8) : Reader → Except IoFailure (List UInt8) × Reader
  | [] => (.ok line, [])
  | .failure failure :: rest =>
    if failure.kind = .interrupted then collect line rest else (.error failure, rest)
  | .chunk bytes :: rest =>
    match bytes.dropWhile (· != lineFeed) with
    | [] => collect (line ++ bytes) rest
    | feed :: back =>
      (.ok (line ++ bytes.takeWhile (· != lineFeed) ++ [feed]), .chunk back :: rest)

/-- The bytes of the next line with its end, and none at the end of the input. -/
def takeLine : Action IoFailure Reader (List UInt8) :=
  collect []

def text? (bytes : List UInt8) : Option String :=
  String.fromUTF8? bytes.toByteArray

/-- The next line with its end, and an empty text at the end of the input. The bytes of a line
that is not text are consumed all the same. -/
def takeText : Action IoFailure Reader String := do
  match text? (← takeLine) with
  | some line => return line
  | none => throw .notText

end Reader

end StackMachine
