import StackMachine.Fault
import StackMachine.Text.Copies
import StackMachine.Text.WhiteSpace

/-!
# Arithmetic and conversion

The binary operators on values, and the reading of text as an integer. On text `+` joins and
`*` repeats; every other mix of kinds is a mismatch.
-/

namespace StackMachine

/-- The largest text that repetition builds, in bytes. -/
def maxRepeatedBytes : Nat := 16 * 1024 * 1024

/-- A negative count repeats no times. -/
def repeatText (text : String) (count : Integer) : Except Fault Value :=
  if text.utf8ByteSize * count.toInt.toNat ≤ maxRepeatedBytes then
    .ok (.text (Text.copies text count.toInt.toNat))
  else
    .error (.overflow .mul)

namespace Operator

def onIntegers (operator : Operator) (a b : Integer) : Except Fault Integer :=
  match operator with
  | add => fitting (Integer.add? a b)
  | sub => fitting (Integer.sub? a b)
  | mul => fitting (Integer.mul? a b)
  | div => if b = 0 then .error .divisionByZero else fitting (Integer.div? a b)
  | mod => if b = 0 then .error .divisionByZero else .ok (Integer.floorMod a b)
where
  fitting : Option Integer → Except Fault Integer
    | some n => .ok n
    | none => .error (.overflow operator)

def apply (operator : Operator) (left right : Value) : Except Fault Value :=
  match operator, left, right with
  | operator, .int a, .int b => (operator.onIntegers a b).map .int
  | add, .text a, .text b => .ok (.text (a ++ b))
  | mul, .text s, .int n => repeatText s n
  | mul, .int n, .text s => repeatText s n
  | operator, left, right => .error (.mismatch operator left.kind right.kind)

end Operator

/-- The integer that a text denotes. White space around it is ignored and either sign may
stand in front. -/
def Integer.ofText? (text : String) : Option Integer :=
  (Decimal.signed? (Text.trim text.toList)).bind ofInt?

def Value.toInteger : Value → Except Fault Integer
  | int n => .ok n
  | text s =>
    match Integer.ofText? s with
    | some n => .ok n
    | none => .error (.notAnInteger s)

end StackMachine
