import StackMachine.Op
import StackMachine.Value

/-!
# Faults

Every way in which loading or running a program can fail, and the one text that reports it.
-/

namespace StackMachine

inductive IoKind where
  | interrupted | unexpectedEnd | wouldBlock | brokenPipe | invalidData | other
deriving DecidableEq, Repr

structure IoFailure where
  kind : IoKind
  message : String
deriving DecidableEq, Repr

def IoFailure.notText : IoFailure :=
  { kind := .invalidData, message := "stream did not contain valid UTF-8" }

inductive Fault where
  | stackUnderflow
  | unknownWord (word : String)
  | badJump (target : Value) (programSize : Nat)
  | stepLimit (limit : Nat)
  | divisionByZero
  | overflow (operator : Operator)
  | mismatch (operator : Operator) (left right : Kind)
  | notAnInteger (text : String)
  | literalOutOfRange (token : String)
  | unclosedQuote (offset : Nat) (rest : String)
  | endOfInput
  | interrupted
  | io (message : String)
deriving DecidableEq, Repr

namespace Fault

def message : Fault → String
  | stackUnderflow => "stack underflow"
  | unknownWord word => "unknown opcode: '" ++ word ++ "'"
  | badJump target size =>
    "invalid jump target: " ++ target.kind.name ++ " '" ++ target.render ++ "' (program has " ++
      toString size ++ " elements)"
  | stepLimit limit => "step limit of " ++ toString limit ++ " exceeded"
  | divisionByZero => "division by zero"
  | overflow operator => "arithmetic overflow in '" ++ operator.symbol ++ "'"
  | mismatch operator left right =>
    "cannot apply '" ++ operator.symbol ++ "' to " ++ left.name ++ " and " ++ right.name
  | notAnInteger text => "cannot convert '" ++ text ++ "' to an integer"
  | literalOutOfRange token => "invalid integer literal: " ++ token
  | unclosedQuote offset rest =>
    "unexpected input at offset " ++ toString offset ++ ": " ++ rest
  | endOfInput => "end of input"
  | interrupted => "interrupted"
  | io message => "io error: " ++ message

/-- An interruption and the end of the input are causes of their own. -/
def ofIo (failure : IoFailure) : Fault :=
  match failure.kind with
  | .interrupted => interrupted
  | .unexpectedEnd => endOfInput
  | _ => io failure.message

/-- The faults that a console has reason to report. -/
def IsConsoleFault : Fault → Prop
  | endOfInput | interrupted | io _ => True
  | _ => False

end Fault

end StackMachine
