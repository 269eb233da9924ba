/-!
# Operations

The closed vocabulary of named operations. A name belongs to one operation, and an operation
has one name.
-/

namespace StackMachine

inductive Operator where
  | add | sub | mul | div | mod
deriving DecidableEq, Repr

def Operator.symbol : Operator → String
  | add => "+"
  | sub => "-"
  | mul => "*"
  | div => "/"
  | mod => "%"

inductive Op where
  | arith (operator : Operator)
  | equal
  | dup | drop | swap | dupBelow
  | castInt | castText
  | choose | jump | exit
  | print | println | read | listing
deriving DecidableEq, Repr

namespace Op

def all : List Op :=
  [arith .add, arith .sub, arith .mul, arith .div, arith .mod, equal, dup, drop, swap, dupBelow,
    castInt, castText, choose, jump, exit, print, println, read, listing]

def name : Op → String
  | arith operator => operator.symbol
  | equal => "=="
  | dup => "dup"
  | drop => "drop"
  | swap => "swap"
  | dupBelow => "over"
  | castInt => "cast_int"
  | castText => "cast_str"
  | choose => "if"
  | jump => "jmp"
  | exit => "exit"
  | print => "print"
  | println => "println"
  | read => "read"
  | listing => "stack"

def ofName? (name : String) : Option Op :=
  all.find? fun op => op.name == name

/-- The operators that are evaluated ahead of a run. A remainder is left to the run. -/
def foldable? : Op → Option Operator
  | arith .mod => none
  | arith operator => some operator
  | _ => none

theorem mem_all (op : Op) : op ∈ all := by
  cases op with
  | arith operator => cases operator <;> decide
  | _ => decide

theorem ofName?_name (op : Op) : ofName? op.name = some op := by
  cases op with
  | arith operator => cases operator <;> rfl
  | _ => rfl

theorem name_of_ofName?_eq_some {name : String} {op : Op} (found : ofName? name = some op) :
    op.name = name := by
  unfold ofName? at found
  simpa using List.find?_some found

end Op

end StackMachine
