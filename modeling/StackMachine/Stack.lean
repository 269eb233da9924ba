import StackMachine.Action
import StackMachine.Fault

/-!
# The operand stack

A list of values, top first. Taking from an empty stack is an underflow.
-/

namespace StackMachine

abbrev Stack := List Value

namespace Stack

def push (v : Value) : Action Fault Stack Unit :=
  modify (v :: ·)

def pop : Action Fault Stack Value := do
  match ← get with
  | [] => throw .stackUnderflow
  | v :: rest =>
    set rest
    return v

def peek : Action Fault Stack Value := do
  match ← get with
  | [] => throw .stackUnderflow
  | v :: _ => return v

def dup : Action Fault Stack Unit := do
  push (← peek)

def entry (v : Value) : String :=
  "- type " ++ v.kind.name ++ ", value '" ++ v.render ++ "'\n"

/-- A line for each value, top first, under a heading. -/
def listing (stack : Stack) : String :=
  "Data stack (top first):\n" ++ String.join (stack.map entry)

@[simp] theorem run_push (v : Value) (stack : Stack) :
    (push v).run stack = (.ok (), v :: stack) := rfl

@[simp] theorem run_pop_nil : pop.run ([] : Stack) = (.error .stackUnderflow, []) := rfl

@[simp] theorem run_pop_cons (v : Value) (stack : Stack) :
    pop.run (v :: stack) = (.ok v, stack) := rfl

@[simp] theorem run_peek_nil : peek.run ([] : Stack) = (.error .stackUnderflow, []) := rfl

@[simp] theorem run_peek_cons (v : Value) (stack : Stack) :
    peek.run (v :: stack) = (.ok v, v :: stack) := rfl

@[simp] theorem run_dup_nil : dup.run ([] : Stack) = (.error .stackUnderflow, []) := rfl

@[simp] theorem run_dup_cons (v : Value) (stack : Stack) :
    dup.run (v :: stack) = (.ok (), v :: v :: stack) := rfl

end Stack

end StackMachine
