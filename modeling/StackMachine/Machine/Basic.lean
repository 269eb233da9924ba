import StackMachine.Arithmetic
import StackMachine.Config
import StackMachine.Console.Basic
import StackMachine.Stack

/-!
# The machine

A program, the place in it that comes next, an operand stack and a console. `apply` is what
an operation does, and `step` executes the element that comes next.

Operands are popped before an operation can fail, and the place has moved on before its element
is executed; a failure undoes neither.
-/

namespace StackMachine

inductive Flow where
  | next
  | exit
deriving DecidableEq, Repr

structure Machine (γ : Type) where
  program : Program
  console : γ
  stack : Stack := []
  ip : Nat := 0
  /-- The number of steps that were begun. What 64 bits do to a count from `2 ^ 64` on is left
  out. -/
  steps : Nat := 0
  stepLimit : Option Nat := none
deriving DecidableEq, Repr

def Program.index? (program : Program) : Value → Option Nat
  | .int n => if 0 ≤ n.toInt ∧ n.toInt < program.size then some n.toInt.toNat else none
  | .text _ => none

def Op.flow : Op → Flow
  | exit => .exit
  | _ => .next

namespace Machine

variable {γ : Type}

def start (config : Config) (program : Program) (console : γ) : Machine γ :=
  { program, console, stepLimit := config.stepLimit }

def isHalted (machine : Machine γ) : Bool :=
  machine.program.size ≤ machine.ip

def onStack {α : Type} (action : Action Fault Stack α) : Action Fault (Machine γ) α :=
  action.within Machine.stack fun machine stack => { machine with stack }

def onConsole {α : Type} (action : Action Fault γ α) : Action Fault (Machine γ) α :=
  action.within Machine.console fun machine console => { machine with console }

def push (v : Value) : Action Fault (Machine γ) Unit :=
  onStack (Stack.push v)

def pop : Action Fault (Machine γ) Value :=
  onStack Stack.pop

def jump (target : Value) : Action Fault (Machine γ) Unit := do
  let machine ← get
  match machine.program.index? target with
  | some ip => set { machine with ip }
  | none => throw (.badJump target machine.program.size)

def halt : Action Fault (Machine γ) Unit :=
  modify fun machine => { machine with ip := machine.program.size }

def perform [Console γ] : Op → Action Fault (Machine γ) Unit
  | .arith operator => do
    let right ← pop
    let left ← pop
    push (← Action.ofExcept (operator.apply left right))
  | .equal => do
    let right ← pop
    let left ← pop
    push (.int (if left = right then 1 else 0))
  | .dup => onStack Stack.dup
  | .drop => do
    let _ ← pop
  | .swap => do
    let upper ← pop
    let lower ← pop
    push upper
    push lower
  | .dupBelow => do
    let upper ← pop
    let lower ← pop
    push lower
    push upper
    push lower
  | .castInt => do
    let v ← pop
    push (.int (← Action.ofExcept v.toInteger))
  | .castText => do
    let v ← pop
    push (.text v.render)
  | .choose => do
    let otherwise ← pop
    let chosen ← pop
    let test ← pop
    push (if test.isTrue then chosen else otherwise)
  | .jump => do
    let target ← pop
    jump target
  | .exit => pure ()
  | .print => do
    let v ← pop
    onConsole (Console.write v.render)
  | .println => do
    let v ← pop
    onConsole (Console.write (v.render ++ "\n"))
  | .read => do
    let line ← onConsole Console.readLine
    push (.text line)
  | .listing => do
    let machine ← get
    onConsole (Console.write (Stack.listing machine.stack))

/-- What an operation does by itself: no step is counted, and `exit` does not halt. -/
def apply [Console γ] (op : Op) : Action Fault (Machine γ) Flow := do
  perform op
  return op.flow

/-- Begins a step, unless the limit was reached. -/
def count : Action Fault (Machine γ) Unit := do
  modify fun machine => { machine with steps := machine.steps + 1 }
  let machine ← get
  match machine.stepLimit with
  | none => pure ()
  | some limit => if limit < machine.steps then throw (.stepLimit limit)

def execute [Console γ] : Element → Action Fault (Machine γ) Flow
  | .literal v => do
    push v
    return .next
  | .op op => do
    let flow ← apply op
    if flow = .exit then halt
    return flow
  | .word word => throw (.unknownWord word)

/-- Executes one element. A halted machine does nothing. -/
def step [Console γ] : Action Fault (Machine γ) Flow := do
  let machine ← get
  match machine.program.elements[machine.ip]? with
  | none => return .next
  | some element =>
    count
    modify fun machine => { machine with ip := machine.ip + 1 }
    execute element

@[simp] theorem run_push (v : Value) (machine : Machine γ) :
    (push v).run machine = (.ok (), { machine with stack := v :: machine.stack }) := rfl

theorem run_jump (target : Value) (machine : Machine γ) :
    (jump target).run machine =
      match machine.program.index? target with
      | some ip => (.ok (), { machine with ip })
      | none => (.error (.badJump target machine.program.size), machine) := by
  simp only [jump, Action.run_bind, Action.run_get]
  cases machine.program.index? target with
  | some ip => rfl
  | none => rfl

end Machine

end StackMachine
