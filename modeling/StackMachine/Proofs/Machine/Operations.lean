import Mathlib.Data.List.Basic
import StackMachine.Machine.Run

/-!
# Operations and their operands

An operation takes as many values from the stack as its name tells, or it underflows and leaves the
stack empty. What it does then, its deed, follows from these operands alone. `run_perform_eq` says
so of all operations, and `befits_deed` says what their names tell of their deeds; what holds of
operations elsewhere is derived from these two.
-/

namespace StackMachine

open StackMachine.Action

/-! ## Faults of values -/

theorem map_eq_error_iff {α β ε : Type} {answer : Except ε α} {f : α → β} {e : ε} :
    answer.map f = .error e ↔ answer = .error e := by
  cases answer <;> simp [Except.map]

def Fault.IsValueFault : Fault → Prop
  | divisionByZero | overflow _ | mismatch _ _ _ | notAnInteger _ => True
  | _ => False

theorem Operator.isValueFault_of_onIntegers {operator : Operator} {a b : Integer}
    {fault : Fault} (failed : operator.onIntegers a b = .error fault) : fault.IsValueFault := by
  have fitting {found : Option Integer}
      (failed : Operator.onIntegers.fitting operator found = .error fault) :
      fault.IsValueFault := by
    cases found with
    | some n => cases failed
    | none =>
      cases failed
      trivial
  cases operator with
  | add => exact fitting failed
  | sub => exact fitting failed
  | mul => exact fitting failed
  | div =>
    rw [Operator.onIntegers] at failed
    split at failed
    · cases failed
      trivial
    · exact fitting failed
  | mod =>
    rw [Operator.onIntegers] at failed
    split at failed
    · cases failed
      trivial
    · cases failed

theorem Operator.isValueFault_of_apply {operator : Operator} {left right : Value} {fault : Fault}
    (failed : operator.apply left right = .error fault) : fault.IsValueFault := by
  have repeated {text : String} {count : Integer}
      (failed : repeatText text count = .error fault) : fault.IsValueFault := by
    rw [repeatText] at failed
    split at failed
    · cases failed
    · cases failed
      trivial
  unfold Operator.apply at failed
  split at failed
  · rename_i a b
    exact isValueFault_of_onIntegers (map_eq_error_iff.mp failed)
  · cases failed
  · exact repeated failed
  · exact repeated failed
  · cases failed
    trivial

theorem Value.isValueFault_of_toInteger {v : Value} {fault : Fault}
    (failed : v.toInteger = .error fault) : fault.IsValueFault := by
  cases v with
  | int n => cases failed
  | text s =>
    rw [toInteger] at failed
    split at failed
    · cases failed
    · cases failed
      trivial

/-! ## Deeds -/

inductive Deed where
  /-- The value that comes to lie on top is the first one. -/
  | push (values : List Value)
  | fail (fault : Fault)
  | jump (target : Value)
  | write (text : String)
  | read
  | list

def Deed.ofExcept : Except Fault Value → Deed
  | .ok v => push [v]
  | .error fault => fail fault

def Deed.gain : Deed → Nat
  | push values => values.length
  | read => 1
  | _ => 0

namespace Op

def need : Op → Nat
  | arith _ | equal | swap | dupBelow => 2
  | dup | drop | castInt | castText | jump | print | println => 1
  | choose => 3
  | exit | read | listing => 0

/-- The number of values that an operation leaves in excess of those that it takes. -/
def net : Op → Int
  | dup | dupBelow | read => 1
  | swap | castInt | castText | exit | listing => 0
  | arith _ | equal | drop | jump | print | println => -1
  | choose => -2

def callsConsole : Op → Bool
  | print | println | read | listing => true
  | _ => false

/-- What an operation does with its operands, of which the first one was on top. -/
def deed : Op → List Value → Deed
  | arith operator, [right, left] => .ofExcept (operator.apply left right)
  | equal, [right, left] => .push [.int (if left = right then 1 else 0)]
  | dup, [v] => .push [v, v]
  | swap, [upper, lower] => .push [lower, upper]
  | dupBelow, [upper, lower] => .push [lower, upper, lower]
  | castInt, [v] => .ofExcept (v.toInteger.map .int)
  | castText, [v] => .push [.text v.render]
  | choose, [otherwise, chosen, test] => .push [if test.isTrue then chosen else otherwise]
  | jump, [target] => .jump target
  | print, [v] => .write v.render
  | println, [v] => .write (v.render ++ "\n")
  | read, _ => .read
  | listing, _ => .list
  | _, _ => .push []

end Op

/-- What the name of an operation tells of its deeds. -/
def Deed.Befits (op : Op) : Deed → Prop
  | push values => (values.length : Int) = op.need + op.net ∧ op.callsConsole = false
  | fail fault => fault.IsValueFault ∧ op.callsConsole = false
  | jump _ => op = .jump
  | write _ => op = .print ∨ op = .println
  | read => op = .read
  | list => op = .listing

theorem Op.befits_deed (op : Op) {operands : List Value} (taken : operands.length = op.need) :
    (op.deed operands).Befits op := by
  have computed {answer : Except Fault Value} (result : (1 : Int) = op.need + op.net)
      (silent : op.callsConsole = false)
      (own : ∀ fault, answer = .error fault → fault.IsValueFault) :
      (Deed.ofExcept answer).Befits op := by
    cases answer with
    | ok v => exact ⟨result, silent⟩
    | error fault => exact ⟨own fault rfl, silent⟩
  cases op with
  | arith operator =>
    obtain ⟨right, left, rfl⟩ := List.length_eq_two.mp taken
    exact computed rfl rfl fun _ => Operator.isValueFault_of_apply
  | equal =>
    obtain ⟨right, left, rfl⟩ := List.length_eq_two.mp taken
    exact ⟨rfl, rfl⟩
  | dup =>
    obtain ⟨v, rfl⟩ := List.length_eq_one_iff.mp taken
    exact ⟨rfl, rfl⟩
  | drop => exact ⟨rfl, rfl⟩
  | swap =>
    obtain ⟨upper, lower, rfl⟩ := List.length_eq_two.mp taken
    exact ⟨rfl, rfl⟩
  | dupBelow =>
    obtain ⟨upper, lower, rfl⟩ := List.length_eq_two.mp taken
    exact ⟨rfl, rfl⟩
  | castInt =>
    obtain ⟨v, rfl⟩ := List.length_eq_one_iff.mp taken
    exact computed rfl rfl fun _ failed =>
      Value.isValueFault_of_toInteger (map_eq_error_iff.mp failed)
  | castText =>
    obtain ⟨v, rfl⟩ := List.length_eq_one_iff.mp taken
    exact ⟨rfl, rfl⟩
  | choose =>
    obtain ⟨otherwise, chosen, test, rfl⟩ := List.length_eq_three.mp taken
    exact ⟨rfl, rfl⟩
  | jump =>
    obtain ⟨target, rfl⟩ := List.length_eq_one_iff.mp taken
    rfl
  | exit => exact ⟨rfl, rfl⟩
  | print =>
    obtain ⟨v, rfl⟩ := List.length_eq_one_iff.mp taken
    exact .inl rfl
  | println =>
    obtain ⟨v, rfl⟩ := List.length_eq_one_iff.mp taken
    exact .inr rfl
  | read => rfl
  | listing => rfl

theorem Op.short_or_supplied (op : Op) (stack : Stack) :
    stack.length < op.need ∨
      ∃ operands rest, operands.length = op.need ∧ stack = operands ++ rest := by
  rcases Nat.lt_or_ge stack.length op.need with short | enough
  · exact .inl short
  · exact .inr ⟨_, _, List.length_take_of_le enough, (List.take_append_drop op.need stack).symm⟩

theorem Deed.Befits.gain_eq {op : Op} {deed : Deed} (befits : deed.Befits op)
    (succeeds : ∀ fault, deed ≠ .fail fault) : (deed.gain : Int) = op.need + op.net := by
  cases deed with
  | push values => exact befits.1
  | fail fault => exact absurd rfl (succeeds fault)
  | jump target =>
    obtain rfl : op = .jump := befits
    rfl
  | write text => rcases befits with rfl | rfl <;> rfl
  | read =>
    obtain rfl : op = .read := befits
    rfl
  | list =>
    obtain rfl : op = .listing := befits
    rfl

/-! ## Machines -/

namespace Machine

variable {γ : Type} [Console γ]

def enact : Deed → Action Fault (Machine γ) Unit
  | .push values => modify fun machine => { machine with stack := values ++ machine.stack }
  | .fail fault => throw fault
  | .jump target => jump target
  | .write text => onConsole (Console.write text)
  | .read => do push (.text (← onConsole Console.readLine))
  | .list => do onConsole (Console.write (Stack.listing (← get).stack))

theorem run_perform_eq (op : Op) (machine : Machine γ) :
    (perform op).run machine =
      if machine.stack.length < op.need then
        (.error .stackUnderflow, { machine with stack := [] })
      else
        (enact (op.deed (machine.stack.take op.need))).run
          { machine with stack := machine.stack.drop op.need } := by
  obtain ⟨program, console, stack, ip, steps, limit⟩ := machine
  cases op with
  | arith operator =>
    rcases stack with _ | ⟨right, _ | ⟨left, rest⟩⟩
    · rfl
    · rfl
    · show (Action.ofExcept (operator.apply left right) >>= push).run _ =
        (enact (.ofExcept (operator.apply left right))).run _
      rw [run_bind]
      cases operator.apply left right <;> rfl
  | equal => rcases stack with _ | ⟨right, _ | ⟨left, rest⟩⟩ <;> rfl
  | dup => rcases stack with _ | ⟨v, rest⟩ <;> rfl
  | drop => rcases stack with _ | ⟨v, rest⟩ <;> rfl
  | swap => rcases stack with _ | ⟨upper, _ | ⟨lower, rest⟩⟩ <;> rfl
  | dupBelow => rcases stack with _ | ⟨upper, _ | ⟨lower, rest⟩⟩ <;> rfl
  | castInt =>
    rcases stack with _ | ⟨v, rest⟩
    · rfl
    · show (Action.ofExcept v.toInteger >>= fun n => push (.int n)).run _ =
        (enact (.ofExcept (v.toInteger.map .int))).run _
      rw [run_bind]
      cases v.toInteger <;> rfl
  | castText => rcases stack with _ | ⟨v, rest⟩ <;> rfl
  | choose => rcases stack with _ | ⟨otherwise, _ | ⟨chosen, _ | ⟨test, rest⟩⟩⟩ <;> rfl
  | jump => rcases stack with _ | ⟨target, rest⟩ <;> rfl
  | exit => rfl
  | print => rcases stack with _ | ⟨v, rest⟩ <;> rfl
  | println => rcases stack with _ | ⟨v, rest⟩ <;> rfl
  | read => rfl
  | listing => rfl

variable {machine : Machine γ} {op : Op}

theorem run_perform_of_short (short : machine.stack.length < op.need) :
    (perform op).run machine = (.error .stackUnderflow, { machine with stack := [] }) := by
  rw [run_perform_eq, if_pos short]

theorem run_perform_operands {operands rest : List Value} (taken : operands.length = op.need)
    (shape : machine.stack = operands ++ rest) :
    (perform op).run machine = (enact (op.deed operands)).run { machine with stack := rest } := by
  have enough : ¬ machine.stack.length < op.need := by simp [shape, taken]
  rw [run_perform_eq, if_neg enough, shape, List.take_left' taken, List.drop_left' taken]

theorem enact_cases (deed : Deed) (machine : Machine γ) :
    (∃ fault console, (enact deed).run machine = (.error fault, { machine with console })) ∨
      ∃ values console ip, values.length = deed.gain ∧
        (enact deed).run machine =
          (.ok (), { machine with stack := values ++ machine.stack, console, ip }) := by
  have wrote (text : String) :
      (∃ fault console, (onConsole (Console.write text)).run machine =
          (.error fault, { machine with console })) ∨
        ∃ values console ip, values.length = 0 ∧ (onConsole (Console.write text)).run machine =
          (.ok (), { machine with stack := values ++ machine.stack, console, ip }) := by
    simp only [onConsole, run_within]
    rcases (Console.write text).run machine.console with ⟨fault | _, console⟩
    · exact .inl ⟨fault, console, rfl⟩
    · exact .inr ⟨[], console, machine.ip, rfl, rfl⟩
  cases deed with
  | push values => exact .inr ⟨values, machine.console, machine.ip, rfl, rfl⟩
  | fail fault => exact .inl ⟨fault, machine.console, rfl⟩
  | jump target =>
    simp only [enact, run_jump]
    cases machine.program.index? target with
    | some ip => exact .inr ⟨[], machine.console, ip, rfl, rfl⟩
    | none => exact .inl ⟨_, machine.console, rfl⟩
  | write text => exact wrote text
  | read =>
    simp only [enact, run_bind, onConsole, run_within]
    rcases Console.readLine.run machine.console with ⟨fault | line, console⟩
    · exact .inl ⟨fault, console, rfl⟩
    · exact .inr ⟨[.text line], console, machine.ip, rfl, rfl⟩
  | list => exact wrote machine.stack.listing

theorem console_of_enact {deed : Deed} (befits : deed.Befits op) (silent : op.callsConsole = false)
    (machine : Machine γ) : ((enact deed).run machine).2.console = machine.console := by
  cases deed with
  | push values => rfl
  | fail fault => rfl
  | jump target =>
    simp only [enact, run_jump]
    cases machine.program.index? target <;> rfl
  | write text => rcases befits with rfl | rfl <;> cases silent
  | read =>
    obtain rfl : op = .read := befits
    cases silent
  | list =>
    obtain rfl : op = .listing := befits
    cases silent

end Machine

end StackMachine
