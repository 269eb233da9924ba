import StackMachine.Machine.Basic

/-!
# Runs

A run takes steps until the machine halts, exits or fails. Fuel bounds the number of steps:
with `n` units a run answers exactly if it ends within `n` steps, and `run_mono` says that more
fuel does not change an answer.
-/

namespace StackMachine

inductive Ending where
  | finished
  | exited
  | failed (fault : Fault)
deriving DecidableEq, Repr

namespace Machine

variable {γ : Type} [Console γ]

/-- The ending and the machine that is left, or nothing if the fuel is used up first. -/
def run (fuel : Nat) (machine : Machine γ) : Option (Ending × Machine γ) :=
  if machine.isHalted then some (.finished, machine)
  else
    match fuel with
    | 0 => none
    | fuel + 1 =>
      match step.run machine with
      | (.ok .next, machine) => run fuel machine
      | (.ok .exit, machine) => some (.exited, machine)
      | (.error fault, machine) => some (.failed fault, machine)

theorem run_of_size_le {machine : Machine γ} (past : machine.program.size ≤ machine.ip)
    (fuel : Nat) : machine.run fuel = some (.finished, machine) := by
  rw [run.eq_def, if_pos (by simpa [isHalted] using past)]

theorem run_zero_of_lt {machine : Machine γ} (inside : machine.ip < machine.program.size) :
    machine.run 0 = none := by
  rw [run.eq_def, if_neg (by simpa [isHalted] using inside)]

theorem run_succ_of_lt {machine : Machine γ} (inside : machine.ip < machine.program.size)
    (fuel : Nat) :
    machine.run (fuel + 1) =
      match step.run machine with
      | (.ok .next, machine) => run fuel machine
      | (.ok .exit, machine) => some (.exited, machine)
      | (.error fault, machine) => some (.failed fault, machine) := by
  rw [run.eq_def, if_neg (by simpa [isHalted] using inside)]

theorem run_succ {fuel : Nat} {machine : Machine γ} {answer : Ending × Machine γ}
    (ended : run fuel machine = some answer) : run (fuel + 1) machine = some answer := by
  induction fuel generalizing machine with
  | zero =>
    unfold run at ended
    split at ended
    · rename_i halted
      rw [run, if_pos halted, ended]
    · contradiction
  | succ fuel ih =>
    rw [run] at ended ⊢
    split at ended
    · rename_i halted
      rw [if_pos halted, ended]
    · rename_i halted
      rw [if_neg halted]
      generalize step.run machine = result at ended ⊢
      split at ended
      · exact ih ended
      · exact ended
      · exact ended

theorem run_mono {fuel more : Nat} (le : fuel ≤ more) {machine : Machine γ}
    {answer : Ending × Machine γ} (ended : run fuel machine = some answer) :
    run more machine = some answer := by
  induction le with
  | refl => exact ended
  | step _ ih => exact run_succ ih

theorem run_unique {fuel more : Nat} {machine : Machine γ} {answer other : Ending × Machine γ}
    (ended : run fuel machine = some answer) (ended' : run more machine = some other) :
    answer = other := by
  have same : some answer = some other := by
    rcases Nat.le_total fuel more with le | le
    · rw [← run_mono le ended, ended']
    · rw [← run_mono le ended', ended]
  exact Option.some.inj same

end Machine

end StackMachine
