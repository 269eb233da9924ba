import StackMachine.Action
import StackMachine.Fault

/-!
# Byte writers

A writer that takes all bytes of a write or none of them. What becomes of each write and each
flush is laid down in advance, and once that runs out every call succeeds.
-/

namespace StackMachine

structure Writer where
  delivered : ByteArray := .empty
  /-- The outcomes of the writes to come, where `none` is success. -/
  writes : List (Option IoFailure) := []
  flushes : List (Option IoFailure) := []

namespace Writer

def deliver (bytes : ByteArray) (delivered : ByteArray) :
    List (Option IoFailure) → Except IoFailure Unit × ByteArray × List (Option IoFailure)
  | [] => (.ok (), delivered ++ bytes, [])
  | none :: writes => (.ok (), delivered ++ bytes, writes)
  | some failure :: writes =>
    if failure.kind = .interrupted then deliver bytes delivered writes
    else (.error failure, delivered, writes)

def writeAll (text : String) : Action IoFailure Writer Unit :=
  fun writer =>
    if text.isEmpty then (.ok (), writer)
    else
      let (answer, delivered, writes) := deliver text.toUTF8 writer.delivered writer.writes
      (answer, { writer with delivered, writes })

/-- One flush, which is not tried again. -/
def flush : Action IoFailure Writer Unit :=
  fun writer =>
    match writer.flushes with
    | [] => (.ok (), writer)
    | outcome :: flushes =>
      (match outcome with
        | none => .ok ()
        | some failure => .error failure,
      { writer with flushes })

end Writer

end StackMachine
