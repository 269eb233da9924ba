import StackMachine.Console.Buffer
import StackMachine.Console.Stream
import StackMachine.Proofs.Console.Reading
import StackMachine.Proofs.Machine.Consoles

/-!
# Streams and buffers

A stream with a writer that never fails is as good as a buffer that holds the lines of its reader.
However the bytes arrive, a machine takes the same steps on both, and what reaches the writer is
what the buffer takes down. Silence is as good as a buffer without lines, but for the output.
-/

namespace StackMachine

open StackMachine.Action Machine

/-! ## Writers -/

namespace Writer

structure NeverFails (writer : Writer) : Prop where
  writes : ∀ outcome ∈ writer.writes, outcome = none
  flushes : ∀ outcome ∈ writer.flushes, outcome = none

theorem run_flush_of_fine {writer : Writer} (fine : ∀ outcome ∈ writer.flushes, outcome = none) :
    ∃ flushes, flush.run writer = (.ok (), { writer with flushes }) ∧
      ∀ outcome ∈ flushes, outcome = none := by
  obtain ⟨delivered, writes, flushes⟩ := writer
  cases flushes with
  | nil => exact ⟨[], rfl, fine⟩
  | cons outcome flushes =>
    obtain rfl := fine outcome List.mem_cons_self
    exact ⟨flushes, rfl, fun outcome member => fine outcome (List.mem_cons_of_mem _ member)⟩

theorem run_flush {writer : Writer} (fine : writer.NeverFails) :
    ∃ after, flush.run writer = (.ok (), after) ∧ after.NeverFails ∧
      after.delivered = writer.delivered := by
  obtain ⟨flushes, ran, fine'⟩ := run_flush_of_fine fine.flushes
  exact ⟨_, ran, ⟨fine.writes, fine'⟩, rfl⟩

theorem run_writeAll_of_filled {text : String} (filled : text ≠ "") (writer : Writer) :
    (writeAll text).run writer =
      ((deliver text.toUTF8 writer.delivered writer.writes).1,
        { writer with
          delivered := (deliver text.toUTF8 writer.delivered writer.writes).2.1
          writes := (deliver text.toUTF8 writer.delivered writer.writes).2.2 }) := by
  simp [Action.run, ExceptT.run, StateT.run, writeAll, filled]

theorem run_writeAll {writer : Writer} (fine : writer.NeverFails) (text : String) :
    ∃ after, (writeAll text).run writer = (.ok (), after) ∧ after.NeverFails ∧
      after.delivered = writer.delivered ++ text.toUTF8 := by
  obtain ⟨delivered, writes, flushes⟩ := writer
  by_cases empty : text = ""
  · subst empty
    refine ⟨_, rfl, fine, ?_⟩
    exact (ByteArray.append_empty).symm
  · have delivers : deliver text.toUTF8 delivered writes =
        (.ok (), delivered ++ text.toUTF8, writes.tail) := by
      cases writes with
      | nil => rfl
      | cons outcome writes =>
        obtain rfl := fine.writes outcome List.mem_cons_self
        rfl
    rw [run_writeAll_of_filled empty, delivers]
    refine ⟨_, rfl, ⟨?_, fine.flushes⟩, rfl⟩
    exact fun outcome member => fine.writes outcome (List.mem_of_mem_tail member)

end Writer

/-! ## Streams -/

namespace Stream

/-- The stream is going to hand out the lines of the buffer, and behind what was delivered `before`
it has delivered what the buffer took. -/
structure Mirrors (before : ByteArray) (stream : Stream) (buffer : Buffer) : Prop where
  input : ∃ text, stream.reader.Holds text ∧ (Text.lines text).map String.ofList = buffer.lines
  neverFails : stream.writer.NeverFails
  delivered : stream.writer.delivered = before ++ buffer.output.toUTF8

theorem run_readLine_of_flushed {stream : Stream} {flushed : Writer} {rest : Reader}
    {taken : Except IoFailure String}
    (flushes : Writer.flush.run stream.writer = (.ok (), flushed))
    (takes : Reader.takeText.run stream.reader = (taken, rest)) :
    readLine.run stream =
      ((taken.mapError Fault.ofIo).bind fun line =>
          if line = "" then .error .endOfInput
          else .ok (String.ofList (Text.dropLineEnd line.toList)),
        { reader := rest, writer := flushed }) := by
  cases taken with
  | error failure =>
    simp [readLine, run_bind, onWriter, onReader, flushes, takes, Except.mapError, Except.bind]
  | ok line =>
    by_cases empty : line = ""
    · simp [readLine, run_bind, onWriter, onReader, flushes, takes, empty, Except.bind]
    · simp [readLine, run_bind, onWriter, onReader, flushes, takes, empty, Except.bind]

theorem run_readLine {stream : Stream} (fine : stream.writer.NeverFails) {text : List Char}
    (holds : stream.reader.Holds text) :
    ∃ after, readLine.run stream =
        (if text = [] then .error .endOfInput else .ok (String.ofList (Text.firstLine text)),
          after) ∧
      after.reader.Holds (Text.behindLine text) ∧ after.writer.NeverFails ∧
      after.writer.delivered = stream.writer.delivered := by
  obtain ⟨flushed, flushes, fine', kept⟩ := Writer.run_flush fine
  obtain ⟨rest, taken, left⟩ := Reader.run_takeText holds
  refine ⟨{ reader := rest, writer := flushed }, ?_, left, fine', kept⟩
  rw [run_readLine_of_flushed flushes taken]
  by_cases unread : text = []
  · subst unread
    rfl
  · have filled := Text.takeLine_ne_nil unread
    simp [filled, unread, Text.firstLine, Except.bind]

theorem run_write {stream : Stream} (fine : stream.writer.NeverFails) (text : String) :
    ∃ after, (write text).run stream = (.ok (), { stream with writer := after }) ∧
      after.NeverFails ∧ after.delivered = stream.writer.delivered ++ text.toUTF8 := by
  obtain ⟨reader, writer⟩ := stream
  obtain ⟨written, writes, fine', delivered⟩ := Writer.run_writeAll fine text
  obtain ⟨flushed, flushes, fine'', kept⟩ := Writer.run_flush fine'
  refine ⟨flushed, ?_, fine'', kept.trans delivered⟩
  simp [write, run_bind, onWriter, writes, flushes]

theorem alike_mirrors (before : ByteArray) : Console.Alike (Mirrors before) where
  readLine := by
    rintro stream ⟨lines, output⟩ ⟨⟨text, holds, spelled⟩, fine, delivered⟩
    obtain ⟨after, answer, left, fine', kept⟩ := run_readLine fine holds
    have read : Console.readLine.run stream = _ := answer
    rw [read]
    by_cases unread : text = []
    · subst unread
      rw [Text.lines_nil] at spelled
      obtain rfl : [] = lines := spelled
      exact ⟨rfl, ⟨[], left, by rw [Text.lines_nil]; rfl⟩, fine', kept.trans delivered⟩
    · rw [Text.lines_of_ne_nil unread, List.map_cons] at spelled
      obtain rfl : _ :: _ = lines := spelled
      rw [if_neg unread]
      exact ⟨rfl, ⟨_, left, rfl⟩, fine', kept.trans delivered⟩
  write text := by
    rintro stream ⟨lines, output⟩ ⟨input, fine, delivered⟩
    obtain ⟨after, written, fine', delivered'⟩ := run_write fine text
    have wrote : (Console.write text).run stream = _ := written
    rw [wrote]
    refine ⟨rfl, input, fine', ?_⟩
    rw [delivered', delivered, ByteArray.append_assoc]
    exact congrArg (before ++ ·) String.toByteArray_append.symm

end Stream

theorem Silence.alike_buffer :
    Console.Alike fun (_ : Silence) (buffer : Buffer) => buffer.lines = [] where
  readLine := by
    rintro silence ⟨lines, output⟩ empty
    obtain rfl : lines = [] := empty
    exact ⟨rfl, rfl⟩
  write text := by
    rintro silence ⟨lines, output⟩ empty
    exact ⟨rfl, empty⟩

/-! ## Machines -/

namespace Machine

variable {γ δ : Type}

theorem Alike.imp {related weaker : γ → δ → Prop} (implies : ∀ c d, related c d → weaker c d)
    {m : Machine γ} {n : Machine δ} (alike : Alike related m n) : Alike weaker m n :=
  { alike with console := implies _ _ alike.console }

/-- Steps taken in a row answer alike on a stream and on a buffer with the lines of its input, and
without input alike in silence and on a buffer. -/
theorem consoles_agree (program : Program) (stack : Stack) (stepLimit : Option Nat) (n : Nat)
    {lines : List String}
    (whole : ∀ line ∈ lines, '\n' ∉ line.toList ∧ line.toList.getLast? ≠ some '\r')
    {text : List Char} (spelled : Text.IsTextOf lines text) {reader : Reader}
    (steady : reader.IsSteady) (arrives : reader.bytes = Text.bytes text) {writer : Writer}
    (fine : writer.NeverFails) :
    let onStream := stepTimes n
      { program, console := ({ reader, writer } : Stream), stack, stepLimit }
    let onBuffer := stepTimes n { program, console := ({ lines } : Buffer), stack, stepLimit }
    let inSilence := stepTimes n { program, console := ({} : Silence), stack, stepLimit }
    let onEmpty := stepTimes n { program, console := ({} : Buffer), stack, stepLimit }
    (onStream.1 = onBuffer.1 ∧
      Alike (fun stream buffer =>
          stream.writer.delivered = writer.delivered ++ buffer.output.toUTF8)
        onStream.2 onBuffer.2) ∧
    inSilence.1 = onEmpty.1 ∧ Alike (fun _ _ => True) inSilence.2 onEmpty.2 := by
  intro onStream onBuffer inSilence onEmpty
  have start : Stream.Mirrors writer.delivered { reader, writer } ({ lines } : Buffer) := by
    refine ⟨⟨text, ⟨steady, arrives⟩, ?_⟩, fine, ByteArray.append_empty.symm⟩
    rw [spelled.lines_eq whole, List.map_map]
    simp
  obtain ⟨answers, streamed⟩ := stepTimes_alike (Stream.alike_mirrors writer.delivered) n
    (show Alike _ { program, console := { reader, writer }, stack, stepLimit }
      { program, console := { lines }, stack, stepLimit } from ⟨rfl, rfl, rfl, rfl, rfl, start⟩)
  obtain ⟨answers', silent⟩ := stepTimes_alike Silence.alike_buffer n
    (show Alike _ { program, console := {}, stack, stepLimit }
      { program, console := {}, stack, stepLimit } from ⟨rfl, rfl, rfl, rfl, rfl, rfl⟩)
  exact ⟨⟨answers, streamed.imp fun _ _ mirrors => mirrors.delivered⟩, answers',
    silent.imp fun _ _ _ => trivial⟩

theorem consoles_agree_chunked :
    let program := Program.ofList [.op .read, .op .println, .literal (.int 0), .op .jump]
    let again : IoFailure := { kind := .interrupted, message := "again" }
    let reader : Reader := [.chunk [0xC3], .failure again, .chunk [0xA9, 0x0A, 0x0A, 0x78]]
    let onStream := stepTimes 13
      { program, console := ({ reader } : Stream), stack := [], stepLimit := none }
    reader.IsSteady ∧ reader.bytes = Text.bytes "é\n\nx".toList ∧
      onStream.1.getLast? = some (.error .endOfInput) ∧ onStream.2.ip = 1 ∧
      onStream.2.console.writer.delivered = "é\n\nx\n".toUTF8 := by
  intro program again reader onStream
  have whole : ∀ line ∈ ["é", "", "x"],
      '\n' ∉ line.toList ∧ line.toList.getLast? ≠ some '\r' := by decide
  have spelled : Text.IsTextOf ["é", "", "x"] "é\n\nx".toList :=
    .more "é" (.more "" (.unended (by decide)))
  have steady : reader.IsSteady := by
    intro failure member
    obtain rfl : failure = again := by simpa [reader] using member
    rfl
  have arrives : reader.bytes = Text.bytes "é\n\nx".toList := by decide
  have fine : ({} : Writer).NeverFails := ⟨nofun, nofun⟩
  obtain ⟨⟨answers, alike⟩, _⟩ :=
    consoles_agree program [] none 13 whole spelled steady arrives fine
  have buffered : stepTimes 13 { program, console := ({ lines := ["é", "", "x"] } : Buffer),
                                 stack := [], stepLimit := none } =
      (List.replicate 12 (.ok .next) ++ [.error .endOfInput],
        { program, console := { output := "é\n\nx\n" }, stack := [], ip := 1, steps := 13 }) := by
    decide +kernel
  rw [buffered] at answers alike
  refine ⟨steady, arrives, ?_, alike.ip_eq, alike.console.trans ByteArray.empty_append⟩
  exact congrArg List.getLast? answers

end Machine

end StackMachine
