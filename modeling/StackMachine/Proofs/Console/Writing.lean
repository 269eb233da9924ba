import StackMachine.Proofs.Console.Streams

/-!
# Output through streams

What the calls to a stream ask of the device behind its writer, request by request. A text is
written until the device takes it or fails for another reason than an interruption, and then there
is one flush, which is not tried again. So every text reaches the device once, in the order of the
calls, or its call answers the failure that kept it back.
-/

namespace StackMachine

open StackMachine.Action

theorem Fault.ofIo_eq_interrupted_iff {failure : IoFailure} :
    ofIo failure = .interrupted ↔ failure.kind = .interrupted := by
  unfold ofIo
  split <;> simp_all

/-! ## Devices -/

namespace Writer

/-- A request to the device behind a writer, with the failure if it was not carried out. -/
inductive Request where
  | write (text : String) (failure : Option IoFailure)
  | flush (failure : Option IoFailure)
deriving DecidableEq, Repr

def Request.text? : Request → Option String
  | write text none => some text
  | _ => none

/-- The outcome that comes next. Where none is laid down the request succeeds. -/
def next (outcomes : List (Option IoFailure)) : Option IoFailure :=
  outcomes.head?.join

/-- The device goes by the next outcome. It takes all of a text or nothing. -/
inductive Handles (writer : Writer) : Request → Writer → Prop
  | taken {text : String} (due : next writer.writes = none) :
      Handles writer (.write text none)
        { writer with
          delivered := writer.delivered ++ text.toUTF8
          writes := writer.writes.tail }
  | refused {text : String} {failure : IoFailure} (due : next writer.writes = some failure) :
      Handles writer (.write text (some failure)) { writer with writes := writer.writes.tail }
  | flush {failure : Option IoFailure} (due : next writer.flushes = failure) :
      Handles writer (.flush failure) { writer with flushes := writer.flushes.tail }

inductive History : Writer → List Request → Writer → Prop
  | nil (writer : Writer) : History writer [] writer
  | cons {writer between after : Writer} {request : Request} {requests : List Request}
      (first : Handles writer request between) (rest : History between requests after) :
      History writer (request :: requests) after

theorem History.append {writer between after : Writer} {requests more : List Request}
    (first : History writer requests between) (rest : History between more after) :
    History writer (requests ++ more) after := by
  induction first with
  | nil => exact rest
  | cons handled _ ih => exact .cons handled (ih rest)

theorem History.delivered_eq {writer after : Writer} {requests : List Request}
    (history : History writer requests after) :
    after.delivered =
      writer.delivered ++ (String.join (requests.filterMap Request.text?)).toUTF8 := by
  induction history with
  | nil => exact ByteArray.append_empty.symm
  | @cons writer _ _ _ requests first _ ih =>
    rw [ih]
    cases first with
    | @taken text _ =>
      have cut : (String.join (text :: requests.filterMap Request.text?)).toUTF8 =
          text.toUTF8 ++ (String.join (requests.filterMap Request.text?)).toUTF8 := by
        rw [String.join_cons]
        exact String.toByteArray_append
      exact ByteArray.append_assoc.trans (congrArg (writer.delivered ++ ·) cut.symm)
    | refused => rfl
    | flush => rfl

def Request.IsInterrupted (text : String) (request : Request) : Prop :=
  ∃ failure : IoFailure, failure.kind = .interrupted ∧ request = .write text (some failure)

def answer : Option IoFailure → Except IoFailure Unit
  | none => .ok ()
  | some failure => .error failure

theorem exists_tries (text : String) (delivered : ByteArray)
    (writes flushes : List (Option IoFailure)) :
    ∃ tried failure after,
      (∀ request ∈ tried, request.IsInterrupted text) ∧
      (∀ final ∈ failure, final.kind ≠ .interrupted) ∧
      History { delivered, writes, flushes } (tried ++ [.write text failure]) after ∧
      deliver text.toUTF8 delivered writes = (answer failure, after.delivered, after.writes) ∧
      after.flushes = flushes := by
  -- each interruption uses up one outcome and leaves the device as it was for the next try
  induction writes with
  | nil =>
    exact ⟨[], none, _, by simp, by simp, .cons (.taken rfl) (.nil _), rfl, rfl⟩
  | cons outcome writes ih =>
    cases outcome with
    | none => exact ⟨[], none, _, by simp, by simp, .cons (.taken rfl) (.nil _), rfl, rfl⟩
    | some failure =>
      by_cases interrupted : failure.kind = .interrupted
      · obtain ⟨tried, failure', after, again, final, history, delivers, kept⟩ := ih
        refine ⟨.write text (some failure) :: tried, failure', after, ?_, final,
          .cons (.refused rfl) history, ?_, kept⟩
        · intro request member
          rcases List.mem_cons.mp member with rfl | member
          · exact ⟨failure, interrupted, rfl⟩
          · exact again request member
        · rw [deliver, if_pos interrupted, delivers]
      · refine ⟨[], some failure, _, by simp, by simpa using interrupted,
          .cons (.refused rfl) (.nil _), ?_, rfl⟩
        rw [deliver, if_neg interrupted]
        rfl

theorem exists_history_writeAll {text : String} (filled : text ≠ "") (writer : Writer) :
    ∃ tried failure after,
      (∀ request ∈ tried, request.IsInterrupted text) ∧
      (∀ final ∈ failure, final.kind ≠ .interrupted) ∧
      History writer (tried ++ [.write text failure]) after ∧
      (writeAll text).run writer = (answer failure, after) := by
  obtain ⟨delivered, writes, flushes⟩ := writer
  obtain ⟨tried, failure, after, again, final, history, delivers, rfl⟩ :=
    exists_tries text delivered writes flushes
  refine ⟨tried, failure, after, again, final, history, ?_⟩
  rw [run_writeAll_of_filled filled, delivers]

theorem run_flush_eq (writer : Writer) :
    flush.run writer =
      (answer (next writer.flushes), { writer with flushes := writer.flushes.tail }) := by
  obtain ⟨delivered, writes, flushes⟩ := writer
  cases flushes with
  | nil => rfl
  | cons outcome flushes => cases outcome <;> rfl

end Writer

/-! ## Calls -/

namespace Stream

inductive Call where
  | write (text : String)
  | readLine
deriving DecidableEq, Repr

def serve : Call → Action Fault Stream Unit
  | .write text => write text
  | .readLine => do
    let _ ← readLine

def serveAll : List Call → Stream → List (Except Fault Unit) × Stream
  | [], stream => ([], stream)
  | call :: calls, stream =>
    let (answer, between) := (serve call).run stream
    let (answers, after) := serveAll calls between
    (answer :: answers, after)

theorem serveAll_cons (call : Call) (calls : List Call) (stream : Stream) :
    serveAll (call :: calls) stream =
      (((serve call).run stream).1 :: (serveAll calls ((serve call).run stream).2).1,
        (serveAll calls ((serve call).run stream).2).2) := rfl

def report (failure : Option IoFailure) : Except Fault Unit :=
  (Writer.answer failure).mapError .ofIo

/-- What a call asks of the device, and what it answers to that. Only writes are tried again, and
where a write fails there is no flush. -/
inductive Course : Call → List Writer.Request → Except Fault Unit → Prop
  | written {text : String} {tried : List Writer.Request} {failure : Option IoFailure}
      (filled : text ≠ "") (again : ∀ request ∈ tried, request.IsInterrupted text) :
      Course (.write text) (tried ++ [.write text none, .flush failure]) (report failure)
  | refused {text : String} {tried : List Writer.Request} {failure : IoFailure}
      (filled : text ≠ "") (again : ∀ request ∈ tried, request.IsInterrupted text)
      (final : failure.kind ≠ .interrupted) :
      Course (.write text) (tried ++ [.write text (some failure)]) (report (some failure))
  | empty {failure : Option IoFailure} : Course (.write "") [.flush failure] (report failure)
  | unflushed {failure : IoFailure} :
      Course .readLine [.flush (some failure)] (report (some failure))
  | read {answer : Except Fault Unit} : Course .readLine [.flush none] answer

theorem state_serve_readLine (stream : Stream) :
    ((serve .readLine).run stream).2 = (readLine.run stream).2 := by
  rw [serve, run_bind]
  cases readLine.run stream with
  | mk answer after => cases answer <;> rfl

theorem exists_course (call : Call) (stream : Stream) :
    ∃ requests, Course call requests ((serve call).run stream).1 ∧
      Writer.History stream.writer requests ((serve call).run stream).2.writer := by
  obtain ⟨reader, writer⟩ := stream
  cases call with
  | write text =>
    by_cases filled : text = ""
    · subst filled
      have skipped : (Writer.writeAll "").run writer = (.ok (), writer) := rfl
      have ran : (serve (.write "")).run ⟨reader, writer⟩ =
          (report (Writer.next writer.flushes),
            ⟨reader, { writer with flushes := writer.flushes.tail }⟩) := by
        simp [serve, write, run_bind, onWriter, skipped, Writer.run_flush_eq, report]
      rw [ran]
      exact ⟨_, .empty, .cons (.flush rfl) (.nil _)⟩
    · obtain ⟨tried, failure, written, again, final, history, writes⟩ :=
        Writer.exists_history_writeAll filled writer
      cases failure with
      | none =>
        have ran : (serve (.write text)).run ⟨reader, writer⟩ =
            (report (Writer.next written.flushes),
              ⟨reader, { written with flushes := written.flushes.tail }⟩) := by
          simp [serve, write, run_bind, onWriter, writes, Writer.run_flush_eq, report,
            Writer.answer]
        rw [ran]
        refine ⟨_, .written filled again, ?_⟩
        simpa using history.append (.cons (.flush rfl) (.nil _))
      | some failure =>
        have ran : (serve (.write text)).run ⟨reader, writer⟩ =
            (report (some failure), ⟨reader, written⟩) := by
          simp [serve, write, run_bind, onWriter, writes, report, Writer.answer, Except.mapError]
        rw [ran]
        exact ⟨_, .refused filled again (final failure rfl), history⟩
  | readLine =>
    have flushes := Writer.run_flush_eq writer
    cases due : Writer.next writer.flushes with
    | none =>
      rw [due] at flushes
      have left : ((serve .readLine).run ⟨reader, writer⟩).2.writer =
          { writer with flushes := writer.flushes.tail } := by
        have read : readLine.run ⟨reader, writer⟩ = _ := run_readLine_of_flushed flushes rfl
        rw [state_serve_readLine, read]
      rw [left]
      exact ⟨_, .read, .cons (.flush due) (.nil _)⟩
    | some failure =>
      rw [due] at flushes
      have ran : (serve .readLine).run ⟨reader, writer⟩ =
          (report (some failure), ⟨reader, { writer with flushes := writer.flushes.tail }⟩) := by
        simp [serve, readLine, run_bind, onWriter, flushes, report, Writer.answer, Except.mapError]
      rw [ran]
      exact ⟨_, .unflushed, .cons (.flush due) (.nil _)⟩

structure Entry where
  call : Call
  requests : List Writer.Request
  answer : Except Fault Unit

def Entry.text? (entry : Entry) : Option String :=
  match entry.call with
  | .write text => if .write text none ∈ entry.requests then some text else none
  | .readLine => none

theorem texts_of_interrupted {text : String} {tried : List Writer.Request}
    (again : ∀ request ∈ tried, request.IsInterrupted text) :
    tried.filterMap Writer.Request.text? = [] ∧ .write text none ∉ tried := by
  refine ⟨List.filterMap_eq_nil_iff.mpr fun request member => ?_, fun member => ?_⟩
  · obtain ⟨failure, _, rfl⟩ := again request member
    rfl
  · obtain ⟨failure, _, equal⟩ := again _ member
    cases equal

theorem Course.texts_eq {entry : Entry} (course : Course entry.call entry.requests entry.answer) :
    entry.requests.filterMap Writer.Request.text? = entry.text?.toList := by
  obtain ⟨call, requests, answer⟩ := entry
  cases course with
  | written _ again =>
    obtain ⟨none, _⟩ := texts_of_interrupted again
    simp [Entry.text?, Writer.Request.text?, none]
  | refused _ again =>
    obtain ⟨none, untaken⟩ := texts_of_interrupted again
    simp [Entry.text?, Writer.Request.text?, none, untaken]
  | empty => rfl
  | unflushed => rfl
  | read => rfl

theorem texts_eq {log : List Entry}
    (courses : ∀ entry ∈ log, Course entry.call entry.requests entry.answer) :
    (log.flatMap Entry.requests).filterMap Writer.Request.text? = log.filterMap Entry.text? := by
  induction log with
  | nil => rfl
  | cons entry log ih =>
    obtain ⟨course, courses'⟩ := List.forall_mem_cons.mp courses
    rw [List.flatMap_cons, List.filterMap_append, course.texts_eq, ih courses']
    cases taken : entry.text? with
    | none => rw [List.filterMap_cons_none taken]; rfl
    | some text => rw [List.filterMap_cons_some taken]; rfl

theorem exists_log (calls : List Call) (stream : Stream) :
    ∃ log : List Entry, log.map Entry.call = calls ∧
      log.map Entry.answer = (serveAll calls stream).1 ∧
      (∀ entry ∈ log, Course entry.call entry.requests entry.answer) ∧
      Writer.History stream.writer (log.flatMap Entry.requests)
        (serveAll calls stream).2.writer := by
  induction calls generalizing stream with
  | nil => exact ⟨[], rfl, rfl, nofun, .nil _⟩
  | cons call calls ih =>
    obtain ⟨requests, course, first⟩ := exists_course call stream
    obtain ⟨log, called, answered, courses, rest⟩ := ih ((serve call).run stream).2
    refine ⟨⟨call, requests, ((serve call).run stream).1⟩ :: log, ?_, ?_, ?_, first.append rest⟩
    · rw [List.map_cons, called]
    · rw [List.map_cons, answered, serveAll_cons]
    · exact List.forall_mem_cons.mpr ⟨course, courses⟩

/-- However the writes and the flushes of the device turn out, each call keeps to its course, and
what the device has taken is the texts of the calls that were written, each once and in order. -/
theorem output_exact (calls : List Call) (stream : Stream) :
    (∀ failure, Fault.ofIo failure = .interrupted ↔ failure.kind = .interrupted) ∧
    ∃ log : List Entry, log.map Entry.call = calls ∧
      log.map Entry.answer = (serveAll calls stream).1 ∧
      (∀ entry ∈ log, Course entry.call entry.requests entry.answer) ∧
      Writer.History stream.writer (log.flatMap Entry.requests)
        (serveAll calls stream).2.writer ∧
      (serveAll calls stream).2.writer.delivered =
        stream.writer.delivered ++ (String.join (log.filterMap Entry.text?)).toUTF8 := by
  refine ⟨fun _ => Fault.ofIo_eq_interrupted_iff, ?_⟩
  obtain ⟨log, called, answered, courses, history⟩ := exists_log calls stream
  refine ⟨log, called, answered, courses, history, ?_⟩
  rw [history.delivered_eq, texts_eq courses]

theorem output_exact_interrupted :
    let again : IoFailure := { kind := .interrupted, message := "again" }
    let full : IoFailure := { kind := .other, message := "disk full" }
    let stream : Stream := { writer := {
      writes := [some again, some again, none, some full]
      flushes := [none, some again, some full] } }
    let calls : List Call := [.write "a", .write "", .write "b", .readLine, .write "é"]
    ∃ log : List Entry, log.map Entry.call = calls ∧
      log.map Entry.answer = (serveAll calls stream).1 ∧
      (serveAll calls stream).1 = [.ok (), .error .interrupted, .error (.io "disk full"),
        .error (.io "disk full"), .ok ()] ∧
      Writer.History stream.writer (log.flatMap Entry.requests)
        (serveAll calls stream).2.writer ∧
      String.join (log.filterMap Entry.text?) = "aé" := by
  intro again full stream calls
  obtain ⟨log, called, answered, _, history, delivered⟩ := (output_exact calls stream).2
  refine ⟨log, called, answered, by decide +kernel, history, String.toByteArray_inj.mp ?_⟩
  rw [← String.toUTF8_eq_toByteArray, ← ByteArray.empty_append (b := String.toUTF8 _)]
  exact delivered.symm.trans (by decide +kernel)

end Stream

end StackMachine
