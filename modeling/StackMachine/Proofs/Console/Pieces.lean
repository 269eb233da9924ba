import Mathlib.Data.List.SplitBy
import StackMachine.Proofs.Console.Streams

/-!
# Lines of bytes

A stream hands out the bytes of its reader piece by piece, each up to the next line feed. However
the bytes arrive, one call takes one piece, also where the piece is no text, so what stands behind
it is read as if nothing had happened.
-/

namespace StackMachine

open StackMachine.Action

/-! ## Pieces -/

namespace Reader

/-- The bytes cut behind every line feed. -/
def pieces (bytes : List UInt8) : List (List UInt8) :=
  bytes.splitBy fun b _ => b != lineFeed

theorem flatten_pieces (bytes : List UInt8) : (pieces bytes).flatten = bytes :=
  List.flatten_splitBy _ bytes

theorem ne_nil_of_mem_pieces {bytes piece : List UInt8} (member : piece ∈ pieces bytes) :
    piece ≠ [] :=
  List.ne_nil_of_mem_splitBy member

theorem pieces_of_unended {line : List UInt8} (some : line ≠ [])
    (inside : ∀ b ∈ line.dropLast, b != lineFeed) : pieces line = [line] := by
  refine List.splitBy_of_isChain some (List.isChain_iff_forall_rel_of_append_cons_cons.mpr ?_)
  rintro b next front back rfl
  exact inside b (by simp)

theorem pieces_append_lineFeed {line : List UInt8} (inside : ∀ b ∈ line, b != lineFeed)
    (rest : List UInt8) :
    pieces (line ++ lineFeed :: rest) = (line ++ [lineFeed]) :: pieces rest := by
  have first : pieces (line ++ [lineFeed]) = [line ++ [lineFeed]] :=
    pieces_of_unended (by simp) (by simpa using inside)
  have cut : pieces (line ++ [lineFeed] ++ rest) = pieces (line ++ [lineFeed]) ++ pieces rest :=
    List.splitBy_append (by simp)
  rw [first] at cut
  simpa using cut

theorem pieces_of_ne_nil {bytes : List UInt8} (some : bytes ≠ []) :
    pieces bytes =
      (bytes.takeWhile (· != lineFeed) ++ (bytes.dropWhile (· != lineFeed)).take 1) ::
        pieces ((bytes.dropWhile (· != lineFeed)).drop 1) := by
  have whole := List.takeWhile_append_dropWhile (p := (· != lineFeed)) (l := bytes)
  have inside : ∀ b ∈ bytes.takeWhile (· != lineFeed), b != lineFeed :=
    fun b member => List.mem_takeWhile_imp (p := (· != lineFeed)) member
  have stops := List.head?_dropWhile_not (· != lineFeed) bytes
  generalize bytes.takeWhile (· != lineFeed) = line at whole inside
  generalize bytes.dropWhile (· != lineFeed) = back at whole stops
  subst whole
  cases back with
  | nil =>
    rw [List.append_nil] at some
    simp only [List.append_nil, List.take_nil, List.drop_nil]
    exact pieces_of_unended some fun b member => inside b (List.dropLast_subset _ member)
  | cons feed rest =>
    obtain rfl : feed = lineFeed := by simpa using stops
    exact pieces_append_lineFeed inside rest

end Reader

theorem Text.takeLine_of_bytes {cs : List Char} {bytes : List UInt8}
    (taken : Text.bytes cs = bytes.takeWhile (· != Reader.lineFeed) ++
      (bytes.dropWhile (· != Reader.lineFeed)).take 1) : takeLine cs = cs := by
  have inside : ∀ b ∈ bytes.takeWhile (· != Reader.lineFeed), b != Reader.lineFeed :=
    fun b member => List.mem_takeWhile_imp (p := (· != Reader.lineFeed)) member
  have stops := List.head?_dropWhile_not (· != Reader.lineFeed) bytes
  have left := (bytes_takeLine cs).2
  rw [taken, List.dropWhile_append_of_pos inside] at left
  have none : Text.bytes (behindLine cs) = [] := by
    rw [left]
    cases back : bytes.dropWhile (· != Reader.lineFeed) with
    | nil => rfl
    | cons feed rest =>
      rw [back] at stops
      obtain rfl : feed = Reader.lineFeed := by simpa using stops
      rfl
  have whole := takeLine_append_behindLine cs
  rwa [eq_nil_of_bytes_eq_nil none, List.append_nil] at whole

/-! ## Calls -/

namespace Stream

inductive Answers : Option (List UInt8) → Except Fault String → Prop
  | line {line text : List Char} (first : Text.IsFirstLine line text) :
      Answers (some (Text.bytes text)) (.ok (String.ofList line))
  | notText {piece : List UInt8} (other : ∀ text, piece ≠ Text.bytes text) :
      Answers (some piece) (.error (.io "stream did not contain valid UTF-8"))
  | endOfInput : Answers none (.error .endOfInput)

theorem answers_none_iff {answer : Except Fault String} :
    Answers none answer ↔ answer = .error .endOfInput := by
  constructor
  · rintro ⟨⟩
    rfl
  · rintro rfl
    exact .endOfInput

theorem answers_some_iff {piece : List UInt8} {answer : Except Fault String} :
    Answers (some piece) answer ↔
      answer = match Reader.text? piece with
        | some text => .ok (String.ofList (Text.firstLine text.toList))
        | none => .error (.ofIo .notText) := by
  constructor
  · rintro (⟨first⟩ | ⟨other⟩)
    · rw [Reader.text?_bytes, Text.isFirstLine_iff.mp first]
      simp
    · rw [Reader.text?_eq_none_iff.mpr other]
      rfl
  · rintro rfl
    cases decoded : Reader.text? piece with
    | some text =>
      rw [Reader.text?_eq_some_iff.mp decoded]
      exact .line (Text.isFirstLine_iff.mpr rfl)
    | none => exact .notText (Reader.text?_eq_none_iff.mp decoded)

theorem Answers.unique {piece : Option (List UInt8)} {answer answer' : Except Fault String}
    (answers : Answers piece answer) (answers' : Answers piece answer') : answer = answer' := by
  cases piece with
  | none => rw [answers_none_iff.mp answers, answers_none_iff.mp answers']
  | some piece => rw [answers_some_iff.mp answers, answers_some_iff.mp answers']

/-- Nothing but interruptions disturbs the reading, and no flush fails. -/
structure IsSteady (stream : Stream) : Prop where
  reader : stream.reader.IsSteady
  flushes : ∀ outcome ∈ stream.writer.flushes, outcome = none

theorem run_readLine_of_isSteady {stream : Stream} (steady : stream.IsSteady) :
    ∃ answer after, readLine.run stream = (answer, after) ∧
      Answers (Reader.pieces stream.reader.bytes).head? answer ∧
      Reader.pieces after.reader.bytes = (Reader.pieces stream.reader.bytes).tail ∧
      after.IsSteady ∧ after.writer.delivered = stream.writer.delivered := by
  obtain ⟨flushes, flushed, fine⟩ := Writer.run_flush_of_fine steady.flushes
  obtain ⟨rest, taken, behind, steady'⟩ := Reader.run_takeText_of_isSteady steady.reader
  refine ⟨_, _, run_readLine_of_flushed flushed taken, ?_, ?_, ⟨steady', fine⟩, rfl⟩
  · by_cases unread : stream.reader.bytes = []
    · rw [unread]
      exact .endOfInput
    have some : ∀ piece ∈ Reader.pieces stream.reader.bytes, piece ≠ [] :=
      fun _ => Reader.ne_nil_of_mem_pieces
    rw [Reader.pieces_of_ne_nil unread] at some ⊢
    rw [List.head?_cons, answers_some_iff]
    cases decoded : Reader.text? _ with
    | none => rfl
    | some text =>
      have spelled := Reader.text?_eq_some_iff.mp decoded
      have filled : text ≠ "" := by
        rintro rfl
        exact some _ List.mem_cons_self spelled
      simp [Except.bind, filled, Text.firstLine, Text.takeLine_of_bytes spelled.symm]
  · rw [behind]
    by_cases unread : stream.reader.bytes = []
    · rw [unread]
      rfl
    · rw [Reader.pieces_of_ne_nil unread, List.tail_cons]

def afterReads : Nat → Stream → Stream
  | 0, stream => stream
  | k + 1, stream => afterReads k (readLine.run stream).2

theorem afterReads_of_isSteady {stream : Stream} (steady : stream.IsSteady) (k : Nat) :
    (afterReads k stream).IsSteady ∧
      Reader.pieces (afterReads k stream).reader.bytes =
        (Reader.pieces stream.reader.bytes).drop k ∧
      (afterReads k stream).writer.delivered = stream.writer.delivered := by
  induction k generalizing stream with
  | zero => exact ⟨steady, rfl, rfl⟩
  | succ k ih =>
    obtain ⟨answer, after, ran, _, left, steady', kept⟩ := run_readLine_of_isSteady steady
    obtain ⟨steady'', left', kept'⟩ := ih steady'
    rw [afterReads, ran, left', kept', left, kept, List.drop_tail]
    exact ⟨steady'', rfl, rfl⟩

/-- However the bytes arrive, each call answers for its own piece and takes that piece, also where
it is no text, and behind the last piece is the end of the input. A call whose flush fails takes
nothing. -/
theorem readLine_piece_by_piece (stream : Stream) :
    (stream.IsSteady → ∀ k,
      let pieces := Reader.pieces stream.reader.bytes
      let before := stream.afterReads k
      let after := (readLine.run before).2
      (∀ answer, (readLine.run before).1 = answer ↔ Answers pieces[k]? answer) ∧
        before.reader.bytes = (pieces.drop k).flatten ∧
        after.reader.bytes = (pieces.drop (k + 1)).flatten ∧
        after.writer.delivered = stream.writer.delivered) ∧
    ∀ failure flushes, stream.writer.flushes = some failure :: flushes →
      readLine.run stream =
        (.error (.ofIo failure), { stream with writer := { stream.writer with flushes } }) := by
  refine ⟨fun steady k => ?_, fun failure flushes fails => ?_⟩
  · obtain ⟨steady', reached, kept⟩ := afterReads_of_isSteady steady k
    obtain ⟨answer, after, ran, answers, left, _, kept'⟩ := run_readLine_of_isSteady steady'
    rw [reached, List.head?_drop] at answers
    rw [reached, List.tail_drop] at left
    dsimp only
    rw [ran, ← left, ← reached, Reader.flatten_pieces, Reader.flatten_pieces]
    refine ⟨fun answer' => ⟨?_, answers.unique⟩, rfl, rfl, kept'.trans kept⟩
    rintro rfl
    exact answers
  · have failed : Writer.flush.run stream.writer =
        (.error failure, { stream.writer with flushes }) := by
      simp [Writer.flush, Action.run, ExceptT.run, StateT.run, fails]
    simp [readLine, run_bind, onWriter, failed, Except.mapError]

theorem readLine_piece_by_piece_resumed :
    let again : IoFailure := { kind := .interrupted, message := "again" }
    let full : IoFailure := { kind := .other, message := "disk full" }
    let stream : Stream := {
      reader := [.chunk [0xC3], .failure again, .chunk [0xA9, 0x0D], .chunk [0x0A, 0xFF],
        .failure again, .chunk [0x0A, 0x0D, 0x78]]
      writer := { flushes := [none, none] } }
    let failing : Stream := { stream with writer := { flushes := [some full, none] } }
    (readLine.run stream).1 = .ok "é" ∧
      (readLine.run (stream.afterReads 1)).1 =
        .error (.io "stream did not contain valid UTF-8") ∧
      (readLine.run (stream.afterReads 2)).1 = .ok "\rx" ∧
      (readLine.run (stream.afterReads 7)).1 = .error .endOfInput ∧
      (stream.afterReads 2).reader.bytes = [0x0D, 0x78] ∧
      readLine.run failing =
        (.error (.io "disk full"), { stream with writer := { flushes := [none] } }) := by
  intro again full stream failing
  have steady : stream.IsSteady := by
    refine ⟨?_, by simp [stream]⟩
    intro failure member
    obtain rfl : failure = again := by simpa [stream] using member
    rfl
  have pieces : Reader.pieces stream.reader.bytes =
      [Text.bytes "é\r\n".toList, [0xFF, 0x0A], Text.bytes "\rx".toList] := by decide
  have reads := (readLine_piece_by_piece stream).1 steady
  rw [pieces] at reads
  have first : Text.IsFirstLine ['é'] "é\r\n".toList := .both (by simp)
  have last : Text.IsFirstLine ['\r', 'x'] "\rx".toList := .whole (by simp)
  have invalid : ∀ text, [0xFF, 0x0A] ≠ Text.bytes text :=
    Reader.text?_eq_none_iff.mp (by decide +kernel)
  exact ⟨((reads 0).1 _).mpr (.line first), ((reads 1).1 _).mpr (.notText invalid),
    ((reads 2).1 _).mpr (.line last), ((reads 7).1 _).mpr .endOfInput, (reads 2).2.1,
    (readLine_piece_by_piece failing).2 full [none] rfl⟩

end Stream

end StackMachine
