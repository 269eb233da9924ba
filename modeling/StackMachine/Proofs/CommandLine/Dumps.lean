import StackMachine.CommandLine.Basic
import StackMachine.Proofs.Console.Reading
import StackMachine.Proofs.Machine.Consoles
import StackMachine.Proofs.Program.Expressible

/-!
# Dumps

What is dumped in front of a run is the program that is run, and it reads back as that program,
folded or not. So a file with a dump in it runs as the file did that the dump was made of. The dump
itself stands in front of the output and has no part in the run.
-/

namespace StackMachine

open StackMachine.Action Machine

/-! ## Output in front of a run -/

namespace Writer

variable {before : ByteArray}

def behind (before : ByteArray) (writer : Writer) : Writer :=
  { writer with delivered := before ++ writer.delivered }

theorem deliver_behind (bytes delivered : ByteArray) (writes : List (Option IoFailure)) :
    deliver bytes (before ++ delivered) writes =
      ((deliver bytes delivered writes).1, before ++ (deliver bytes delivered writes).2.1,
        (deliver bytes delivered writes).2.2) := by
  induction writes with
  | nil => simp [deliver, ByteArray.append_assoc]
  | cons outcome writes ih =>
    cases outcome with
    | none => simp [deliver, ByteArray.append_assoc]
    | some failure =>
      by_cases interrupted : failure.kind = .interrupted
      · simpa only [deliver, if_pos interrupted] using ih
      · simp only [deliver, if_neg interrupted]

theorem coupled_writeAll (text : String) :
    Coupled (fun ahead writer => ahead = writer.behind before) (writeAll text) (writeAll text) := by
  rintro _ writer rfl
  by_cases empty : text.isEmpty
  · simp [Action.run, ExceptT.run, StateT.run, writeAll, empty]
  · simp [Action.run, ExceptT.run, StateT.run, writeAll, empty, behind, deliver_behind]

theorem coupled_flush :
    Coupled (fun ahead writer => ahead = writer.behind before) flush flush := by
  rintro _ ⟨delivered, writes, flushes⟩ rfl
  cases flushes with
  | nil => exact ⟨rfl, rfl⟩
  | cons outcome flushes => cases outcome <;> exact ⟨rfl, rfl⟩

end Writer

namespace Stream

variable {before : ByteArray}

/-- The streams differ in what the first has delivered in front of what the second has. -/
structure Ahead (before : ByteArray) (ahead stream : Stream) : Prop where
  reader_eq : ahead.reader = stream.reader
  writer_eq : ahead.writer = stream.writer.behind before

theorem coupled_onWriter {α : Type} {action : Action IoFailure Writer α}
    (same : Coupled (fun ahead writer => ahead = writer.behind before) action action) :
    Coupled (Ahead before) (onWriter action) (onWriter action) := by
  rintro ahead stream ⟨reader_eq, writer_eq⟩
  obtain ⟨answer, kept⟩ := same ahead.writer stream.writer writer_eq
  exact ⟨congrArg (Except.mapError Fault.ofIo) answer, reader_eq, kept⟩

theorem coupled_onReader {α : Type} (action : Action IoFailure Reader α) :
    Coupled (Ahead before) (onReader action) (onReader action) := by
  rintro ⟨reader, writer⟩ stream ⟨rfl, writer_eq⟩
  exact ⟨rfl, rfl, writer_eq⟩

theorem alike_ahead (before : ByteArray) : Console.Alike (Ahead before) where
  readLine := by
    refine (coupled_onWriter Writer.coupled_flush).bind fun _ =>
      (coupled_onReader Reader.takeText).bind fun line => ?_
    by_cases ended : line.isEmpty
    · simp only [ended, if_true]
      exact coupled_throw _
    · simp only [ended]
      exact coupled_pure _
  write text :=
    (coupled_onWriter (Writer.coupled_writeAll text)).bind fun _ =>
      coupled_onWriter Writer.coupled_flush

end Stream

/-! ## Texts that spell a loaded program -/

theorem Config.load_of_loaded {config other : Config} {source text : String} {program : Program}
    (loaded : config.load source = .ok program)
    (spells : text = program.render ∨ text = program.render ++ "\n")
    (folds : other.foldConstants = true → config.foldConstants = true) :
    other.load text = .ok program := by
  have parsed : Program.parse text = .ok program := by
    have again := Program.parse_render (Program.isExpressible_of_load loaded)
    rcases spells with rfl | rfl
    · exact again
    · exact Program.parse_append_lineFeed again
  have prepared : other.prepare program = program := by
    rw [prepare]
    split
    · rename_i chosen
      obtain ⟨unfolded, _, rest⟩ := bind_eq_ok_iff.mp loaded
      rw [prepare, if_pos (folds chosen)] at rest
      rw [← Except.ok.inj rest, Program.fold_fold]
    · rfl
  exact bind_eq_ok_iff.mpr ⟨program, parsed, congrArg Except.ok prepared⟩

namespace CommandLine

/-! ## Reports -/

def Report.behind (text : String) (report : Report) : Report :=
  { report with output := text.toUTF8 ++ report.output }

variable {facilities : Facilities} {arguments : Arguments} {environment : Environment}
  {path source : String} {program : Program}

theorem Report.ofRun_ahead {text : String} {ending : Ending} {m n : Machine Stream}
    (alike : Alike (Stream.Ahead text.toUTF8) m n) :
    ofRun facilities arguments ending m = (ofRun facilities arguments ending n).behind text := by
  have delivered : m.console.writer.delivered = text.toUTF8 ++ n.console.writer.delivered :=
    congrArg Writer.delivered alike.console.writer_eq
  simp only [ofRun, alike.stack_eq, delivered]
  cases arguments.stack <;> cases ending <;> simp [behind, ByteArray.append_assoc]

theorem readSource_of_toUTF8 {text : String}
    (holds : environment.fileBytes path = .ok text.toUTF8) :
    readSource environment path = .ok text := by
  have valid : text.toUTF8.IsValidUTF8 := text.isValidUTF8
  have decoded : String.fromUTF8? text.toUTF8 = some text := by
    rw [String.fromUTF8?, dif_pos valid]
    rfl
  simp only [readSource, bind_eq_ok_iff]
  exact ⟨_, holds, by rw [decoded]; rfl⟩

def openedStream (environment : Environment) (dumped : String) : Stream :=
  { reader := [.chunk environment.input], writer := { delivered := dumped.toUTF8 } }

def reportBehind (facilities : Facilities) (dumped : String) (fuel : Nat) (arguments : Arguments)
    (environment : Environment) (program : Program) : Option Report :=
  ((Machine.start arguments.config program (openedStream environment dumped)).run fuel).map
    fun result => Report.ofRun facilities arguments result.1 result.2

theorem reportBehind_eq (dumped : String) (fuel : Nat) (arguments : Arguments)
    (environment : Environment) (program : Program) :
    reportBehind facilities dumped fuel arguments environment program =
      (reportBehind facilities "" fuel arguments environment program).map
        (Report.behind dumped) := by
  have ahead : Stream.Ahead dumped.toUTF8 (openedStream environment dumped)
      (openedStream environment "") :=
    ⟨rfl, congrArg (Writer.mk · [] []) ByteArray.append_empty.symm⟩
  have start : Alike (Stream.Ahead dumped.toUTF8)
      (Machine.start arguments.config program (openedStream environment dumped))
      (Machine.start arguments.config program (openedStream environment "")) :=
    ⟨rfl, rfl, rfl, rfl, rfl, ahead⟩
  have same := run_alike (Stream.alike_ahead dumped.toUTF8) fuel start
  unfold reportBehind
  generalize (Machine.start arguments.config program
    (openedStream environment dumped)).run fuel = left at same ⊢
  generalize (Machine.start arguments.config program
    (openedStream environment "")).run fuel = right at same ⊢
  cases same with
  | none => rfl
  | some agree =>
    obtain ⟨ending_eq, alike⟩ := agree
    simp only [Option.map_some, ending_eq, Report.ofRun_ahead alike]

theorem runFile_of_load (read : readSource environment path = .ok source)
    (loaded : arguments.config.load source = .ok program) (fuel : Nat) :
    runFile facilities fuel arguments environment path =
      reportBehind facilities (if arguments.dump then program.render ++ "\n" else "") fuel
        arguments environment program := by
  simp only [runFile, read, loaded, reportBehind, openedStream]
  split <;> rename_i ran <;> rw [ran] <;> rfl

/-- A file that holds a dump runs as the file did that was dumped: to the same report, whatever the
input, the limit and the listing that was asked for. It may be folded again if it was folded. -/
theorem dump_reproduces_run {holding : Environment} {copy text : String}
    (read : readSource environment path = .ok source)
    (loaded : arguments.config.load source = .ok program)
    (spells : text = program.render ∨ text = program.render ++ "\n")
    (holds : holding.fileBytes copy = .ok text.toUTF8)
    (input_eq : holding.input = environment.input) (fuel : Nat) :
    runFile facilities fuel { arguments with dump := true } environment path =
      (runFile facilities fuel { arguments with dump := false } environment path).map
        (Report.behind (program.render ++ "\n")) ∧
    ∀ noFold dump, noFold = true ∨ arguments.noFold = false →
      runFile facilities fuel { arguments with noFold, dump } holding copy =
        runFile facilities fuel { arguments with dump } environment path := by
  have plain (dump : Bool) : runFile facilities fuel { arguments with dump } environment path =
      reportBehind facilities (if dump then program.render ++ "\n" else "") fuel arguments
        environment program := by
    refine (runFile_of_load read ?_ fuel).trans rfl
    exact loaded
  constructor
  · rw [plain, plain]
    exact reportBehind_eq _ fuel arguments environment program
  · intro noFold dump folds
    let other : Arguments := { arguments with noFold, dump }
    have chosen : other.config.foldConstants = true → arguments.config.foldConstants = true := by
      rcases folds with rfl | kept
      · nofun
      · intro _
        simp [Arguments.config, kept]
    have loaded' : other.config.load text = .ok program :=
      Config.load_of_loaded loaded spells chosen
    rw [plain, runFile_of_load (readSource_of_toUTF8 holds) loaded' fuel]
    unfold reportBehind openedStream
    rw [input_eq]
    rfl

theorem dump_reproduces_run_failing :
    let arguments : Arguments := { stepLimit := some 9, stack := true }
    let environment : Environment :=
      { fileBytes := fun _ => .ok "'a\"b' println 2 3 + read 1 0 /".toUTF8
        input := Text.bytes "x\n".toList
        terminalKind := none }
    let holding : Environment :=
      { environment with fileBytes := fun _ => .ok "'a\"b' println 5 read 1 0 /\n".toUTF8 }
    ∃ report,
      runFile .standard 9 arguments environment "source" = some report ∧ report.exitCode = 1 ∧
      runFile .standard 9 { arguments with noFold := true } holding "copy" = some report ∧
      runFile .standard 9 arguments holding "copy" = some report ∧
      runFile .standard 9 { arguments with dump := true } holding "copy" =
        some (report.behind "'a\"b' println 5 read 1 0 /\n") := by
  intro arguments environment holding
  let written := Program.ofList [.literal (.text "a\"b"), .op .println, .literal (.int 2),
    .literal (.int 3), .op (.arith .add), .op .read, .literal (.int 1), .literal (.int 0),
    .op (.arith .div)]
  let program := Program.ofList [.literal (.text "a\"b"), .op .println, .literal (.int 5),
    .op .read, .literal (.int 1), .literal (.int 0), .op (.arith .div)]
  have source : written.render = "'a\"b' println 2 3 + read 1 0 /" := by decide +kernel
  have dump : program.render ++ "\n" = "'a\"b' println 5 read 1 0 /\n" := by decide +kernel
  have parsed : Program.parse "'a\"b' println 2 3 + read 1 0 /" = .ok written := by
    rw [← source]
    apply Program.parse_render
    simp [written, Program.IsExpressible, Program.ofList, Program.toList, Element.IsExpressible]
  have folded : arguments.config.prepare written = program := by decide +kernel
  have loaded : arguments.config.load "'a\"b' println 2 3 + read 1 0 /" = .ok program :=
    bind_eq_ok_iff.mpr ⟨written, parsed, congrArg Except.ok folded⟩
  have read : readSource environment "source" = .ok "'a\"b' println 2 3 + read 1 0 /" :=
    readSource_of_toUTF8 rfl
  have holds : holding.fileBytes "copy" = .ok "'a\"b' println 5 read 1 0 /\n".toUTF8 := rfl
  obtain ⟨dumps, reproduces⟩ := dump_reproduces_run read loaded (.inr dump.symm) holds rfl 9
  rw [dump] at dumps
  have failed : (runFile .standard 9 arguments environment "source").map Report.exitCode = some 1 := by
    rw [runFile_of_load read loaded]
    decide +kernel
  obtain ⟨report, ran, code⟩ := Option.map_eq_some_iff.mp failed
  refine ⟨report, ran, code, ?_, ?_, ?_⟩
  · exact (reproduces true false (.inl rfl)).trans ran
  · exact (reproduces false false (.inr rfl)).trans ran
  · exact (reproduces false true (.inr rfl)).trans (dumps.trans (congrArg _ ran))

end CommandLine

end StackMachine
