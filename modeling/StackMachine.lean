import StackMachine.Main
import StackMachine.Console.Buffer
import StackMachine.Proofs.Machine.Operations
import StackMachine.Proofs.Machine.Coupling
import StackMachine.Proofs.Machine.StraightLine
import StackMachine.Proofs.Machine.Sequence
import StackMachine.Proofs.Folding.Replacement
import StackMachine.Proofs.Machine.Consoles
import StackMachine.Proofs.Folding.Runs
import StackMachine.Proofs.Source.Reading
import StackMachine.Proofs.Source.Tokenizing
import StackMachine.Proofs.Source.Grammar
import StackMachine.Proofs.Source.Joining
import StackMachine.Proofs.Program.Parsing
import StackMachine.Proofs.Program.Expressible
import StackMachine.Proofs.Machine.Steps
import StackMachine.Proofs.Machine.StepLimit
import StackMachine.Proofs.Folding.Limits
import StackMachine.Proofs.Machine.Frame
import StackMachine.Proofs.Console.Reading
import StackMachine.Proofs.Machine.Faults
import StackMachine.Proofs.Session.PartialLines
import StackMachine.Proofs.Session.Editing
import StackMachine.Proofs.Session.Consoles
import StackMachine.Proofs.Session.Replay
import StackMachine.Proofs.CommandLine.Sessions
import StackMachine.Proofs.Machine.StackDepth
import StackMachine.Proofs.Console.Streams
import StackMachine.Proofs.Machine.Uses
import StackMachine.Proofs.Arithmetic.Exact
import StackMachine.Proofs.Machine.Operands
import StackMachine.Proofs.Folding.Expressions
import StackMachine.Proofs.CommandLine.Dumps
import StackMachine.Proofs.Program.Literals
import StackMachine.Proofs.Console.Pieces
import StackMachine.Proofs.Machine.Fetches
import StackMachine.Proofs.Arithmetic.Repetition
import StackMachine.Proofs.Console.Writing
import StackMachine.Proofs.Machine.Halting
import StackMachine.Proofs.Program.Loading
import StackMachine.Proofs.Machine.Listings
