import StackMachine.Config

/-!
# Arguments

What the arguments of the program ask for, if they can be accepted. They are read from left to
right. What is said of arguments that cannot be accepted is left out.
-/

namespace StackMachine.CommandLine

structure Arguments where
  file : Option String := none
  noFold : Bool := false
  stepLimit : Option Nat := none
  dump : Bool := false
  stack : Bool := false
deriving DecidableEq, Repr

def Arguments.config (arguments : Arguments) : Config :=
  { foldConstants := !arguments.noFold, stepLimit := arguments.stepLimit }

inductive Request where
  | run (arguments : Arguments)
  | version
deriving DecidableEq, Repr

/-- Digits behind at most a plus sign, for a number of 64 bits. -/
def stepLimit? (value : String) : Option Nat :=
  let digits := match value.toList with
    | '+' :: cs => cs
    | cs => cs
  (Decimal.natural? digits).filter (· < UInt64.size)

namespace Arguments

def addFile (arguments : Arguments) (path : String) : Option Arguments :=
  if path.isEmpty || arguments.file.isSome then none
  else some { arguments with file := some path }

def addStepLimit (arguments : Arguments) (value : String) : Option Arguments :=
  if arguments.stepLimit.isSome then none
  else (stepLimit? value).map fun limit => { arguments with stepLimit := some limit }

def addFlag (arguments : Arguments) (flag : String) : Option Arguments :=
  match flag with
  | "--no-fold" => if arguments.noFold then none else some { arguments with noFold := true }
  | "--dump" => if arguments.dump then none else some { arguments with dump := true }
  | "--stack" => if arguments.stack then none else some { arguments with stack := true }
  | "--verbose" => some arguments
  | _ => none

end Arguments

/-- Whether short flags, written together, ask for the version. The others ask for a log and
may be given any number of times. -/
def shortFlags : List Char → Option Bool
  | [] => some false
  | 'V' :: _ => some true
  | 'v' :: rest => shortFlags rest
  | _ => none

def attached? (flag argument : String) : Option String :=
  let start := (flag ++ "=").toList
  if start.isPrefixOf argument.toList then
    some (String.ofList (argument.toList.drop start.length))
  else none

def addFiles (arguments : Arguments) : List String → Option Request
  | [] => some (.run arguments)
  | path :: rest => do addFiles (← arguments.addFile path) rest

def parseFrom (arguments : Arguments) : List String → Option Request
  | [] => some (.run arguments)
  | "--" :: rest => addFiles arguments rest
  | "--version" :: _ => some .version
  | ["--step-limit"] => none
  | "--step-limit" :: value :: rest => do
    if value.toList.head? = some '-' then none
    else parseFrom (← arguments.addStepLimit value) rest
  | argument :: rest => do
    match argument.toList with
    | '-' :: '-' :: _ =>
      match attached? "--step-limit" argument with
      | some value => parseFrom (← arguments.addStepLimit value) rest
      | none => parseFrom (← arguments.addFlag argument) rest
    | '-' :: c :: cs => if ← shortFlags (c :: cs) then some .version else parseFrom arguments rest
    | _ => parseFrom (← arguments.addFile argument) rest

def parse (arguments : List String) : Option Request :=
  parseFrom {} arguments

end StackMachine.CommandLine
