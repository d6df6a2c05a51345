import IncludeOnce.Pipeline

/-! Reading the command line.

Arguments are options and inputs. A short option is `-x`; several may be written
together, and an option with a value takes the rest of its cluster. A long option
is `--name` or `--name=value`. A value may also be the next argument, unless that
begins with `-` (a lone `-` is a value). After `--` everything is an input.

An option whose value is still to come, and a run of inputs, are *pending*: they
are taken into account only when something else is, or at the end. What is wrong
with them is found then, so of two mistakes the one found first is told. -/
namespace IncludeOnce

/-- Why a command line is not run. -/
inductive UsageError
  | missingInput
  | unknownArgument
  /-- An option without its value, or an empty path. -/
  | missingValue
  | badNumber
  /-- An option that may stand once stands twice. -/
  | repeated
  /-- A value given to an option that takes none. -/
  | unexpectedValue
  | helpWanted
deriving DecidableEq

/-- The exit code of a command line that is not run. -/
def UsageError.exitCode : UsageError → Nat
  | .helpWanted => 0
  | _ => 2

namespace Options

inductive Flag
  | verbose
  | showIncludes
  | help
deriving DecidableEq

inductive Valued
  | output
  | includePath
  | quotePath
  | systemPath
  | define
  | warning
  | maxDepth
deriving DecidableEq

inductive Switch
  | flag (f : Flag)
  | valued (v : Valued)
deriving DecidableEq

def ofShort? (c : Char) : Option Switch :=
  match c with
  | 'o' => some (.valued .output)
  | 'v' => some (.flag .verbose)
  | 'H' => some (.flag .showIncludes)
  | 'I' => some (.valued .includePath)
  | 'D' => some (.valued .define)
  | 'W' => some (.valued .warning)
  | 'h' => some (.flag .help)
  | _ => none

def ofLong? (name : Text) : Option Switch :=
  if name = "output".toList then some (.valued .output)
  else if name = "verbose".toList then some (.flag .verbose)
  else if name = "include-path".toList then some (.valued .includePath)
  else if name = "iquote".toList then some (.valued .quotePath)
  else if name = "isystem".toList then some (.valued .systemPath)
  else if name = "define".toList then some (.valued .define)
  else if name = "max-include-depth".toList then some (.valued .maxDepth)
  else if name = "help".toList then some (.flag .help)
  else none

/-- What has been taken into account so far. -/
structure Taken where
  inputs : List Path := []
  output : Option Path := none
  verbose : Bool := false
  showIncludes : Bool := false
  maxDepth : Option Nat := none
  includePaths : List Path := []
  quotePaths : List Path := []
  systemPaths : List Path := []
  definitions : List (Name × Option Text) := []
  warnings : List Text := []

/-- What waits to be taken into account. -/
inductive Pending
  | nothing
  | option (v : Valued) (value : Option Text)
  | inputs (paths : List Text)

structure State where
  taken : Taken := {}
  pending : Pending := .nothing
  /-- `--` has been met. -/
  inputsOnly : Bool := false

def readPath (t : Text) : Except UsageError Path :=
  if t = [] then .error .missingValue else .ok ⟨t⟩

/-- A decimal number of at most 64 bits, with an optional plus sign. -/
def readNumber (t : Text) : Except UsageError Nat :=
  let digits :=
    match t with
    | '+' :: rest => rest
    | _ => t
  match (IntegerLiteral.digits? 10 digits).filter (· < UInt64.size) with
  | some n => .ok n
  | none => .error .badNumber

/-- A definition `NAME` or `NAME=VALUE`. -/
def readDefinition (t : Text) : Name × Option Text :=
  match t.span (· ≠ '=') with
  | (name, _ :: value) => (name, some value)
  | (name, []) => (name, none)

namespace Taken

def flag (t : Taken) : Flag → Except UsageError Taken
  | .verbose => if t.verbose then .error .repeated else .ok { t with verbose := true }
  | .showIncludes =>
    if t.showIncludes then .error .repeated else .ok { t with showIncludes := true }
  | .help => .error .helpWanted

def valued (t : Taken) (value : Text) : Valued → Except UsageError Taken
  | .output =>
    if t.output.isSome then .error .repeated
    else return { t with output := some (← readPath value) }
  | .includePath => return { t with includePaths := t.includePaths ++ [← readPath value] }
  | .quotePath => return { t with quotePaths := t.quotePaths ++ [← readPath value] }
  | .systemPath => return { t with systemPaths := t.systemPaths ++ [← readPath value] }
  | .define => .ok { t with definitions := t.definitions ++ [readDefinition value] }
  | .warning => .ok { t with warnings := t.warnings ++ [value] }
  | .maxDepth =>
    if t.maxDepth.isSome then .error .repeated
    else return { t with maxDepth := some (← readNumber value) }

def pending (t : Taken) : Pending → Except UsageError Taken
  | .nothing => .ok t
  | .option _ none => .error .missingValue
  | .option v (some value) => t.valued value v
  | .inputs paths => return { t with inputs := t.inputs ++ (← paths.mapM readPath) }

/-- The configuration, once an input is given. -/
def config (t : Taken) : Except UsageError Config :=
  if t.inputs = [] then .error .missingInput
  else
    .ok
      { inputs := t.inputs
        output := t.output
        verbose := t.verbose
        showIncludes := t.showIncludes
        settings :=
          { maxDepth := t.maxDepth.getD 200
            search := ⟨t.quotePaths, t.includePaths, t.systemPaths⟩
            definitions := t.definitions }
        warnings := t.warnings }

end Taken

namespace State

/-- Takes into account what is pending. -/
def settle (s : State) : Except UsageError State :=
  return { s with taken := ← s.taken.pending s.pending, pending := .nothing }

def flag (s : State) (f : Flag) : Except UsageError State := do
  let s ← s.settle
  return { s with taken := ← s.taken.flag f }

/-- An option with its value, or with the value still to come. -/
def valued (s : State) (v : Valued) (value : Option Text) : Except UsageError State := do
  let s ← s.settle
  match value with
  | some value => return { s with taken := ← s.taken.valued value v }
  | none => return { s with pending := .option v none }

def input (s : State) (t : Text) : Except UsageError State :=
  match s.pending with
  | .inputs paths => .ok { s with pending := .inputs (paths ++ [t]) }
  | _ => return { ← s.settle with pending := .inputs [t] }

/-- A value for the option that waits for one, or else an input. -/
def plain (s : State) (t : Text) : Except UsageError State :=
  match s.pending with
  | .option v none => .ok { s with pending := .option v (some t) }
  | _ => s.input t

/-- The options of a cluster after its dash. -/
def cluster (s : State) : Text → Except UsageError State
  | [] => .ok s
  | c :: rest =>
    match ofShort? c with
    | none => .error .unknownArgument
    | some (.flag f) =>
      match s.flag f with
      | .ok s => s.cluster rest
      | .error e => .error e
    | some (.valued v) =>
      match rest with
      | [] => s.valued v none
      | '=' :: value => s.valued v (some value)
      | value => s.valued v (some value)

/-- A long option after its two dashes. -/
def long (s : State) (t : Text) : Except UsageError State :=
  let (name, value) := readDefinition t
  match ofLong? name, value with
  | none, _ => .error .unknownArgument
  | some (.flag _), some _ => .error .unexpectedValue
  | some (.flag f), none => s.flag f
  | some (.valued v), value => s.valued v value

def argument (s : State) (t : Text) : Except UsageError State :=
  if s.inputsOnly then s.input t
  else
    match t with
    | ['-', '-'] => .ok { s with inputsOnly := true }
    | '-' :: '-' :: rest => s.long rest
    | '-' :: c :: rest => s.cluster (c :: rest)
    | _ => s.plain t

end State

/-- Reads a command line, without the name of the program. -/
def read (arguments : List Text) : Except UsageError Config := do
  let s ← arguments.foldlM State.argument {}
  (← s.settle).taken.config

end Options

end IncludeOnce
