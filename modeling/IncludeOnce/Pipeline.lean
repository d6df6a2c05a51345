import IncludeOnce.Scan

/-! Running the inputs, each as a unit of its own.

Every unit starts with an empty ledger, the configured macros and no open file.
The files read and the diagnostics told are shared by all units. The first unit
that fails, or after which an error has been told, ends the run. -/
namespace IncludeOnce

structure Config where
  inputs : List Path
  output : Option Path := none
  verbose : Bool := false
  showIncludes : Bool := false
  settings : Settings := {}
  warnings : List Text := []

/-- What outlives a unit. -/
structure Session where
  /-- The inputs not run yet. -/
  inputs : List Path := []
  sources : Sources := {}
  diagnostics : Diagnostics := {}
  journal : Journal := #[]

def Session.ofConfig (config : Config) : Session where
  inputs := config.inputs
  diagnostics := .ofOptions config.warnings

/-- What a unit leaves behind. -/
structure UnitOutput where
  text : Text
  events : List IncludeEvent
deriving DecidableEq

inductive PipelineError
  /-- A unit failed, or an error was told. -/
  | fatal
  | unopenable (path : Path) (cause : IoError)
deriving DecidableEq

def PipelineError.message : PipelineError → String
  | .fatal => "fatal preprocessing error"
  | .unopenable path cause => s!"cannot open {path.display}: {cause.message}"

namespace Pipeline

abbrev PipelineM := EStateM PipelineError Session

/-- The start of a unit. -/
def begin (settings : Settings) (s : Session) : Run Scan where
  journal := s.journal
  host :=
    { macros := .ofDefinitions settings.definitions
      sources := s.sources
      diagnostics := s.diagnostics }

/-- What the session keeps of a unit. -/
def keep (s : Session) (run : Run Scan) : Session :=
  { s with
    sources := run.host.sources
    diagnostics := run.host.diagnostics
    journal := run.journal }

/-- A failed scan as a diagnostic: its cause, its place, and the way there. -/
def diagnose (scan : Scan) (e : ScanError) : Diagnostic where
  severity := .error
  message := e.message
  location := scan.failure.map (·.location)
  code := some e.code
  hints :=
    match scan.failure with
    | none => []
    | some failure => (failure.chain.filterMap scan.sources.place?).map ("included from " ++ ·)

def runUnit (fs : FileSystem) (settings : Settings) (source : SourceId) : PipelineM UnitOutput := do
  let s ← get
  match Scan.process fs settings source (begin settings s) with
  | .error e run =>
    let kept := keep s run
    set { kept with diagnostics := kept.diagnostics.report (diagnose run.host e) }
    throw .fatal
  | .ok _ run =>
    let run := run.note (.unitFinished source run.host.events.size run.ledger.size)
    set (keep s run)
    if run.host.diagnostics.hasErrors then throw .fatal
    return ⟨run.host.text, run.host.events.toList⟩

/-- Opens an input. -/
def openInput (fs : FileSystem) (path : Path) : PipelineM SourceId := do
  let s ← get
  match s.sources.loadPath fs path with
  | .error e => throw (.unopenable path e)
  | .ok (source, sources) =>
    set { s with sources }
    return source

def runInputs (fs : FileSystem) (settings : Settings) : List Path → PipelineM (List UnitOutput)
  | [] => return []
  | path :: rest => do
    let source ← openInput fs path
    let unit ← runUnit fs settings source
    return unit :: (← runInputs fs settings rest)

/-- Runs the inputs of the session; a later run has none left. -/
def run (fs : FileSystem) (settings : Settings) : PipelineM (List UnitOutput) := do
  let s ← get
  set { s with inputs := [] }
  runInputs fs settings s.inputs

/-- The text of all units. -/
def text (units : List UnitOutput) : Text := units.flatMap (·.text)

end Pipeline

end IncludeOnce
