import IncludeOnce.Diagnostic
import IncludeOnce.Macros
import IncludeOnce.Scan.Error
import IncludeOnce.Search
import IncludeOnce.Trace

/-! The state of a scan, and the few ways in which it changes.

State is kept through failure, so that a failing scan still shows what it did.
`within` keeps the open files balanced on every way out, `onFailure` and
`Scan.fail` note where the first failure arose, and `traced` reserves a place in
the trace for a request, before the requests made while it is handled, and fills
it on every way out. -/
namespace IncludeOnce

/-- What a scan is told beforehand. -/
structure Settings where
  maxDepth : Nat := 200
  search : HeaderSearch := {}
  /-- Names defined before the first line. -/
  definitions : List (Name × Option Text) := []

/-- A file that is being scanned, and the line that asked for it. -/
structure OpenFile where
  identity : Identity
  site : Option Location

/-- Where the first failure of a scan arose: the line, and the lines through which
its file was reached, innermost first. -/
structure Failure where
  location : Location
  chain : List Location
deriving DecidableEq

structure Scan where
  macros : Macros := {}
  /-- The open files, innermost first. -/
  stack : List OpenFile := []
  /-- The last line that made a request. -/
  requestSite : Option Location := none
  failure : Option Failure := none
  /-- The lines put out, without their ends. -/
  written : Array Text := #[]
  events : Array IncludeEvent := #[]
  sources : Sources := {}
  diagnostics : Diagnostics := {}

abbrev ScanM := EStateM ScanError (Run Scan)

namespace Scan

/-- The text put out. -/
def text (s : Scan) : Text := s.written.toList.flatMap (· ++ ['\n'])

def write (s : Scan) (line : Text) : Scan := { s with written := s.written.push line }

def warn (s : Scan) (message : String) (location : Location) : Scan :=
  { s with diagnostics := s.diagnostics.warn message (some location) }

def push (s : Scan) (file : Identity) (site : Option Location) : Scan :=
  { s with stack := ⟨file, site⟩ :: s.stack }

def pop (s : Scan) : Scan := { s with stack := s.stack.tail }

/-- Enters a request into the trace. -/
def reserve (s : Scan) (depth : Nat) (request : Request) : Scan :=
  { s with events := s.events.push ⟨depth, request.kind, request.header.name, .pending⟩ }

/-- Says what became of the request at a place in the trace. -/
def fill (s : Scan) (slot : Nat) (result : EventResult) : Scan :=
  { s with events := s.events.modify slot ({ · with result }) }

/-- Notes a failure, unless one has been noted before. -/
def fail (s : Scan) (location : Location) : Scan :=
  match s.failure with
  | some _ => s
  | none => { s with failure := some ⟨location, s.stack.filterMap (·.site)⟩ }

/-- Changes the scan's own state. -/
def change (f : Scan → Scan) : ScanM Unit := modify (·.mapHost f)

def ofExcept {α : Type} : Except ScanError α → ScanM α
  | .ok a => pure a
  | .error e => throw e

/-- Runs `x` and changes the state afterwards, also when `x` fails. -/
def afterwards {α : Type} (x : ScanM α) (f : Scan → Scan) : ScanM α := fun run =>
  match x run with
  | .ok a run => .ok a (run.mapHost f)
  | .error e run => .error e (run.mapHost f)

/-- Runs `x` and changes the state only when `x` fails. -/
def onFailure {α : Type} (x : ScanM α) (f : Scan → Scan) : ScanM α := fun run =>
  match x run with
  | .ok a run => .ok a run
  | .error e run => .error e (run.mapHost f)

/-- Enters `file` while `x` runs. -/
def within {α : Type} (file : Identity) (site : Option Location) (x : ScanM α) : ScanM α := do
  change (·.push file site)
  afterwards x pop

/-- Handles a request, which stands in the trace before the events that `x` makes. -/
def traced (depth : Nat) (request : Request) (x : ScanM Outcome) : ScanM Unit := fun run =>
  let slot := run.host.events.size
  match x (run.mapHost (·.reserve depth request)) with
  | .ok outcome run => .ok () (run.mapHost (·.fill slot (.ofOutcome outcome)))
  | .error e run => .error e (run.mapHost (·.fill slot .failed))

end Scan

end IncludeOnce
