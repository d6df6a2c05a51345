import IncludeOnce.Inclusion

/-! Scripts in place of files.

A script says what reading a file would do: define and undefine names, make
requests, stop. Running scripts under the inclusion handler shows ledger and
decisions at work without any text. -/
namespace IncludeOnce

inductive Script.Line
  | define (name : Name)
  | undefine (name : Name)
  | stop (message : String)
  | request (r : Request)

/-- What reading a file does and then reports. -/
structure Script where
  lines : List Script.Line := []
  report : Report := {}

namespace Script

/-- Where headers lead and what the files hold. -/
structure Stage where
  /-- From spellings to paths. -/
  table : List (Text × Path) := []
  scripts : List (Text × Script) := []

/-- A header is looked up with its directory first, then by itself. -/
def Stage.resolve (stage : Stage) : Resolver := fun header beside =>
  let spelling := header.text
  match (stage.table.lookup (beside.text ++ '|' :: spelling)).or (stage.table.lookup spelling) with
  | some path => .ok (.ofCanonical path)
  | none => .error (.notFound header)

def Stage.script (stage : Stage) (file : Identity) : Script :=
  (stage.scripts.lookup file.path.text).getD {}

inductive Event
  | entered (path : Path)
  | handled (request : Request) (outcome : Outcome)

/-- Why a request came to nothing. -/
inductive Stop
  | unresolved (cause : ResolutionError)
  | stopped (message : String)

structure State where
  macros : Macros := {}
  events : Array Event := #[]

abbrev ScriptM := EStateM Stop (Run State)

def emit (event : Event) : ScriptM Unit :=
  modify (·.mapHost fun s => { s with events := s.events.push event })

def host (read : Identity → ScriptM Report) : Host Stop State where
  isDefined s name := s.macros.isDefined name
  unresolved := .unresolved
  process := read

/-- Makes a request from a directory. -/
def request (stage : Stage) (read : Identity → ScriptM Report) (beside : Path) (r : Request) :
    ScriptM Unit := do
  let outcome ← r.handle stage.resolve beside (host read)
  emit (.handled r outcome)

def runLine (stage : Stage) (read : Identity → ScriptM Report) (file : Identity) :
    Line → ScriptM Unit
  | .define name => do
    modify (·.note (.defined name))
    modify (·.mapHost fun s => { s with macros := s.macros.define name [] })
  | .undefine name => do
    modify (·.note (.undefined name))
    modify (·.mapHost fun s => { s with macros := s.macros.undefine name })
  | .stop message => throw (.stopped message)
  | .request r => request stage read file.directory r

/-- Reads a file inside which `room` more may be open. -/
def readWithin (stage : Stage) : (room : Nat) → Identity → ScriptM Report
  | 0, file => do
    emit (.entered file.path)
    throw (.stopped "too deep")
  | room + 1, file => do
    emit (.entered file.path)
    let script := stage.script file
    script.lines.forM (runLine stage (readWithin stage room) file)
    return script.report

/-- How many scripts may be open at once. -/
def depthLimit : Nat := 20

/-- Makes a request from outside any script. -/
def perform (stage : Stage) (beside : Path) (r : Request) : ScriptM Unit :=
  request stage (readWithin stage depthLimit) beside r

end Script

end IncludeOnce
