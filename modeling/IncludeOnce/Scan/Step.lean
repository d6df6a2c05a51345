import IncludeOnce.Condition
import IncludeOnce.Scan.FileState
import IncludeOnce.Scan.State

/-! One line of one file.

Lines of text are put out where they are live. Commands act where they are live
and are nothing elsewhere. The lines of conditional sections are followed
everywhere, because they alone tell where text is live again.

A `Reader` says how the files that a line asks for are read; there is none where
the limit on open files is met. -/
namespace IncludeOnce.Scan

def condition (macros : Macros) (operand : Text) : Except ScanError Bool :=
  (Condition.value macros operand).mapError .invalidCondition

def identifier (operand : Text) : Except ScanError Name :=
  match Identifier.first? operand with
  | some name => .ok name
  | none => .error .expectedIdentifier

/-- Whether an opening line holds. In text that is skipped a condition is not
evaluated, but a missing name is still a mistake. -/
def test (macros : Macros) (skipping : Bool) : Test → Except ScanError Bool
  | .condition operand => if skipping then .ok false else condition macros operand
  | .ifDefined operand => return macros.isDefined (← identifier operand)
  | .ifUndefined operand => return !macros.isDefined (← identifier operand)

def define (location : Location) (operand : Text) : ScanM Unit := do
  match Identifier.split operand with
  | ([], _) => throw .expectedIdentifier
  | (name, rest) =>
    let body := rest.trim
    if let some previous := (← get).host.macros.body? name then
      if previous ≠ body then
        change (·.warn s!"'{name.display}' macro redefined" location)
    modify (·.note (.defined name))
    change fun s => { s with macros := s.macros.define name body }

/-- How files are read inside a file: not at all where the limit is met. -/
abbrev Reader := Option (Identity → ScanM Report)

/-- The scanner as the host of the inclusion handler. -/
def host (read : Identity → ScanM Report) : Host ScanError Scan where
  isDefined s name := s.macros.isDefined name
  unresolved := .unresolved
  process := read

def request (fs : FileSystem) (search : HeaderSearch) (reader : Reader) (file : Identity)
    (location : Location) (kind : RequestKind) (operand : Text) : ScanM Unit := do
  match HeaderName.read operand with
  | none => throw (.invalidHeader kind)
  | some (header, trailing) =>
    if !trailing.allBlank then
      change (·.warn s!"extra tokens at end of #{kind.word} directive" location)
    let stack := (← get).host.stack
    match reader with
    | none =>
      modify (·.note (.tooDeep (stack.reverse.map (·.identity))))
      throw (.depthExceeded stack.length)
    | some read =>
      change ({ · with requestSite := some location })
      let request : Request := ⟨kind, header⟩
      traced stack.length request
        (request.handle (search.resolve fs) file.directory (host read))

/-- A live command, and whether it says that the file is to be read once. -/
def command (fs : FileSystem) (search : HeaderSearch) (reader : Reader) (file : Identity)
    (location : Location) : Command → ScanM Bool
  | .request kind operand => do
    request fs search reader file location kind operand
    return false
  | .define operand => do
    define location operand
    return false
  | .undefine operand => do
    let name ← ofExcept (identifier operand)
    modify (·.note (.undefined name))
    change fun s => { s with macros := s.macros.undefine name }
    return false
  | .pragma operand =>
    let word := (Identifier.split operand).1
    if word = "once".toList then do
      modify (·.note (.lockedByPragma file))
      modify (·.mapLedger (·.markOnce file))
      return true
    else do
      modify (·.note (.ignoredPragma word))
      return false
  | .error message => throw (.errorDirective message)
  | .warning message => do
    change (·.warn s!"#warning {message.display}" location)
    return false

/-- One line of a file. -/
def step (fs : FileSystem) (search : HeaderSearch) (reader : Reader) (file : Identity)
    (location : Location) (st : FileState) : Line → ScanM FileState
  | .text content => do
    if !st.skipping then change (·.write content.trimEnd)
    return if content.allBlank then st else { st with shape := st.shape.onText }
  | .marker => return st
  | .unknown name => if st.skipping then return st else throw (.invalidDirective name)
  | .command c => do
    let st := { st with shape := st.shape.onDirective (.command c) }
    if st.skipping then return st
    let declares ← command fs search reader file location c
    return { st with declaredOnce := st.declaredOnce || declares }
  | .opening t => do
    let st := { st with shape := st.shape.onDirective (.opening t) }
    let holds ← ofExcept (test (← get).host.macros st.skipping t)
    return st.openSection holds location
  | .elseIf operand => do
    let st := { st with shape := st.shape.onDirective (.elseIf operand) }
    let macros := (← get).host.macros
    ofExcept (st.elseIf fun _ => condition macros operand)
  | .otherwise => ofExcept { st with shape := st.shape.onDirective .otherwise }.otherwise
  | .closing => ofExcept { st with shape := st.shape.onDirective .closing }.closeSection

end IncludeOnce.Scan
