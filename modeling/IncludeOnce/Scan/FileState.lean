import IncludeOnce.Ledger
import IncludeOnce.Line
import IncludeOnce.Scan.Error
import IncludeOnce.Source

/-! The state of one file while it is scanned: its open conditional sections and
the shape of its include guard.

A file is guarded if all of it but blank lines and markers stands in one
`#ifndef` section without an `#else` or `#elif` of its own. `GuardShape` follows
the lines as they come and does not depend on which of them are live. -/
namespace IncludeOnce

/-- A conditional section that is not closed yet. -/
structure Section where
  /-- The line that opened it. -/
  opened : Location
  /-- The section stands in text that is skipped. -/
  wasSkipping : Bool
  sawElse : Bool := false
  /-- A branch has been taken, or none may be. -/
  taken : Bool
deriving DecidableEq

inductive GuardShape
  /-- Nothing but blank lines and markers so far. -/
  | unseen
  /-- Inside the outermost section, which opened with `#ifndef name`. -/
  | inside (name : Name)
  /-- After the end of that section. -/
  | closed (name : Name)
  | broken
deriving DecidableEq

namespace GuardShape

/-- A line of text that is not blank. -/
def onText : GuardShape → GuardShape
  | .unseen | .closed _ => .broken
  | shape => shape

/-- Any directive but markers and unknown ones. -/
def onDirective (line : Line) : GuardShape → GuardShape
  | .unseen =>
    match line with
    | .opening (.ifUndefined operand) =>
      match Identifier.first? operand with
      | some name => .inside name
      | none => .broken
    | _ => .broken
  | .closed _ => .broken
  | shape => shape

/-- An `#else` or `#elif` of the outermost section. -/
def onBranch : GuardShape → GuardShape
  | .inside _ => .broken
  | shape => shape

/-- The end of the outermost section. -/
def onClosing : GuardShape → GuardShape
  | .inside name => .closed name
  | shape => shape

def name? : GuardShape → Option Name
  | .closed name => some name
  | _ => none

end GuardShape

structure FileState where
  /-- The open sections, innermost first. -/
  sections : List Section := []
  skipping : Bool := false
  declaredOnce : Bool := false
  shape : GuardShape := .unseen

namespace FileState

def report (st : FileState) : Report := ⟨st.declaredOnce, st.shape.name?⟩

/-- Opens a section. In text that is skipped no branch of it is taken. -/
def openSection (st : FileState) (condition : Bool) (opened : Location) : FileState :=
  { st with
    sections := ⟨opened, st.skipping, false, st.skipping || condition⟩ :: st.sections
    skipping := st.skipping || !condition }

/-- The innermost open section, which must not have had its `#else`, and the
sections around it. -/
def branchable (st : FileState) (none? after : ScanError) :
    Except ScanError (Section × List Section) :=
  match st.sections with
  | [] => .error none?
  | s :: outer => if s.sawElse then .error after else .ok (s, outer)

/-- The shape after a branch of the innermost of these sections. -/
def branchShape (st : FileState) (outer : List Section) : GuardShape :=
  if outer = [] then st.shape.onBranch else st.shape

/-- An `#elif`. Its condition is asked for only if no branch has been taken. -/
def elseIf (st : FileState) (condition : Unit → Except ScanError Bool) :
    Except ScanError FileState := do
  let (s, outer) ← st.branchable .elseIfWithoutIf .elseIfAfterElse
  let active ← if s.taken then pure false else condition ()
  return { st with
    sections := { s with taken := s.taken || active } :: outer
    skipping := !active
    shape := st.branchShape outer }

/-- An `#else`. -/
def otherwise (st : FileState) : Except ScanError FileState := do
  let (s, outer) ← st.branchable .elseWithoutIf .elseAfterElse
  return { st with
    sections := { s with sawElse := true, taken := true } :: outer
    skipping := s.taken
    shape := st.branchShape outer }

/-- An `#endif`. -/
def closeSection (st : FileState) : Except ScanError FileState :=
  match st.sections with
  | [] => .error .endWithoutIf
  | s :: outer =>
    .ok { st with
      sections := outer
      skipping := s.wasSkipping
      shape := if outer = [] then st.shape.onClosing else st.shape }

end FileState

end IncludeOnce
