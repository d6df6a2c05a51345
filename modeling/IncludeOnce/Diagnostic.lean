import IncludeOnce.Source

/-! Diagnostics: what is told about the text, where, and how it is laid out.

Warnings pass through the options: `error` makes each an error, `no-warnings`
drops them all and wins over `error`. -/
namespace IncludeOnce

inductive Severity
  | error
  | warning
  | note
deriving DecidableEq

def Severity.word : Severity → String
  | .error => "error"
  | .warning => "warning"
  | .note => "note"

structure Diagnostic where
  severity : Severity
  message : String
  location : Option Location
  /-- A short name of the cause. -/
  code : Option String := none
  hints : List String := []
deriving DecidableEq

/-- The diagnostics told so far and what becomes of warnings. -/
structure Diagnostics where
  told : Array Diagnostic := #[]
  warningsAreErrors : Bool := false
  warningsOff : Bool := false

namespace Diagnostics

/-- No diagnostics yet, under these warning options. -/
def ofOptions (options : List Text) : Diagnostics where
  warningsAreErrors := options.contains "error".toList
  warningsOff := options.contains "no-warnings".toList

def report (d : Diagnostics) (diagnostic : Diagnostic) : Diagnostics :=
  { d with told := d.told.push diagnostic }

def warn (d : Diagnostics) (message : String) (location : Option Location) : Diagnostics :=
  if d.warningsOff then d
  else
    d.report
      { severity := if d.warningsAreErrors then .error else .warning
        message, location }

def hasErrors (d : Diagnostics) : Bool := d.told.any (·.severity = .error)

end Diagnostics

/-- Which parts of a diagnostic are laid out. -/
structure Layout where
  source : Bool := true
  hints : Bool := true

namespace Layout

/-- A diagnostic as text: severity and message, the place, the hints, the line. -/
def format (layout : Layout) (sources : Sources) (d : Diagnostic) : String :=
  let head := s!"{d.severity.word}: {d.message}"
  let place :=
    match d.location.bind sources.place? with
    | some place => s!" at {place}"
    | none => ""
  let hints := if layout.hints then String.join (d.hints.map ("\n  hint: " ++ ·)) else ""
  let source :=
    match if layout.source then d.location.bind sources.line? else none with
    | some line => s!"\n  |\n  | {line.display}\n  |"
    | none => ""
  head ++ place ++ hints ++ source

def formatAll (layout : Layout) (sources : Sources) (ds : List Diagnostic) : String :=
  "\n\n".intercalate (ds.map (layout.format sources))

end Layout

end IncludeOnce
