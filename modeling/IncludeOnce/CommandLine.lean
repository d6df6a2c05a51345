import IncludeOnce.FileSystem.Change
import IncludeOnce.Options
import IncludeOnce.Text.Plain

/-! The program: run the inputs, print, and write the output.

Diagnostics go to the error output when all units have run or the run has ended,
then the trace of each unit if it is asked for; the text goes to the output file
or to the standard output. With verbose output the log comes first. -/
namespace IncludeOnce

/-- Why a run did not succeed. -/
inductive RunError
  | io (message : String)
  /-- What went wrong is among the diagnostics. -/
  | failed

def RunError.message : RunError → String
  | .io message => s!"I/O error: {message}"
  | .failed => "preprocessing failed due to errors"

/-- What a run leaves behind. -/
structure Ending where
  result : Except RunError Unit
  stdout : String := ""
  stderr : String := ""
  files : FileSystem
  journal : Journal

/-- How the program ends. -/
structure Exit where
  code : Nat
  stdout : String
  stderr : String
  files : FileSystem

namespace CommandLine

def printed (lines : List String) : String := String.join (lines.map (· ++ "\n"))

def diagnostics (s : Session) : String :=
  printed (s.diagnostics.told.toList.map (Layout.format {} s.sources))

/-- The traces of the units, of which empty ones do not show. -/
def traces (units : List UnitOutput) : String :=
  printed ((units.map (Trace.format ·.events)).filter (· ≠ ""))

/-- Puts the text where it is wanted. -/
def deliver (files : FileSystem) (output : Option Path) (text : Text) :
    Except RunError (FileSystem × String) :=
  match output with
  | none => .ok (files, text.display)
  | some path =>
    match files.write path (Utf8.encode text) with
    | .ok files => .ok (files, "")
    | .error e => .error (.io s!"Failed to write {path.display}: {e.message}")

def run (config : Config) (files : FileSystem) : Ending :=
  match Pipeline.run files config.settings (.ofConfig config) with
  | .ok units s =>
    let stderr := diagnostics s ++ if config.showIncludes then traces units else ""
    match deliver files config.output (Pipeline.text units) with
    | .ok (files, stdout) => { result := .ok (), stdout, stderr, files, journal := s.journal }
    | .error e => { result := .error e, stderr, files, journal := s.journal }
  | .error e s =>
    let cause : RunError :=
      match e with
      | .fatal => .failed
      | e => .io e.message
    { result := .error cause, stderr := diagnostics s, files, journal := s.journal }

/-- A log record as a line of the error output, without colours. -/
def logLine (r : LogRecord) : String :=
  let line : Text := s!"[{r.level.word} {r.target}] ".toList ++ indented r.message.toList ++ ['\n']
  line.plain.display
where
  /-- The message, with every further line of it moved in. -/
  indented (t : Text) : Text := t.flatMap fun c => if c = '\n' then "\n    ".toList else [c]

/-- The part of the log that verbose output shows. -/
def log (journal : Journal) : String :=
  String.join ((journal.records.filter (·.level = .debug)).map logLine)

/-- How the program ends after a run. -/
def exit (config : Config) (ending : Ending) : Exit :=
  let stderr := (if config.verbose then log ending.journal else "") ++ ending.stderr
  match ending.result with
  | .ok () => ⟨0, ending.stdout, stderr, ending.files⟩
  | .error .failed => ⟨1, ending.stdout, stderr, ending.files⟩
  | .error e => ⟨1, ending.stdout, stderr ++ s!"error: {e.message}\n", ending.files⟩

/-- The program on a configuration. -/
def exec (config : Config) (files : FileSystem) : Exit := exit config (run config files)

end CommandLine

end IncludeOnce
