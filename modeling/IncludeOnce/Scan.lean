import IncludeOnce.Scan.Step

/-! Scanning files.

A scan reads a main file line by line, and the files it asks for in their places.
Nesting is bounded by the limit on open files: a file is scanned with the number
of further files that may be opened inside it, and a request where that number
has run out fails. So every scan ends, whatever files ask for one another.

`scanLines` handles the lines of a file in order, `includeFile` scans a file in
place, and `process` scans a main file. -/
namespace IncludeOnce.Scan

/-- The lines of a file, in order. -/
def scanLines (fs : FileSystem) (search : HeaderSearch) (reader : Reader) (file : Identity)
    (source : SourceId) : FileState → List (Numbered Line) → ScanM FileState
  | st, [] => return st
  | st, line :: rest => do
    let location : Location := ⟨source, line.line⟩
    let st ← onFailure (step fs search reader file location st line.content) (·.fail location)
    scanLines fs search reader file source st rest

/-- A whole file, at the end of which no section may be open. -/
def scanFile (fs : FileSystem) (search : HeaderSearch) (reader : Reader) (file : Identity)
    (source : SourceId) : ScanM Report := do
  match (← get).host.sources.file? source with
  | none => return {}
  | some loaded =>
    let st ← scanLines fs search reader file source {} (Line.ofText loaded.text)
    match st.sections with
    | [] => return st.report
    | s :: _ =>
      change (·.fail s.opened)
      throw .unterminated

/-- Reads a file into the sources if it is not there yet. -/
def load (fs : FileSystem) (file : Identity) : ScanM SourceId := do
  match (← get).host.sources.load fs file with
  | .error e => throw (.unreadable file.path e)
  | .ok (source, sources) =>
    change ({ · with sources })
    return source

/-- Scans a file in place of the last request. -/
def includeWith (fs : FileSystem) (search : HeaderSearch) (reader : Reader) (file : Identity) :
    ScanM Report := do
  let site := (← get).host.requestSite
  let source ← load fs file
  within file site (scanFile fs search reader file source)

/-- The reader of a file inside which `room` more files may be open. The readers
inside it come to be only when it is used, so `room` may be as large as it likes. -/
def readerWithin (fs : FileSystem) (search : HeaderSearch) : (room : Nat) → Reader
  | 0 => none
  | room + 1 => some fun file => includeWith fs search (readerWithin fs search room) file

/-- The reader of a file that is opened now. -/
def nextReader (fs : FileSystem) (settings : Settings) : ScanM Reader := do
  return readerWithin fs settings.search (settings.maxDepth - (← get).host.stack.length)

def includeFile (fs : FileSystem) (settings : Settings) (file : Identity) : ScanM Report := do
  includeWith fs settings.search (← nextReader fs settings) file

/-- Scans a main file. A number under which no file was read asks for nothing. -/
def process (fs : FileSystem) (settings : Settings) (source : SourceId) : ScanM Unit := do
  match (← get).host.sources.file? source with
  | none => return
  | some loaded =>
    let file := loaded.identity
    modify (·.note (.mainBegun file))
    modify (·.mapLedger (·.begin file))
    let reader ← nextReader fs settings
    let report ← within file none (scanFile fs settings.search reader file source)
    modify (·.note (.mainEnded file report))
    modify (·.mapLedger (·.complete file report))

end IncludeOnce.Scan
