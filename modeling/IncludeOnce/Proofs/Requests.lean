import IncludeOnce.Proofs.Effects
import IncludeOnce.Proofs.Reachable

/-! What one line does.

Most lines stay within their file: they may put out text, change macros, lock their file or
warn, and leave open files, sources and trace alone (`step_aside`). A line that asks for a
file is answered according to what it means: the request is malformed or meets the limit
on open files, its header means no file, it is dropped, or the file is read in place.
Each answer is an equation here. None of them speaks of how many files may still be
opened: the limit is asked of the files open. -/
namespace IncludeOnce
open Scan

/-! ### Lines that ask for nothing -/

/-- The state of a file after a line that has asked for another. -/
def FileState.asked (st : FileState) (kind : RequestKind) (operand : Text) : FileState :=
  { st with shape := st.shape.onDirective (.command (.request kind operand)) }

theorem Line.asked?_eq_some {st : FileState} {line : Line} {kind : RequestKind} {operand : Text}
    (h : line.asked? st = some (kind, operand)) :
    st.skipping = false ∧ line = .command (.request kind operand) := by
  unfold Line.asked? at h
  split at h
  · split at h
    · cases h
    · rename_i hlive
      cases h
      exact ⟨by simpa using hlive, rfl⟩
  · cases h

/-- What the lines of a file leave alone that ask for nothing. -/
structure Aside (file : Identity) (run after : Run Scan) : Prop where
  stack : after.host.stack = run.host.stack
  events : after.host.events = run.host.events
  sources : after.host.sources = run.host.sources
  journal : run.journal.toList <+: after.journal.toList
  ledger : after.ledger = run.ledger ∨ after.ledger = run.ledger.markOnce file

/-- No effect reaches these. -/
theorem Effect.on_aside (x : Effect) (file : Identity) (location : Location) (run : Run Scan) :
    Aside file run (x.on file location run) where
  stack := rfl
  events := rfl
  sources := rfl
  journal := ⟨x.entry.toList, (x.on_journal file location run).symm⟩
  ledger := by
    unfold Effect.on
    cases x.locks with
    | true => exact .inr rfl
    | false => exact .inl rfl

section
variable (fs : FileSystem) (search : HeaderSearch) (reader : Reader) (file : Identity)
  (location : Location)

/-- **A line that asks for nothing stays within its file.** -/
theorem step_aside {st : FileState} {line : Line} (h : line.asked? st = none) (run : Run Scan) :
    Aside file run (leftBy (step fs search reader file location st line run)) := by
  rw [leftBy_step fs search reader file location h]
  exact Effect.on_aside _ file location run

theorem step_aside_ok {st after : FileState} {line : Line} {run middle : Run Scan}
    (h : line.asked? st = none)
    (hstep : step fs search reader file location st line run = .ok after middle) :
    Aside file run middle := by
  have haside := step_aside fs search reader file location h run
  rw [hstep] at haside
  exact haside

theorem step_aside_error {st : FileState} {line : Line} {run left : Run Scan} {e : ScanError}
    (h : line.asked? st = none)
    (hstep : step fs search reader file location st line run = .error e left) :
    Aside file run left := by
  have haside := step_aside fs search reader file location h run
  rw [hstep] at haside
  exact haside

theorem step_asked {st : FileState} {line : Line} {kind : RequestKind} {operand : Text}
    (h : line.asked? st = some (kind, operand)) :
    step fs search reader file location st line =
      request fs search reader file location kind operand >>= fun _ =>
        pure (st.asked kind operand) := by
  obtain ⟨hlive, rfl⟩ := Line.asked?_eq_some h
  have hnot : ¬ st.skipping = true := by simp [hlive]
  simp only [step, if_neg hnot, command, bind_assoc, pure_bind, Bool.or_false, FileState.asked]

theorem scanLines_step {source : SourceId} {st after : FileState} {line : Numbered Line}
    {rest : List (Numbered Line)} {run middle : Run Scan}
    (h : step fs search reader file ⟨source, line.line⟩ st line.content run = .ok after middle) :
    scanLines fs search reader file source st (line :: rest) run =
      scanLines fs search reader file source after rest middle := by
  rw [scanLines_cons, bind_apply, onFailure, h]

theorem scanLines_fails {source : SourceId} {st : FileState} {line : Numbered Line}
    {rest : List (Numbered Line)} {run left : Run Scan} {e : ScanError}
    (h : step fs search reader file ⟨source, line.line⟩ st line.content run = .error e left) :
    scanLines fs search reader file source st (line :: rest) run =
      .error e (left.mapHost (·.fail ⟨source, line.line⟩)) := by
  rw [scanLines_cons, bind_apply, onFailure, h]

/-- A request has been answered, and the scan goes on behind its line. -/
theorem scanLines_answered {source : SourceId} {st : FileState} {line : Numbered Line}
    {rest : List (Numbered Line)} {kind : RequestKind} {operand : Text} {run after : Run Scan}
    (hasked : line.content.asked? st = some (kind, operand))
    (h : request fs search reader file ⟨source, line.line⟩ kind operand run = .ok () after) :
    scanLines fs search reader file source st (line :: rest) run =
      scanLines fs search reader file source (st.asked kind operand) rest after := by
  apply scanLines_step
  rw [step_asked fs search reader file _ hasked, bind_apply, h]
  rfl

theorem scanLines_unanswered {source : SourceId} {st : FileState} {line : Numbered Line}
    {rest : List (Numbered Line)} {kind : RequestKind} {operand : Text} {run left : Run Scan}
    {e : ScanError} (hasked : line.content.asked? st = some (kind, operand))
    (h : request fs search reader file ⟨source, line.line⟩ kind operand run = .error e left) :
    scanLines fs search reader file source st (line :: rest) run =
      .error e (left.mapHost (·.fail ⟨source, line.line⟩)) := by
  apply scanLines_fails
  rw [step_asked fs search reader file _ hasked, bind_apply, h]

end

/-! ### Requests without readers -/

/-- The reader in the innermost open file. -/
def Scan.readerIn (fs : FileSystem) (settings : Settings) (run : Run Scan) : Reader :=
  readerWithin fs settings.search (settings.maxDepth + 1 - run.host.stack.length)

theorem Scan.readerIn_congr {fs : FileSystem} {settings : Settings} {run after : Run Scan}
    (h : after.host.stack = run.host.stack) :
    readerIn fs settings after = readerIn fs settings run := by
  rw [readerIn, readerIn, h]

section
variable (run : Run Scan) (file : Identity) (location : Location) (kind : RequestKind)
  (header : HeaderName) (trailing : Text) (f : Identity)

/-- A header that a line asks for is being sought. -/
def soughtInside : Run Scan :=
  (handing run location kind header trailing).note (.sought ⟨kind, header⟩ file.directory)

/-- The request of a line has been dropped. -/
def droppedInside (reason : SkipReason) : Run Scan :=
  traceFilled run.host.events.size (.skipped reason f)
    ((soughtInside run file location kind header trailing).dropped ⟨kind, header⟩ f reason)

/-- The file that a line asked for has been read. -/
def finishedInside (report : Report) (left : Run Scan) : Run Scan :=
  traceFilled run.host.events.size (.processed f) (left.finished f report)

/-- The request of a line has failed. -/
def failedInside (left : Run Scan) : Run Scan :=
  traceFilled run.host.events.size .failed left

/-- The limit on open files is met by the request of a line. -/
def stoppedInside : Run Scan :=
  (warned run location kind trailing).note (.tooDeep (run.host.stack.reverse.map (·.identity)))

end

section
variable {fs : FileSystem} {settings : Settings} {file f : Identity} {location : Location}
  {kind : RequestKind} {operand trailing : Text} {header : HeaderName} {run : Run Scan}

/-- There is a reader as long as the limit is not met, and it reads files in place. -/
theorem Scan.readerIn_within (h : run.host.stack.length ≤ settings.maxDepth) :
    readerIn fs settings run = some fun f => includeWith fs settings.search
      (readerWithin fs settings.search (settings.maxDepth - run.host.stack.length)) f := by
  have hroom : settings.maxDepth + 1 - run.host.stack.length =
      (settings.maxDepth - run.host.stack.length) + 1 := by omega
  rw [readerIn, hroom, readerWithin]

theorem Scan.readerIn_beyond (h : settings.maxDepth < run.host.stack.length) :
    readerIn fs settings run = none := by
  have hroom : settings.maxDepth + 1 - run.host.stack.length = 0 := by omega
  rw [readerIn, hroom, readerWithin]

/-- The operand of a live request means a file, and the limit on open files is not met. -/
structure Means (fs : FileSystem) (settings : Settings) (file : Identity) (operand : Text)
    (run : Run Scan) (header : HeaderName) (trailing : Text) (f : Identity) : Prop where
  read : HeaderName.read operand = some (header, trailing)
  room : run.host.stack.length ≤ settings.maxDepth
  resolve : settings.search.resolve fs header file.directory = .ok f

theorem handing_host (run : Run Scan) (location : Location) (kind : RequestKind)
    (header : HeaderName) (trailing : Text) :
    (handing run location kind header trailing).host.stack = run.host.stack ∧
      (handing run location kind header trailing).host.requestSite = some location := by
  obtain ⟨d, hd⟩ := handing_eq run location kind header trailing
  rw [hd]
  exact ⟨rfl, rfl⟩

theorem handing_ledger (run : Run Scan) (location : Location) (kind : RequestKind)
    (header : HeaderName) (trailing : Text) :
    (handing run location kind header trailing).ledger = run.ledger := by
  obtain ⟨d, hd⟩ := handing_eq run location kind header trailing
  rw [hd]
  rfl

theorem request_malformed (reader : Reader) (h : HeaderName.read operand = none) :
    request fs settings.search reader file location kind operand run =
      .error (.invalidHeader kind) run := by
  rw [request_apply, h]

theorem request_beyond (hread : HeaderName.read operand = some (header, trailing))
    (hdeep : settings.maxDepth < run.host.stack.length) :
    request fs settings.search (readerIn fs settings run) file location kind operand run =
      .error (.depthExceeded run.host.stack.length) (stoppedInside run location kind trailing) := by
  rw [request_apply, hread, readerIn_beyond hdeep]
  rfl

theorem request_unresolved {e : ResolutionError}
    (hread : HeaderName.read operand = some (header, trailing))
    (hroom : run.host.stack.length ≤ settings.maxDepth)
    (hresolve : settings.search.resolve fs header file.directory = .error e) :
    request fs settings.search (readerIn fs settings run) file location kind operand run =
      .error (.unresolved e) (failedInside run
        (soughtInside run file location kind header trailing)) := by
  rw [request_apply, hread, readerIn_within hroom]
  simp only [handle_host, hresolve]
  rfl

theorem request_dropped {reason : SkipReason}
    (h : Means fs settings file operand run header trailing f)
    (hdecide : (handing run location kind header trailing).decision f = .skip reason) :
    request fs settings.search (readerIn fs settings run) file location kind operand run =
      .ok () (droppedInside run file location kind header trailing f reason) := by
  have hsought : ((handing run location kind header trailing).note
      (.sought ⟨kind, header⟩ file.directory)).decision f = .skip reason := hdecide
  rw [request_apply, h.read, readerIn_within h.room]
  simp only [handle_host, h.resolve, hsought]
  rfl

/-- A file that is asked for with room left is read in place. -/
theorem request_begun (h : Means fs settings file operand run header trailing f)
    (hdecide : (handing run location kind header trailing).decision f = .process) :
    (∃ report left, includeFile fs settings f
        (begunInside run file location kind header trailing f) = .ok report left ∧
      request fs settings.search (readerIn fs settings run) file location kind operand run =
        .ok () (finishedInside run f report left)) ∨
    ∃ e left, includeFile fs settings f
        (begunInside run file location kind header trailing f) = .error e left ∧
      request fs settings.search (readerIn fs settings run) file location kind operand run =
        .error e (failedInside run left) := by
  have hsought : ((handing run location kind header trailing).note
      (.sought ⟨kind, header⟩ file.directory)).decision f = .process := hdecide
  have hstack : (begunInside run file location kind header trailing f).host.stack =
      run.host.stack := (handing_host run location kind header trailing).1
  rw [request_apply, h.read, readerIn_within h.room]
  simp only [handle_host, h.resolve, hsought]
  rw [includeFile_apply, hstack]
  rw [show ((handing run location kind header trailing).note
    (.sought ⟨kind, header⟩ file.directory)).started ⟨kind, header⟩ f =
      begunInside run file location kind header trailing f from rfl]
  cases includeWith fs settings.search
      (readerWithin fs settings.search (settings.maxDepth - run.host.stack.length)) f
      (begunInside run file location kind header trailing f) with
  | ok report left => exact .inl ⟨report, left, rfl, rfl⟩
  | error e left => exact .inr ⟨e, left, rfl, rfl⟩

/-! ### Files in place -/

/-- A file is left after its lines, at the end of which no section may be open. -/
def leave : EStateM.Result ScanError (Run Scan) FileState →
    EStateM.Result ScanError (Run Scan) Report
  | .ok st run =>
    match st.finish run with
    | .ok report left => .ok report (left.mapHost pop)
    | .error e left => .error e (left.mapHost pop)
  | .error e run => .error e (run.mapHost pop)

/-- A file that has been read from the disk is entered. -/
theorem within_scanFile {source : SourceId} {loaded : SourceFile} (site : Option Location)
    (hfile : run.host.sources.file? source = some loaded) :
    within f site (scanFile fs settings.search
      (readerWithin fs settings.search (settings.maxDepth - run.host.stack.length)) f source) run =
      leave (scanLines fs settings.search
        (readerIn fs settings (run.mapHost (·.push f site))) f source {}
        (Line.ofText loaded.text) (run.mapHost (·.push f site))) := by
  have hreader : readerIn fs settings (run.mapHost (·.push f site)) =
      readerWithin fs settings.search (settings.maxDepth - run.host.stack.length) := by
    have hlength : (run.mapHost (·.push f site)).host.stack.length =
      run.host.stack.length + 1 := rfl
    rw [readerIn, hlength, Nat.add_sub_add_right]
  have hpushed : (run.mapHost (·.push f site)).host.sources.file? source = some loaded := hfile
  rw [hreader]
  simp only [within, bind_apply, change_apply, afterwards,
    scanFile_apply fs settings.search _ f source hpushed]
  cases scanLines fs settings.search
      (readerWithin fs settings.search (settings.maxDepth - run.host.stack.length)) f source {}
      (Line.ofText loaded.text) (run.mapHost (·.push f site)) with
  | ok st last =>
    simp only [leave]
    cases st.finish last <;> rfl
  | error e last => rfl

theorem includeFile_loaded {source : SourceId} {sources : Sources} {loaded : SourceFile}
    (hload : run.host.sources.load fs f = .ok (source, sources))
    (hfile : sources.file? source = some loaded) {opened : Run Scan}
    (hopened : opened =
      (run.mapHost ({ · with sources })).mapHost (·.push f run.host.requestSite)) :
    includeFile fs settings f run =
      leave (scanLines fs settings.search (readerIn fs settings opened) f source {}
        (Line.ofText loaded.text) opened) := by
  rw [includeFile_apply, includeWith_apply, hload, hopened]
  exact within_scanFile _ hfile

end

end IncludeOnce
