import IncludeOnce.Proofs.Requests

/-! The course of a scan.

A scan is written with readers that allow for fewer and fewer files inside. Its course
needs no such allowance: `Course` follows the lines of a file one by one, goes through a
file that a line asks for in its place, and asks at each request how many files are open.
It keeps the states that are come past (the trail) and the result.

`exists_course` says that every scan has a course with the result of the scan. So a scan
comes to its end whatever files ask for one another, and what stops it is the limit on
open files and never a want of readers. What holds of every course holds of every scan. -/
namespace IncludeOnce
open Scan

/-! ### The course -/

/-- A request comes to nothing before any file is opened: its failure, and the state it
leaves. -/
inductive Refused (fs : FileSystem) (settings : Settings) (file : Identity) (location : Location)
    (kind : RequestKind) (operand : Text) (run : Run Scan) : ScanError → Run Scan → Prop
  | malformed (hread : HeaderName.read operand = none) :
    Refused fs settings file location kind operand run (.invalidHeader kind) run
  | tooDeep {header : HeaderName} {trailing : Text}
    (hread : HeaderName.read operand = some (header, trailing))
    (hdeep : settings.maxDepth < run.host.stack.length) :
    Refused fs settings file location kind operand run (.depthExceeded run.host.stack.length)
      (stoppedInside run location kind trailing)
  | unresolved {header : HeaderName} {trailing : Text} {e : ResolutionError}
    (hread : HeaderName.read operand = some (header, trailing))
    (hroom : run.host.stack.length ≤ settings.maxDepth)
    (hresolve : settings.search.resolve fs header file.directory = .error e) :
    Refused fs settings file location kind operand run (.unresolved e)
      (failedInside run (soughtInside run file location kind header trailing))
  | unreadable {header : HeaderName} {trailing : Text} {f : Identity} {e : IoError}
    (hmeans : Means fs settings file operand run header trailing f)
    (hdecide : (handing run location kind header trailing).decision f = .process)
    (hload : run.host.sources.load fs f = .error e) :
    Refused fs settings file location kind operand run (.unreadable f.path e)
      (failedInside run (begunInside run file location kind header trailing f))

/-- A live request means a file that is to be read and has been found on the disk. -/
structure Opens (fs : FileSystem) (settings : Settings) (file : Identity) (location : Location)
    (kind : RequestKind) (operand : Text) (run : Run Scan) (header : HeaderName) (trailing : Text)
    (f : Identity) (inner : SourceId) (sources : Sources) (loaded : SourceFile) : Prop where
  means : Means fs settings file operand run header trailing f
  decide : (handing run location kind header trailing).decision f = .process
  load : run.host.sources.load fs f = .ok (inner, sources)
  found : sources.file? inner = some loaded

/-- Lines are scanned from a state on: the states come past, and the result. -/
inductive Course (fs : FileSystem) (settings : Settings) :
    Identity → SourceId → FileState → List (Numbered Line) → Run Scan → List (Run Scan) →
      EStateM.Result ScanError (Run Scan) FileState → Prop
  | done (file : Identity) (source : SourceId) (st : FileState) (run : Run Scan) :
    Course fs settings file source st [] run [run] (.ok st run)
  /-- A line asks for nothing, and is handled. -/
  | line {file : Identity} {source : SourceId} {st after : FileState} {line : Numbered Line}
    {rest : List (Numbered Line)} {run middle : Run Scan} {trail : List (Run Scan)}
    {r : EStateM.Result ScanError (Run Scan) FileState} (hasked : line.content.asked? st = none)
    (hstep : step fs settings.search none file ⟨source, line.line⟩ st line.content run =
      .ok after middle)
    (hrest : Course fs settings file source after rest middle trail r) :
    Course fs settings file source st (line :: rest) run (run :: trail) r
  /-- A line asks for nothing, and fails. -/
  | fails {file : Identity} {source : SourceId} {st : FileState} {line : Numbered Line}
    {rest : List (Numbered Line)} {run left : Run Scan} {e : ScanError}
    (hasked : line.content.asked? st = none)
    (hstep : step fs settings.search none file ⟨source, line.line⟩ st line.content run =
      .error e left) :
    Course fs settings file source st (line :: rest) run
      [run, left.mapHost (·.fail ⟨source, line.line⟩)]
      (.error e (left.mapHost (·.fail ⟨source, line.line⟩)))
  | refused {file : Identity} {source : SourceId} {st : FileState} {line : Numbered Line}
    {rest : List (Numbered Line)} {kind : RequestKind} {operand : Text} {run left : Run Scan}
    {e : ScanError} (hasked : line.content.asked? st = some (kind, operand))
    (hrefused : Refused fs settings file ⟨source, line.line⟩ kind operand run e left) :
    Course fs settings file source st (line :: rest) run
      [run, left.mapHost (·.fail ⟨source, line.line⟩)]
      (.error e (left.mapHost (·.fail ⟨source, line.line⟩)))
  | dropped {file f : Identity} {source : SourceId} {st : FileState} {line : Numbered Line}
    {rest : List (Numbered Line)} {kind : RequestKind} {operand trailing : Text}
    {header : HeaderName} {reason : SkipReason} {run : Run Scan} {trail : List (Run Scan)}
    {r : EStateM.Result ScanError (Run Scan) FileState}
    (hasked : line.content.asked? st = some (kind, operand))
    (hmeans : Means fs settings file operand run header trailing f)
    (hdecide : (handing run ⟨source, line.line⟩ kind header trailing).decision f = .skip reason)
    (hrest : Course fs settings file source (st.asked kind operand) rest
      (droppedInside run file ⟨source, line.line⟩ kind header trailing f reason) trail r) :
    Course fs settings file source st (line :: rest) run (run :: trail) r
  /-- A file is read in place of a line. -/
  | entered {file f : Identity} {source inner : SourceId} {st : FileState} {line : Numbered Line}
    {rest : List (Numbered Line)} {kind : RequestKind} {operand trailing : Text}
    {header : HeaderName} {sources : Sources} {loaded : SourceFile} {report : Report}
    {run left : Run Scan} {inside trail : List (Run Scan)}
    {r r' : EStateM.Result ScanError (Run Scan) FileState}
    (hasked : line.content.asked? st = some (kind, operand))
    (hopens : Opens fs settings file ⟨source, line.line⟩ kind operand run header trailing f inner
      sources loaded)
    (hinner : Course fs settings f inner {} (Line.ofText loaded.text)
      (openedInside run file ⟨source, line.line⟩ kind header trailing f sources) inside r')
    (hleave : leave r' = .ok report left)
    (hrest : Course fs settings file source (st.asked kind operand) rest
      (finishedInside run f report left) trail r) :
    Course fs settings file source st (line :: rest) run
      (run :: begunInside run file ⟨source, line.line⟩ kind header trailing f ::
        (inside ++ trail)) r
  /-- A file is read in place of a line, and fails. -/
  | stopped {file f : Identity} {source inner : SourceId} {st : FileState} {line : Numbered Line}
    {rest : List (Numbered Line)} {kind : RequestKind} {operand trailing : Text}
    {header : HeaderName} {sources : Sources} {loaded : SourceFile} {e : ScanError}
    {run left : Run Scan} {inside : List (Run Scan)}
    {r' : EStateM.Result ScanError (Run Scan) FileState}
    (hasked : line.content.asked? st = some (kind, operand))
    (hopens : Opens fs settings file ⟨source, line.line⟩ kind operand run header trailing f inner
      sources loaded)
    (hinner : Course fs settings f inner {} (Line.ofText loaded.text)
      (openedInside run file ⟨source, line.line⟩ kind header trailing f sources) inside r')
    (hleave : leave r' = .error e left) :
    Course fs settings file source st (line :: rest) run
      (run :: begunInside run file ⟨source, line.line⟩ kind header trailing f ::
        (inside ++ [(failedInside run left).mapHost (·.fail ⟨source, line.line⟩)]))
      (.error e ((failedInside run left).mapHost (·.fail ⟨source, line.line⟩)))

/-! ### What every course keeps -/

theorem Scan.fail_eq (s : Scan) (location : Location) :
    ∃ failure, s.fail location = { s with failure } := by
  unfold Scan.fail
  split
  · exact ⟨s.failure, rfl⟩
  · exact ⟨_, rfl⟩

/-- To leave a file is to close it, and perhaps to note a failure. -/
theorem leftBy_leave (r : EStateM.Result ScanError (Run Scan) FileState) :
    ∃ failure, leftBy (leave r) =
      (leftBy r).mapHost fun s => { s with failure, stack := s.stack.tail } := by
  cases r with
  | error e run => exact ⟨run.host.failure, rfl⟩
  | ok st run =>
    simp only [leave, FileState.finish]
    cases st.sections with
    | nil => exact ⟨run.host.failure, rfl⟩
    | cons s outer =>
      obtain ⟨failure, hf⟩ := run.host.fail_eq s.opened
      refine ⟨failure, ?_⟩
      show (run.mapHost (·.fail s.opened)).mapHost pop = _
      rw [Run.mapHost, Run.mapHost, hf]
      rfl

/-- A file that is left in good order has come to the end of its lines. -/
theorem leave_ok {r : EStateM.Result ScanError (Run Scan) FileState} {report : Report}
    {left : Run Scan} (h : leave r = .ok report left) : ∃ st last, r = .ok st last := by
  cases r with
  | error e last => cases h
  | ok st last => exact ⟨st, last, rfl⟩

section
variable {fs : FileSystem} {settings : Settings} {file f : Identity} {location : Location}
  {source inner : SourceId} {kind : RequestKind} {operand trailing : Text} {header : HeaderName}
  {st : FileState} {lines : List (Numbered Line)} {run left : Run Scan} {e : ScanError}
  {sources : Sources} {loaded : SourceFile} {trail : List (Run Scan)}
  {r : EStateM.Result ScanError (Run Scan) FileState}

theorem begunInside_journal (run : Run Scan) (file : Identity) (location : Location)
    (kind : RequestKind) (header : HeaderName) (trailing : Text) (f : Identity) :
    (begunInside run file location kind header trailing f).journal.toList =
      run.journal.toList ++ [.sought ⟨kind, header⟩ file.directory, .resolved ⟨kind, header⟩ f,
        .processing ⟨kind, header⟩ f] := by
  simp [begunInside, Run.mapLedger, Run.note, Run.started, Run.decided, handing_journal]

theorem soughtInside_journal (run : Run Scan) (file : Identity) (location : Location)
    (kind : RequestKind) (header : HeaderName) (trailing : Text) :
    (soughtInside run file location kind header trailing).journal.toList =
      run.journal.toList ++ [.sought ⟨kind, header⟩ file.directory] := by
  simp [soughtInside, Run.note, handing_journal]

theorem droppedInside_journal (run : Run Scan) (file : Identity) (location : Location)
    (kind : RequestKind) (header : HeaderName) (trailing : Text) (f : Identity)
    (reason : SkipReason) :
    (droppedInside run file location kind header trailing f reason).journal.toList =
      run.journal.toList ++ [.sought ⟨kind, header⟩ file.directory, .resolved ⟨kind, header⟩ f,
        .skipped ⟨kind, header⟩ f reason] := by
  simp [droppedInside, traceFilled, Run.mapHost, soughtInside, Run.note, Run.dropped, Run.decided,
    handing_journal]

theorem begunInside_sources (run : Run Scan) (file : Identity) (location : Location)
    (kind : RequestKind) (header : HeaderName) (trailing : Text) (f : Identity) :
    (begunInside run file location kind header trailing f).host.sources = run.host.sources :=
  handing_sources run location kind header trailing

/-- The file that is opened is read in place. -/
theorem Opens.includeFile_eq
    (h : Opens fs settings file location kind operand run header trailing f inner sources loaded) :
    includeFile fs settings f (begunInside run file location kind header trailing f) =
      leave (scanLines fs settings.search
        (readerIn fs settings (openedInside run file location kind header trailing f sources)) f
        inner {} (Line.ofText loaded.text)
        (openedInside run file location kind header trailing f sources)) := by
  have hsite : (begunInside run file location kind header trailing f).host.requestSite =
      some location := (handing_host run location kind header trailing).2
  refine includeFile_loaded (by rw [begunInside_sources]; exact h.load) h.found ?_
  rw [hsite]
  rfl

/-- The request is answered once the file has been read. -/
theorem Opens.request_ok
    (h : Opens fs settings file location kind operand run header trailing f inner sources loaded)
    {report : Report} (hok : includeFile fs settings f
      (begunInside run file location kind header trailing f) = .ok report left) :
    request fs settings.search (readerIn fs settings run) file location kind operand run =
      .ok () (finishedInside run f report left) := by
  obtain ⟨report', left', hok', hrequest⟩ | ⟨e, left', herror, _⟩ :=
    request_begun h.means h.decide
  · cases hok.symm.trans hok'
    exact hrequest
  · cases hok.symm.trans herror

/-- The request fails with the file. -/
theorem Opens.request_error
    (h : Opens fs settings file location kind operand run header trailing f inner sources loaded)
    (herror : includeFile fs settings f
      (begunInside run file location kind header trailing f) = .error e left) :
    request fs settings.search (readerIn fs settings run) file location kind operand run =
      .error e (failedInside run left) := by
  obtain ⟨report', left', hok, _⟩ | ⟨e', left', herror', hrequest⟩ :=
    request_begun h.means h.decide
  · cases herror.symm.trans hok
  · cases herror.symm.trans herror'
    exact hrequest

theorem Refused.stack (h : Refused fs settings file location kind operand run e left) :
    left.host.stack = run.host.stack := by
  cases h with
  | malformed hread => rfl
  | @tooDeep header trailing hread hdeep =>
    obtain ⟨d, hd⟩ := warned_eq run location kind trailing
    rw [stoppedInside, hd]
    rfl
  | @unresolved header trailing e hread hroom hresolve =>
    exact (handing_host run location kind header trailing).1
  | @unreadable header trailing f e hmeans hdecide hload =>
    exact (handing_host run location kind header trailing).1

theorem Refused.journal (h : Refused fs settings file location kind operand run e left) :
    run.journal.toList <+: left.journal.toList := by
  cases h with
  | malformed hread => exact List.prefix_rfl
  | @tooDeep header trailing hread hdeep =>
    obtain ⟨d, hd⟩ := warned_eq run location kind trailing
    rw [stoppedInside, hd]
    exact ⟨_, Array.toList_push.symm⟩
  | @unresolved header trailing e hread hroom hresolve =>
    exact ⟨_, (soughtInside_journal run file location kind header trailing).symm⟩
  | @unreadable header trailing f e hmeans hdecide hload =>
    exact ⟨_, (begunInside_journal run file location kind header trailing f).symm⟩

theorem droppedInside_stack (reason : SkipReason) :
    (droppedInside run file location kind header trailing f reason).host.stack = run.host.stack :=
  (handing_host run location kind header trailing).1

theorem begunInside_stack :
    (begunInside run file location kind header trailing f).host.stack = run.host.stack :=
  (handing_host run location kind header trailing).1

theorem openedInside_stack :
    (openedInside run file location kind header trailing f sources).host.stack =
      ⟨f, some location⟩ :: run.host.stack :=
  congrArg (OpenFile.mk f (some location) :: ·) (handing_host run location kind header trailing).1

/-- The file that was entered last is closed. -/
theorem leave_stack {o : OpenFile} {stack : List OpenFile}
    (h : (leftBy r).host.stack = o :: stack) : (leftBy (leave r)).host.stack = stack := by
  obtain ⟨failure, hf⟩ := leftBy_leave r
  rw [hf]
  show (leftBy r).host.stack.tail = stack
  rw [h]
  rfl

/-- To leave a file is no entry of the journal. -/
theorem leave_journal_eq (r : EStateM.Result ScanError (Run Scan) FileState) :
    (leftBy (leave r)).journal = (leftBy r).journal := by
  obtain ⟨failure, hf⟩ := leftBy_leave r
  rw [hf]
  rfl

theorem leave_ledger (r : EStateM.Result ScanError (Run Scan) FileState) :
    (leftBy (leave r)).ledger = (leftBy r).ledger := by
  obtain ⟨failure, hf⟩ := leftBy_leave r
  rw [hf]
  rfl

theorem leave_journal {history : List Journal.Entry} (h : history <+: (leftBy r).journal.toList) :
    history <+: (leftBy (leave r)).journal.toList := by
  rw [leave_journal_eq]
  exact h

theorem fail_stack (run : Run Scan) (location : Location) :
    (run.mapHost (·.fail location)).host.stack = run.host.stack := by
  obtain ⟨failure, hf⟩ := run.host.fail_eq location
  show (run.host.fail location).stack = _
  rw [hf]

/-- **Files are closed again**, on every way out. -/
theorem Course.stack (h : Course fs settings file source st lines run trail r) :
    (leftBy r).host.stack = run.host.stack := by
  induction h with
  | done => rfl
  | line hasked hstep hrest ih => exact ih.trans (step_aside_ok _ _ _ _ _ hasked hstep).stack
  | fails hasked hstep =>
    exact (fail_stack _ _).trans (step_aside_error _ _ _ _ _ hasked hstep).stack
  | refused hasked hrefused => exact (fail_stack _ _).trans hrefused.stack
  | dropped hasked hmeans hdecide hrest ih => exact ih.trans (droppedInside_stack _)
  | entered hasked hopens hinner hleave hrest ihinner ihrest =>
    have hleft := leave_stack (ihinner.trans openedInside_stack)
    rw [hleave] at hleft
    exact ihrest.trans hleft
  | stopped hasked hopens hinner hleave ihinner =>
    have hleft := leave_stack (ihinner.trans openedInside_stack)
    rw [hleave] at hleft
    exact (fail_stack _ _).trans hleft

/-- The state that is left is the last one come past. -/
theorem Course.leftBy_mem (h : Course fs settings file source st lines run trail r) :
    leftBy r ∈ trail := by
  induction h with
  | done => exact List.mem_cons_self
  | line hasked hstep hrest ih => exact List.mem_cons_of_mem _ ih
  | fails hasked hstep => exact List.mem_cons_of_mem _ List.mem_cons_self
  | refused hasked hrefused => exact List.mem_cons_of_mem _ List.mem_cons_self
  | dropped hasked hmeans hdecide hrest ih => exact List.mem_cons_of_mem _ ih
  | entered hasked hopens hinner hleave hrest ihinner ihrest =>
    exact List.mem_cons_of_mem _ (List.mem_cons_of_mem _ (List.mem_append_right _ ihrest))
  | stopped hasked hopens hinner hleave ihinner =>
    exact List.mem_cons_of_mem _ (List.mem_cons_of_mem _
      (List.mem_append_right _ List.mem_cons_self))

/-- What is noted next is one thing. -/
theorem next_unique {journal later : List Journal.Entry} {a b : Journal.Entry}
    (ha : journal ++ [a] <+: later) (hb : journal ++ [b] <+: later) : a = b := by
  have hsame := List.prefix_of_prefix_length_le ha hb (by simp)
  simpa [List.prefix_append_right_inj] using hsame

theorem not_next {journal : List Journal.Entry} {a : Journal.Entry} :
    ¬ journal ++ [a] <+: journal := by
  intro h
  have hlength := h.length_le
  simp only [List.length_append, List.length_singleton] at hlength
  omega

/-- Nothing is struck from the journal. -/
theorem Course.journal (h : Course fs settings file source st lines run trail r) :
    run.journal.toList <+: (leftBy r).journal.toList := by
  induction h with
  | done => exact List.prefix_rfl
  | line hasked hstep hrest ih => exact (step_aside_ok _ _ _ _ _ hasked hstep).journal.trans ih
  | fails hasked hstep => exact (step_aside_error _ _ _ _ _ hasked hstep).journal
  | refused hasked hrefused => exact hrefused.journal
  | @dropped file f source st line rest kind operand trailing header reason run trail r hasked
      hmeans hdecide hrest ih =>
    exact List.IsPrefix.trans ⟨_, (droppedInside_journal ..).symm⟩ ih
  | entered hasked hopens hinner hleave hrest ihinner ihrest =>
    have hinside := leave_journal
      (List.IsPrefix.trans ⟨_, (begunInside_journal _ _ _ _ _ _ _).symm⟩ ihinner)
    rw [hleave] at hinside
    exact hinside.trans (List.IsPrefix.trans ⟨_, Array.toList_push.symm⟩ ihrest)
  | stopped hasked hopens hinner hleave ihinner =>
    have hinside := leave_journal
      (List.IsPrefix.trans ⟨_, (begunInside_journal _ _ _ _ _ _ _).symm⟩ ihinner)
    rw [hleave] at hinside
    exact hinside

end

/-! ### Every scan has a course -/

section
variable {fs : FileSystem} {settings : Settings}

/-- The scan of lines from a state on has a course. -/
def HasCourse (fs : FileSystem) (settings : Settings) (file : Identity) (source : SourceId)
    (st : FileState) (lines : List (Numbered Line)) (run : Run Scan) : Prop :=
  ∃ trail, Course fs settings file source st lines run trail
    (scanLines fs settings.search (readerIn fs settings run) file source st lines run)

variable {file : Identity} {source : SourceId} {st : FileState} {line : Numbered Line}
  {rest : List (Numbered Line)} {run : Run Scan}

theorem hasCourse_unasked (hasked : line.content.asked? st = none)
    (hrest : ∀ after middle, middle.host.stack = run.host.stack →
      HasCourse fs settings file source after rest middle) :
    HasCourse fs settings file source st (line :: rest) run := by
  have hreader := step_unasked fs settings.search (readerIn fs settings run) file
    ⟨source, line.line⟩ hasked
  unfold HasCourse
  cases hstep : step fs settings.search none file ⟨source, line.line⟩ st line.content run with
  | ok after middle =>
    have hstack := (step_aside_ok _ _ _ _ _ hasked hstep).stack
    obtain ⟨trail, hcourse⟩ := hrest after middle hstack
    rw [readerIn_congr hstack] at hcourse
    rw [scanLines_step fs settings.search _ file (by rw [hreader, hstep])]
    exact ⟨_, .line hasked hstep hcourse⟩
  | error e left =>
    rw [scanLines_fails fs settings.search _ file (by rw [hreader, hstep])]
    exact ⟨_, .fails hasked hstep⟩

/-- A request that comes to nothing fails for the reason it has. -/
theorem Refused.request_eq {location : Location} {kind : RequestKind} {operand : Text}
    {e : ScanError} {left : Run Scan}
    (h : Refused fs settings file location kind operand run e left) :
    request fs settings.search (readerIn fs settings run) file location kind operand run =
      .error e left := by
  cases h with
  | malformed hread => exact request_malformed _ hread
  | tooDeep hread hdeep => exact request_beyond hread hdeep
  | unresolved hread hroom hresolve => exact request_unresolved hread hroom hresolve
  | @unreadable header trailing f e hmeans hdecide hload =>
    have hinclude : includeFile fs settings f
          (begunInside run file location kind header trailing f) =
        .error (.unreadable f.path e) (begunInside run file location kind header trailing f) := by
      rw [includeFile_apply, includeWith_apply, begunInside_sources, hload]
    obtain ⟨report, left, hok, _⟩ | ⟨e', left, herror, hrequest⟩ :=
      request_begun hmeans hdecide
    · cases hinclude.symm.trans hok
    · cases hinclude.symm.trans herror
      exact hrequest

/-- A request has a course if the scans of files inside have theirs. -/
theorem hasCourse_asked {kind : RequestKind} {operand : Text}
    (hasked : line.content.asked? st = some (kind, operand))
    (hinside : run.host.stack.length ≤ settings.maxDepth → ∀ f inner lines opened,
      opened.host.stack.length = run.host.stack.length + 1 →
        HasCourse fs settings f inner {} lines opened)
    (hrest : ∀ middle, middle.host.stack = run.host.stack →
      HasCourse fs settings file source (st.asked kind operand) rest middle) :
    HasCourse fs settings file source st (line :: rest) run := by
  have hrefused : ∀ e left, Refused fs settings file ⟨source, line.line⟩ kind operand run e left →
      HasCourse fs settings file source st (line :: rest) run := by
    intro e left hrefused
    unfold HasCourse
    rw [scanLines_unanswered fs settings.search _ file hasked hrefused.request_eq]
    exact ⟨_, .refused hasked hrefused⟩
  have hanswered : ∀ middle, middle.host.stack = run.host.stack →
      request fs settings.search (readerIn fs settings run) file ⟨source, line.line⟩ kind operand
        run = .ok () middle →
      ∃ trail, Course fs settings file source (st.asked kind operand) rest middle trail
        (scanLines fs settings.search (readerIn fs settings run) file source st (line :: rest)
          run) := by
    intro middle hstack hrequest
    obtain ⟨trail, hcourse⟩ := hrest middle hstack
    rw [readerIn_congr hstack] at hcourse
    rw [scanLines_answered fs settings.search _ file hasked hrequest]
    exact ⟨trail, hcourse⟩
  cases hread : HeaderName.read operand with
  | none => exact hrefused _ _ (.malformed hread)
  | some pair =>
    obtain ⟨header, trailing⟩ := pair
    by_cases hroom : run.host.stack.length ≤ settings.maxDepth
    · cases hresolve : settings.search.resolve fs header file.directory with
      | error e => exact hrefused _ _ (.unresolved hread hroom hresolve)
      | ok f =>
        have hmeans : Means fs settings file operand run header trailing f :=
          ⟨hread, hroom, hresolve⟩
        cases hdecide : (handing run ⟨source, line.line⟩ kind header trailing).decision f with
        | skip reason =>
          obtain ⟨trail, hcourse⟩ :=
            hanswered _ (droppedInside_stack reason) (request_dropped hmeans hdecide)
          exact ⟨_, .dropped hasked hmeans hdecide hcourse⟩
        | process =>
          cases hload : run.host.sources.load fs f with
          | error e => exact hrefused _ _ (.unreadable hmeans hdecide hload)
          | ok pair =>
            obtain ⟨inner, sources⟩ := pair
            obtain ⟨_, _, loaded, hfound⟩ := Sources.load_ok hload
            have hopens : Opens fs settings file ⟨source, line.line⟩ kind operand run header
                trailing f inner sources loaded := ⟨hmeans, hdecide, hload, hfound⟩
            obtain ⟨inside, hinner⟩ := hinside hroom f inner (Line.ofText loaded.text)
              (openedInside run file ⟨source, line.line⟩ kind header trailing f sources)
              (congrArg List.length openedInside_stack)
            have hinclude := hopens.includeFile_eq
            have hstack := leave_stack (hinner.stack.trans openedInside_stack)
            cases hleave : leave (scanLines fs settings.search
                (readerIn fs settings (openedInside run file ⟨source, line.line⟩ kind header
                  trailing f sources)) f inner {} (Line.ofText loaded.text)
                (openedInside run file ⟨source, line.line⟩ kind header trailing f sources)) with
            | ok report left =>
              rw [hleave] at hstack
              obtain ⟨trail, hcourse⟩ :=
                hanswered (finishedInside run f report left) hstack
                  (hopens.request_ok (hinclude.trans hleave))
              exact ⟨_, .entered hasked hopens hinner hleave hcourse⟩
            | error e left =>
              unfold HasCourse
              rw [scanLines_unanswered fs settings.search _ file hasked
                (hopens.request_error (hinclude.trans hleave))]
              exact ⟨_, .stopped hasked hopens hinner hleave⟩
    · exact hrefused _ _ (.tooDeep hread (by omega))

/-- **Every scan has a course**, which ends as the scan does. -/
theorem exists_course (fs : FileSystem) (settings : Settings) (file : Identity)
    (source : SourceId) (st : FileState) (lines : List (Numbered Line)) (run : Run Scan) :
    HasCourse fs settings file source st lines run := by
  -- A file inside has one file less to open; in one file, the lines are fewer and fewer.
  induction hroom : settings.maxDepth + 1 - run.host.stack.length using Nat.strongRecOn
    generalizing file source st lines run with
  | ind room ihroom =>
    induction lines generalizing st run with
    | nil => exact ⟨[run], .done file source st run⟩
    | cons line rest ih =>
      have hrest : ∀ after middle, middle.host.stack = run.host.stack →
          HasCourse fs settings file source after rest middle := by
        intro after middle hstack
        exact ih after middle (by rw [hstack]; exact hroom)
      cases hasked : line.content.asked? st with
      | none => exact hasCourse_unasked hasked hrest
      | some asked =>
        refine hasCourse_asked hasked ?_ (hrest _)
        intro hlimit f inner lines opened hopened
        exact ihroom _ (by omega) f inner {} lines opened rfl

/-- **A course ends as the scan does.** -/
theorem Course.result_eq {lines : List (Numbered Line)} {trail : List (Run Scan)}
    {r : EStateM.Result ScanError (Run Scan) FileState}
    (h : Course fs settings file source st lines run trail r) :
    scanLines fs settings.search (readerIn fs settings run) file source st lines run = r := by
  induction h with
  | done => rfl
  | line hasked hstep hrest ih =>
    rw [scanLines_step fs settings.search _ _ ((congrFun (step_unasked _ _ _ _ _ hasked) _).trans
      hstep), ← readerIn_congr (step_aside_ok _ _ _ _ _ hasked hstep).stack]
    exact ih
  | fails hasked hstep =>
    exact scanLines_fails fs settings.search _ _
      ((congrFun (step_unasked _ _ _ _ _ hasked) _).trans hstep)
  | refused hasked hrefused =>
    exact scanLines_unanswered fs settings.search _ _ hasked hrefused.request_eq
  | dropped hasked hmeans hdecide hrest ih =>
    rw [scanLines_answered fs settings.search _ _ hasked (request_dropped hmeans hdecide),
      ← readerIn_congr (droppedInside_stack _)]
    exact ih
  | entered hasked hopens hinner hleave hrest ihinner ihrest =>
    have hleft := leave_stack (hinner.stack.trans openedInside_stack)
    rw [hleave] at hleft
    rw [← ihinner] at hleave
    rw [scanLines_answered fs settings.search _ _ hasked
      (hopens.request_ok (hopens.includeFile_eq.trans hleave)), ← readerIn_congr hleft]
    exact ihrest
  | stopped hasked hopens hinner hleave ihinner =>
    rw [← ihinner] at hleave
    exact scanLines_unanswered fs settings.search _ _ hasked
      (hopens.request_error (hopens.includeFile_eq.trans hleave))

/-- A file in place of a line is closed again. -/
theorem Opens.closed {location : Location} {kind : RequestKind} {operand trailing : Text}
    {header : HeaderName} {f : Identity} {inner : SourceId} {sources : Sources}
    {loaded : SourceFile}
    (h : Opens fs settings file location kind operand run header trailing f inner sources loaded) :
    (leftBy (includeFile fs settings f
      (begunInside run file location kind header trailing f))).host.stack = run.host.stack := by
  obtain ⟨trail, hcourse⟩ := exists_course fs settings f inner {} (Line.ofText loaded.text)
    (openedInside run file location kind header trailing f sources)
  rw [h.includeFile_eq]
  exact leave_stack (hcourse.stack.trans openedInside_stack)

end

/-! ### Scans from outside -/

/-- A main file is open, and none of its lines has been handled yet. -/
def Run.mainOpened (run : Run Scan) (file : Identity) : Run Scan :=
  (run.mainBegun file).mapHost (·.push file none)

/-- A file in place is open, and none of its lines has been handled yet. -/
def Run.placeOpened (run : Run Scan) (file : Identity) (sources : Sources) : Run Scan :=
  (run.mapHost ({ · with sources })).mapHost (·.push file run.host.requestSite)

/-- A main file has been left. -/
def endMain (file : Identity) :
    EStateM.Result ScanError (Run Scan) Report → EStateM.Result ScanError (Run Scan) Unit
  | .ok report left => .ok () (left.mainEnded file report)
  | .error e left => .error e left

/-- The course of a main file. -/
inductive MainCourse (fs : FileSystem) (settings : Settings) (source : SourceId) (run : Run Scan) :
    List (Run Scan) → EStateM.Result ScanError (Run Scan) Unit → Prop
  | absent (h : run.host.sources.file? source = none) :
    MainCourse fs settings source run [run] (.ok () run)
  | scanned {main : SourceFile} {trail : List (Run Scan)}
    {r : EStateM.Result ScanError (Run Scan) FileState}
    (hmain : run.host.sources.file? source = some main)
    (hcourse : Course fs settings main.identity source {} (Line.ofText main.text)
      (run.mainOpened main.identity) trail r) :
    MainCourse fs settings source run
      (run :: run.mainBegun main.identity :: (trail ++ [leftBy (endMain main.identity (leave r))]))
      (endMain main.identity (leave r))

/-- The course of a file in place. -/
inductive PlaceCourse (fs : FileSystem) (settings : Settings) (file : Identity) (run : Run Scan) :
    List (Run Scan) → EStateM.Result ScanError (Run Scan) Report → Prop
  | unreadable {e : IoError} (hload : run.host.sources.load fs file = .error e) :
    PlaceCourse fs settings file run [run] (.error (.unreadable file.path e) run)
  | scanned {source : SourceId} {sources : Sources} {loaded : SourceFile} {trail : List (Run Scan)}
    {r : EStateM.Result ScanError (Run Scan) FileState}
    (hload : run.host.sources.load fs file = .ok (source, sources))
    (hfound : sources.file? source = some loaded)
    (hcourse : Course fs settings file source {} (Line.ofText loaded.text)
      (run.placeOpened file sources) trail r) :
    PlaceCourse fs settings file run (run :: (trail ++ [leftBy (leave r)])) (leave r)

section
variable (fs : FileSystem) (settings : Settings) (run : Run Scan)

theorem process_main {source : SourceId} {main : SourceFile}
    (hmain : run.host.sources.file? source = some main) :
    process fs settings source run =
      endMain main.identity (leave (scanLines fs settings.search
        (readerIn fs settings (run.mainOpened main.identity)) main.identity source {}
        (Line.ofText main.text) (run.mainOpened main.identity))) := by
  have hwithin : within main.identity none (scanFile fs settings.search
      (readerWithin fs settings.search (settings.maxDepth - run.host.stack.length)) main.identity
      source) (run.mainBegun main.identity) = leave (scanLines fs settings.search
        (readerIn fs settings (run.mainOpened main.identity)) main.identity source {}
        (Line.ofText main.text) (run.mainOpened main.identity)) :=
    within_scanFile none hmain
  rw [process_apply, hmain]
  simp only [hwithin]
  cases leave (scanLines fs settings.search
      (readerIn fs settings (run.mainOpened main.identity)) main.identity source {}
      (Line.ofText main.text) (run.mainOpened main.identity)) <;> rfl

/-- A main file fails as its lines do. -/
theorem process_eq_error {fs : FileSystem} {settings : Settings} {source : SourceId}
    {run left : Run Scan} {e : ScanError} (h : process fs settings source run = .error e left) :
    ∃ main, run.host.sources.file? source = some main ∧
      leave (scanLines fs settings.search (readerIn fs settings (run.mainOpened main.identity))
        main.identity source {} (Line.ofText main.text) (run.mainOpened main.identity)) =
          .error e left := by
  cases hmain : run.host.sources.file? source with
  | none =>
    rw [process_apply, hmain] at h
    cases h
  | some main =>
    refine ⟨main, rfl, ?_⟩
    rw [process_main fs settings run hmain] at h
    cases hleave : leave (scanLines fs settings.search
        (readerIn fs settings (run.mainOpened main.identity)) main.identity source {}
        (Line.ofText main.text) (run.mainOpened main.identity)) with
    | ok report last => rw [hleave] at h; cases h
    | error e' last => rw [hleave] at h; cases h; rfl

/-- A main file that is there is left in good order if it does not fail. -/
theorem process_eq_ok {fs : FileSystem} {settings : Settings} {source : SourceId}
    {run finish : Run Scan} {main : SourceFile} (hmain : run.host.sources.file? source = some main)
    (h : process fs settings source run = .ok () finish) :
    ∃ report left,
      leave (scanLines fs settings.search (readerIn fs settings (run.mainOpened main.identity))
        main.identity source {} (Line.ofText main.text) (run.mainOpened main.identity)) =
          .ok report left ∧ finish = left.mainEnded main.identity report := by
  rw [process_main fs settings run hmain] at h
  cases hleave : leave (scanLines fs settings.search
      (readerIn fs settings (run.mainOpened main.identity)) main.identity source {}
      (Line.ofText main.text) (run.mainOpened main.identity)) with
  | ok report left => rw [hleave] at h; cases h; exact ⟨report, left, rfl, rfl⟩
  | error e last => rw [hleave] at h; cases h

/-- Every scan of a main file has a course. -/
theorem exists_mainCourse (source : SourceId) :
    ∃ trail, MainCourse fs settings source run trail (process fs settings source run) := by
  cases hmain : run.host.sources.file? source with
  | none =>
    refine ⟨[run], ?_⟩
    rw [process_apply, hmain]
    exact .absent hmain
  | some main =>
    obtain ⟨trail, hcourse⟩ := exists_course fs settings main.identity source {}
      (Line.ofText main.text) (run.mainOpened main.identity)
    rw [process_main fs settings run hmain]
    exact ⟨_, .scanned hmain hcourse⟩

/-- The course of a main file ends as its scan does. -/
theorem MainCourse.result_eq {fs : FileSystem} {settings : Settings} {source : SourceId}
    {run : Run Scan} {trail : List (Run Scan)} {r : EStateM.Result ScanError (Run Scan) Unit}
    (h : MainCourse fs settings source run trail r) : process fs settings source run = r := by
  cases h with
  | absent hmain => rw [process_apply, hmain]
  | scanned hmain hcourse => rw [process_main fs settings run hmain, hcourse.result_eq]

/-- Every scan of a file in place has a course. -/
theorem exists_placeCourse (file : Identity) :
    ∃ trail, PlaceCourse fs settings file run trail (includeFile fs settings file run) := by
  cases hload : run.host.sources.load fs file with
  | error e =>
    refine ⟨[run], ?_⟩
    rw [includeFile_apply, includeWith_apply, hload]
    exact .unreadable hload
  | ok pair =>
    obtain ⟨source, sources⟩ := pair
    obtain ⟨_, _, loaded, hfound⟩ := Sources.load_ok hload
    obtain ⟨trail, hcourse⟩ := exists_course fs settings file source {}
      (Line.ofText loaded.text) (run.placeOpened file sources)
    rw [includeFile_loaded hload hfound rfl]
    exact ⟨_, .scanned hload hfound hcourse⟩

end

end IncludeOnce
