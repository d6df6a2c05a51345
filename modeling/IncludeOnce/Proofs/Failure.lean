import IncludeOnce.Proofs.Course
import IncludeOnce.Proofs.Effects

/-! Where a scan fails, and the way there.

A scan that fails has come, file by file, to a line that cannot be handled or to an end at
which a section is open. `Breaks` says so in terms of the files alone: each file on the way
was scanned up to a line, and that line opened the next file, until the last one fails by
itself. Every failing scan breaks in this way (`exists_breaks`).

What the scan notes of its failure is then the way, read from the inside: the innermost
line is the place of the failure and the lines before it are the chain
(`Breaks.failure`). Each of them is a line of a file that has been read (`Breaks.lines`). A
scan that comes to its end notes nothing (`scanLines_smooth`). -/
namespace IncludeOnce
open Scan

/-! ### Sections that stay open -/

namespace Line

/-- The lines whose sections are open after a line, innermost first. -/
def opened (numbers : List Nat) (line : Numbered Line) : List Nat :=
  match line.content with
  | .opening _ => line.line :: numbers
  | .closing => numbers.tail
  | _ => numbers

/-- The lines whose sections are never closed, innermost first. -/
def unclosed (lines : List (Numbered Line)) : List Nat := lines.foldl opened []

end Line

section
variable {fs : FileSystem} {search : HeaderSearch} {reader : Reader} {file : Identity}
  {source : SourceId} {st after : FileState} {run left : Run Scan}

/-- A line that does not fail opens and closes sections as the line alone tells. -/
theorem step_sections {line : Numbered Line} {numbers : List Nat}
    (hst : st.sections.map (·.opened) = numbers.map (⟨source, ·⟩))
    (h : step fs search reader file ⟨source, line.line⟩ st line.content run = .ok after left) :
    after.sections.map (·.opened) = (Line.opened numbers line).map (⟨source, ·⟩) := by
  obtain ⟨number, content⟩ := line
  cases content with
  | text content =>
    have hafter : after.sections = st.sections := by
      simp only [step] at h
      split at h <;> cases h <;> (split <;> rfl)
    rw [hafter]
    exact hst
  | marker =>
    cases h
    exact hst
  | unknown name =>
    simp only [step] at h
    split at h
    · cases h
      exact hst
    · cases h
  | command c =>
    simp only [step] at h
    split at h
    · cases h
      exact hst
    · obtain ⟨declares, _, _, h⟩ := bind_eq_ok h
      cases h
      exact hst
  | opening t =>
    obtain ⟨_, _, _, h⟩ := bind_eq_ok h
    obtain ⟨_, _, _, h⟩ := bind_eq_ok h
    cases h
    exact congrArg (Location.mk source number :: ·) hst
  | elseIf operand =>
    obtain ⟨_, _, _, h⟩ := bind_eq_ok h
    obtain ⟨s, outer, active, hs, _, rfl⟩ := elseIf_eq_ok (ofExcept_eq_ok h).1
    have hs : st.sections = s :: outer := hs
    rw [hs] at hst
    exact hst
  | otherwise =>
    obtain ⟨s, outer, hs, _, rfl⟩ := otherwise_eq_ok (ofExcept_eq_ok h).1
    have hs : st.sections = s :: outer := hs
    rw [hs] at hst
    exact hst
  | closing =>
    obtain ⟨s, outer, hs, rfl⟩ := closeSection_eq_ok (ofExcept_eq_ok h).1
    have hs : st.sections = s :: outer := hs
    rw [hs] at hst
    show outer.map (·.opened) = numbers.tail.map (⟨source, ·⟩)
    rw [List.map_tail, ← hst]
    rfl

/-- The sections that are open behind lines are those that the lines leave open. -/
theorem scanLines_sections {lines : List (Numbered Line)} {numbers : List Nat}
    (hst : st.sections.map (·.opened) = numbers.map (⟨source, ·⟩))
    (h : scanLines fs search reader file source st lines run = .ok after left) :
    after.sections.map (·.opened) = (lines.foldl Line.opened numbers).map (⟨source, ·⟩) := by
  induction lines generalizing st run numbers with
  | nil =>
    cases h
    exact hst
  | cons line rest ih =>
    obtain ⟨next, middle, hstep, hrest⟩ := bind_eq_ok h
    exact ih (step_sections hst (onFailure_eq_ok hstep)) hrest

theorem scanLines_append (st : FileState) (front back : List (Numbered Line)) :
    scanLines fs search reader file source st (front ++ back) =
      scanLines fs search reader file source st front >>= fun after =>
        scanLines fs search reader file source after back := by
  induction front generalizing st with
  | nil => rw [List.nil_append, scanLines, pure_bind]
  | cons line rest ih => simp only [List.cons_append, scanLines, bind_assoc, ih]

end

/-! ### Scans that come to their end -/

/-- No file was left open, no failure noted, and nothing forgotten that had been read. -/
structure Smooth (run after : Run Scan) : Prop where
  stack : after.host.stack = run.host.stack
  failure : after.host.failure = run.host.failure
  sources : run.host.sources.Grows after.host.sources

namespace Smooth

theorem refl (run : Run Scan) : Smooth run run := ⟨rfl, rfl, .refl _⟩

theorem trans {run middle after : Run Scan} (h : Smooth run middle) (k : Smooth middle after) :
    Smooth run after :=
  ⟨k.stack.trans h.stack, k.failure.trans h.failure, h.sources.trans k.sources⟩

end Smooth

section
variable {fs : FileSystem} {settings : Settings} {file f : Identity} {location : Location}
  {source inner : SourceId} {kind : RequestKind} {operand trailing : Text} {header : HeaderName}
  {st : FileState} {lines : List (Numbered Line)} {run left : Run Scan} {e : ScanError}
  {sources : Sources} {loaded : SourceFile} {trail : List (Run Scan)} {report : Report}
  {r : EStateM.Result ScanError (Run Scan) FileState}

/-- A line that asks for nothing is handled smoothly, also where it fails. -/
theorem step_smooth {search : HeaderSearch} {reader : Reader} {line : Line}
    (hasked : line.asked? st = none)
    (hstep : step fs search reader file location st line run = r) : Smooth run (leftBy r) := by
  rw [← hstep, leftBy_step fs search reader file location hasked]
  exact ⟨rfl, rfl, .refl _⟩

theorem handing_smooth (run : Run Scan) (location : Location) (kind : RequestKind)
    (header : HeaderName) (trailing : Text) :
    Smooth run (handing run location kind header trailing) := by
  obtain ⟨d, hd⟩ := handing_eq run location kind header trailing
  rw [hd]
  exact ⟨rfl, rfl, .refl _⟩

theorem droppedInside_smooth (reason : SkipReason) :
    Smooth run (droppedInside run file location kind header trailing f reason) :=
  have h := handing_smooth run location kind header trailing
  ⟨h.stack, h.failure, h.sources⟩

theorem openedInside_failure :
    (openedInside run file location kind header trailing f sources).host.failure =
      run.host.failure :=
  (handing_smooth run location kind header trailing).failure

theorem Opens.grows
    (h : Opens fs settings file location kind operand run header trailing f inner sources loaded) :
    run.host.sources.Grows sources :=
  (Sources.load_ok h.load).1

/-- A file that is left in good order has no section open. -/
theorem leave_eq_ok (h : leave r = .ok report left) :
    ∃ st last, r = .ok st last ∧ st.sections = [] ∧ report = st.report ∧
      left = last.mapHost pop := by
  cases r with
  | error e last => cases h
  | ok st last =>
    simp only [leave, FileState.finish] at h
    cases hs : st.sections with
    | nil =>
      rw [hs] at h
      cases h
      exact ⟨st, last, rfl, hs, rfl, rfl⟩
    | cons s outer =>
      rw [hs] at h
      cases h

/-- A file that fails did so on a line, or has a section open at its end. -/
theorem leave_eq_error (h : leave r = .error e left) :
    (∃ last, r = .error e last ∧ left = last.mapHost pop) ∨
    ∃ st last s outer, r = .ok st last ∧ st.sections = s :: outer ∧ e = .unterminated ∧
      left = (last.mapHost (·.fail s.opened)).mapHost pop := by
  cases r with
  | error e' last =>
    cases h
    exact .inl ⟨last, rfl, rfl⟩
  | ok st last =>
    simp only [leave, FileState.finish] at h
    cases hs : st.sections with
    | nil =>
      rw [hs] at h
      cases h
    | cons s outer =>
      rw [hs] at h
      cases h
      exact .inr ⟨st, last, s, outer, rfl, hs, rfl, rfl⟩

/-- A file in place is read smoothly if what was done inside it was. -/
theorem finishedInside_smooth
    (hopens : Opens fs settings file location kind operand run header trailing f inner sources
      loaded)
    (hinner : ∀ st last, r = .ok st last →
      Smooth (openedInside run file location kind header trailing f sources) last)
    (hleave : leave r = .ok report left) :
    Smooth run (finishedInside run f report left) := by
  obtain ⟨st, last, hr, _, _, rfl⟩ := leave_eq_ok hleave
  have hlast := hinner st last hr
  refine ⟨?_, hlast.failure.trans openedInside_failure, hopens.grows.trans hlast.sources⟩
  show last.host.stack.tail = run.host.stack
  rw [hlast.stack, openedInside_stack]
  rfl

theorem Course.smooth (h : Course fs settings file source st lines run trail r) :
    ∀ after left, r = .ok after left → Smooth run left := by
  induction h with
  | done =>
    rintro after left ⟨⟩
    exact .refl _
  | line hasked hstep hrest ih =>
    intro after left hr
    have hline := step_smooth hasked hstep
    exact hline.trans (ih after left hr)
  | fails hasked hstep => rintro after left ⟨⟩
  | refused hasked hrefused => rintro after left ⟨⟩
  | dropped hasked hmeans hdecide hrest ih =>
    intro after left hr
    exact (droppedInside_smooth _).trans (ih after left hr)
  | entered hasked hopens hinner hleave hrest ihinner ihrest =>
    intro after left hr
    exact (finishedInside_smooth hopens ihinner hleave).trans (ihrest after left hr)
  | stopped hasked hopens hinner hleave ihinner => rintro after left ⟨⟩

/-- **A scan that comes to its end notes no failure.** -/
theorem scanLines_smooth {after : FileState}
    (h : scanLines fs settings.search (readerIn fs settings run) file source st lines run =
      .ok after left) : Smooth run left := by
  obtain ⟨trail, hcourse⟩ := exists_course fs settings file source st lines run
  exact hcourse.smooth after left h

end

/-! ### The way to a failure -/

/-- A line at which the scan of a file stops. -/
structure Stop where
  file : Identity
  source : SourceId
  line : Nat

def Stop.location (s : Stop) : Location := ⟨s.source, s.line⟩

/-- The file that a line asks for cannot be found or read. -/
def ScanError.isMissing : ScanError → Bool
  | .unresolved _ | .unreadable _ _ => true
  | _ => false

/-- The scan of an open file comes to a line: the lines before it have been handled. -/
def ComesTo (fs : FileSystem) (settings : Settings) (file : Identity) (source : SourceId)
    (text : Text) (opened : Run Scan) (line : Numbered Line) (st : FileState)
    (moment : Run Scan) : Prop :=
  ∃ front back, Line.ofText text = front ++ line :: back ∧
    scanLines fs settings.search (readerIn fs settings opened) file source {} front opened =
      .ok st moment

/-- The scan of an open file fails: the lines at which the open files stop, outermost first,
whether the last of these lines asks for a file that is missing, the state in which the
failure arises, the failure, and the state in which the file is left. -/
inductive Breaks (fs : FileSystem) (settings : Settings) :
    Identity → SourceId → Text → Run Scan → List Stop → Bool → Run Scan → ScanError →
      Run Scan → Prop
  /-- A line that asks for nothing cannot be handled. -/
  | line {file : Identity} {source : SourceId} {text : Text} {opened moment left : Run Scan}
    {line : Numbered Line} {st : FileState} {e : ScanError}
    (hcomes : ComesTo fs settings file source text opened line st moment)
    (hasked : line.content.asked? st = none)
    (hstep : step fs settings.search none file ⟨source, line.line⟩ st line.content moment =
      .error e left) :
    Breaks fs settings file source text opened [⟨file, source, line.line⟩] false moment e
      (left.mapHost (·.fail ⟨source, line.line⟩))
  /-- A request comes to nothing before any file is opened. -/
  | request {file : Identity} {source : SourceId} {text operand : Text} {kind : RequestKind}
    {opened moment left : Run Scan} {line : Numbered Line} {st : FileState} {e : ScanError}
    (hcomes : ComesTo fs settings file source text opened line st moment)
    (hasked : line.content.asked? st = some (kind, operand))
    (hrefused : Refused fs settings file ⟨source, line.line⟩ kind operand moment e left) :
    Breaks fs settings file source text opened [⟨file, source, line.line⟩] e.isMissing moment e
      (left.mapHost (·.fail ⟨source, line.line⟩))
  /-- A section is open at the end of the file. -/
  | ending {file : Identity} {source : SourceId} {text : Text} {opened moment : Run Scan}
    {st : FileState} {number : Nat} {outer : List Nat}
    (hscan : scanLines fs settings.search (readerIn fs settings opened) file source {}
      (Line.ofText text) opened = .ok st moment)
    (hopen : Line.unclosed (Line.ofText text) = number :: outer) :
    Breaks fs settings file source text opened [⟨file, source, number⟩] false moment .unterminated
      (moment.mapHost (·.fail ⟨source, number⟩))
  /-- The file that a line opens fails. -/
  | inside {file f : Identity} {source inner : SourceId} {text operand trailing : Text}
    {kind : RequestKind} {header : HeaderName} {sources : Sources} {loaded : SourceFile}
    {opened middle moment left : Run Scan} {line : Numbered Line} {st : FileState}
    {way : List Stop} {missing : Bool} {e : ScanError}
    (hcomes : ComesTo fs settings file source text opened line st middle)
    (hasked : line.content.asked? st = some (kind, operand))
    (hopens : Opens fs settings file ⟨source, line.line⟩ kind operand middle header trailing f inner
      sources loaded)
    (hinner : Breaks fs settings f inner loaded.text
      (openedInside middle file ⟨source, line.line⟩ kind header trailing f sources) way missing
      moment e left) :
    Breaks fs settings file source text opened (⟨file, source, line.line⟩ :: way) missing moment e
      ((failedInside middle (left.mapHost pop)).mapHost (·.fail ⟨source, line.line⟩))

section
variable {fs : FileSystem} {settings : Settings} {file : Identity} {source : SourceId}
  {text : Text} {st after : FileState} {line : Numbered Line}
  {front lines rest : List (Numbered Line)}
  {opened run middle left moment : Run Scan} {trail : List (Run Scan)} {e : ScanError}
  {r : EStateM.Result ScanError (Run Scan) FileState}

/-- One line more has been handled of a file. -/
theorem scanLines_concat {fs : FileSystem} {search : HeaderSearch} {reader : Reader}
    (hfront : scanLines fs search reader file source {} front opened = .ok st run)
    (hline : scanLines fs search reader file source st [line] run = .ok after middle) :
    scanLines fs search reader file source {} (front ++ [line]) opened = .ok after middle := by
  rw [scanLines_append, bind_apply, hfront]
  exact hline

/-- The lines that were handled up to a line are handled up to the next one. -/
theorem Course.onward {trail' : List (Run Scan)}
    (hlines : Line.ofText text = front ++ line :: rest)
    (hfront : scanLines fs settings.search (readerIn fs settings opened) file source {} front
      opened = .ok st run)
    (hone : Course fs settings file source st [line] run trail' (.ok after middle)) :
    Line.ofText text = (front ++ [line]) ++ rest ∧
      scanLines fs settings.search (readerIn fs settings opened) file source {} (front ++ [line])
        opened = .ok after middle := by
  refine ⟨by rw [hlines, List.append_assoc]; rfl, ?_⟩
  refine scanLines_concat hfront ?_
  rw [← readerIn_congr (scanLines_smooth hfront).stack]
  exact hone.result_eq

/-- **A scan that fails breaks** somewhere on the way from its first line. -/
theorem Course.breaks (h : Course fs settings file source st lines run trail r) :
    ∀ text opened front, Line.ofText text = front ++ lines →
      scanLines fs settings.search (readerIn fs settings opened) file source {} front opened =
        .ok st run →
      ∀ e left, leave r = .error e left → ∃ way missing moment last,
        Breaks fs settings file source text opened way missing moment e last ∧
          left = last.mapHost pop := by
  induction h with
  | done file source st run =>
    intro text opened front hlines hfront e left hleave
    rw [List.append_nil] at hlines
    obtain ⟨last, hr, _⟩ | ⟨st', last, s, outer, hr, hs, rfl, rfl⟩ := leave_eq_error hleave
    · cases hr
    · cases hr
      have hstart : ({} : FileState).sections.map (·.opened) =
          ([] : List Nat).map (Location.mk source) := rfl
      have hsections := scanLines_sections hstart hfront
      rw [hs, List.map_cons] at hsections
      obtain ⟨number, outer, hopen, hnumber, _⟩ := List.map_eq_cons_iff.mp hsections.symm
      rw [← hlines] at hopen hfront
      rw [← hnumber]
      exact ⟨_, _, _, _, .ending hfront hopen, rfl⟩
  | line hasked hstep hrest ih =>
    intro text opened front hlines hfront e left hleave
    obtain ⟨hlines, hfront⟩ := Course.onward hlines hfront (.line hasked hstep (.done _ _ _ _))
    exact ih text opened _ hlines hfront e left hleave
  | fails hasked hstep =>
    intro text opened front hlines hfront e left hleave
    cases hleave
    exact ⟨_, _, _, _, .line ⟨front, _, hlines, hfront⟩ hasked hstep, rfl⟩
  | refused hasked hrefused =>
    intro text opened front hlines hfront e left hleave
    cases hleave
    exact ⟨_, _, _, _, .request ⟨front, _, hlines, hfront⟩ hasked hrefused, rfl⟩
  | dropped hasked hmeans hdecide hrest ih =>
    intro text opened front hlines hfront e left hleave
    obtain ⟨hlines, hfront⟩ :=
      Course.onward hlines hfront (.dropped hasked hmeans hdecide (.done _ _ _ _))
    exact ih text opened _ hlines hfront e left hleave
  | entered hasked hopens hinner hleave' hrest ihinner ihrest =>
    intro text opened front hlines hfront e left hleave
    obtain ⟨hlines, hfront⟩ :=
      Course.onward hlines hfront (.entered hasked hopens hinner hleave' (.done _ _ _ _))
    exact ihrest text opened _ hlines hfront e left hleave
  | stopped hasked hopens hinner hleave' ihinner =>
    intro text opened front hlines hfront e left hleave
    cases hleave
    obtain ⟨way, missing, moment, last, hbreaks, rfl⟩ :=
      ihinner _ _ [] rfl rfl _ _ hleave'
    exact ⟨_, _, _, _, .inside ⟨front, _, hlines, hfront⟩ hasked hopens hbreaks, rfl⟩

theorem fail_failure {s : Scan} (h : s.failure = none) (location : Location) :
    (s.fail location).failure = some ⟨location, s.stack.filterMap (·.site)⟩ := by
  rw [Scan.fail, h]

/-- Only the first failure is noted. -/
theorem fail_failed {s : Scan} {failure : Failure} (h : s.failure = some failure)
    (location : Location) : (s.fail location).failure = some failure := by
  rw [Scan.fail, h]
  exact h

theorem fail_sources (s : Scan) (location : Location) : (s.fail location).sources = s.sources := by
  obtain ⟨failure, hf⟩ := s.fail_eq location
  rw [hf]

theorem Refused.smooth {location : Location} {kind : RequestKind} {operand : Text}
    (h : Refused fs settings file location kind operand run e left) : Smooth run left := by
  cases h with
  | malformed hread => exact .refl run
  | @tooDeep header trailing hread hdeep =>
    obtain ⟨d, hd⟩ := warned_eq run location kind trailing
    rw [stoppedInside, hd]
    exact ⟨rfl, rfl, .refl _⟩
  | @unresolved header trailing e hread hroom hresolve =>
    have h := handing_smooth run location kind header trailing
    exact ⟨h.stack, h.failure, h.sources⟩
  | @unreadable header trailing f e hmeans hdecide hload =>
    have h := handing_smooth run location kind header trailing
    exact ⟨h.stack, h.failure, h.sources⟩

theorem ComesTo.smooth (h : ComesTo fs settings file source text opened line st moment) :
    Smooth opened moment := by
  obtain ⟨front, back, _, hfront⟩ := h
  exact scanLines_smooth hfront

variable {way : List Stop} {missing : Bool}

/-- The first failure is noted where it arises. -/
theorem Smooth.fail_failure (h : Smooth opened moment) (hnone : opened.host.failure = none)
    (location : Location) :
    (moment.mapHost (·.fail location)).host.failure =
      some ⟨location, opened.host.stack.filterMap (·.site)⟩ := by
  rw [← h.stack]
  exact IncludeOnce.fail_failure (h.failure.trans hnone) location

/-- **The failure that is noted is the way to it**, from the innermost line outward, and
then on through the files that were open before. -/
theorem Breaks.failure (h : Breaks fs settings file source text opened way missing moment e left)
    (hnone : opened.host.failure = none) :
    ∃ failure, left.host.failure = some failure ∧
      failure.location :: failure.chain =
        (way.map Stop.location).reverse ++ opened.host.stack.filterMap (·.site) := by
  induction h with
  | line hcomes hasked hstep =>
    exact ⟨_, (hcomes.smooth.trans (step_smooth hasked hstep)).fail_failure hnone _, rfl⟩
  | request hcomes hasked hrefused =>
    exact ⟨_, (hcomes.smooth.trans hrefused.smooth).fail_failure hnone _, rfl⟩
  | ending hscan hopen => exact ⟨_, (scanLines_smooth hscan).fail_failure hnone _, rfl⟩
  | inside hcomes hasked hopens hinner ih =>
    obtain ⟨failure, hfailure, hway⟩ :=
      ih (openedInside_failure.trans (hcomes.smooth.failure.trans hnone))
    refine ⟨failure, fail_failed (by exact hfailure) _, ?_⟩
    rw [hway, openedInside_stack, hcomes.smooth.stack, List.map_cons, List.reverse_cons,
      List.append_assoc]
    rfl

/-- The files that are open when the failure arises are those on the way. -/
theorem Breaks.openFiles
    (h : Breaks fs settings file source text opened way missing moment e left) :
    ∀ site rest, opened.host.stack = ⟨file, site⟩ :: rest →
      moment.host.stack.map (·.identity) =
        (way.map (·.file)).reverse ++ rest.map (·.identity) := by
  induction h with
  | line hcomes hasked hstep =>
    intro site rest hstack
    rw [hcomes.smooth.stack, hstack]
    rfl
  | request hcomes hasked hrefused =>
    intro site rest hstack
    rw [hcomes.smooth.stack, hstack]
    rfl
  | ending hscan hopen =>
    intro site rest hstack
    rw [(scanLines_smooth hscan).stack, hstack]
    rfl
  | inside hcomes hasked hopens hinner ih =>
    intro site rest hstack
    rw [ih _ _ openedInside_stack, hcomes.smooth.stack, hstack]
    simp only [List.map_cons, List.reverse_cons, List.append_assoc, List.singleton_append]

end

/-! ### Lines that exist -/

namespace Line

theorem spliceFrom_line {first next : Nat} {joined : Text} {rest : List Text} {l : Numbered Text}
    (h : l ∈ spliceFrom first joined next rest) :
    l.line = first ∨ (next ≤ l.line ∧ l.line < next + rest.length) := by
  induction rest generalizing first joined next with
  | nil =>
    rw [spliceFrom, List.mem_singleton] at h
    exact .inl (congrArg Numbered.line h)
  | cons line rest ih =>
    rw [List.length_cons]
    rw [spliceFrom] at h
    split at h
    · have := ih h
      omega
    · rcases List.mem_cons.mp h with rfl | h
      · exact .inl rfl
      · have := ih h
        omega

/-- A logical line is numbered by a physical one. -/
theorem splice_line {lines : List Text} {l : Numbered Text} (h : l ∈ splice lines) :
    1 ≤ l.line ∧ l.line ≤ lines.length := by
  cases lines with
  | nil => cases h
  | cons line rest =>
    have := spliceFrom_line h
    rw [List.length_cons]
    omega

theorem stripAll_lines (inBlock : Bool) (lines : List (Numbered Text)) :
    (Comment.stripAll inBlock lines).1.map (·.line) = lines.map (·.line) := by
  induction lines generalizing inBlock with
  | nil => rfl
  | cons line rest ih =>
    rw [List.map_cons, ← ih (Comment.strip inBlock line.content).2]
    rfl

/-- The lines of a text are numbered as its physical lines are. -/
theorem ofText_line {t : Text} {l : Numbered Line} (h : l ∈ ofText t) :
    1 ≤ l.line ∧ l.line ≤ t.lines.length := by
  obtain ⟨stripped, hstripped, rfl⟩ := List.mem_map.mp h
  have hnumber : stripped.line ∈ (splice t.lines).map (·.line) := by
    rw [← stripAll_lines false]
    exact List.mem_map_of_mem hstripped
  obtain ⟨whole, hwhole, hline⟩ := List.mem_map.mp hnumber
  have := splice_line hwhole
  simpa [hline] using this

theorem foldl_opened_mem {numbers : List Nat} {lines : List (Numbered Line)} {n : Nat}
    (h : n ∈ lines.foldl opened numbers) : n ∈ numbers ∨ ∃ l ∈ lines, l.line = n := by
  induction lines generalizing numbers with
  | nil => exact .inl h
  | cons line rest ih =>
    rcases ih h with h | ⟨l, hl, rfl⟩
    · unfold opened at h
      split at h
      · rcases List.mem_cons.mp h with rfl | h
        · exact .inr ⟨line, List.mem_cons_self, rfl⟩
        · exact .inl h
      · exact .inl (List.mem_of_mem_tail h)
      · exact .inl h
    · exact .inr ⟨l, List.mem_cons_of_mem _ hl, rfl⟩

end Line

namespace Stop

/-- A stop is a line of a file that has been read. -/
def IsIn (s : Stop) (sources : Sources) : Prop :=
  ∃ loaded, sources.file? s.source = some loaded ∧ s.file.isSame loaded.identity = true ∧
    1 ≤ s.line ∧ s.line ≤ loaded.text.lines.length

theorem IsIn.grow {s : Stop} {sources more : Sources} (h : s.IsIn sources)
    (hgrows : sources.Grows more) : s.IsIn more := by
  obtain ⟨loaded, hfile, hline⟩ := h
  exact ⟨loaded, hgrows.file? hfile, hline⟩

theorem IsIn.line? {s : Stop} {sources : Sources} (h : s.IsIn sources) :
    (sources.line? s.location).isSome = true := by
  obtain ⟨loaded, hfile, _, hfirst, hlast⟩ := h
  obtain ⟨n, hn⟩ : ∃ n, s.line = n + 1 := ⟨s.line - 1, by omega⟩
  have hbound : n < loaded.text.lines.length := by omega
  rw [location, SourceTable.line?, hfile, hn]
  show (loaded.text.lines[n]?).isSome = true
  rw [List.getElem?_eq_getElem hbound]
  rfl

/-- A line of a text that has been read is a stop. -/
theorem isIn_of_mem {sources : Sources} {loaded : SourceFile} {file : Identity}
    {source : SourceId} {number : Nat} (hfile : sources.file? source = some loaded)
    (hsame : file.isSame loaded.identity = true)
    (hline : ∃ l ∈ Line.ofText loaded.text, l.line = number) :
    Stop.IsIn ⟨file, source, number⟩ sources := by
  obtain ⟨l, hl, rfl⟩ := hline
  exact ⟨loaded, hfile, hsame, Line.ofText_line hl⟩

end Stop

section
variable {fs : FileSystem} {settings : Settings} {file : Identity} {source : SourceId}
  {text : Text} {st : FileState} {line : Numbered Line} {opened left moment : Run Scan}
  {e : ScanError} {way : List Stop} {missing : Bool}

theorem ComesTo.mem (h : ComesTo fs settings file source text opened line st moment) :
    line ∈ Line.ofText text := by
  obtain ⟨front, back, hlines, _⟩ := h
  rw [hlines]
  exact List.mem_append_right _ List.mem_cons_self

/-- Nothing is forgotten that had been read. -/
theorem Breaks.sources (h : Breaks fs settings file source text opened way missing moment e left) :
    opened.host.sources.Grows left.host.sources := by
  induction h with
  | line hcomes hasked hstep =>
    rw [Run.mapHost, fail_sources]
    exact (hcomes.smooth.trans (step_smooth hasked hstep)).sources
  | request hcomes hasked hrefused =>
    rw [Run.mapHost, fail_sources]
    exact (hcomes.smooth.trans hrefused.smooth).sources
  | ending hscan hopen =>
    rw [Run.mapHost, fail_sources]
    exact (scanLines_smooth hscan).sources
  | inside hcomes hasked hopens hinner ih =>
    rw [Run.mapHost, fail_sources]
    exact hcomes.smooth.sources.trans (hopens.grows.trans ih)

/-- **Each stop on the way is a line of a file that has been read.** -/
theorem Breaks.lines (h : Breaks fs settings file source text opened way missing moment e left) :
    ∀ loaded, opened.host.sources.file? source = some loaded → loaded.text = text →
      file.isSame loaded.identity = true → ∀ stop ∈ way, stop.IsIn left.host.sources := by
  have hgrows := h.sources
  induction h with
  | line hcomes hasked hstep =>
    rintro loaded hfile rfl hsame stop hstop
    rw [List.mem_singleton] at hstop
    exact hstop ▸ (Stop.isIn_of_mem hfile hsame ⟨_, hcomes.mem, rfl⟩).grow hgrows
  | request hcomes hasked hrefused =>
    rintro loaded hfile rfl hsame stop hstop
    rw [List.mem_singleton] at hstop
    exact hstop ▸ (Stop.isIn_of_mem hfile hsame ⟨_, hcomes.mem, rfl⟩).grow hgrows
  | ending hscan hopen =>
    rintro loaded hfile rfl hsame stop hstop
    rw [List.mem_singleton] at hstop
    refine hstop ▸ (Stop.isIn_of_mem hfile hsame ?_).grow hgrows
    have hmem := hopen ▸ List.mem_cons_self
    rcases Line.foldl_opened_mem hmem with h | h
    · cases h
    · exact h
  | inside hcomes hasked hopens hinner ih =>
    rintro loaded hfile rfl hsame stop hstop
    rcases List.mem_cons.mp hstop with rfl | hstop
    · exact (Stop.isIn_of_mem hfile hsame ⟨_, hcomes.mem, rfl⟩).grow hgrows
    · obtain ⟨_, hfind, _⟩ := Sources.load_ok hopens.load
      obtain ⟨found, hfound, hfsame⟩ := Sources.find?_eq_some hfind
      cases hopens.found.symm.trans hfound
      rw [Run.mapHost, fail_sources]
      exact ih hinner.sources _ hopens.found rfl hfsame stop hstop

/-- The scan of a main file that fails breaks. -/
theorem process_breaks {run : Run Scan} (h : process fs settings source run = .error e left) :
    ∃ main way missing moment last, run.host.sources.file? source = some main ∧
      Breaks fs settings main.identity source main.text (run.mainOpened main.identity) way missing
        moment e last ∧ left = last.mapHost pop := by
  obtain ⟨main, hmain, hleave⟩ := process_eq_error h
  obtain ⟨trail, hcourse⟩ := exists_course fs settings main.identity source {}
    (Line.ofText main.text) (run.mainOpened main.identity)
  obtain ⟨way, missing, moment, last, hbreaks, hleft⟩ :=
    hcourse.breaks main.text _ [] rfl rfl e left hleave
  exact ⟨main, way, missing, moment, last, hmain, hbreaks, hleft⟩

/-- The scan of a main file that fails has noted the way to the failure. -/
theorem process_located {run : Run Scan} (hempty : run.host.stack = [])
    (hnone : run.host.failure = none) (h : process fs settings source run = .error e left) :
    ∃ main way missing moment last failure,
      run.host.sources.file? source = some main ∧
      Breaks fs settings main.identity source main.text (run.mainOpened main.identity) way missing
        moment e last ∧ left = last.mapHost pop ∧
      left.host.failure = some failure ∧
      failure.location :: failure.chain = (way.map Stop.location).reverse := by
  obtain ⟨main, way, missing, moment, last, hmain, hbreaks, rfl⟩ := process_breaks h
  obtain ⟨failure, hfailure, hway⟩ := hbreaks.failure hnone
  refine ⟨main, way, missing, moment, last, failure, hmain, hbreaks, rfl, hfailure, ?_⟩
  rw [hway, show (run.mainOpened main.identity).host.stack = [⟨main.identity, none⟩] from
    congrArg (_ :: ·) hempty]
  exact List.append_nil _

/-- The scan of a main file that comes to its end notes no failure. -/
theorem process_failure {run : Run Scan} (h : process fs settings source run = .ok () left) :
    left.host.failure = run.host.failure := by
  cases hmain : run.host.sources.file? source with
  | none =>
    rw [process_apply, hmain] at h
    cases h
    rfl
  | some main =>
    obtain ⟨report, closed, hleave, rfl⟩ := process_eq_ok hmain h
    obtain ⟨st, last, hscan, _, _, rfl⟩ := leave_eq_ok hleave
    exact (scanLines_smooth hscan).failure

end

/-- **A failing scan has noted the line that failed and the lines through which its file
was reached**, and a scan that comes to its end has noted nothing. The scan stops in each
of the files that are open when the failure arises: in the innermost one at the line that
cannot be handled, or at the line of the innermost section that is open at its end, and in
every other one at the line that opened the next. These lines are noted from the inside
out, and all of them are there in files that have been read. -/
theorem process_failure_located (fs : FileSystem) (settings : Settings) (source : SourceId)
    (run : Run Scan) (hempty : run.host.stack = []) (hnone : run.host.failure = none) :
    (∀ left, process fs settings source run = .ok () left → left.host.failure = none) ∧
    ∀ e left, process fs settings source run = .error e left →
      ∃ main way missing moment last failure,
        run.host.sources.file? source = some main ∧
        Breaks fs settings main.identity source main.text (run.mainOpened main.identity) way missing
          moment e last ∧ left = last.mapHost pop ∧
        moment.host.stack.map (·.identity) = (way.map (·.file)).reverse ∧
        left.host.failure = some failure ∧
        failure.location :: failure.chain = (way.map Stop.location).reverse ∧
        ∀ stop ∈ way, stop.IsIn left.host.sources ∧
          (left.host.sources.line? stop.location).isSome = true := by
  refine ⟨fun left h => (process_failure h).trans hnone, ?_⟩
  intro e left h
  obtain ⟨main, way, missing, moment, last, failure, hmain, hbreaks, rfl, hfailure, hway⟩ :=
    process_located hempty hnone h
  have hlines := hbreaks.lines main hmain rfl (Identity.isSame_refl _)
  refine ⟨main, way, missing, moment, last, failure, hmain, hbreaks, rfl, ?_, hfailure, hway, ?_⟩
  · rw [hbreaks.openFiles none [] (congrArg (_ :: ·) hempty)]
    exact List.append_nil _
  · intro stop hstop
    exact ⟨hlines stop hstop, (hlines stop hstop).line?⟩

/-- Three files: the second request goes over two lines, and the innermost file opens two
sections and closes none. -/
def unclosedDisk : FileSystem where
  entries := [(["main.c".toList], .file 1), (["a.h".toList], .file 2), (["b.h".toList], .file 3)]
  contents := [
    (2, "int a;\n#import \\\n  \"b.h\"\n".toList.map (·.toNat.toUInt8)),
    (3, "#if 0\n#else\n#if 1\n".toList.map (·.toNat.toUInt8))]

def unclosedMain : SourceFile :=
  .entered ⟨0⟩ ⟨.inode 1, .ofString "/main.c"⟩ "#define A\n#include \"a.h\"\n".toList

theorem unclosedMain_failure_located :
    (runOn unclosedMain).host.stack = [] ∧ (runOn unclosedMain).host.failure = none ∧
      (leftBy (process unclosedDisk {} ⟨0⟩ (runOn unclosedMain))).host.failure =
        some ⟨⟨⟨2⟩, 3⟩, [⟨⟨1⟩, 2⟩, ⟨⟨0⟩, 2⟩]⟩ ∧
      ∃ e left, process unclosedDisk {} ⟨0⟩ (runOn unclosedMain) = .error e left ∧
        ∃ main way missing moment last failure,
          (runOn unclosedMain).host.sources.file? ⟨0⟩ = some main ∧
          Breaks unclosedDisk {} main.identity ⟨0⟩ main.text
            ((runOn unclosedMain).mainOpened main.identity) way missing moment e last ∧
          left = last.mapHost pop ∧
          moment.host.stack.map (·.identity) = (way.map (·.file)).reverse ∧
          left.host.failure = some failure ∧
          failure.location :: failure.chain = (way.map Stop.location).reverse ∧
          ∀ stop ∈ way, stop.IsIn left.host.sources ∧
            (left.host.sources.line? stop.location).isSome = true := by
  have hfailure : (leftBy (process unclosedDisk {} ⟨0⟩ (runOn unclosedMain))).host.failure =
      some ⟨⟨⟨2⟩, 3⟩, [⟨⟨1⟩, 2⟩, ⟨⟨0⟩, 2⟩]⟩ := by decide +kernel
  obtain ⟨hends, hfails⟩ :=
    process_failure_located unclosedDisk {} ⟨0⟩ (runOn unclosedMain) rfl rfl
  refine ⟨rfl, rfl, hfailure, ?_⟩
  cases hprocess : process unclosedDisk {} ⟨0⟩ (runOn unclosedMain) with
  | ok value left =>
    rw [hprocess] at hfailure
    cases hfailure.symm.trans (hends left hprocess)
  | error e left => exact ⟨e, left, rfl, hfails e left hprocess⟩

end IncludeOnce
