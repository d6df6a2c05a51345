import IncludeOnce.Proofs.Moves

/-! The states that occur.

A scanner starts with the configured macros and an empty ledger. Main files and files in
place are then scanned, any number of them and in any order, whether the scans come to
their ends or not. `Reachable` are the states in between and the states that such a scan
comes past on its way, which `Passes` lists. In all of them the guard in the record of a
file is the guard of the text that has been read for it (`Reachable.sound`). -/
namespace IncludeOnce
open Scan

theorem Makes.leftBy {α : Type} {fs : FileSystem} {run : Run Scan} {x : ScanM α}
    {Q : α → Run Scan → Prop} (h : Makes fs run x Q) : Moves fs run (leftBy (x run)) := by
  cases hx : x run with
  | ok a after => exact (h.ok hx).1.moves
  | error e after => exact h.error hx

/-! ### On the way -/

section
variable (run : Run Scan) (file : Identity) (location : Location) (kind : RequestKind)
  (header : HeaderName) (trailing : Text) (f : Identity) (sources : Sources)

/-- A file that a line asks for has been begun. -/
def begunInside : Run Scan :=
  ((handing run location kind header trailing).note (.sought ⟨kind, header⟩ file.directory)).started
    ⟨kind, header⟩ f

/-- A file that a line asks for is open, and none of its lines has been handled yet. -/
def openedInside : Run Scan :=
  ((begunInside run file location kind header trailing f).mapHost ({ · with sources })).mapHost
    (·.push f (some location))

end

/-- Scanning lines comes past a state: before a line or at their end, when the request of a
live line is handed on, when the file it asks for has been begun, or while that file is
scanned in turn. -/
inductive Passes (fs : FileSystem) (search : HeaderSearch) :
    Nat → Identity → SourceId → FileState → List (Numbered Line) → Run Scan → Run Scan → Prop
  | here (room : Nat) (file : Identity) (source : SourceId) (st : FileState)
    (lines : List (Numbered Line)) (run : Run Scan) :
    Passes fs search room file source st lines run run
  | next {room : Nat} {file : Identity} {source : SourceId} {st after : FileState}
    {line : Numbered Line} {rest : List (Numbered Line)} {run middle moment : Run Scan}
    (hstep : step fs search (readerWithin fs search room) file ⟨source, line.line⟩ st line.content
      run = .ok after middle)
    (h : Passes fs search room file source after rest middle moment) :
    Passes fs search room file source st (line :: rest) run moment
  | handed {room : Nat} {file : Identity} {source : SourceId} {st : FileState} {number : Nat}
    {kind : RequestKind} {operand : Text} {header : HeaderName} {trailing : Text}
    {rest : List (Numbered Line)} {run : Run Scan} (hlive : st.skipping = false)
    (hread : HeaderName.read operand = some (header, trailing)) :
    Passes fs search (room + 1) file source st
      (⟨number, .command (.request kind operand)⟩ :: rest) run
      (handing run ⟨source, number⟩ kind header trailing)
  | begun {room : Nat} {file : Identity} {source : SourceId} {st : FileState} {number : Nat}
    {kind : RequestKind} {operand : Text} {header : HeaderName} {trailing : Text}
    {rest : List (Numbered Line)} {run : Run Scan} {f : Identity} (hlive : st.skipping = false)
    (hread : HeaderName.read operand = some (header, trailing))
    (hresolve : search.resolve fs header file.directory = .ok f)
    (hdecide : (handing run ⟨source, number⟩ kind header trailing).decision f = .process) :
    Passes fs search (room + 1) file source st
      (⟨number, .command (.request kind operand)⟩ :: rest) run
      (begunInside run file ⟨source, number⟩ kind header trailing f)
  | inside {room : Nat} {file : Identity} {source : SourceId} {st : FileState} {number : Nat}
    {kind : RequestKind} {operand : Text} {header : HeaderName} {trailing : Text}
    {rest : List (Numbered Line)} {run moment : Run Scan} {f : Identity} {inner : SourceId}
    {sources : Sources} {loaded : SourceFile} (hlive : st.skipping = false)
    (hread : HeaderName.read operand = some (header, trailing))
    (hresolve : search.resolve fs header file.directory = .ok f)
    (hdecide : (handing run ⟨source, number⟩ kind header trailing).decision f = .process)
    (hload : run.host.sources.load fs f = .ok (inner, sources))
    (hfile : sources.file? inner = some loaded)
    (h : Passes fs search room f inner {} (Line.ofText loaded.text)
      (openedInside run file ⟨source, number⟩ kind header trailing f sources) moment) :
    Passes fs search (room + 1) file source st
      (⟨number, .command (.request kind operand)⟩ :: rest) run moment

section
variable {fs : FileSystem} {search : HeaderSearch}

theorem handing_sources (run : Run Scan) (location : Location) (kind : RequestKind)
    (header : HeaderName) (trailing : Text) :
    (handing run location kind header trailing).host.sources = run.host.sources := by
  obtain ⟨d, hd⟩ := handing_eq run location kind header trailing
  rw [hd]
  rfl

theorem begunInside_moves (run : Run Scan) (file : Identity) (location : Location)
    (kind : RequestKind) (header : HeaderName) (trailing : Text) (f : Identity)
    (h : (handing run location kind header trailing).decision f = .process) :
    Moves fs run (begunInside run file location kind header trailing f) :=
  ((handing_moves run location kind header trailing).trans
    (.one (.idle _ (.sought ⟨kind, header⟩ file.directory) rfl))).trans
    (.one (.start _ ⟨kind, header⟩ f h))

/-- What a scan comes past is reached by moves. -/
theorem Passes.moves {room : Nat} {file : Identity} {source : SourceId} {st : FileState}
    {lines : List (Numbered Line)} {run moment : Run Scan}
    (h : Passes fs search room file source st lines run moment) : Moves fs run moment := by
  induction h with
  | here => exact .refl _
  | next hstep _ ih => exact ((step_makes (readerWithin_reads _) _ _).ok hstep).1.moves.trans ih
  | handed => exact handing_moves _ _ _ _ _
  | begun hlive hread hresolve hdecide => exact begunInside_moves _ _ _ _ _ _ _ hdecide
  | inside hlive hread hresolve hdecide hload hfile _ ih =>
    rw [← handing_sources] at hload
    exact (begunInside_moves _ _ _ _ _ _ _ hdecide).trans (.trans (.one (.load _ _ _ _ hload))
      (.trans (.one (.quiet _ _ rfl rfl)) ih))

end

/-- The states that occur. -/
inductive Reachable (fs : FileSystem) (settings : Settings) : Run Scan → Prop
  | new (journal : Journal) (diagnostics : Diagnostics) :
    Reachable fs settings
      { journal, host := { macros := .ofDefinitions settings.definitions, diagnostics } }
  /-- A file has been read from the disk. -/
  | loaded {run : Run Scan} {file : Identity} {source : SourceId} {sources : Sources}
    (h : Reachable fs settings run)
    (hload : run.host.sources.load fs file = .ok (source, sources)) :
    Reachable fs settings (run.mapHost ({ · with sources }))
  | processed {run : Run Scan} (source : SourceId) (h : Reachable fs settings run) :
    Reachable fs settings (leftBy (process fs settings source run))
  | included {run : Run Scan} (file : Identity) (h : Reachable fs settings run) :
    Reachable fs settings (leftBy (includeFile fs settings file run))
  /-- The way of a scan of a main file. -/
  | processing {run moment : Run Scan} {source : SourceId} {main : SourceFile}
    (h : Reachable fs settings run) (hmain : run.host.sources.file? source = some main)
    (hpasses : Passes fs settings.search (settings.maxDepth - run.host.stack.length) main.identity
      source {} (Line.ofText main.text)
      ((run.mainBegun main.identity).mapHost (·.push main.identity none)) moment) :
    Reachable fs settings moment
  /-- The way of a scan of a file in place. -/
  | including {run moment : Run Scan} {file : Identity} {source : SourceId} {sources : Sources}
    {loaded : SourceFile} (h : Reachable fs settings run)
    (hload : run.host.sources.load fs file = .ok (source, sources))
    (hfile : sources.file? source = some loaded)
    (hpasses : Passes fs settings.search (settings.maxDepth - run.host.stack.length) file source {}
      (Line.ofText loaded.text)
      ((run.mapHost ({ · with sources })).mapHost (·.push file run.host.requestSite)) moment) :
    Reachable fs settings moment

/-! ### What holds in all of them -/

/-- The guards in the ledger are those of the texts. -/
structure Sound (run : Run Scan) : Prop where
  guard : ∀ f name, (run.ledger.get f).guardName = some name →
    Shows run.host.sources f (some name)

namespace Sound
variable {fs : FileSystem} {run after : Run Scan}

/-- Guards and sources have not changed but for more files read. -/
theorem same (h : Sound run)
    (hl : ∀ f, (after.ledger.get f).guardName = (run.ledger.get f).guardName)
    (hs : run.host.sources.Grows after.host.sources) : Sound after :=
  ⟨fun f name hg => (h.guard f name (hl f ▸ hg)).grow hs⟩

/-- A record takes over a guard that the text shows. -/
theorem complete (h : Sound run) {file : Identity} {report : Report}
    (hr : Shows run.host.sources file report.guardName)
    (hl : after.ledger = run.ledger.complete file report)
    (hs : after.host.sources = run.host.sources) : Sound after := by
  refine ⟨fun f name hg => ?_⟩
  rw [hl, Ledger.get_complete] at hg
  rw [hs]
  split at hg
  · rename_i hsame
    have hname : report.guardName = some name := hg
    exact hname ▸ hr.congr hsame
  · exact h.guard f name hg

theorem move (h : Sound run) (hm : Move fs run after) : Sound after := by
  cases hm with
  | quiet f hm hs =>
    have hsources : (run.mapHost f).host.sources = run.host.sources := hs
    exact h.same (fun _ => rfl) (hsources ▸ .refl _)
  | idle entry hi => exact h.same (fun _ => rfl) (.refl _)
  | define name body => exact h.same (fun _ => rfl) (.refl _)
  | undefine name => exact h.same (fun _ => rfl) (.refl _)
  | lock file =>
    refine h.same (fun f => ?_) (.refl _)
    show ((run.ledger.markOnce file).get f).guardName = _
    rw [Ledger.get_markOnce]
    split <;> rfl
  | skip request file reason hd =>
    refine h.same (fun f => ?_) (.refl _)
    rw [Run.get_dropped]
    split <;> rfl
  | start request file hd =>
    refine h.same (fun f => ?_) (.refl _)
    rw [Run.get_started]
    split
    · split <;> rfl
    · rfl
  | load file source sources hl =>
    exact h.same (fun _ => rfl) (Sources.load_ok hl).1
  | finish file report hr => exact h.complete hr.guard rfl rfl

theorem moves (h : Sound run) (hm : Moves fs run after) : Sound after :=
  hm.keep (fun _ _ hmove hs => hs.move hmove) h

theorem mainBegun (h : Sound run) (main : Identity) : Sound (run.mainBegun main) := by
  refine h.same (fun f => ?_) (.refl _)
  show ((run.ledger.begin main).get f).guardName = _
  rw [Ledger.get_begin]
  split <;> rfl

theorem process (h : Sound run) (settings : Settings) (source : SourceId) :
    Sound (leftBy (process fs settings source run)) := by
  rw [process_apply]
  cases hmain : run.host.sources.file? source with
  | none => exact h
  | some main =>
    have hmakes : Makes fs (run.mainBegun main.identity) (within main.identity none
        (scanFile fs settings.search
          (readerWithin fs settings.search (settings.maxDepth - run.host.stack.length))
          main.identity source)) fun report after => Shows after.host.sources main.identity
            report.guardName :=
      .within (scanFile_reports (readerWithin_reads _) hmain (Sources.known?_identity hmain))
        fun report after hr => hr.guard
    simp only
    split
    · rename_i hscan
      obtain ⟨hgoes, hshows⟩ := hmakes.ok hscan
      exact ((h.mainBegun _).moves hgoes.moves).complete hshows rfl rfl
    · rename_i hscan
      exact (h.mainBegun _).moves (hmakes.error hscan)

end Sound

theorem Reachable.sound {fs : FileSystem} {settings : Settings} {run : Run Scan}
    (h : Reachable fs settings run) : Sound run := by
  induction h with
  | new journal diagnostics => exact ⟨nofun⟩
  | loaded _ hload ih => exact ih.move (.load _ _ _ _ hload)
  | processed source _ ih => exact ih.process _ _
  | included file _ ih =>
    rw [includeFile_apply]
    exact ih.moves (includeWith_makes (readerWithin_reads _) file _).leftBy
  | processing _ hmain hpasses ih =>
    exact (ih.mainBegun _).moves (.trans (.one (.quiet _ _ rfl rfl)) hpasses.moves)
  | including _ hload hfile hpasses ih =>
    exact ih.moves (.trans (.one (.load _ _ _ _ hload))
      (.trans (.one (.quiet _ _ rfl rfl)) hpasses.moves))

end IncludeOnce
