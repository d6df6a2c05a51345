import IncludeOnce.Pipeline
import IncludeOnce.Proofs.Opened
import IncludeOnce.Proofs.Paths

/-! To be read once, or guarded.

Take some headers that say they are to be read once, and give each of them an include
guard instead. Nothing that shows changes: `once_or_guard` says that a main file then
comes to the same end with the same text, and leaves the same macros but for the guards.

The decisions differ all the same. Where a header is asked for again, the one run drops
the request because the header is locked. The other drops it because the guard is defined,
or, while the header is still being read, reads it again with all its lines skipped
(`handle_agree`). The limit on open files is met before the decision, and so by both. -/
namespace IncludeOnce
open Scan

/-! ### File systems -/

/-- Two file systems that differ in the texts of headers only. -/
structure TwinDisks (guards : Guards) (fs gs : FileSystem) : Prop where
  stands : fs.Stands fs.current
  same : gs = { fs with contents := gs.contents }
  text : ∀ n, TwinText guards (fs.textOf n) (gs.textOf n) (guards n)
  distinct : guards.Distinct

/-- Disks with the same paths read the same files: none, one that has been read before, or the
file with one number, each with its own text. -/
theorem Sources.load_either {fs gs : FileSystem} (hsame : gs = { fs with contents := gs.contents })
    {s t : Sources} (h : t.files.map (·.identity) = s.files.map (·.identity)) (f : Identity) :
    (∃ e, s.load fs f = .error e ∧ t.load gs f = .error e) ∨
    (∃ id, s.load fs f = .ok (id, s) ∧ t.load gs f = .ok (id, t)) ∨
    ∃ m hnew hnew', fs.inodeAt f.path = .ok m ∧
      s.load fs f = .ok (⟨s.files.size⟩, s.enter f (fs.textOf m) hnew) ∧
      t.load gs f = .ok (⟨s.files.size⟩, t.enter f (gs.textOf m) hnew') := by
  have hinode : gs.inodeAt f.path = fs.inodeAt f.path := by
    rw [hsame]
    exact fs.inodeAt_contents _ _
  have hrefusals : gs.refusals = fs.refusals := by rw [hsame]
  have hfind := find?_eq_of_identity h f
  by_cases hnew : s.find? f = none
  · have hnew' : t.find? f = none := hfind.trans hnew
    cases hread : fs.read f.path with
    | error e =>
      refine .inl ⟨e, load_unread hnew hread, load_unread hnew' ?_⟩
      exact FileSystem.read_error_of_refusals hinode hrefusals hread
    | ok octets =>
      obtain ⟨m, hm, hopen, rfl⟩ := FileSystem.read_eq_ok_iff.mp hread
      have hread' : gs.read f.path = .ok ((gs.contents.lookup m).getD []) :=
        FileSystem.read_eq_ok_iff.mpr ⟨m, hinode.trans hm, hrefusals ▸ hopen, rfl⟩
      refine .inr (.inr ⟨m, hnew, hnew', hm, load_new hnew hread, ?_⟩)
      rw [← size_eq_of_identity h]
      exact load_new hnew' hread'
  · obtain ⟨id, hid⟩ := Option.ne_none_iff_exists'.mp hnew
    exact .inr (.inl ⟨id, load_known hid, load_known (hfind.trans hid)⟩)

/-- One file more on both sides. -/
theorem Sources.map_identity_enter {s t : Sources}
    (h : t.files.map (·.identity) = s.files.map (·.identity)) {f : Identity} (text twin : Text)
    (hnew : s.find? f = none) (hnew' : t.find? f = none) :
    (t.enter f twin hnew').files.map (·.identity) =
      (s.enter f text hnew).files.map (·.identity) := by
  show (t.files.push _).map _ = (s.files.push _).map _
  rw [Array.map_push, Array.map_push, h]
  rfl

theorem TwinSources.enter {guards : Guards} {s t : Sources} (h : TwinSources guards s t)
    {f : Identity} {text twin : Text} (ht : TwinText guards text twin (guards.of? f))
    (hnew : s.find? f = none) (hnew' : t.find? f = none) :
    TwinSources guards (s.enter f text hnew) (t.enter f twin hnew') where
  identity := Sources.map_identity_enter h.identity text twin hnew hnew'
  text id file twinned hf hf' := by
    rw [Sources.enter, SourceTable.file?_enter] at hf hf'
    rw [h.size_eq] at hf'
    split at hf
    · rename_i hlast
      rw [if_pos hlast] at hf'
      cases hf
      cases hf'
      exact ht
    · rename_i hlast
      rw [if_neg hlast] at hf'
      exact h.text id file twinned hf hf'

namespace TwinDisks
variable {guards : Guards} {fs gs : FileSystem}

theorem resolve (h : TwinDisks guards fs gs) (search : HeaderSearch) :
    search.resolve gs = search.resolve fs := by
  rw [h.same]
  exact FileSystem.resolve_contents fs _ search

/-- The same files are read, each with its text. -/
theorem load (h : TwinDisks guards fs gs) {s t : Sources} (hs : TwinSources guards s t)
    {f : Identity} (hf : f.IsOn fs) :
    (∃ e, s.load fs f = .error e ∧ t.load gs f = .error e) ∨
      ∃ id s' t', s.load fs f = .ok (id, s') ∧ t.load gs f = .ok (id, t') ∧
        TwinSources guards s' t' := by
  obtain herror | ⟨id, hl, hl'⟩ | ⟨m, hnew, hnew', hm, hl, hl'⟩ :=
    Sources.load_either h.same hs.identity f
  · exact .inl herror
  · exact .inr ⟨id, s, t, hl, hl', hs⟩
  · obtain ⟨n, hkey, hn⟩ := hf
    have hguard : guards.of? f = guards m := by rw [Guards.of?, hkey, hn m hm]
    refine .inr ⟨_, _, _, hl, hl', hs.enter ?_ hnew hnew'⟩
    rw [hguard]
    exact h.text m

end TwinDisks

section
variable {guards : Guards} {fs gs : FileSystem} {search : HeaderSearch} {reader reader' : Reader}
  {f : Identity} {run twin : Run Scan}

theorem includeWith_agree (hx : TwinDisks guards fs gs)
    (hans : Answers guards fs gs search reader reader') (hon : f.IsOn fs)
    (h : Opened guards f run twin) :
    Agree guards (Reports guards f) (includeWith fs search reader f run)
      (includeWith gs search reader' f twin) := by
  rw [includeWith_apply, includeWith_apply]
  obtain ⟨e, hl, hl'⟩ | ⟨id, sources, twins, hl, hl', hs⟩ := hx.load h.matched.sources hon
  · rw [hl, hl']
    exact ⟨rfl, h.matched.alike⟩
  · rw [hl, hl']
    obtain ⟨_, hfind, _⟩ := Sources.load_ok hl
    obtain ⟨hgrows, hfind', _⟩ := Sources.load_ok hl'
    obtain ⟨loaded, hloaded, hsame⟩ := Sources.find?_eq_some hfind
    exact scan_agree hans hx.distinct (h.load hs hgrows) ⟨id, hfind'⟩ hloaded hsame _ _

/-- A header whose guard is defined is read without effect. -/
theorem includeWith_dead {name : Name} (hname : guards.of? f = some name) {sources : Sources}
    (hs : TwinSources guards sources twin.host.sources)
    (hk : ∃ id, twin.host.sources.find? f = some id)
    (hd : twin.host.macros.isDefined name = true) :
    includeWith gs search reader f twin = .ok ⟨false, some name⟩ twin := by
  obtain ⟨id, hid⟩ := hk
  have hload : twin.host.sources.load gs f = .ok (id, twin.host.sources) :=
    Sources.load_known hid
  obtain ⟨file, hfile, hsame⟩ := Sources.find?_eq_some (hs.find?_eq f ▸ hid)
  obtain ⟨twinned, hf', _, ht⟩ := hs.file? hfile
  rw [← guards.of?_congr hsame, hname] at ht
  obtain ⟨hn, g, closing, _, hl', _⟩ := ht
  have hscan : ∀ run : Run Scan, run.host.sources = twin.host.sources →
      run.host.macros = twin.host.macros →
      scanFile gs search reader f id run = .ok ⟨false, some name⟩ run := by
    intro run hsources hmacros
    rw [scanFile_group gs search reader f id (hsources ▸ hf') (g.guarded hn closing) hl',
      Group.report_dead gs search reader f id hn closing g (hmacros ▸ hd)]
  rw [includeWith_apply, hload]
  show within f twin.host.requestSite (scanFile gs search reader f id) twin = _
  simp only [within, bind_apply, change_apply, afterwards]
  rw [hscan (twin.mapHost (·.push f twin.host.requestSite)) rfl rfl]
  rfl

/-! ### Requests -/

/-- Files are read alike: where they are begun they do the same, and a header whose guard is
defined does nothing. -/
structure ReadsAlike (guards : Guards) (fs : FileSystem) (read read' : Identity → ScanM Report) :
    Prop where
  opened : ∀ f run twin, f.IsOn fs → Opened guards f run twin →
    Agree guards (Reports guards f) (read f run) (read' f twin)
  dead : ∀ f name sources twin, guards.of? f = some name →
    TwinSources guards sources twin.host.sources →
    (∃ id, twin.host.sources.find? f = some id) → twin.host.macros.isDefined name = true →
    read' f twin = .ok ⟨false, some name⟩ twin

/-- The limit on open files is met by both or by neither. -/
inductive ReadersAlike (guards : Guards) (fs : FileSystem) : Reader → Reader → Prop
  | none : ReadersAlike guards fs none none
  | some {read read' : Identity → ScanM Report} (h : ReadsAlike guards fs read read') :
    ReadersAlike guards fs (some read) (some read')

theorem Twins.decided (h : Twins guards run twin) (d d' : Name → Bool) (request : Request)
    (f : Identity) :
    Twins guards (run.decided d request f) (twin.decided d' request f) := by
  obtain ⟨kind, header⟩ := request
  cases kind with
  | plain => exact Matched.meet h f
  | once => exact Matched.markOnce h f

theorem Run.processed_decided (run : Run Scan) (d : Name → Bool) (request : Request)
    (f : Identity) :
    ((run.decided d request f).ledger.get f).processed = (run.ledger.get f).processed := by
  have hget := run.ledger.get_resolve f f request.kind d
  show (((run.ledger.resolve f request.kind d).2).get f).processed = _
  rw [hget]
  split
  · rfl
  · rfl

/-- A request for a file that is the same in both is decided alike. -/
theorem Twins.decision_plain (h : Twins guards run twin) (hf : guards.of? f = none) :
    twin.decision f = run.decision f := by
  have hr := h.plain f hf
  rw [Run.decision, Run.decision, Record.decide, Record.decide, hr.processed, hr.onceGuarded,
    hr.guardName]
  cases hg : (run.ledger.get f).guardName with
  | none => rfl
  | some name =>
    have hdefined : twin.host.macros.isDefined name = run.host.macros.isDefined name := by
      rw [Macros.isDefined, Macros.isDefined, h.alike.body? name (hr.other name hg)]
    simp only [hdefined]

theorem Run.decision_unprocessed (h : (run.ledger.get f).processed = false) :
    run.decision f = .process := by
  rw [Run.decision, Record.decide, h]
  rfl

theorem Run.decision_locked (h : (run.ledger.get f).processed = true)
    (hl : (run.ledger.get f).onceGuarded = true) : run.decision f = .skip .onceGuarded := by
  rw [Run.decision, Record.decide, h, hl]
  rfl

/-- The twin reads a header again that the run has locked. -/
theorem Twins.readAgain (h : Twins guards run twin) {name : Name}
    (hname : guards.of? f = some name) (hp : (run.ledger.get f).processed = true) :
    Twins guards run ((twin.mapLedger (·.begin f)).finished f ⟨false, some name⟩) := by
  have hget : ∀ g, ((twin.mapLedger (·.begin f)).finished f ⟨false, some name⟩).ledger.get g =
      if f.isSame g then (twin.ledger.get g).markProcessed.absorb ⟨false, some name⟩
      else twin.ledger.get g := by
    intro g
    rw [Run.get_finished, Run.get_begin]
    cases f.isSame g <;> rfl
  refine h.records f (fun _ _ => rfl) (fun g hs => ?_) (fun _ _ _ => rfl) (fun _ _ => rfl)
    (fun hnone => ?_) fun other hother _ => ?_
  · rw [hget, hs]; rfl
  · rw [hname] at hnone; cases hnone
  · have hr := h.once f other hother rfl
    rw [hget, if_pos f.isSame_refl]
    refine ⟨?_, hr.defined, hr.locked, hr.known, fun guard hguard => ?_⟩
    · rw [Record.processed_absorb, hp]
      rfl
    · rw [hname] at hother
      exact Option.some.inj (hguard.symm.trans hother)

variable {read read' : Identity → ScanM Report}

/-- A file is read that has been begun. -/
theorem fulfil_agree (hr : ReadsAlike guards fs read read') (hon : f.IsOn fs)
    (h : Opened guards f run twin) :
    Agree guards (fun _ _ : Outcome => True)
      (match read f run with
        | .ok report after => .ok ⟨f, .processed⟩ (after.finished f report)
        | .error e after => .error e after)
      (match read' f twin with
        | .ok report after => .ok ⟨f, .processed⟩ (after.finished f report)
        | .error e after => .error e after) := by
  obtain ⟨r, u, s, t, hx, hy, hreports, ht⟩ | ⟨e, s, t, hx, hy, ha⟩ :=
    (hr.opened f run twin hon h).either
  · rw [hx, hy]
    exact ⟨trivial, Matched.complete ht hreports⟩
  · rw [hx, hy]
    exact ⟨rfl, ha⟩

theorem handle_agree (hx : TwinDisks guards fs gs) (hr : ReadsAlike guards fs read read')
    (h : Twins guards run twin) (search : HeaderSearch) (request : Request) (beside : Path) :
    Agree guards (fun _ _ => True)
      (request.handle (search.resolve fs) beside (host read) run)
      (request.handle (search.resolve gs) beside (host read') twin) := by
  rw [handle_host, handle_host, hx.resolve]
  -- From here on only the state in which the file has been sought counts.
  have hsought : Twins guards (run.note (.sought request beside))
    (twin.note (.sought request beside)) := h
  generalize run.note (.sought request beside) = run at hsought ⊢
  generalize twin.note (.sought request beside) = twin at hsought ⊢
  cases hf : search.resolve fs request.header beside with
  | error e => exact ⟨rfl, hsought.alike⟩
  | ok f =>
    have hdecided := hsought.decided run.host.macros.isDefined twin.host.macros.isDefined request f
    have hprocessed := run.processed_decided run.host.macros.isDefined request f
    have hon := HeaderSearch.resolve_isOn hx.stands hf
    cases hname : guards.of? f with
    | none =>
      simp only [hsought.decision_plain hname]
      cases run.decision f with
      | skip reason => exact ⟨trivial, hdecided⟩
      | process =>
        refine fulfil_agree hr hon (Twins.begin hdecided fun name hsome => ?_)
        rw [hname] at hsome
        cases hsome
    | some name =>
      have hrecord := hsought.once f name hname rfl
      cases hp : (run.ledger.get f).processed with
      | false =>
        simp only [Run.decision_unprocessed hp,
          Run.decision_unprocessed (hrecord.processed.trans hp)]
        exact fulfil_agree hr hon (Twins.begin hdecided fun _ _ => hprocessed.trans hp)
      | true =>
        simp only [Run.decision_locked hp (hrecord.locked hp)]
        cases twin.decision f with
        | skip reason => exact ⟨trivial, hdecided⟩
        | process =>
          -- The guard is defined, for the header has been begun: its lines are skipped.
          have hdead : read' f (twin.started request f) =
              .ok ⟨false, some name⟩ (twin.started request f) :=
            hr.dead f name _ _ hname hsought.sources (hrecord.known hp) (hrecord.defined.trans hp)
          simp only [hdead]
          exact ⟨trivial, Twins.readAgain hdecided hname (hprocessed.trans hp)⟩

theorem request_agree (hx : TwinDisks guards fs gs) (search : HeaderSearch)
    (hr : ReadersAlike guards fs reader reader') :
    Answers guards fs gs search reader reader' := by
  intro file a b kind operand run twin h
  rw [request_apply, request_apply]
  cases HeaderName.read operand with
  | none => exact ⟨rfl, h.alike⟩
  | some pair =>
    obtain ⟨header, trailing⟩ := pair
    cases hr with
    | none =>
      obtain ⟨d, hd⟩ := warned_eq run a kind trailing
      obtain ⟨e, he⟩ := warned_eq twin b kind trailing
      simp only [hd, he, h.depth]
      exact ⟨rfl, h.alike.written, h.alike.body?⟩
    | some hr =>
      have hhanding : Twins guards (handing run a kind header trailing)
          (handing twin b kind header trailing) := by
        obtain ⟨d, hd⟩ := handing_eq run a kind header trailing
        obtain ⟨e, he⟩ := handing_eq twin b kind header trailing
        rw [hd, he]
        exact h.hosts h.alike.written h.depth rfl rfl rfl rfl
      obtain ⟨_, _, s, t, hs, ht, _, hst⟩ | ⟨e, s, t, hs, ht, ha⟩ :=
        (handle_agree hx hr hhanding search ⟨kind, header⟩ file.directory).either
      · simp only [hs, ht]
        exact ⟨trivial, hst.hosts hst.alike.written hst.depth rfl rfl rfl rfl⟩
      · simp only [hs, ht]
        exact ⟨rfl, ha.written, ha.body?⟩

theorem readerWithin_alike (hx : TwinDisks guards fs gs) (search : HeaderSearch) (room : Nat) :
    ReadersAlike guards fs (readerWithin fs search room) (readerWithin gs search room) := by
  -- What a file asks for is read with less room, so requests inside it are answered alike.
  induction room with
  | zero => exact .none
  | succ room ih =>
    refine .some ⟨fun f run twin hon h => ?_, fun f name sources twin hname hs hk hd => ?_⟩
    · exact includeWith_agree hx (request_agree hx search ih) hon h
    · exact includeWith_dead hname hs hk hd

/-- **A main file does the same.** -/
theorem process_agree (hx : TwinDisks guards fs gs) (settings : Settings) (source : SourceId)
    (h : Twins guards run twin) (hfresh : ∀ f, (run.ledger.get f).processed = false) :
    Agree guards (fun _ _ => True) (process fs settings source run)
      (process gs settings source twin) := by
  rw [process_apply, process_apply]
  cases hf : run.host.sources.file? source with
  | none =>
    rw [h.sources.file?_none hf]
    exact ⟨trivial, h⟩
  | some loaded =>
    obtain ⟨twinned, hf', hidentity, _⟩ := h.sources.file? hf
    rw [hf', h.depth]
    simp only [hidentity]
    have hbegun : Opened guards loaded.identity (run.mainBegun loaded.identity)
        (twin.mainBegun loaded.identity) := Twins.begin h fun _ _ => hfresh loaded.identity
    have hknown : ∃ id, twin.host.sources.find? loaded.identity = some id :=
      h.sources.find?_eq loaded.identity ▸ ⟨source, Sources.find?_identity hf⟩
    have hans := request_agree hx settings.search
      (readerWithin_alike hx settings.search (settings.maxDepth - run.host.stack.length))
    obtain ⟨r, u, s, t, hs, ht, hr, hst⟩ | ⟨e, s, t, hs, ht, ha⟩ :=
      (scan_agree hans hx.distinct hbegun hknown hf loaded.identity.isSame_refl none none).either
    · rw [hs, ht]
      exact ⟨trivial, Matched.complete hst hr⟩
    · rw [hs, ht]
      exact ⟨rfl, ha⟩

end

/-! ### From the first line on -/

/-- Some headers of a file system say that they are to be read once. In the other each of
them has an include guard instead, whose name no line and no other guard uses. What they
say besides leaves no section, no comment and no line open. Nothing else is different, and
paths begin at a directory to which its own path leads. -/
structure Interchanged (guards : Guards) (fs gs : FileSystem) : Prop where
  stands : fs.Stands fs.current
  same : gs = { fs with contents := gs.contents }
  plain : ∀ n, guards n = none → gs.textOf n = fs.textOf n
  once : ∀ n name, guards n = some name → Identifier.isWhole name = true ∧
    ∃ body, Line.IsWhole body ∧ (fs.textOf n).lines = Line.pragmaOnce :: body ∧
      (gs.textOf n).lines = Line.guarded name body
  distinct : guards.Distinct
  unspoken : ∀ n, guards.Unspoken (Line.ofText (fs.textOf n))

theorem Interchanged.twinDisks {guards : Guards} {fs gs : FileSystem}
    (h : Interchanged guards fs gs) : TwinDisks guards fs gs where
  stands := h.stands
  same := h.same
  distinct := h.distinct
  text n := by
    have hunspoken := h.unspoken n
    cases hg : guards n with
    | none => exact ⟨h.plain n hg, hunspoken⟩
    | some name =>
      obtain ⟨hn, body, hbody, htext, htwin⟩ := h.once n name hg
      obtain ⟨g, _, honce, hguarded⟩ := hbody.exists_group hn
      rw [Line.ofText_eq, htext, honce] at hunspoken
      refine ⟨hn, g, _, by rw [Line.ofText_eq, htext, honce],
        by rw [Line.ofText_eq, htwin, hguarded], fun l hl => ?_⟩
      refine hunspoken (l.later 1) (List.mem_cons_of_mem _ ?_)
      rw [Group.lines_later]
      exact List.mem_map_of_mem hl

theorem Macros.isDefined_ofDefinitions {definitions : List (Name × Option Text)} {name : Name}
    (h : ∀ d ∈ definitions, d.1 ≠ name) : (ofDefinitions definitions).isDefined name = false := by
  refine List.foldlRecOn (motive := (isDefined · name = false)) definitions _ rfl
    fun m hm d hd => ?_
  rw [isDefined_define, hm, decide_eq_false (Ne.symm (h d hd))]
  rfl

/-- A scan that starts with a fresh ledger has a twin. -/
theorem Twins.begun {guards : Guards} {s t : Sources} (h : TwinSources guards s t)
    {settings : Settings} (hd : ∀ d ∈ settings.definitions, ¬ guards.IsGuard d.1) :
    Twins guards (Pipeline.begin settings { sources := s })
      (Pipeline.begin settings { sources := t }) where
  alike := ⟨rfl, fun _ _ => rfl⟩
  depth := rfl
  sources := h
  plain f _ := ⟨rfl, rfl, rfl, nofun⟩
  once f name hf _ := by
    have hdefined := Macros.isDefined_ofDefinitions fun d hd' he =>
      hd d hd' (he ▸ guards.isGuard_of hf)
    exact ⟨rfl, hdefined, nofun, nofun, nofun⟩

/-- The files that paths find, read in order. -/
def Sources.loadAll (fs : FileSystem) : Sources → List Path → Except IoError Sources
  | s, [] => .ok s
  | s, p :: rest =>
    match s.loadPath fs p with
    | .error e => .error e
    | .ok (_, s) => s.loadAll fs rest

/-- Two disks with the same paths read the same files, in whatever way sources are related
that each file keeps up. -/
theorem Sources.loadAll_either {fs gs : FileSystem}
    (hsame : gs = { fs with contents := gs.contents }) {R : Sources → Sources → Prop}
    (hload : ∀ s t p f, R s t → fs.identify p = .ok f →
      (∃ e, s.load fs f = .error e ∧ t.load gs f = .error e) ∨
        ∃ id s' t', s.load fs f = .ok (id, s') ∧ t.load gs f = .ok (id, t') ∧ R s' t')
    {s t : Sources} (hs : R s t) (paths : List Path) :
    (∃ e, s.loadAll fs paths = .error e ∧ t.loadAll gs paths = .error e) ∨
      ∃ s' t', s.loadAll fs paths = .ok s' ∧ t.loadAll gs paths = .ok t' ∧ R s' t' := by
  induction paths generalizing s t with
  | nil => exact .inr ⟨s, t, rfl, rfl, hs⟩
  | cons p rest ih =>
    have hidentify : gs.identify p = fs.identify p := by
      rw [hsame]
      exact fs.identify_contents _ p
    unfold Sources.loadAll
    cases hi : fs.identify p with
    | error e =>
      rw [loadPath_absent hi, loadPath_absent (hidentify.trans hi)]
      exact .inl ⟨e, rfl, rfl⟩
    | ok f =>
      rw [loadPath_found hi, loadPath_found (hidentify.trans hi)]
      obtain ⟨e, hl, hl'⟩ | ⟨id, s', t', hl, hl', hs'⟩ := hload s t p f hs hi
      · simp only [hl, hl']
        exact .inl ⟨e, rfl, rfl⟩
      · simp only [hl, hl']
        exact ih hs'

theorem TwinDisks.loadAll {guards : Guards} {fs gs : FileSystem} (h : TwinDisks guards fs gs)
    {s t : Sources} (hs : TwinSources guards s t) (paths : List Path) :
    (∃ e, s.loadAll fs paths = .error e ∧ t.loadAll gs paths = .error e) ∨
      ∃ s' t', s.loadAll fs paths = .ok s' ∧ t.loadAll gs paths = .ok t' ∧
        TwinSources guards s' t' :=
  Sources.loadAll_either h.same
    (fun _ _ _ _ hs hi => h.load hs (FileSystem.identify_inode h.stands hi)) hs paths

/-- What a scan comes to: its failure, if it fails, the text put out and the macros left. -/
structure Upshot where
  failure : Option ScanError
  text : Text
  macros : Macros

def Upshot.of : EStateM.Result ScanError (Run Scan) Unit → Upshot
  | .ok _ run => ⟨none, run.host.text, run.host.macros⟩
  | .error e run => ⟨some e, run.host.text, run.host.macros⟩

theorem Agree.upshot {guards : Guards} {R : Unit → Unit → Prop}
    {r u : EStateM.Result ScanError (Run Scan) Unit} (h : Agree guards R r u) :
    (Upshot.of u).failure = (Upshot.of r).failure ∧ (Upshot.of u).text = (Upshot.of r).text ∧
      ∀ name, ¬ guards.IsGuard name →
        (Upshot.of u).macros.body? name = (Upshot.of r).macros.body? name := by
  have htext : ∀ s t : Scan, Alike guards s t → t.text = s.text := fun s t ha => by
    rw [Scan.text, Scan.text, ha.written]
  obtain ⟨_, _, s, t, rfl, rfl, _, hst⟩ | ⟨e, s, t, rfl, rfl, ha⟩ := h.either
  · exact ⟨rfl, htext _ _ hst.alike, hst.alike.body?⟩
  · exact ⟨rfl, htext _ _ ha, ha.body?⟩

/-- What a new scan of a main file comes to, with a fresh ledger, after files have been read
and the main file among them. -/
def Upshot.ofMain (fs : FileSystem) (settings : Settings) (opened : List Path) (main : SourceId) :
    Except IoError Upshot :=
  (({} : Sources).loadAll fs opened).map fun sources =>
    .of (process fs settings main (Pipeline.begin settings { sources }))

/-- **To be read once and to be guarded is the same.** Whatever files have been read, and
whichever of them is the main file, either the same file cannot be read, or the scan comes to
the same end, has put out the same text and leaves the same macros but for the guards. -/
theorem once_or_guard {guards : Guards} {fs gs : FileSystem} (h : Interchanged guards fs gs)
    (settings : Settings) (hd : ∀ d ∈ settings.definitions, ¬ guards.IsGuard d.1)
    (opened : List Path) (main : SourceId) :
    (∃ e, Upshot.ofMain fs settings opened main = .error e ∧
      Upshot.ofMain gs settings opened main = .error e) ∨
    ∃ a b, Upshot.ofMain fs settings opened main = .ok a ∧
      Upshot.ofMain gs settings opened main = .ok b ∧
      b.failure = a.failure ∧ b.text = a.text ∧
      ∀ name, ¬ guards.IsGuard name → b.macros.body? name = a.macros.body? name := by
  unfold Upshot.ofMain
  have hblank : TwinSources guards {} {} := ⟨rfl, fun _ _ _ hf => by simp [SourceTable.file?] at hf⟩
  obtain ⟨e, hl, hl'⟩ | ⟨s, t, hl, hl', hs⟩ := h.twinDisks.loadAll hblank opened
  · rw [hl, hl']
    exact .inl ⟨e, rfl, rfl⟩
  · rw [hl, hl']
    refine .inr ⟨_, _, rfl, rfl, ?_⟩
    exact (process_agree h.twinDisks settings main (Twins.begun hs hd) fun _ => rfl).upshot

/-- A file system with a main file that asks twice for a header. -/
def askingTwice (header : String) : FileSystem where
  entries := [(["a.c".toList], .file 1), (["h.h".toList], .file 2)]
  contents := ["", "#include \"h.h\"\n#import \"h.h\"\n", header].zipIdx.map fun (text, n) =>
    (n, text.toList.map (·.toNat.toUInt8))

/-- What a header says that asks for itself. -/
def askingItself : List Text :=
  ["#include \"h.h\"".toList, "#ifndef X".toList, "#define X 1".toList, "#endif".toList, ['x']]

/-- It is to be read once. -/
def onceDisk : FileSystem :=
  askingTwice "#pragma once\n#include \"h.h\"\n#ifndef X\n#define X 1\n#endif\nx\n"

/-- It has a guard instead. -/
def guardDisk : FileSystem :=
  askingTwice
    "#ifndef H\n#define H\n#include \"h.h\"\n#ifndef X\n#define X 1\n#endif\nx\n#endif\n"

def headerGuard : Guards
  | 2 => some ['H']
  | _ => none

theorem headerGuard_interchanged : Interchanged headerGuard onceDisk guardDisk := by
  have hrest : ∀ header n, (askingTwice header).textOf (n + 3) = [] := fun _ _ => rfl
  have hguard : ∀ name, headerGuard.IsGuard name → name = ['H'] := by
    rintro name ⟨n, hn⟩
    match n with
    | 2 => exact (Option.some.inj hn).symm
  refine ⟨trivial, rfl, fun n hn => ?_, fun n name hn => ?_, fun m n name hm hn => ?_,
    fun n l hl name hname hname' => ?_⟩
  · match n with
    | 0 => decide +kernel
    | 1 => decide +kernel
    | n + 3 => exact (hrest _ n).trans (hrest _ n).symm
  · match n with
    | 2 =>
      cases hn
      exact ⟨by decide, askingItself, ⟨⟨by decide, by decide⟩, by decide⟩, by decide +kernel,
        by decide +kernel⟩
  · match m, n with
    | 2, 2 => rfl
  · have hnames : ∀ l ∈ Line.ofText (onceDisk.textOf n), ['H'] ∉ l.content.names := by
      match n with
      | 0 => decide +kernel
      | 1 => decide +kernel
      | 2 => decide +kernel
      | n + 3 => rw [onceDisk, hrest]; decide
    exact hnames l hl (hguard name hname' ▸ hname)

/-- The header is read once, whichever way it is made to be. -/
theorem headerGuard_once_or_guard :
    Interchanged headerGuard onceDisk guardDisk ∧
      (Upshot.ofMain onceDisk {} [.ofString "/a.c"] ⟨0⟩).toOption.map (·.text) = some ['x', '\n'] ∧
      ((∃ e, Upshot.ofMain onceDisk {} [.ofString "/a.c"] ⟨0⟩ = .error e ∧
        Upshot.ofMain guardDisk {} [.ofString "/a.c"] ⟨0⟩ = .error e) ∨
      ∃ a b, Upshot.ofMain onceDisk {} [.ofString "/a.c"] ⟨0⟩ = .ok a ∧
        Upshot.ofMain guardDisk {} [.ofString "/a.c"] ⟨0⟩ = .ok b ∧
        b.failure = a.failure ∧ b.text = a.text ∧
        ∀ name, ¬ headerGuard.IsGuard name → b.macros.body? name = a.macros.body? name) :=
  ⟨headerGuard_interchanged, by decide +kernel,
    once_or_guard headerGuard_interchanged {} nofun [.ofString "/a.c"] ⟨0⟩⟩

end IncludeOnce
