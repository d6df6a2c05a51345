import IncludeOnce.Proofs.Lockstep

/-! Files that are opened in twins.

A file that has been begun is about to be read (`Opened`). If it is the same in both runs,
they go on line by line. If it is a header, the first line locks it in the one run, the
first two lines define its guard in the other, and then the runs are twins again
(`Opened.twins_once`). Either way the scans agree, and so do their reports (`scan_agree`).
A header that is read while its guard is defined does nothing (`Group.report_dead`). -/
namespace IncludeOnce
open Scan

namespace Guards

/-- No two headers have the same guard. -/
def Distinct (guards : Guards) : Prop :=
  ∀ m n name, guards m = some name → guards n = some name → m = n

theorem Distinct.isSame {guards : Guards} (h : guards.Distinct) {f g : Identity} {name : Name}
    (hf : guards.of? f = some name) (hg : guards.of? g = some name) : f.isSame g = true := by
  obtain ⟨fkey, fpath⟩ := f
  obtain ⟨gkey, gpath⟩ := g
  cases fkey with
  | path p => cases hf
  | inode m =>
    cases gkey with
    | path p => cases hg
    | inode n => exact Identity.isSame_iff.mpr (congrArg Identity.Key.inode (h m n name hf hg))

end Guards

/-- A file has been begun and is about to be read. A header is read for the first time
then: nothing has locked it in the one run, and its guard is not defined in the other. -/
structure Opened (guards : Guards) (f : Identity) (run twin : Run Scan) : Prop where
  matched : Matched guards f.isSame run.ledger run.host twin.ledger twin.host
  begun : (run.ledger.get f).processed = true
  begunTwin : (twin.ledger.get f).processed = true
  undefined : ∀ name, guards.of? f = some name → twin.host.macros.isDefined name = false
  guard : ∀ name, guards.of? f = some name →
    ∀ other, (twin.ledger.get f).guardName = some other → other = name

/-- The state after the line that says a file is to be read once. -/
def Run.locked (run : Run Scan) (f : Identity) : Run Scan :=
  (run.note (.lockedByPragma f)).mapLedger (·.markOnce f)

/-- The state after the line that defines a guard. -/
def Run.guarded (run : Run Scan) (name : Name) : Run Scan :=
  (run.note (.defined name)).mapHost fun s => { s with macros := s.macros.define name [] }

section
variable {guards : Guards} {f : Identity} {run twin : Run Scan}

/-- A file is begun that, if it is a header, has not been begun before. -/
theorem Twins.begin (h : Twins guards run twin)
    (hfirst : ∀ name, guards.of? f = some name → (run.ledger.get f).processed = false) :
    Opened guards f (run.mapLedger (·.begin f)) (twin.mapLedger (·.begin f)) where
  matched := by
    -- The records of a header need not match until its first lines have been read.
    refine h.records f (fun g hs => ?_) (fun g hs => ?_) (fun _ _ _ => rfl)
      (fun g hs => hs.trans f.isSame_refl.symm) (fun hf => ?_) fun _ _ hopen => ?_
    · rw [Run.get_begin, hs]; rfl
    · rw [Run.get_begin, hs]; rfl
    · have hr := h.plain f hf
      rw [Run.get_begin, Run.get_begin, if_pos f.isSame_refl, if_pos f.isSame_refl]
      exact ⟨rfl, hr.onceGuarded, hr.guardName, hr.other⟩
    · rw [f.isSame_refl] at hopen
      cases hopen
  begun := by rw [Run.get_begin, if_pos f.isSame_refl]; rfl
  begunTwin := by rw [Run.get_begin, if_pos f.isSame_refl]; rfl
  undefined name hf := (h.once f name hf rfl).defined.trans (hfirst name hf)
  guard name hf := by
    rw [Run.get_begin, if_pos f.isSame_refl]
    exact (h.once f name hf rfl).guard

namespace Opened

theorem push (h : Opened guards f run twin) (site other : Option Location) :
    Opened guards f (run.mapHost (·.push f site)) (twin.mapHost (·.push f other)) where
  matched := h.matched.hosts h.matched.alike.written (congrArg (· + 1) h.matched.depth) rfl rfl
    rfl rfl
  begun := h.begun
  begunTwin := h.begunTwin
  undefined := h.undefined
  guard := h.guard

theorem load (h : Opened guards f run twin) {sources twins : Sources}
    (hs : TwinSources guards sources twins) (hg : twin.host.sources.Grows twins) :
    Opened guards f (run.mapHost ({ · with sources }))
      (twin.mapHost ({ · with sources := twins })) where
  matched := h.matched.load hs hg
  begun := h.begun
  begunTwin := h.begunTwin
  undefined := h.undefined
  guard := h.guard

/-- Nothing else has to happen to a file that is the same in both. -/
theorem twins_plain (h : Opened guards f run twin) (hf : guards.of? f = none) :
    Twins guards run twin where
  alike := h.matched.alike
  depth := h.matched.depth
  sources := h.matched.sources
  plain := h.matched.plain
  once g name hg _ :=
    h.matched.once g name hg (guards.isSame_eq_false hf hg (Option.some_ne_none _).symm)

/-- The first lines of a header make twins of the runs again. -/
theorem twins_once (h : Opened guards f run twin) (hd : guards.Distinct) {name : Name}
    (hf : guards.of? f = some name) (hk : ∃ id, twin.host.sources.find? f = some id) :
    Twins guards (run.locked f) (twin.guarded name) where
  alike := by
    refine ⟨h.matched.alike.written, fun other ho => ?_⟩
    have hne : other ≠ name := fun he => ho (he ▸ guards.isGuard_of hf)
    exact (Macros.body?_define _ _ _ _).trans ((if_neg hne).trans (h.matched.alike.body? other ho))
  depth := h.matched.depth
  sources := h.matched.sources
  plain g hg := by
    have hs : f.isSame g = false := guards.isSame_eq_false hf hg (Option.some_ne_none _)
    show PlainRecord guards ((run.ledger.markOnce f).get g) (twin.ledger.get g)
    rw [Ledger.get_markOnce, hs]
    exact h.matched.plain g hg
  once g other hg _ := by
    -- No other header has this guard, so defining it tells of this header alone.
    show OnceRecord other g _ ((run.ledger.markOnce f).get g) (twin.ledger.get g)
    have hdefined : (twin.guarded name).host.macros.isDefined other =
        (other = name || twin.host.macros.isDefined other) := Macros.isDefined_define _ _ _ _
    cases hs : f.isSame g with
    | false =>
      have hr := h.matched.once g other hg hs
      have hne : other ≠ name := by
        rintro rfl
        rw [hd.isSame hf hg] at hs
        cases hs
      rw [Ledger.get_markOnce, hs]
      exact ⟨hr.processed, by rw [hdefined]; simpa [hne] using hr.defined, hr.locked, hr.known,
        hr.guard⟩
    | true =>
      have hname : other = name := by
        rw [← guards.of?_congr hs, hf] at hg
        exact (Option.some.inj hg).symm
      subst hname
      rw [← Ledger.get_congr _ hs, ← Ledger.get_congr _ hs, Ledger.get_markOnce,
        if_pos f.isSame_refl]
      refine ⟨?_, ?_, fun _ => rfl, fun _ => twin.host.sources.find?_congr hs ▸ hk,
        h.guard other hf⟩
      · exact h.begunTwin.trans h.begun.symm
      · rw [hdefined, decide_eq_true rfl, Bool.true_or]
        exact h.begun.symm

end Opened

end

/-! ### The first lines of a header -/

theorem Group.guard?_guarded {name : Name} (hn : Identifier.isWhole name = true) (closing : Nat)
    (g : Group) : (g.guarded hn closing).guard? = some name :=
  Identifier.first?_isWhole hn

section
variable (fs : FileSystem) (search : HeaderSearch) (reader : Reader) (file : Identity)
  (source : SourceId)

/-- The scan of a header that says it is to be read once. -/
theorem Group.report_once (g : Group) (run : Run Scan) :
    g.once.report fs search reader file source run =
      ((g.later 1).run fs search reader file source >>= fun _ => pure ⟨true, none⟩)
        (run.locked file) := by
  have hword : (Identifier.split "once".toList).1 = "once".toList := by decide
  have hline : (Plain.command (.pragma "once".toList)).run fs search reader file ⟨source, 1⟩ run =
      .ok true (run.locked file) := by
    simp only [Plain.run, Scan.command, hword, if_true]
    rfl
  simp only [Group.report, Group.once, Group.run, bind_apply, onFailure, hline]
  cases (g.later 1).run fs search reader file source (run.locked file) <;> rfl

section
variable {name : Name} (hn : Identifier.isWhole name = true) (closing : Nat)

/-- The scan of a header with a guard that is not defined. -/
theorem Group.report_guarded (g : Group) {run : Run Scan}
    (hd : run.host.macros.isDefined name = false) :
    (g.guarded hn closing).report fs search reader file source run =
      ((g.later 2).run fs search reader file source >>= fun once => pure ⟨once, some name⟩)
        (run.guarded name) := by
  have hbody : run.host.macros.body? name = none := by
    simpa [Macros.isDefined] using hd
  have hline : (Plain.command (.define name)).run fs search reader file ⟨source, 2⟩ run =
      .ok false (run.guarded name) := by
    simp only [Plain.run, Scan.command, bind_apply, define_apply, Identifier.split_isWhole hn]
    cases name with
    | nil => cases hn
    | cons c rest => simp only [redefining, hbody]; rfl
  rw [Group.report, Group.guard?_guarded]
  simp only [Group.guarded, Group.run, bind_apply, onFailure,
    Opening.holds_ifUndefined (Identifier.first?_isWhole hn), hd, Bool.not_false, if_true, hline]
  cases (g.later 2).run fs search reader file source (run.guarded name) with
  | error e left => rfl
  | ok once left => simp only [pure_apply, Bool.false_or, Bool.or_false]

/-- The scan of a header with a guard that is defined. -/
theorem Group.report_dead (g : Group) {run : Run Scan}
    (hd : run.host.macros.isDefined name = true) :
    (g.guarded hn closing).report fs search reader file source run =
      .ok ⟨false, some name⟩ run := by
  rw [Group.report, Group.guard?_guarded]
  simp only [Group.guarded, Group.run, bind_apply, onFailure,
    Opening.holds_ifUndefined (Identifier.first?_isWhole hn), hd, Bool.not_true,
    Bool.false_eq_true, if_false, Tail.run, pure_apply, Bool.or_false]

end

end

/-! ### Whole files -/

/-- What reading a file shows of it, in a run and in its twin. -/
structure Reports (guards : Guards) (f : Identity) (r u : Report) : Prop where
  plain : guards.of? f = none → u = r ∧ ∀ name, r.guardName = some name → ¬ guards.IsGuard name
  once : ∀ name, guards.of? f = some name → u.guardName = some name

theorem Matched.complete {guards : Guards} {l m : Ledger} {s t : Scan}
    (h : Matched guards (fun _ => false) l s m t) {f : Identity} {r u : Report}
    (hr : Reports guards f r u) :
    Matched guards (fun _ => false) (l.complete f r) s (m.complete f u) t := by
  refine h.update f (fun hf hp => ?_) fun name hf ho => ?_
  · obtain ⟨rfl, hother⟩ := hr.plain hf
    exact ⟨by simpa using hp.processed, by simp [hp.onceGuarded], rfl, hother⟩
  · exact ⟨by simpa using ho.processed, by simpa using ho.defined,
      by simpa using fun hp => .inl (ho.locked hp), by simpa using ho.known,
      fun other hother => Option.some.inj (hother.symm.trans (hr.once name hf))⟩

section
variable {guards : Guards} {fs gs : FileSystem} {search : HeaderSearch} {reader reader' : Reader}
  {f : Identity} {run twin : Run Scan}

/-- A header does the same whether it says that it is to be read once or has a guard. -/
theorem scanFile_once (hans : Answers guards fs gs search reader reader') (hd : guards.Distinct)
    (h : Opened guards f run twin) (hk : ∃ id, twin.host.sources.find? f = some id) {name : Name}
    (hname : guards.of? f = some name) {source : SourceId} {loaded twinned : SourceFile}
    (hf : run.host.sources.file? source = some loaded)
    (hf' : twin.host.sources.file? source = some twinned)
    (ht : TwinText guards loaded.text twinned.text (some name)) :
    Agree guards (fun _ u => u.guardName = some name) (scanFile fs search reader f source run)
      (scanFile gs search reader' f source twin) := by
  obtain ⟨hn, g, closing, hl, hl', hu⟩ := ht
  rw [scanFile_group fs search reader f source hf g.once hl, Group.report_once,
    scanFile_group gs search reader' f source hf' (g.guarded hn closing) hl',
    Group.report_guarded gs search reader' f source hn closing g (h.undefined name hname)]
  exact (Group.run_agree hans g 1 2 (h.twins_once hd hname hk) hu).bind
    fun _ _ _ _ _ ht => .pure rfl ht

/-- A file that has been begun is read. -/
theorem scan_agree (hans : Answers guards fs gs search reader reader') (hd : guards.Distinct)
    (h : Opened guards f run twin) (hk : ∃ id, twin.host.sources.find? f = some id)
    {source : SourceId} {loaded : SourceFile}
    (hf : run.host.sources.file? source = some loaded) (hs : f.isSame loaded.identity = true)
    (site other : Option Location) :
    Agree guards (Reports guards f)
      (within f site (scanFile fs search reader f source) run)
      (within f other (scanFile gs search reader' f source) twin) := by
  refine .within ?_
  have hpush := h.push site other
  obtain ⟨twinned, hf', _, ht⟩ := h.matched.sources.file? hf
  rw [← guards.of?_congr hs] at ht
  cases hname : guards.of? f with
  | none =>
    rw [hname] at ht
    refine (scanFile_agree hans (hpush.twins_plain hname) hf hf' ht).weaken fun r u hr => ?_
    exact ⟨fun _ => hr, fun name hsome => by rw [hname] at hsome; cases hsome⟩
  | some name =>
    rw [hname] at ht
    refine (scanFile_once hans hd hpush hk hname hf hf' ht).weaken fun r u hr => ?_
    exact ⟨fun hnone => by (rw [hname] at hnone; cases hnone),
      fun other hother => by rw [← hother, hname]; exact hr⟩

end

end IncludeOnce
