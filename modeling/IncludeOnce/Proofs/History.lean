import IncludeOnce.Proofs.Moves

/-! History decides every request.

The ledger keeps two flags and one guard for each file, and a request is decided on
them. Nothing is lost by that: the ledger is a replay of the journal (`Faithful`), and
`verdict` says how a request is decided from what has happened before it, in words
that do not mention the ledger at all. `process_follows_history`: in a scan that comes
to its end each event of the trace is the verdict of the history before it, however
deep its line stood and however files ask for one another. -/
namespace IncludeOnce

/-- Whether a request meant a file. -/
def Turn.means (f : Identity) (t : Turn) : Bool := t.result.file?.any (·.isSame f)

/-- Whether an `#import` meant a file. -/
def Turn.imports (f : Identity) (t : Turn) : Bool := t.kind = .once && t.means f

/-- What becomes of a request that is so decided. -/
def Decision.result (f : Identity) : Decision → EventResult
  | .process => .processed f
  | .skip reason => .skipped reason f

namespace Journal

/-! ### The verdict of a history -/

/-- Whether a line of a file said that it is to be read once. -/
def Entry.locks (f : Identity) : Entry → Bool
  | .lockedByPragma g => g.isSame f
  | _ => false

/-- What a requested file has shown when it had been read. -/
def Entry.reportOf? (f : Identity) : Entry → Option Report
  | .finished g report => if g.isSame f then some report else none
  | _ => none

/-- Which names are defined after an entry. -/
def Entry.onDefined (isDefined : Name → Bool) : Entry → Name → Bool
  | .defined name => fun other => other = name || isDefined other
  | .undefined name => fun other => other ≠ name && isDefined other
  | _ => isDefined

/-- The requests that a history decides. -/
def turns (history : List Entry) : List Turn := history.filterMap Entry.turn?

/-- What a file has shown each time that it had been read. -/
def reportsOf (f : Identity) (history : List Entry) : List Report :=
  history.filterMap (·.reportOf? f)

/-- Which names are defined after a history. -/
def definedAfter (isDefined : Name → Bool) (history : List Entry) : Name → Bool :=
  history.foldl Entry.onDefined isDefined

/-- How a request for `f` is to be decided while `main` is scanned, after `earlier`
requests, at a moment before which `before` has happened and at which `isDefined` tells
the defined names. -/
def verdict (main : Identity) (isDefined : Name → Bool) (earlier : List Turn)
    (before : List Entry) (f : Identity) : Decision :=
  if !main.isSame f && !earlier.any (·.means f) then .process
  else if earlier.any (·.imports f) || before.any (·.locks f) then .skip .onceGuarded
  else
    match ((reportsOf f before).filterMap (·.guardName)).find? isDefined with
    | some name => .skip (.includeGuard name)
    | none => .process

/-! ### Replaying a journal -/

/-- What an entry tells about the record of a file. -/
def Entry.onRecord (g : Identity) (r : Record) : Entry → Record
  | .mainBegun f => if f.isSame g then r.markProcessed else r
  | .skipped request f _ => if request.kind = .once ∧ f.isSame g = true then r.markOnce else r
  | .processing request f =>
    if f.isSame g then (if request.kind = .once then r.markOnce else r).markProcessed else r
  | .lockedByPragma f => if f.isSame g then r.markOnce else r
  | .finished f report => if f.isSame g then r.absorb report else r
  | _ => r

/-- The record of a file after a history. -/
def recordAfter (history : List Entry) (g : Identity) : Record :=
  history.foldl (Entry.onRecord g) {}

theorem turns_concat (history : List Entry) (entry : Entry) :
    turns (history ++ [entry]) = turns history ++ entry.turn?.toList := by
  rw [turns, List.filterMap_append]
  cases h : entry.turn? with
  | none => rw [List.filterMap_cons_none h]; rfl
  | some t => rw [List.filterMap_cons_some h]; rfl

theorem reportsOf_concat (f : Identity) (history : List Entry) (entry : Entry) :
    reportsOf f (history ++ [entry]) = reportsOf f history ++ (entry.reportOf? f).toList := by
  rw [reportsOf, List.filterMap_append]
  cases h : entry.reportOf? f with
  | none => rw [List.filterMap_cons_none h]; rfl
  | some report => rw [List.filterMap_cons_some h]; rfl

theorem definedAfter_concat (isDefined : Name → Bool) (history : List Entry) (entry : Entry) :
    definedAfter isDefined (history ++ [entry]) =
      entry.onDefined (definedAfter isDefined history) :=
  List.foldl_append

theorem recordAfter_concat (history : List Entry) (entry : Entry) (g : Identity) :
    recordAfter (history ++ [entry]) g = entry.onRecord g (recordAfter history g) :=
  List.foldl_append

/-- Whether an entry may follow a history: a request is decided as the records say, a
file is said to be read once only when it is locked, and a file is found to have one
guard each time. -/
def Entry.Fits (isDefined : Name → Bool) (history : List Entry) : Entry → Prop
  | .mainBegun _ | .mainEnded _ _ => False
  | .skipped _ f reason =>
    (recordAfter history f).decide (definedAfter isDefined history) = .skip reason
  | .processing _ f => (recordAfter history f).decide (definedAfter isDefined history) = .process
  | .finished f report =>
    (report.declaredOnce = true → (recordAfter history f).onceGuarded = true) ∧
      ∀ other ∈ reportsOf f history, other.guardName = report.guardName
  | _ => True

/-- A history of the scan of a main file. -/
inductive Follows (main : Identity) (isDefined : Name → Bool) : List Entry → Prop
  | begun : Follows main isDefined [.mainBegun main]
  | step {history : List Entry} (entry : Entry) (h : Follows main isDefined history)
    (hfits : entry.Fits isDefined history) : Follows main isDefined (history ++ [entry])

theorem Entry.onRecord_guardName (entry : Entry) (g : Identity) (r : Record) :
    (entry.onRecord g r).guardName = ((entry.reportOf? g).map (·.guardName)).getD r.guardName := by
  cases entry with
  | finished f report =>
    rw [Entry.onRecord, Entry.reportOf?]
    split <;> rfl
  | mainBegun f => rw [Entry.onRecord]; split <;> rfl
  | skipped request f reason => rw [Entry.onRecord]; split <;> rfl
  | processing request f =>
    rw [Entry.onRecord]
    split
    · split <;> rfl
    · rfl
  | lockedByPragma f => rw [Entry.onRecord]; split <;> rfl
  | _ => rfl

theorem reportsOf_congr (history : List Entry) {f g : Identity} (h : f.isSame g = true) :
    reportsOf f history = reportsOf g history := by
  have hs : (fun entry : Entry => entry.reportOf? f) = fun entry => entry.reportOf? g := by
    funext entry
    cases entry with
    | finished k report =>
      rw [Entry.reportOf?, Entry.reportOf?, Identity.isSame_comm, Identity.isSame_congr h,
        Identity.isSame_comm]
    | _ => rfl
  rw [reportsOf, reportsOf, hs]

theorem recordAfter_congr (history : List Entry) {f g : Identity} (h : f.isSame g = true) :
    recordAfter history f = recordAfter history g := by
  have hs : Entry.onRecord f = Entry.onRecord g := by
    funext r entry
    have hsame : ∀ k : Identity, k.isSame f = k.isSame g := fun k => by
      rw [Identity.isSame_comm, Identity.isSame_congr h, Identity.isSame_comm]
    cases entry <;> simp only [Entry.onRecord, hsame]
  rw [recordAfter, recordAfter, hs]

end Journal

namespace Journal.Follows
variable {main : Identity} {isDefined : Name → Bool} {history : List Entry}

/-- A file has been begun if it is the main file or has been asked for: the first
request for a file is never dropped. -/
theorem processed (h : Follows main isDefined history) (g : Identity) :
    (recordAfter history g).processed = (main.isSame g || (turns history).any (·.means g)) := by
  induction h with
  | begun =>
    rw [recordAfter, List.foldl_cons, List.foldl_nil, Entry.onRecord]
    cases main.isSame g with
    | true => rfl
    | false => rfl
  | @step history entry _ hfits ih =>
    rw [recordAfter_concat, turns_concat, List.any_append, ← Bool.or_assoc, ← ih]
    cases entry with
    | mainBegun f => exact hfits.elim
    | skipped request f reason =>
      have hmeans : (Entry.turn? (.skipped request f reason)).toList.any (·.means g) = f.isSame g :=
        Bool.or_false _
      have hrecord :
          (Entry.onRecord g (recordAfter history g) (.skipped request f reason)).processed =
            (recordAfter history g).processed := by
        rw [Entry.onRecord]
        split <;> rfl
      rw [hrecord, hmeans]
      cases hs : f.isSame g with
      | false => rw [Bool.or_false]
      | true =>
        rw [← recordAfter_congr history hs, Record.processed_of_skip hfits]
        rfl
    | processing request f =>
      have hmeans : (Entry.turn? (.processing request f)).toList.any (·.means g) = f.isSame g :=
        Bool.or_false _
      rw [hmeans, Entry.onRecord]
      cases f.isSame g with
      | false => rw [Bool.or_false]; rfl
      | true => rw [Bool.or_true]; rfl
    | finished f report =>
      rw [Entry.onRecord, Record.absorb]
      split
      · split <;> exact (Bool.or_false _).symm
      · exact (Bool.or_false _).symm
    | lockedByPragma f =>
      rw [Entry.onRecord]
      split <;> exact (Bool.or_false _).symm
    | _ => exact (Bool.or_false _).symm

/-- A file is locked if an `#import` has asked for it or one of its lines has said so. -/
theorem onceGuarded (h : Follows main isDefined history) (g : Identity) :
    (recordAfter history g).onceGuarded =
      ((turns history).any (·.imports g) || history.any (·.locks g)) := by
  induction h with
  | begun =>
    rw [recordAfter, List.foldl_cons, List.foldl_nil, Entry.onRecord]
    split <;> rfl
  | @step history entry _ hfits ih =>
    rw [recordAfter_concat, turns_concat, List.any_append, List.any_append]
    rw [Bool.or_assoc, ← Bool.or_assoc _ (history.any _), Bool.or_comm _ (history.any _),
      Bool.or_assoc, ← Bool.or_assoc, ← ih]
    cases entry with
    | mainBegun f => exact hfits.elim
    | skipped request f reason =>
      have himports : (Entry.turn? (.skipped request f reason)).toList.any (·.imports g) =
          (decide (request.kind = .once) && f.isSame g) := Bool.or_false _
      have hlocks : [Entry.skipped request f reason].any (·.locks g) = false := rfl
      rw [himports, hlocks, Entry.onRecord]
      cases f.isSame g <;> by_cases hk : request.kind = .once <;> simp [hk, Record.markOnce]
    | processing request f =>
      have himports : (Entry.turn? (.processing request f)).toList.any (·.imports g) =
          (decide (request.kind = .once) && f.isSame g) := Bool.or_false _
      have hlocks : [Entry.processing request f].any (·.locks g) = false := rfl
      rw [himports, hlocks, Entry.onRecord]
      cases f.isSame g <;> by_cases hk : request.kind = .once <;>
        simp [hk, Record.markOnce, Record.markProcessed]
    | finished f report =>
      -- what a file says of itself when it ends has been in force since it was said
      have hrecord : (Entry.onRecord g (recordAfter history g) (.finished f report)).onceGuarded =
          (recordAfter history g).onceGuarded := by
        rw [Entry.onRecord, Record.absorb]
        split
        · rename_i hs
          split
          · rename_i hd
            rw [← recordAfter_congr history hs, hfits.1 hd]
            rfl
          · rfl
        · rfl
      rw [hrecord]
      exact (Bool.or_false _).symm
    | lockedByPragma f =>
      rw [Entry.onRecord, List.any_cons, Entry.locks]
      cases f.isSame g with
      | false => exact (Bool.or_false _).symm
      | true => exact (Bool.or_true _).symm
    | _ => exact (Bool.or_false _).symm

/-- A file has shown the same guard each time, and its record has it. -/
theorem guardName (h : Follows main isDefined history) (g : Identity) :
    (∀ report ∈ reportsOf g history, report.guardName = (recordAfter history g).guardName) ∧
    ∀ name, (recordAfter history g).guardName = some name →
      name ∈ (reportsOf g history).filterMap (·.guardName) := by
  induction h with
  | begun =>
    have hnone : (recordAfter [.mainBegun main] g).guardName = none :=
      Entry.onRecord_guardName (.mainBegun main) g {}
    exact ⟨nofun, fun name hname => by rw [hnone] at hname; cases hname⟩
  | @step history entry _ hfits ih =>
    obtain ⟨hall, hsome⟩ := ih
    rw [recordAfter_concat, Entry.onRecord_guardName, reportsOf_concat]
    cases hr : entry.reportOf? g with
    | none =>
      rw [Option.toList_none, List.append_nil]
      exact ⟨hall, hsome⟩
    | some report =>
      obtain ⟨f, rfl, hs⟩ : ∃ f, entry = .finished f report ∧ f.isSame g = true := by
        cases entry with
        | finished f other =>
          rw [Entry.reportOf?] at hr
          split at hr
          · cases hr; exact ⟨f, rfl, ‹_›⟩
          · cases hr
        | _ => cases hr
      have hsame := hfits.2
      rw [reportsOf_congr history hs] at hsame
      refine ⟨fun other hmem => ?_, fun name hname => ?_⟩
      · rcases List.mem_append.mp hmem with hmem | hmem
        · exact hsame other hmem
        · rw [List.mem_singleton.mp hmem]
          rfl
      · rw [List.filterMap_append]
        exact List.mem_append_right _
          (List.mem_filterMap.mpr ⟨report, List.mem_singleton.mpr rfl, hname⟩)

/-- Of the guards that a file has shown, the first that is defined is the one in its
record, if that is. -/
theorem find?_guards (h : Follows main isDefined history) (f : Identity)
    (defined : Name → Bool) :
    ((reportsOf f history).filterMap (·.guardName)).find? defined =
      (recordAfter history f).guardName.filter defined := by
  obtain ⟨hall, hsome⟩ := h.guardName f
  have hmem : ∀ name ∈ (reportsOf f history).filterMap (·.guardName),
      (recordAfter history f).guardName = some name := by
    intro name hname
    obtain ⟨report, hreport, hguard⟩ := List.mem_filterMap.mp hname
    rw [← hall report hreport, hguard]
  cases hg : (recordAfter history f).guardName with
  | none =>
    refine List.find?_eq_none.mpr fun name hname => ?_
    rw [hmem name hname] at hg
    cases hg
  | some name =>
    cases hd : defined name with
    | false =>
      rw [Option.filter_some_neg (by simp [hd])]
      refine List.find?_eq_none.mpr fun other hother => ?_
      cases hg.symm.trans (hmem other hother)
      simp [hd]
    | true =>
      obtain ⟨other, hother⟩ := Option.isSome_iff_exists.mp
        (List.find?_isSome.mpr ⟨name, hsome name hg, hd⟩)
      rw [Option.filter_some_pos hd, hother]
      cases hg.symm.trans (hmem other (List.mem_of_find?_eq_some hother))
      rfl

/-- **The records decide as the history does.** -/
theorem decide_recordAfter (h : Follows main isDefined history) (f : Identity)
    (defined : Name → Bool) :
    (recordAfter history f).decide defined = verdict main defined (turns history) history f := by
  rw [Record.decide, verdict, h.processed f, h.onceGuarded f, h.find?_guards f, Bool.not_or]
  cases (recordAfter history f).guardName with
  | none => rfl
  | some name =>
    simp only [Option.filter]
    cases defined name <;> rfl

/-- What stands in a history fits what stands before it. -/
theorem fits (h : Follows main isDefined history) {before after : List Entry} {entry : Entry}
    (hsplit : history = before ++ entry :: after) (hmain : ∀ f, entry ≠ .mainBegun f) :
    Follows main isDefined before ∧ entry.Fits isDefined before := by
  induction h generalizing after with
  | begun =>
    cases before with
    | nil => cases hsplit; exact absurd rfl (hmain _)
    | cons first rest =>
      have hl := congrArg List.length hsplit
      simp at hl
  | @step history last hfollows hfits ih =>
    rcases List.eq_nil_or_concat after with rfl | ⟨more, final, rfl⟩
    · obtain ⟨rfl, hlast⟩ := List.append_inj' hsplit rfl
      cases hlast
      exact ⟨hfollows, hfits⟩
    · rw [List.concat_eq_append, ← List.cons_append, ← List.append_assoc] at hsplit
      exact ih (List.append_inj' hsplit rfl).1

end Journal.Follows

/-! ### The ledger is a replay of the journal -/

/-- The state `run` of the scan of `main`, begun in `start`, is what `history` tells. -/
structure Faithful (main : Identity) (start run : Run Scan) (history : List Journal.Entry) :
    Prop where
  journal : run.journal.toList = start.journal.toList ++ history
  ledger : ∀ g, run.ledger.get g = Journal.recordAfter history g
  defined : run.host.macros.isDefined =
    Journal.definedAfter start.host.macros.isDefined history
  shown : ∀ g, ∀ report ∈ Journal.reportsOf g history, Shows run.host.sources g report.guardName
  follows : Journal.Follows main start.host.macros.isDefined history

namespace Faithful
variable {fs : FileSystem} {main : Identity} {start run after : Run Scan}
  {history : List Journal.Entry}

/-- Nothing that the history tells has changed. -/
theorem same (h : Faithful main start run history) (hj : after.journal = run.journal)
    (hl : after.ledger = run.ledger) (hm : after.host.macros = run.host.macros)
    (hs : run.host.sources.Grows after.host.sources) : Faithful main start after history where
  journal := hj ▸ h.journal
  ledger g := hl ▸ h.ledger g
  defined := hm ▸ h.defined
  shown g report hmem := (h.shown g report hmem).grow hs
  follows := h.follows

/-- One entry tells what has changed. -/
theorem enter (h : Faithful main start run history) (entry : Journal.Entry)
    (hj : after.journal = run.journal.push entry)
    (hl : ∀ g, after.ledger.get g = entry.onRecord g (run.ledger.get g))
    (hd : after.host.macros.isDefined = entry.onDefined run.host.macros.isDefined)
    (hs : after.host.sources = run.host.sources)
    (hr : ∀ g, ∀ report ∈ entry.reportOf? g, Shows run.host.sources g report.guardName)
    (hfits : entry.Fits start.host.macros.isDefined history) :
    Faithful main start after (history ++ [entry]) where
  journal := by rw [hj, Array.toList_push, h.journal, List.append_assoc]
  ledger g := by rw [hl, h.ledger, Journal.recordAfter_concat]
  defined := by rw [hd, h.defined, Journal.definedAfter_concat]
  shown g report hmem := by
    rw [Journal.reportsOf_concat] at hmem
    rw [hs]
    rcases List.mem_append.mp hmem with hmem | hmem
    · exact h.shown g report hmem
    · exact hr g report (Option.mem_toList.mp hmem)
  follows := h.follows.step entry hfits

theorem decision (h : Faithful main start run history) (f : Identity) :
    (Journal.recordAfter history f).decide
      (Journal.definedAfter start.host.macros.isDefined history) = run.decision f := by
  rw [← h.ledger, ← h.defined]
  rfl

theorem move (h : Faithful main start run history) (hm : Move fs run after) :
    ∃ more, Faithful main start after (history ++ more) := by
  -- a request is entered as resolved before it is decided
  have hresolved : ∀ request file, Faithful main start (run.note (.resolved request file))
      (history ++ [.resolved request file]) := fun request file =>
    h.enter (.resolved request file) rfl (fun _ => rfl) rfl rfl nofun trivial
  cases hm with
  | quiet f hm hs => exact ⟨[], by rw [List.append_nil]; exact h.same rfl rfl hm (hs ▸ .refl _)⟩
  | load file source sources hl =>
    exact ⟨[], by rw [List.append_nil]; exact h.same rfl rfl rfl (Sources.load_ok hl).1⟩
  | idle entry hi =>
    refine ⟨[entry], ?_⟩
    cases entry with
    | sought request beside => exact h.enter _ rfl (fun _ => rfl) rfl rfl nofun trivial
    | ignoredPragma word => exact h.enter _ rfl (fun _ => rfl) rfl rfl nofun trivial
    | tooDeep files => exact h.enter _ rfl (fun _ => rfl) rfl rfl nofun trivial
    | _ => cases hi
  | define name body =>
    refine ⟨[.defined name], h.enter (.defined name) rfl (fun _ => rfl) ?_ rfl nofun trivial⟩
    funext other
    exact Macros.isDefined_define _ _ _ _
  | undefine name =>
    refine ⟨[.undefined name], h.enter (.undefined name) rfl (fun _ => rfl) ?_ rfl nofun trivial⟩
    funext other
    exact Macros.isDefined_undefine _ _ _
  | lock file =>
    exact ⟨[.lockedByPragma file], h.enter (.lockedByPragma file) rfl
      (fun g => Ledger.get_markOnce _ _ _) rfl rfl nofun trivial⟩
  | skip request file reason hd =>
    refine ⟨[.resolved request file] ++ [.skipped request file reason], ?_⟩
    rw [← List.append_assoc]
    exact (hresolved request file).enter (.skipped request file reason) rfl
      (fun g => run.get_dropped request file g reason) rfl rfl nofun
      (((hresolved request file).decision file).trans hd)
  | start request file hd =>
    refine ⟨[.resolved request file] ++ [.processing request file], ?_⟩
    rw [← List.append_assoc]
    exact (hresolved request file).enter (.processing request file) rfl
      (fun g => run.get_started request file g) rfl rfl nofun
      (((hresolved request file).decision file).trans hd)
  | finish file report hr =>
    refine ⟨[.finished file report], h.enter (.finished file report) rfl
      (fun g => run.get_finished file g report) rfl rfl ?_ ⟨?_, ?_⟩⟩
    · intro g other hother
      rw [Journal.Entry.reportOf?] at hother
      split at hother
      · cases hother
        exact hr.guard.congr ‹_›
      · cases hother
    · intro hd
      rw [← h.ledger]
      exact hr.once hd
    · intro other hother
      exact (h.shown file other hother).unique hr.guard

theorem moves (h : Faithful main start run history) (hm : Moves fs run after) :
    ∃ more, Faithful main start after (history ++ more) := by
  induction hm with
  | refl => exact ⟨[], by rw [List.append_nil]; exact h⟩
  | tail _ hmove ih =>
    obtain ⟨more, hmore⟩ := ih
    obtain ⟨last, hlast⟩ := hmore.move hmove
    exact ⟨more ++ last, by rw [← List.append_assoc]; exact hlast⟩

end Faithful

/-! ### A whole scan -/

/-- An entry that decides a request decides it as the history before it does. -/
theorem Journal.Follows.result_eq {main : Identity} {isDefined : Name → Bool}
    {history before after : List Entry} {entry : Entry} {t : Turn}
    (h : Follows main isDefined history) (hsplit : history = before ++ entry :: after)
    (ht : entry.turn? = some t) :
    ∃ f, t.result = (verdict main (definedAfter isDefined before) (turns before) before f).result f
    := by
  obtain ⟨hbefore, hfits⟩ := h.fits hsplit (by rintro f rfl; cases ht)
  cases entry with
  | skipped request f reason =>
    cases ht
    exact ⟨f, by rw [← hbefore.decide_recordAfter, hfits]; rfl⟩
  | processing request f =>
    cases ht
    exact ⟨f, by rw [← hbefore.decide_recordAfter, hfits]; rfl⟩
  | _ => cases ht

open Scan

section
variable {fs : FileSystem} {settings : Settings} {source : SourceId} {main : SourceFile}
  {start finish : Run Scan}

/-- A scan that comes to its end has made moves from its beginning to its end, and the
trace tells them. -/
theorem process_goes (hmain : start.host.sources.file? source = some main)
    (hok : process fs settings source start = .ok () finish) :
    ∃ report last, Goes fs (start.mainBegun main.identity) last ∧
      finish = last.mainEnded main.identity report := by
  have hmakes : Makes fs (start.mainBegun main.identity) (within main.identity none
      (scanFile fs settings.search
        (readerWithin fs settings.search (settings.maxDepth - start.host.stack.length))
        main.identity source)) fun _ _ => True :=
    .within (scanFile_makes (readerWithin_reads _) hmain) fun _ _ _ => trivial
  rw [process_apply, hmain] at hok
  simp only at hok
  split at hok
  · rename_i report last hscan
    cases hok
    exact ⟨report, last, (hmakes.ok hscan).1, rfl⟩
  · cases hok

/-- When a main file has been begun with an empty ledger, that is all that has
happened. -/
theorem faithful_mainBegun (main : Identity) (hfresh : start.ledger = {}) :
    Faithful main start (start.mainBegun main) [.mainBegun main] where
  journal := Array.toList_push
  ledger g := by
    show (start.ledger.begin main).get g = _
    rw [Ledger.get_begin, hfresh]
    rfl
  defined := rfl
  shown := nofun
  follows := .begun

end

/-- Between two states the trace has grown by events and the journal by a history, and
each event follows from what had happened before it: at the moment of its decision the
requests decided were those of the earlier events, and what became of it is the verdict
of all that had happened by then. -/
def HistoryDecides (main : Identity) (start finish : Run Scan) : Prop :=
  ∃ (events : List IncludeEvent) (history : List Journal.Entry),
    finish.host.events.toList = start.host.events.toList ++ events ∧
    finish.journal.toList = start.journal.toList ++ history ∧
    finish.host.macros.isDefined = Journal.definedAfter start.host.macros.isDefined history ∧
    ∀ earlier event later, events = earlier ++ event :: later →
      ∃ f before entry after, history = before ++ entry :: after ∧
        entry.turn? = some event.turn ∧
        Journal.turns before = earlier.map IncludeEvent.turn ∧
        event.result = (Journal.verdict main
          (Journal.definedAfter start.host.macros.isDefined before)
          (earlier.map IncludeEvent.turn) before f).result f

/-- **History decides every request** in the scan of a main file that begins with an
empty ledger and comes to its end. -/
theorem process_follows_history (fs : FileSystem) (settings : Settings) (source : SourceId)
    (main : SourceFile) (start finish : Run Scan) (hfresh : start.ledger = {})
    (hmain : start.host.sources.file? source = some main)
    (hok : process fs settings source start = .ok () finish) :
    HistoryDecides main.identity start finish := by
  obtain ⟨report, last, hgoes, rfl⟩ := process_goes hmain hok
  obtain ⟨more, hfaithful⟩ := (faithful_mainBegun main.identity hfresh).moves hgoes.moves
  obtain ⟨events, entries, hevents, hentries, hturns⟩ := hgoes.told
  have hmore : more = entries := by
    have hj := hfaithful.journal
    rw [hentries, ← List.append_assoc] at hj
    exact (List.append_cancel_left (hj.trans (congrArg (· ++ more) Array.toList_push.symm))).symm
  subst hmore
  refine ⟨events, ([.mainBegun main.identity] ++ more) ++ [.mainEnded main.identity report],
    hevents, ?_, ?_, ?_⟩
  · show (last.journal.push _).toList = _
    rw [Array.toList_push, hfaithful.journal, List.append_assoc]
  · rw [Journal.definedAfter_concat]
    exact hfaithful.defined
  · intro earlier event later hsplit
    rw [hsplit, List.map_append, List.map_cons] at hturns
    obtain ⟨front, back, rfl, hfront, hback⟩ := List.filterMap_eq_append_iff.mp hturns.symm
    obtain ⟨silent, entry, after, rfl, hsilent, hentry, _⟩ := List.filterMap_eq_cons_iff.mp hback
    have hhistory : [.mainBegun main.identity] ++ (front ++ (silent ++ entry :: after)) =
        (.mainBegun main.identity :: front ++ silent) ++ entry :: after := by simp
    have hbefore : Journal.turns (.mainBegun main.identity :: front ++ silent) =
        earlier.map IncludeEvent.turn := by
      rw [Journal.turns, List.filterMap_append, List.filterMap_eq_nil_iff.mpr hsilent,
        List.append_nil, List.filterMap_cons_none rfl, hfront]
    obtain ⟨f, hf⟩ := hfaithful.follows.result_eq hhistory hentry
    rw [hbefore] at hf
    exact ⟨f, _, entry, after ++ [.mainEnded main.identity report],
      by rw [hhistory, List.append_assoc]; rfl, hentry, hbefore, hf⟩

theorem selfIncluding_follows_history :
    ∃ finish, process selfIncludingDisk {} ⟨0⟩ (runOn selfIncluding) = .ok () finish ∧
      finish.host.events.toList.map (·.result) =
        [.processed selfIncluding.identity,
          .skipped (.includeGuard ['A']) selfIncluding.identity] ∧
      HistoryDecides selfIncluding.identity (runOn selfIncluding) finish := by
  have hrun : (ended? (process selfIncludingDisk {} ⟨0⟩ (runOn selfIncluding))).map
      (·.2.host.events.toList.map (·.result)) = some [.processed selfIncluding.identity,
        .skipped (.includeGuard ['A']) selfIncluding.identity] := by
    decide +kernel
  obtain ⟨p, hended, hevents⟩ := Option.map_eq_some_iff.mp hrun
  have hok := eq_ok_of_ended? hended
  exact ⟨p.2, hok, hevents, process_follows_history _ _ _ selfIncluding _ _ rfl rfl hok⟩

end IncludeOnce
