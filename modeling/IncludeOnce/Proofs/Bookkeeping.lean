import IncludeOnce.Proofs.Course
import IncludeOnce.Proofs.Effects
import IncludeOnce.Proofs.History

/-! The ledger and the trace tell the same.

Both are kept while a scan goes on, and neither is made from the other. When a scan with a
fresh ledger has come to its end, the ledger can be read off the trace: it has one record
for the main file and for each file that a request meant, with as many readings as the
trace shows; a file is locked if an `#import` meant it or a line of it said so; and its
guard is what was seen when it was last finished (`process_ledger_agrees`).

Two things are added to what the history tells of each record. Every record is of a file
that has been begun, because a file is locked by its own lines only and dropped only when
it has been begun (`Course.fills`). And every file that has been begun has been finished
(`Course.finishes`). -/
namespace IncludeOnce
open Scan

/-! ### Every record is of a file that has been begun -/

namespace Ledger

/-- No file has two records, and every file on record has been begun. -/
structure Filled (l : Ledger) : Prop where
  distinct : (l.entries.map (·.1.key)).Nodup
  processed : ∀ entry ∈ l.entries, entry.2.processed = true

/-- Later on the ledger is filled, and no file is forgotten that had been begun. -/
structure Fills (l later : Ledger) : Prop where
  filled : later.Filled
  begun : ∀ f, (l.get f).processed = true → (later.get f).processed = true

theorem Fills.refl {l : Ledger} (h : l.Filled) : l.Fills l := ⟨h, fun _ hf => hf⟩

theorem Fills.trans {l middle later : Ledger} (h : l.Fills middle) (k : middle.Fills later) :
    l.Fills later :=
  ⟨k.filled, fun f hf => k.begun f (h.begun f hf)⟩

/-- What goes on in a file that has been begun finds it begun. -/
theorem Fills.onward {l middle later : Ledger} {file : Identity} (h : l.Fills middle)
    (hfile : (l.get file).processed = true)
    (k : middle.Filled → (middle.get file).processed = true → middle.Fills later) :
    l.Fills later :=
  h.trans (k h.filled (h.begun file hfile))

/-- A change of a record enters at most the key of its file. -/
theorem mem_keys_updateIn {f : Identity} {change : Record → Record} {key : Identity.Key}
    {entries : List (Identity × Record)} (h : key ∈ (updateIn f change entries).map (·.1.key)) :
    key ∈ entries.map (·.1.key) ∨ key = f.key := by
  induction entries with
  | nil => exact .inr (List.mem_singleton.mp h)
  | cons entry rest ih =>
    obtain ⟨g, r⟩ := entry
    rw [updateIn] at h
    split at h
    · exact .inl h
    · rcases List.mem_cons.mp h with h | h
      · exact .inl (h ▸ List.mem_cons_self)
      · exact (ih h).imp (List.mem_cons_of_mem _) id

theorem nodup_keys_updateIn (f : Identity) (change : Record → Record)
    {entries : List (Identity × Record)} (h : (entries.map (·.1.key)).Nodup) :
    ((updateIn f change entries).map (·.1.key)).Nodup := by
  induction entries with
  | nil => exact List.nodup_cons.mpr ⟨List.not_mem_nil, List.nodup_nil⟩
  | cons entry rest ih =>
    obtain ⟨g, r⟩ := entry
    obtain ⟨hnew, hrest⟩ := List.nodup_cons.mp h
    rw [updateIn]
    cases hsame : g.isSame f with
    | true => exact h
    | false =>
      refine List.nodup_cons.mpr ⟨fun hmem => ?_, ih hrest⟩
      rcases mem_keys_updateIn hmem with hmem | hkey
      · exact hnew hmem
      · rw [Identity.isSame_iff.mpr hkey] at hsame
        cases hsame

/-- A change that leaves its file begun keeps the ledger filled. -/
theorem Filled.update {l : Ledger} (h : l.Filled) {f : Identity} {change : Record → Record}
    (hf : (change (l.get f)).processed = true) : l.Fills (l.update f change) where
  filled := ⟨nodup_keys_updateIn f change h.distinct,
    forall_update (P := fun r => r.processed = true) h.processed hf⟩
  begun := by
    intro g hg
    rw [get_update]
    split
    · rename_i hsame
      rw [← l.get_congr hsame]
      exact hf
    · exact hg

theorem Filled.resolve {l : Ledger} (h : l.Filled) {f : Identity}
    (hf : (l.get f).processed = true) (kind : RequestKind) (isDefined : Name → Bool) :
    l.Fills (l.resolve f kind isDefined).2 := by
  cases kind with
  | plain => exact h.update hf
  | once => exact h.update hf

theorem Filled.begin {l : Ledger} (h : l.Filled) (f : Identity) (kind : RequestKind)
    (isDefined : Name → Bool) : l.Fills ((l.resolve f kind isDefined).2.begin f) := by
  cases kind with
  | plain =>
    show l.Fills ((l.update f id).update f Record.markProcessed)
    rw [update_update]
    exact h.update rfl
  | once =>
    show l.Fills ((l.update f Record.markOnce).update f Record.markProcessed)
    rw [update_update]
    exact h.update rfl

theorem Filled.complete {l : Ledger} (h : l.Filled) {f : Identity}
    (hf : (l.get f).processed = true) (report : Report) : l.Fills (l.complete f report) := by
  have habsorbed : ((l.get f).absorb report).processed = true :=
    (Record.processed_absorb _ report).trans hf
  exact h.update habsorbed

/-- To finish a file changes nothing but its guard, if it has been locked as it says. -/
theorem complete_of_locked {l : Ledger} {f : Identity} {report : Report}
    (h : report.declaredOnce = true → (l.get f).onceGuarded = true) (g : Identity) :
    ((l.complete f report).get g).processed = (l.get g).processed ∧
      ((l.complete f report).get g).count = (l.get g).count ∧
      ((l.complete f report).get g).onceGuarded = (l.get g).onceGuarded := by
  rw [get_complete]
  split
  · rename_i hsame
    rw [Record.processed_absorb, Record.count_absorb, Record.onceGuarded_absorb,
      ← l.get_congr hsame]
    refine ⟨rfl, rfl, ?_⟩
    cases hdeclared : report.declaredOnce with
    | true => rw [h hdeclared]; rfl
    | false => exact Bool.or_false _
  · exact ⟨rfl, rfl, rfl⟩

/-- A filled ledger knows the files that have been begun, and no others. -/
theorem Filled.isSome_get? {l : Ledger} (h : l.Filled) (f : Identity) :
    (l.get? f).isSome = (l.get f).processed := by
  rw [get, get?]
  cases hfind : l.entries.find? (·.1.isSame f) with
  | none => rfl
  | some entry => exact (h.processed entry (List.mem_of_find?_eq_some hfind)).symm

end Ledger

section
variable {fs : FileSystem} {settings : Settings} {file f : Identity} {location : Location}
  {source inner : SourceId} {kind : RequestKind} {operand trailing : Text} {header : HeaderName}
  {st : FileState} {lines : List (Numbered Line)} {run left : Run Scan} {e : ScanError}
  {sources : Sources} {loaded : SourceFile} {trail : List (Run Scan)} {report : Report}
  {r : EStateM.Result ScanError (Run Scan) FileState}

theorem Aside.fills {after : Run Scan} (h : Aside file run after) (hfilled : run.ledger.Filled)
    (hfile : (run.ledger.get file).processed = true) : run.ledger.Fills after.ledger := by
  rcases h.ledger with hl | hl
  · rw [hl]
    exact .refl hfilled
  · rw [hl]
    exact hfilled.update hfile

theorem droppedInside_fills {reason : SkipReason}
    (hdecide : (handing run location kind header trailing).decision f = .skip reason)
    (hfilled : run.ledger.Filled) :
    run.ledger.Fills (droppedInside run file location kind header trailing f reason).ledger := by
  have hbegun := Record.processed_of_skip hdecide
  have hfills := hfilled.resolve (handing_ledger run location kind header trailing ▸ hbegun) kind
    (handing run location kind header trailing).host.macros.isDefined
  rw [← handing_ledger run location kind header trailing] at hfills ⊢
  exact hfills

theorem begunInside_fills (hfilled : run.ledger.Filled) :
    run.ledger.Fills (begunInside run file location kind header trailing f).ledger := by
  have hfills :=
    hfilled.begin f kind (handing run location kind header trailing).host.macros.isDefined
  rw [← handing_ledger run location kind header trailing] at hfills ⊢
  exact hfills

theorem begunInside_begun :
    ((begunInside run file location kind header trailing f).ledger.get f).processed = true := by
  show ((Ledger.begin _ f).get f).processed = true
  rw [Ledger.get_begin, Identity.isSame_refl]
  rfl

theorem Refused.fills (h : Refused fs settings file location kind operand run e left)
    (hfilled : run.ledger.Filled) : run.ledger.Fills left.ledger := by
  cases h with
  | malformed hread => exact .refl hfilled
  | @tooDeep header trailing hread hdeep =>
    obtain ⟨d, hd⟩ := warned_eq run location kind trailing
    rw [stoppedInside, hd]
    exact .refl hfilled
  | @unresolved header trailing e hread hroom hresolve =>
    show run.ledger.Fills (handing run location kind header trailing).ledger
    rw [handing_ledger]
    exact .refl hfilled
  | unreadable hmeans hdecide hload => exact begunInside_fills hfilled

/-- A file in place is begun, read and finished. -/
theorem finishedInside_fills {opened : Run Scan}
    (hopened : opened.ledger = (begunInside run file location kind header trailing f).ledger)
    (hfilled : run.ledger.Filled) (hinner : opened.ledger.Fills (leftBy r).ledger)
    (hleave : leave r = .ok report left) :
    run.ledger.Fills (finishedInside run f report left).ledger := by
  have hleft := leave_ledger r
  rw [hleave] at hleft
  have hinside : (begunInside run file location kind header trailing f).ledger.Fills
      left.ledger := by
    rw [← hopened, show left.ledger = _ from hleft]
    exact hinner
  have hfinished := hinside.filled.complete (hinside.begun f begunInside_begun) report
  exact ((begunInside_fills hfilled).trans hinside).trans hfinished

/-- **Every record is of a file that has been begun**, at every end of a scan. -/
theorem Course.fills (h : Course fs settings file source st lines run trail r) :
    run.ledger.Filled → (run.ledger.get file).processed = true →
      run.ledger.Fills (leftBy r).ledger := by
  induction h with
  | done => exact fun hfilled _ => .refl hfilled
  | line hasked hstep hrest ih =>
    intro hfilled hfile
    exact ((step_aside_ok _ _ _ _ _ hasked hstep).fills hfilled hfile).onward hfile ih
  | fails hasked hstep =>
    intro hfilled hfile
    exact (step_aside_error _ _ _ _ _ hasked hstep).fills hfilled hfile
  | refused hasked hrefused => exact fun hfilled _ => hrefused.fills hfilled
  | dropped hasked hmeans hdecide hrest ih =>
    intro hfilled hfile
    exact (droppedInside_fills hdecide hfilled).onward hfile ih
  | entered hasked hopens hinner hleave hrest ihinner ihrest =>
    intro hfilled hfile
    have hinside := ihinner (begunInside_fills hfilled).filled begunInside_begun
    exact (finishedInside_fills rfl hfilled hinside hleave).onward hfile ihrest
  | stopped hasked hopens hinner hleave ihinner =>
    intro hfilled hfile
    have hinside := ihinner (begunInside_fills hfilled).filled begunInside_begun
    rw [← leave_ledger, hleave] at hinside
    exact (begunInside_fills hfilled).trans hinside

end

/-! ### Every file that has been begun is finished -/

/-- Every file that has been begun in place of a line has been finished. -/
def Journal.AllFinished (history : List Journal.Entry) : Prop :=
  ∀ request f, .processing request f ∈ history → ∃ report, .finished f report ∈ history

/-- The journal has grown, and every file begun meanwhile has been finished. -/
def Finishes (run after : Run Scan) : Prop :=
  ∃ more, after.journal.toList = run.journal.toList ++ more ∧ Journal.AllFinished more

namespace Finishes
variable {run middle after : Run Scan}

/-- No file was begun. -/
theorem idle (more : List Journal.Entry) (h : after.journal.toList = run.journal.toList ++ more)
    (hidle : ∀ request f, .processing request f ∉ more) : Finishes run after :=
  ⟨more, h, fun request f hmem => absurd hmem (hidle request f)⟩

theorem trans (h : Finishes run middle) (k : Finishes middle after) : Finishes run after := by
  obtain ⟨a, ha, hfa⟩ := h
  obtain ⟨b, hb, hfb⟩ := k
  refine ⟨a ++ b, by rw [hb, ha, List.append_assoc], ?_⟩
  intro request f hmem
  rcases List.mem_append.mp hmem with hmem | hmem
  · obtain ⟨report, hreport⟩ := hfa request f hmem
    exact ⟨report, List.mem_append_left _ hreport⟩
  · obtain ⟨report, hreport⟩ := hfb request f hmem
    exact ⟨report, List.mem_append_right _ hreport⟩

end Finishes

section
variable {fs : FileSystem} {settings : Settings} {file f : Identity} {location : Location}
  {source : SourceId} {kind : RequestKind} {trailing : Text} {header : HeaderName}
  {st : FileState} {lines : List (Numbered Line)} {run left : Run Scan} {sources : Sources}
  {trail : List (Run Scan)} {report : Report} {r : EStateM.Result ScanError (Run Scan) FileState}

theorem step_finishes {search : HeaderSearch} {reader : Reader} {line : Line}
    (hasked : line.asked? st = none)
    (hstep : step fs search reader file location st line run = r) : Finishes run (leftBy r) := by
  rw [← hstep, leftBy_step fs search reader file location hasked]
  refine .idle (line.effect file run.host.macros st.skipping).entry.toList ?_ ?_
  · exact Effect.on_journal ..
  · intro request g hmem
    have hown := (line.effect file run.host.macros st.skipping).isOwn
    rw [Option.mem_toList.mp hmem] at hown
    cases hown

theorem droppedInside_finishes (reason : SkipReason) :
    Finishes run (droppedInside run file location kind header trailing f reason) := by
  exact .idle _ (droppedInside_journal ..) (by simp)

/-- A file in place is begun before what came up inside it, and finished after that. -/
theorem finishedInside_finishes
    (hinner : Finishes (openedInside run file location kind header trailing f sources) (leftBy r))
    (hleave : leave r = .ok report left) :
    Finishes run (finishedInside run f report left) := by
  obtain ⟨inside, hinside, hfinishes⟩ := hinner
  have hbegun : (openedInside run file location kind header trailing f sources).journal.toList =
      run.journal.toList ++ [.sought ⟨kind, header⟩ file.directory, .resolved ⟨kind, header⟩ f,
        .processing ⟨kind, header⟩ f] :=
    begunInside_journal run file location kind header trailing f
  have hleft := leave_journal_eq r
  rw [hleave] at hleft
  refine ⟨[.sought ⟨kind, header⟩ file.directory, .resolved ⟨kind, header⟩ f,
    .processing ⟨kind, header⟩ f] ++ inside ++ [.finished f report], ?_, ?_⟩
  · show (left.journal.push (.finished f report)).toList = _
    rw [Array.toList_push, show left.journal = _ from hleft, hinside, hbegun]
    simp
  · intro request g hmem
    simp only [List.mem_append, List.mem_cons, List.not_mem_nil, or_false, reduceCtorEq,
      false_or] at hmem
    rcases hmem with hmem | hmem
    · cases hmem
      exact ⟨report, by simp⟩
    · obtain ⟨shown, hshown⟩ := hfinishes request g hmem
      exact ⟨shown, by simp [hshown]⟩

/-- **Every file that has been begun is finished** when a scan has come to its end. -/
theorem Course.finishes (h : Course fs settings file source st lines run trail r) :
    ∀ after left, r = .ok after left → Finishes run left := by
  induction h with
  | done =>
    rintro after left ⟨⟩
    exact .idle [] (List.append_nil _).symm (by simp)
  | line hasked hstep hrest ih =>
    intro after left hr
    have hline := step_finishes hasked hstep
    exact hline.trans (ih after left hr)
  | fails hasked hstep => rintro after left ⟨⟩
  | refused hasked hrefused => rintro after left ⟨⟩
  | dropped hasked hmeans hdecide hrest ih =>
    intro after left hr
    exact (droppedInside_finishes _).trans (ih after left hr)
  | entered hasked hopens hinner hleave hrest ihinner ihrest =>
    intro after left hr
    obtain ⟨st, last, hlast⟩ := leave_ok hleave
    have hinside := ihinner st last hlast
    rw [show last = leftBy (.ok st last) from rfl, ← hlast] at hinside
    exact (finishedInside_finishes hinside hleave).trans (ihrest after left hr)
  | stopped hasked hopens hinner hleave ihinner => rintro after left ⟨⟩

end

/-! ### What the history tells of a record -/

/-- Whether a file was read for a request. -/
def EventResult.reads (f : Identity) : EventResult → Bool
  | .processed g => g.isSame f
  | _ => false

namespace Journal

/-- What a file has shown when it had been read, be it a main file or not. -/
def Entry.shown? (f : Identity) : Entry → Option Report
  | .mainEnded g report => if g.isSame f then some report else none
  | entry => entry.reportOf? f

/-- What a file has shown each time it had been read, be it as a main file or not. -/
def shown (f : Identity) (history : List Entry) : List Report := history.filterMap (·.shown? f)

theorem shown_concat (f : Identity) (history : List Entry) (entry : Entry) :
    shown f (history ++ [entry]) = shown f history ++ (entry.shown? f).toList := by
  rw [shown, List.filterMap_append]
  cases h : entry.shown? f with
  | none => rw [List.filterMap_cons_none h]; rfl
  | some report => rw [List.filterMap_cons_some h]; rfl

namespace Follows
variable {main : Identity} {isDefined : Name → Bool} {history : List Entry}

/-- A file has been begun as often as it was read for a request, and once more if it is the
main file. -/
theorem count (h : Follows main isDefined history) (g : Identity) :
    (recordAfter history g).count =
      (turns history).countP (·.result.reads g) + if main.isSame g then 1 else 0 := by
  induction h with
  | begun =>
    rw [recordAfter, List.foldl_cons, List.foldl_nil, Entry.onRecord]
    split <;> rfl
  | @step history entry _ hfits ih =>
    rw [recordAfter_concat, turns_concat, List.countP_append, Nat.add_right_comm, ← ih]
    cases entry with
    | mainBegun f => exact hfits.elim
    | skipped request f reason =>
      rw [Entry.onRecord]
      split <;> rfl
    | processing request f =>
      have hreads : (Entry.turn? (.processing request f)).toList.countP (·.result.reads g) =
          if f.isSame g then 1 else 0 := List.countP_singleton
      rw [hreads, Entry.onRecord]
      split
      · split <;> rfl
      · rfl
    | finished f report =>
      rw [Entry.onRecord]
      split
      · rw [Record.count_absorb]
        rfl
      · rfl
    | lockedByPragma f =>
      rw [Entry.onRecord]
      split <;> rfl
    | _ => rfl

/-- A file that has been begun has been counted. -/
theorem count_pos (h : Follows main isDefined history) (g : Identity) :
    (recordAfter history g).processed = true → 0 < (recordAfter history g).count := by
  induction h with
  | begun =>
    rw [recordAfter, List.foldl_cons, List.foldl_nil, Entry.onRecord]
    split
    · exact fun _ => Nat.one_pos
    · rintro ⟨⟩
  | @step history entry _ hfits ih =>
    rw [recordAfter_concat]
    cases entry with
    | mainBegun f => exact hfits.elim
    | skipped request f reason =>
      rw [Entry.onRecord]
      split <;> exact ih
    | processing request f =>
      rw [Entry.onRecord]
      split
      · exact fun _ => Nat.succ_pos _
      · exact ih
    | finished f report =>
      rw [Entry.onRecord]
      split
      · rw [Record.processed_absorb, Record.count_absorb]
        exact ih
      · exact ih
    | lockedByPragma f =>
      rw [Entry.onRecord]
      split <;> exact ih
    | _ => exact ih

/-- The guard on record is the one that was seen last. -/
theorem lastGuard (h : Follows main isDefined history) (g : Identity) :
    (recordAfter history g).guardName = (shown g history).getLast?.bind (·.guardName) := by
  induction h with
  | begun => exact Entry.onRecord_guardName (.mainBegun main) g {}
  | @step history entry _ hfits ih =>
    have hshown : entry.shown? g = entry.reportOf? g := by
      cases entry with
      | mainEnded f report => exact hfits.elim
      | _ => rfl
    rw [recordAfter_concat, Entry.onRecord_guardName, ih, shown_concat, hshown]
    cases entry.reportOf? g with
    | none =>
      rw [Option.toList_none, List.append_nil]
      rfl
    | some report =>
      rw [Option.toList_some, List.getLast?_concat]
      rfl

end Follows

end Journal

/-! ### Ledger and trace -/

/-- What the trace and the history of a scan tell of the ledger it has left. -/
structure LedgerAgrees (main : Identity) (events : List IncludeEvent)
    (history : List Journal.Entry) (ledger : Ledger) : Prop where
  /-- No file has two records. -/
  distinct : (ledger.entries.map (·.1.key)).Nodup
  /-- The main file has a record, and so has each file that a request meant. -/
  known : ∀ f, (ledger.get? f).isSome = (main.isSame f || events.any (·.turn.means f))
  processed : ∀ entry ∈ ledger.entries, entry.2.processed = true
  count : ∀ f, (ledger.get f).count =
    events.countP (·.result.reads f) + if main.isSame f then 1 else 0
  onceGuarded : ∀ f, (ledger.get f).onceGuarded =
    (events.any (·.turn.imports f) || history.any (·.locks f))
  /-- The guard on record is what was seen when the file was last finished. -/
  guardName : ∀ f, (ledger.get? f).isSome = true → ∃ report,
    (Journal.shown f history).getLast? = some report ∧ (ledger.get f).guardName = report.guardName

section
variable {fs : FileSystem} {settings : Settings} {source : SourceId} {main : SourceFile}
  {start left : Run Scan} {report : Report}

/-- The lines of a main file have made moves that the trace tells, and have locked the file
if they said so. -/
theorem main_goes (hmain : start.host.sources.file? source = some main)
    (hleave : leave (scanLines fs settings.search
      (readerIn fs settings (start.mainOpened main.identity)) main.identity source {}
      (Line.ofText main.text) (start.mainOpened main.identity)) = .ok report left) :
    Goes fs (start.mainBegun main.identity) left ∧
      (report.declaredOnce = true → (left.ledger.get main.identity).onceGuarded = true) := by
  have hmakes : Makes fs (start.mainBegun main.identity) (within main.identity none
      (scanFile fs settings.search
        (readerWithin fs settings.search (settings.maxDepth - start.host.stack.length))
        main.identity source)) fun report after =>
        report.declaredOnce = true → (after.ledger.get main.identity).onceGuarded = true :=
    .within (scanFile_makes (readerWithin_reads _) hmain) fun _ _ honce => honce
  have hbegun : (start.mainBegun main.identity).host.sources.file? source = some main := hmain
  exact hmakes.ok ((within_scanFile none hbegun).trans hleave)

/-- What has happened since a main file was begun with an empty ledger is told by the trace
and by the journal alike. -/
theorem Goes.faithful {main : Identity} (h : Goes fs (start.mainBegun main) left)
    (hfresh : start.ledger = {}) :
    ∃ events more, left.host.events.toList = start.host.events.toList ++ events ∧
      left.journal.toList = (start.mainBegun main).journal.toList ++ more ∧
      events.map IncludeEvent.turn = Journal.turns more ∧
      Faithful main start left ([.mainBegun main] ++ more) := by
  obtain ⟨more, hfaithful⟩ := (faithful_mainBegun main hfresh).moves h.moves
  obtain ⟨events, entries, hevents, hentries, hturns⟩ := h.told
  have hmore : entries = more := by
    have hj := hfaithful.journal
    rw [hentries, ← List.append_assoc] at hj
    exact List.append_cancel_left (hj.trans (congrArg (· ++ more) Array.toList_push.symm))
  subst hmore
  exact ⟨events, entries, hevents, hentries, hturns, hfaithful⟩

theorem mainOpened_filled (main : Identity) (hfresh : start.ledger = {}) :
    (start.mainOpened main).ledger.Filled ∧
      ((start.mainOpened main).ledger.get main).processed = true := by
  have hempty : Ledger.Filled {} := ⟨List.nodup_nil, by simp⟩
  have hledger : (start.mainOpened main).ledger = Ledger.begin {} main :=
    congrArg (Ledger.begin · main) hfresh
  rw [hledger, Ledger.get_begin, Identity.isSame_refl]
  exact ⟨(hempty.update rfl).filled, rfl⟩

/-- When a main file has been left, the records are of the files begun, and all of these
have been finished but the main file. -/
theorem main_fills (hfresh : start.ledger = {})
    (hleave : leave (scanLines fs settings.search
      (readerIn fs settings (start.mainOpened main.identity)) main.identity source {}
      (Line.ofText main.text) (start.mainOpened main.identity)) = .ok report left) :
    (start.mainOpened main.identity).ledger.Fills left.ledger ∧
      Finishes (start.mainBegun main.identity) left := by
  obtain ⟨trail, hcourse⟩ := exists_course fs settings main.identity source {}
    (Line.ofText main.text) (start.mainOpened main.identity)
  obtain ⟨hfilled, hbegun⟩ := mainOpened_filled main.identity hfresh
  have hfills := hcourse.fills hfilled hbegun
  rw [← leave_ledger, hleave] at hfills
  refine ⟨hfills, ?_⟩
  obtain ⟨st, last, hlast⟩ := leave_ok hleave
  obtain ⟨more, hmore, hfinishes⟩ := hcourse.finishes st last hlast
  have hjournal := leave_journal_eq (.ok st last)
  rw [← hlast, hleave, hlast] at hjournal
  exact ⟨more, (congrArg Array.toList hjournal).trans hmore, hfinishes⟩

/-- A file other than the main file that is on record has been finished. -/
theorem Faithful.shown_ne_nil {main : Identity} {more : List Journal.Entry}
    (h : Faithful main start left ([.mainBegun main] ++ more))
    (hfinishes : Journal.AllFinished more) {f : Identity} (hother : main.isSame f = false)
    (hbegun : (left.ledger.get f).processed = true) :
    Journal.shown f ([.mainBegun main] ++ more) ≠ [] := by
  have hcount := h.follows.count_pos f (h.ledger f ▸ hbegun)
  rw [h.follows.count f, hother, if_neg (by decide), Nat.add_zero] at hcount
  obtain ⟨turn, hturn, hreads⟩ := List.countP_pos_iff.mp hcount
  obtain ⟨entry, hentry, hdecides⟩ := List.mem_filterMap.mp hturn
  have hmem : entry ∈ more := by
    rcases List.mem_cons.mp hentry with rfl | hmem
    · cases hdecides
    · exact hmem
  obtain ⟨request, g, rfl, hsame⟩ : ∃ request g, entry = .processing request g ∧
      g.isSame f = true := by
    cases entry with
    | processing request g =>
      cases hdecides
      exact ⟨request, g, rfl, hreads⟩
    | skipped request g reason =>
      cases hdecides
      cases hreads
    | _ => cases hdecides
  obtain ⟨report, hreport⟩ := hfinishes request g hmem
  have hshown : report ∈ Journal.shown f ([.mainBegun main] ++ more) :=
    List.mem_filterMap.mpr ⟨_, List.mem_append_right _ hreport, if_pos hsame⟩
  exact List.ne_nil_of_mem hshown

/-- The guard on record when a main file has ended was seen when its file was last
finished. -/
theorem Faithful.guardName {main f : Identity} {more : List Journal.Entry}
    (h : Faithful main start left ([.mainBegun main] ++ more))
    (hfinishes : Journal.AllFinished more)
    (hbegun : (left.ledger.get f).processed = true) :
    ∃ last, (Journal.shown f (([.mainBegun main] ++ more) ++ [.mainEnded main report])).getLast? =
        some last ∧ ((left.ledger.complete main report).get f).guardName = last.guardName := by
  rw [Ledger.get_complete, Journal.shown_concat, Journal.Entry.shown?]
  cases hsame : main.isSame f with
  | true => exact ⟨report, List.getLast?_concat, rfl⟩
  | false =>
    have hlast := List.getLast?_eq_some_getLast (h.shown_ne_nil hfinishes hsame hbegun)
    refine ⟨_, (congrArg _ (List.append_nil _)).trans hlast, ?_⟩
    rw [if_neg (by decide), h.ledger, h.follows.lastGuard, hlast]
    rfl

end

/-- **Ledger and trace agree** when the scan of a main file with an empty ledger has come to
its end. -/
theorem process_ledger_agrees (fs : FileSystem) (settings : Settings) (source : SourceId)
    (main : SourceFile) (start finish : Run Scan) (hfresh : start.ledger = {})
    (hmain : start.host.sources.file? source = some main)
    (hok : process fs settings source start = .ok () finish) :
    ∃ events history, finish.host.events.toList = start.host.events.toList ++ events ∧
      finish.journal.toList = start.journal.toList ++ history ∧
      LedgerAgrees main.identity events history finish.ledger := by
  obtain ⟨report, left, hleave, rfl⟩ := process_eq_ok hmain hok
  obtain ⟨hgoes, honce⟩ := main_goes hmain hleave
  obtain ⟨events, more, hevents, hmore, hturns, hfaithful⟩ := hgoes.faithful hfresh
  obtain ⟨hfills, entries, hentries, hfinishes⟩ := main_fills hfresh hleave
  obtain rfl : more = entries := List.append_cancel_left (hmore.symm.trans hentries)
  have hdecided : Journal.turns ([.mainBegun main.identity] ++ more) =
      events.map IncludeEvent.turn := hturns.symm
  have hbegun := hfills.begun _ (mainOpened_filled main.identity hfresh).2
  have hfilled : (left.mainEnded main.identity report).ledger.Filled :=
    (hfills.filled.complete hbegun report).filled
  -- The records are those of the history up to the end of the lines: the end of the main file
  -- changes its guard only.
  have hended : ∀ f, ((left.mainEnded main.identity report).ledger.get f).processed =
        (left.ledger.get f).processed ∧
      ((left.mainEnded main.identity report).ledger.get f).count = (left.ledger.get f).count ∧
      ((left.mainEnded main.identity report).ledger.get f).onceGuarded =
        (left.ledger.get f).onceGuarded := Ledger.complete_of_locked honce
  refine ⟨events, ([.mainBegun main.identity] ++ more) ++ [.mainEnded main.identity report],
    hevents, ?_, hfilled.distinct, ?_, hfilled.processed, ?_, ?_, ?_⟩
  · show (left.journal.push _).toList = _
    rw [Array.toList_push, hfaithful.journal, List.append_assoc]
  · intro f
    rw [hfilled.isSome_get?, (hended f).1, hfaithful.ledger, hfaithful.follows.processed, hdecided,
      List.any_map]
    rfl
  · intro f
    rw [(hended f).2.1, hfaithful.ledger, hfaithful.follows.count, hdecided, List.countP_map]
    rfl
  · intro f
    have hlocks : ∀ history : List Journal.Entry,
        (history ++ [Journal.Entry.mainEnded main.identity report]).any (·.locks f) =
          history.any (·.locks f) := by
      intro history
      rw [List.any_append]
      exact Bool.or_false _
    rw [(hended f).2.2, hfaithful.ledger, hfaithful.follows.onceGuarded, hdecided, List.any_map,
      hlocks]
    rfl
  · intro f hknown
    rw [hfilled.isSome_get?, (hended f).1] at hknown
    exact hfaithful.guardName hfinishes hknown

/-- Two headers, one of them guarded, are asked for twice; the second request for the guarded
one is an `#import`, and the other asks for the main file. -/
def askingBack : FileSystem where
  entries := [(["main.c".toList], .file 1), (["a.h".toList], .file 2), (["b.h".toList], .file 3)]
  contents := [
    (2, "#ifndef A\n#define A\n#endif\n".toList.map (·.toNat.toUInt8)),
    (3, "#include \"main.c\"\n".toList.map (·.toNat.toUInt8))]

def askedBack : SourceFile :=
  .entered ⟨0⟩ ⟨.inode 1, .ofString "/main.c"⟩
    (["#pragma once", "#include \"a.h\"", "#import \"a.h\"", "#include \"b.h\"",
      "#include \"b.h\""].flatMap fun line => line.toList ++ ['\n'])

theorem askedBack_ledger_agrees :
    (runOn askedBack).ledger = {} ∧
      (runOn askedBack).host.sources.file? ⟨0⟩ = some askedBack ∧
      ∃ finish, process askingBack {} ⟨0⟩ (runOn askedBack) = .ok () finish ∧
        finish.ledger.entries.map (·.2) =
          [⟨true, true, none, 1⟩, ⟨true, true, some ['A'], 1⟩, ⟨true, false, none, 2⟩] ∧
        ∃ events history, finish.host.events.toList =
            (runOn askedBack).host.events.toList ++ events ∧
          finish.journal.toList = (runOn askedBack).journal.toList ++ history ∧
          LedgerAgrees askedBack.identity events history finish.ledger := by
  have hrun : (ended? (process askingBack {} ⟨0⟩ (runOn askedBack))).map
      (·.2.ledger.entries.map (·.2)) =
        some [⟨true, true, none, 1⟩, ⟨true, true, some ['A'], 1⟩, ⟨true, false, none, 2⟩] := by
    decide +kernel
  obtain ⟨p, hended, hrecords⟩ := Option.map_eq_some_iff.mp hrun
  have hok := eq_ok_of_ended? hended
  exact ⟨rfl, rfl, p.2, hok, hrecords,
    process_ledger_agrees askingBack {} ⟨0⟩ askedBack _ _ rfl rfl hok⟩

end IncludeOnce
