import IncludeOnce.Proofs.Bookkeeping
import IncludeOnce.Script

/-! The ledger only grows.

Whatever is done to a ledger is done record by record, and what is done to a record only
adds to it: a flag is set and never cleared, a reading is counted and never taken back.
`Ledger.Advances` is the way of a ledger through such changes. Each operation goes that way,
and so does a request with all that is asked for inside it, wherever it fails
(`Request.handle_advancing`, `Script.readWithin_advancing`). What is kept along the way is
then kept in every ledger that can be come to (`ledger_only_grows`). -/
namespace IncludeOnce

/-! ### Records -/

namespace Record

/-- Something may have been added to a record, and nothing has been taken back. -/
structure Grows (r later : Record) : Prop where
  processed : r.processed = true → later.processed = true
  onceGuarded : r.onceGuarded = true → later.onceGuarded = true
  count : r.count ≤ later.count

theorem Grows.refl (r : Record) : r.Grows r := ⟨id, id, Nat.le_refl _⟩

theorem Grows.trans {r middle later : Record} (h : r.Grows middle) (k : middle.Grows later) :
    r.Grows later where
  processed := k.processed ∘ h.processed
  onceGuarded := k.onceGuarded ∘ h.onceGuarded
  count := Nat.le_trans h.count k.count

/-- A file is marked as processed just if its content has been handed on. -/
def Balanced (r : Record) : Prop := r.processed = true ↔ 1 ≤ r.count

theorem balanced_blank : Balanced {} := by simp [Balanced]

/-- A change that adds to records and keeps them balanced. -/
structure Adds (change : Record → Record) : Prop where
  grows : ∀ r : Record, r.Grows (change r)
  balanced : ∀ r : Record, r.Balanced → (change r).Balanced

theorem adds_id : Adds id := ⟨.refl, fun _ h => h⟩

theorem adds_markProcessed : Adds markProcessed where
  grows r := ⟨fun _ => rfl, id, Nat.le_succ r.count⟩
  balanced r _ := by simp [Balanced, markProcessed]

theorem adds_markOnce : Adds markOnce where
  grows r := ⟨id, fun _ => rfl, Nat.le_refl r.count⟩
  balanced _ h := h

theorem adds_setGuard (guardName : Option Name) : Adds (·.setGuard guardName) where
  grows r := ⟨id, id, Nat.le_refl r.count⟩
  balanced _ h := h

theorem adds_absorb (report : Report) : Adds (·.absorb report) where
  grows r :=
    { processed := by simp
      onceGuarded := by simp +contextual
      count := by simp }
  balanced r h := by simpa [Balanced] using h

end Record

/-! ### Ledgers -/

namespace Ledger

/-- No file has two records, and every record is balanced. -/
structure Sound (l : Ledger) : Prop where
  distinct : (l.entries.map (·.1.key)).Nodup
  balanced : ∀ entry ∈ l.entries, entry.2.Balanced

/-- Later on every record is still there, under the path with which its file was first met,
and each has at most been added to. -/
structure Grows (l later : Ledger) : Prop where
  files : l.entries.map (·.1) <+: later.entries.map (·.1)
  records : ∀ f r, l.get? f = some r → ∃ r', later.get? f = some r' ∧ r.Grows r'

/-- The way of a ledger through changes that add to its records. -/
inductive Advances (l : Ledger) : Ledger → Prop
  | refl : Advances l l
  | update {middle : Ledger} {change : Record → Record} (h : Advances l middle) (f : Identity)
    (hchange : Record.Adds change) : Advances l (middle.update f change)

section
variable {l middle later : Ledger} {change : Record → Record}

theorem Advances.trans (h : l.Advances middle) (k : middle.Advances later) :
    l.Advances later := by
  induction k with
  | refl => exact h
  | update _ f hchange ih => exact ih.update f hchange

theorem files_updateIn (f : Identity) (change : Record → Record)
    (entries : List (Identity × Record)) :
    entries.map (·.1) <+: (updateIn f change entries).map (·.1) := by
  induction entries with
  | nil => simp
  | cons entry rest ih =>
    obtain ⟨g, r⟩ := entry
    by_cases hsame : g.isSame f = true
    · simp [updateIn, hsame]
    · simpa [updateIn, hsame] using ih

theorem Grows.refl (l : Ledger) : l.Grows l :=
  ⟨List.prefix_rfl, fun _ r hr => ⟨r, hr, .refl r⟩⟩

theorem Grows.trans (h : l.Grows middle) (k : middle.Grows later) : l.Grows later where
  files := h.files.trans k.files
  records := by
    intro f r hr
    obtain ⟨r', hr', hgrows⟩ := h.records f r hr
    obtain ⟨r'', hr'', hgrows'⟩ := k.records f r' hr'
    exact ⟨r'', hr'', hgrows.trans hgrows'⟩

/-- **The step lemma**: one change of one record. -/
theorem grows_update (l : Ledger) (f : Identity) (hchange : Record.Adds change) :
    l.Grows (l.update f change) where
  files := files_updateIn f change l.entries
  records := by
    intro g r hr
    rw [get?_update]
    by_cases hsame : f.isSame g = true
    · have hget : l.get g = r := by rw [get, hr, Option.getD_some]
      refine ⟨change r, ?_, hchange.grows r⟩
      rw [if_pos hsame, hget]
    · exact ⟨r, by rw [if_neg hsame, hr], .refl r⟩

theorem Sound.get (h : l.Sound) (f : Identity) : (l.get f).Balanced := by
  rcases l.get_blank_or_mem f with hblank | ⟨entry, hmem, hentry⟩
  · rw [hblank]
    exact Record.balanced_blank
  · rw [← hentry]
    exact h.balanced entry hmem

theorem Sound.update (h : l.Sound) (f : Identity) (hchange : Record.Adds change) :
    (l.update f change).Sound where
  distinct := nodup_keys_updateIn f change h.distinct
  balanced := forall_update h.balanced (hchange.balanced _ (h.get f))

/-- **The run lemma**: any number of changes. -/
theorem Advances.grows (h : l.Advances later) : l.Grows later := by
  induction h with
  | refl => exact .refl l
  | update _ f hchange ih => exact ih.trans (grows_update _ f hchange)

theorem Advances.sound (h : l.Advances later) (hl : l.Sound) : later.Sound := by
  induction h with
  | refl => exact hl
  | update _ f hchange ih => exact ih.update f hchange

theorem sound_empty : Sound {} := ⟨List.nodup_nil, by simp⟩

end

theorem advances_resolve (l : Ledger) (f : Identity) (kind : RequestKind)
    (isDefined : Name → Bool) : l.Advances (l.resolve f kind isDefined).2 := by
  cases kind with
  | plain => exact .update .refl f Record.adds_id
  | once => exact .update .refl f Record.adds_markOnce

theorem advances_begin (l : Ledger) (f : Identity) : l.Advances (l.begin f) :=
  .update .refl f Record.adds_markProcessed

theorem advances_complete (l : Ledger) (f : Identity) (report : Report) :
    l.Advances (l.complete f report) :=
  .update .refl f (Record.adds_absorb report)

end Ledger

/-! ### Requests -/

section
variable {ε σ α β : Type}

/-- An action that adds to the ledger, also where it fails. -/
def Advancing (x : EStateM ε (Run σ) α) : Prop :=
  ∀ run : Run σ, run.ledger.Advances (leftBy (x run)).ledger

namespace Advancing

theorem pure (a : α) : Advancing (pure a : EStateM ε (Run σ) α) := fun _ => .refl

theorem throw (e : ε) : Advancing (throw e : EStateM ε (Run σ) α) := fun _ => .refl

theorem note (entry : Journal.Entry) :
    Advancing (modify (·.note entry) : EStateM ε (Run σ) PUnit) := fun _ => .refl

theorem mapHost (f : σ → σ) : Advancing (modify (·.mapHost f) : EStateM ε (Run σ) PUnit) :=
  fun _ => .refl

theorem mapLedger {f : Ledger → Ledger} (hf : ∀ l : Ledger, l.Advances (f l)) :
    Advancing (modify (·.mapLedger f) : EStateM ε (Run σ) PUnit) :=
  fun run => hf run.ledger

theorem bind {x : EStateM ε (Run σ) α} {f : α → EStateM ε (Run σ) β} (hx : Advancing x)
    (hf : ∀ a, Advancing (f a)) : Advancing (x >>= f) := by
  intro run
  have hfirst := hx run
  rw [bind_apply]
  cases hrun : x run with
  | ok a middle =>
    rw [hrun] at hfirst
    exact hfirst.trans (hf a middle)
  | error e left =>
    rw [hrun] at hfirst
    exact hfirst

end Advancing

namespace Request
variable {r : Request} {resolver : Resolver} {beside : Path} {host : Host ε σ} {run : Run σ}
  {file : Identity}

/-- A request that is dropped has been decided, and nothing else. -/
theorem handle_of_skip {reason : SkipReason} (hfile : resolver r.header beside = .ok file)
    (hdecide : (run.ledger.get file).decide (host.isDefined run.host) = .skip reason) :
    ∃ left, r.handle resolver beside host run = .ok ⟨file, .skipped reason⟩ left ∧
      left.ledger = (run.ledger.resolve file r.kind (host.isDefined run.host)).2 := by
  refine ⟨((run.note (.sought r beside)).decided (host.isDefined run.host) r file).note
    (.skipped r file reason), ?_, rfl⟩
  rw [handle_apply, hfile]
  simp only [hdecide]

/-- The state in which the content of a file is about to be read for a request. -/
def begun (r : Request) (beside : Path) (isDefined : Name → Bool) (run : Run σ)
    (file : Identity) : Run σ :=
  (((run.note (.sought r beside)).decided isDefined r file).note
    (.processing r file)).mapLedger (·.begin file)

/-- A request that is not dropped stands and falls with the reading of its file. -/
theorem handle_of_process (hfile : resolver r.header beside = .ok file)
    (hdecide : (run.ledger.get file).decide (host.isDefined run.host) = .process) :
    r.handle resolver beside host run =
      (host.process file >>= fun report => do
        modify (·.note (.finished file report))
        modify (·.mapLedger (·.complete file report))
        return ⟨file, .processed⟩) (r.begun beside (host.isDefined run.host) run file) := by
  rw [handle_apply, hfile]
  simp only [hdecide]
  rfl

/-- A request adds to the ledger if the host does. -/
theorem handle_advancing (r : Request) (resolver : Resolver) (beside : Path)
    (hhost : ∀ f, Advancing (host.process f)) : Advancing (r.handle resolver beside host) := by
  intro run
  cases hfile : resolver r.header beside with
  | error e =>
    rw [handle_apply, hfile]
    exact .refl
  | ok file =>
    have hdecided := run.ledger.advances_resolve file r.kind (host.isDefined run.host)
    cases hdecide : (run.ledger.get file).decide (host.isDefined run.host) with
    | skip reason =>
      obtain ⟨left, hleft, hledger⟩ := handle_of_skip hfile hdecide
      rw [hleft]
      exact hledger ▸ hdecided
    | process =>
      -- The mark is made before the content is read, so it stays where the reading fails.
      rw [handle_of_process hfile hdecide]
      refine (hdecided.trans (Ledger.advances_begin _ file)).trans ?_
      refine (hhost file).bind (fun report => ?_) (r.begun beside _ run file)
      exact (Advancing.note _).bind fun _ =>
        (Advancing.mapLedger fun l => l.advances_complete file report).bind fun _ => .pure _

/-- A request whose header means no file leaves everything as it was. -/
theorem handle_unresolved {e : ResolutionError} (h : resolver r.header beside = .error e)
    (host : Host ε σ) (run : Run σ) :
    ∃ left, r.handle resolver beside host run = .error (host.unresolved e) left ∧
      left.ledger = run.ledger ∧ left.host = run.host := by
  refine ⟨run.note (.sought r beside), ?_, rfl, rfl⟩
  rw [handle_apply, h]

end Request

end

namespace Script
variable (stage : Stage)

theorem emit_advancing (event : Event) : Advancing (emit event) := .mapHost _

theorem request_advancing {read : Identity → ScriptM Report} (hread : ∀ f, Advancing (read f))
    (beside : Path) (r : Request) : Advancing (request stage read beside r) :=
  (r.handle_advancing stage.resolve beside hread).bind fun outcome =>
    emit_advancing (.handled r outcome)

theorem runLine_advancing {read : Identity → ScriptM Report} (hread : ∀ f, Advancing (read f))
    (file : Identity) (line : Line) : Advancing (runLine stage read file line) := by
  cases line with
  | define name => exact (Advancing.note _).bind fun _ => .mapHost _
  | undefine name => exact (Advancing.note _).bind fun _ => .mapHost _
  | stop message => exact .throw _
  | request r => exact request_advancing stage hread file.directory r

theorem runLines_advancing {read : Identity → ScriptM Report} (hread : ∀ f, Advancing (read f))
    (file : Identity) (lines : List Line) :
    Advancing (lines.forM (runLine stage read file)) := by
  induction lines with
  | nil => exact .pure _
  | cons line rest ih => exact (runLine_advancing stage hread file line).bind fun _ => ih

/-- Scripts add to the ledger, however deep they are nested. -/
theorem readWithin_advancing (room : Nat) (file : Identity) :
    Advancing (readWithin stage room file) := by
  induction room generalizing file with
  | zero => exact (emit_advancing _).bind fun _ => .throw _
  | succ room ih =>
    refine (emit_advancing _).bind fun _ => ?_
    exact (runLines_advancing stage ih file _).bind fun _ => .pure _

end Script

/-! ### Operations -/

namespace Ledger

/-- What is done to a ledger from outside: a record is changed, a request is decided, the
reading of a file is begun or completed, or a request is made that scripts answer. -/
inductive Operation
  | meet (f : Identity)
  | markProcessed (f : Identity)
  | markOnce (f : Identity)
  | setGuard (f : Identity) (guardName : Option Name)
  | resolve (f : Identity) (kind : RequestKind) (isDefined : Name → Bool)
  | begin (f : Identity)
  | complete (f : Identity) (report : Report)
  /-- The scripts, how many of them may be open at once, and what they start from. -/
  | request (stage : Script.Stage) (room : Nat) (beside : Path) (r : Request)
    (journal : Journal) (state : Script.State)

/-- The ledger after an operation, which may have failed. -/
def Operation.apply : Operation → Ledger → Ledger
  | .meet f, l => l.meet f
  | .markProcessed f, l => l.markProcessed f
  | .markOnce f, l => l.markOnce f
  | .setGuard f guardName, l => l.setGuard f guardName
  | .resolve f kind isDefined, l => (l.resolve f kind isDefined).2
  | .begin f, l => l.begin f
  | .complete f report, l => l.complete f report
  | .request stage room beside r journal state, l =>
    (leftBy (Script.request stage (Script.readWithin stage room) beside r
      ⟨l, journal, state⟩)).ledger

/-- The ledger after operations on an empty one. -/
def after (operations : List Operation) : Ledger :=
  operations.foldl (fun l operation => operation.apply l) {}

theorem Operation.advances (operation : Operation) (l : Ledger) :
    l.Advances (operation.apply l) := by
  cases operation with
  | meet f => exact .update .refl f Record.adds_id
  | markProcessed f => exact .update .refl f Record.adds_markProcessed
  | markOnce f => exact .update .refl f Record.adds_markOnce
  | setGuard f guardName => exact .update .refl f (Record.adds_setGuard guardName)
  | resolve f kind isDefined => exact l.advances_resolve f kind isDefined
  | begin f => exact l.advances_begin f
  | complete f report => exact l.advances_complete f report
  | request stage room beside r journal state =>
    exact Script.request_advancing stage (Script.readWithin_advancing stage room) beside r
      ⟨l, journal, state⟩

theorem after_sound (operations : List Operation) : (after operations).Sound := by
  have hfold : ∀ l : Ledger, l.Sound →
      (operations.foldl (fun l operation => operation.apply l) l).Sound := by
    induction operations with
    | nil => exact fun _ hl => hl
    | cons operation rest ih =>
      intro l hl
      exact ih _ ((operation.advances l).sound hl)
  exact hfold {} sound_empty

end Ledger

/-- **The ledger only grows.** After any operations on an empty ledger no file has two
records, and a record is marked as processed just if its count is not 0. A further operation,
whether it goes well or fails at any depth, keeps all records, their flags and their counts.
A request whose header means no file changes nothing at all. -/
theorem ledger_only_grows (operations : List Ledger.Operation) (further : Ledger.Operation) :
    (Ledger.after operations).Sound ∧
      (further.apply (Ledger.after operations)).Sound ∧
      (Ledger.after operations).Grows (further.apply (Ledger.after operations)) ∧
      ∀ (ε σ : Type) (resolver : Resolver) (host : Host ε σ) (r : Request) (beside : Path)
        (run : Run σ) (e : ResolutionError), resolver r.header beside = .error e →
        ∃ left, r.handle resolver beside host run = .error (host.unresolved e) left ∧
          left.ledger = run.ledger ∧ left.host = run.host := by
  have hsound := Ledger.after_sound operations
  have hadvances := further.advances (Ledger.after operations)
  refine ⟨hsound, hadvances.sound hsound, hadvances.grows, ?_⟩
  intro ε σ resolver host r beside run e he
  exact Request.handle_unresolved he host run

/-- A file whose reading stops after it has asked for another one, under two spellings. -/
def stoppingStage : Script.Stage where
  table := [("\"a.h\"".toList, .ofString "/a.h"), ("\"b.h\"".toList, .ofString "/b.h"),
    ("<b.h>".toList, .ofString "//./b.h")]
  scripts :=
    [("/a.h".toList,
      { lines := [.request ⟨.once, ⟨"b.h".toList, .quoted⟩⟩,
          .request ⟨.plain, ⟨"b.h".toList, .angled⟩⟩, .stop "here"] }),
    ("/b.h".toList, { report := ⟨true, some "B".toList⟩ })]

/-- Asks for the file that stops, where so many scripts may be open. -/
def askingStopped (room : Nat) : Ledger.Operation :=
  .request stoppingStage room (.ofString "/") ⟨.plain, ⟨"a.h".toList, .quoted⟩⟩ #[] {}

/-- One request fails in the script of its file, the next one because no script may be open. -/
theorem stopping_only_grows :
    (Ledger.after [askingStopped 20]).entries =
        [(.ofCanonical (.ofString "/a.h"), ⟨true, false, none, 1⟩),
          (.ofCanonical (.ofString "/b.h"), ⟨true, true, some "B".toList, 1⟩)] ∧
      ((askingStopped 0).apply (Ledger.after [askingStopped 20])).entries =
        [(.ofCanonical (.ofString "/a.h"), ⟨true, false, none, 2⟩),
          (.ofCanonical (.ofString "/b.h"), ⟨true, true, some "B".toList, 1⟩)] ∧
      (Ledger.after [askingStopped 20]).Grows
        ((askingStopped 0).apply (Ledger.after [askingStopped 20])) ∧
      ∃ left, (⟨.once, ⟨"c.h".toList, .angled⟩⟩ : Request).handle stoppingStage.resolve
          (.ofString "/") (Script.host (Script.readWithin stoppingStage 20))
          { ledger := Ledger.after [askingStopped 20], host := {} } =
            .error (.unresolved (.notFound ⟨"c.h".toList, .angled⟩)) left ∧
        left.ledger = Ledger.after [askingStopped 20] ∧ left.host = {} := by
  obtain ⟨_, _, hgrows, hunresolved⟩ := ledger_only_grows [askingStopped 20] (askingStopped 0)
  refine ⟨by decide +kernel, by decide +kernel, hgrows, ?_⟩
  exact hunresolved _ _ stoppingStage.resolve (Script.host (Script.readWithin stoppingStage 20))
    ⟨.once, ⟨"c.h".toList, .angled⟩⟩ (.ofString "/")
    { ledger := Ledger.after [askingStopped 20], host := {} } _ (by rfl)

end IncludeOnce
