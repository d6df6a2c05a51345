import IncludeOnce.Proofs.Growth

/-! Requests in any order.

The order of requests decides which of them are answered by reading: an `#import` that comes
late finds its file read, one that comes early locks out the others. The flags in the end do
not depend on it. A file that has been asked for has been processed, and it is locked if an
`#import` asked for it or its content says so (`Settles`). One request adds the same to that
at every place in the list (`handle_answered`), though what it does there is not the same;
so the requests may change places (`flags_in_any_order`). -/
namespace IncludeOnce

/-- A request made from a directory, and the host that answers it. -/
structure Occurrence (ε σ : Type) where
  host : Host ε σ
  request : Request
  beside : Path

section
variable {ε σ : Type}

/-- The host reads every file without touching the ledger, and reports of the same file
always the same. What it does otherwise, and which names it has defined, is its own matter. -/
def Host.Reports (host : Host ε σ) (reports : Identity.Key → Report) : Prop :=
  ∀ f run, ∃ left, host.process f run = .ok (reports f.key) left ∧ left.ledger = run.ledger

namespace Occurrence

/-- The request without the host. -/
def asked (o : Occurrence ε σ) : Request × Path := (o.request, o.beside)

/-- The request means this file, under whatever name. -/
def AsksFor (resolver : Resolver) (o : Occurrence ε σ) (f : Identity) : Prop :=
  ∃ g, resolver o.request.header o.beside = .ok g ∧ g.isSame f = true

/-- Handles requests one after the other. There is a host for each of them, so the names
that are defined may change from one to the next in any way. -/
def handleAll (resolver : Resolver) : List (Occurrence ε σ) → EStateM ε (Run σ) (List Outcome)
  | [] => return []
  | o :: rest => do
    let outcome ← o.request.handle resolver o.beside o.host
    return outcome :: (← handleAll resolver rest)

end Occurrence

/-- The two flags of a record, without its guard and its count. -/
def Record.flags (r : Record) : Bool × Bool := (r.processed, r.onceGuarded)

/-! ### One request -/

variable {resolver : Resolver} {reports : Identity.Key → Report}

namespace Ledger

/-- Every file on record has been processed, and is locked if its content says so. -/
structure Settled (reports : Identity.Key → Report) (l : Ledger) : Prop where
  filled : l.Filled
  locked : ∀ f, (l.get f).processed = true → (reports f.key).declaredOnce = true →
    (l.get f).onceGuarded = true

theorem settled_empty : Settled reports {} where
  filled := ⟨List.nodup_nil, by simp⟩
  locked := by simp [get, get?]

/-- What a request adds, wherever it stands: its file has been processed, and it is locked
if this is an `#import` or the content says so. -/
structure Answered (reports : Identity.Key → Report) (file : Identity) (kind : RequestKind)
    (l later : Ledger) : Prop where
  filled : later.Filled
  processed : ∀ f, (later.get f).processed = ((l.get f).processed || file.isSame f)
  onceGuarded : ∀ f, (later.get f).onceGuarded = ((l.get f).onceGuarded ||
    (file.isSame f && (kind = .once || (reports f.key).declaredOnce)))

section
variable {l later : Ledger} {file : Identity} {kind : RequestKind}

theorem Answered.settled (h : l.Answered reports file kind later) (hl : l.Settled reports) :
    later.Settled reports where
  filled := h.filled
  locked := by
    intro f hprocessed hdeclared
    rw [h.processed, Bool.or_eq_true] at hprocessed
    rw [h.onceGuarded, hdeclared]
    rcases hprocessed with hprocessed | hsame
    · simp [hl.locked f hprocessed hdeclared]
    · simp [hsame]

/-- A request that is dropped comes after its file has been processed. -/
theorem answered_resolve (hl : l.Settled reports) (hfile : (l.get file).processed = true)
    (kind : RequestKind) (isDefined : Name → Bool) :
    l.Answered reports file kind (l.resolve file kind isDefined).2 where
  filled := (hl.filled.resolve hfile kind isDefined).filled
  processed := by
    intro f
    rw [get_resolve]
    by_cases hsame : file.isSame f = true
    · rw [l.get_congr hsame] at hfile
      split <;> simp [Record.markOnce, hfile]
    · simp [hsame]
  onceGuarded := by
    intro f
    rw [get_resolve]
    by_cases hsame : file.isSame f = true
    · rw [l.get_congr hsame] at hfile
      have hlocked := hl.locked f hfile
      by_cases hkind : kind = .once
      · simp [hkind, hsame, Record.markOnce]
      · by_cases hdeclared : (reports f.key).declaredOnce = true
        · simp [hkind, hlocked hdeclared]
        · simp [hkind, hdeclared]
    · simp [hsame]

/-- A request that is not dropped takes over what reading its file has shown. -/
theorem answered_complete (reports : Identity.Key → Report) (hl : l.Filled) (file : Identity)
    (kind : RequestKind) (isDefined : Name → Bool) :
    l.Answered reports file kind
      (((l.resolve file kind isDefined).2.begin file).complete file (reports file.key)) where
  filled := by
    have hbegun := (hl.begin file kind isDefined).filled
    refine (hbegun.complete ?_ (reports file.key)).filled
    simp [get_begin, Record.markProcessed]
  processed := by
    intro f
    rw [get_complete, get_begin, get_resolve]
    by_cases hsame : file.isSame f = true <;> simp [hsame, Record.markProcessed]
  onceGuarded := by
    intro f
    rw [get_complete, get_begin, get_resolve]
    by_cases hsame : file.isSame f = true
    · rw [Identity.isSame_iff.mp hsame]
      by_cases hkind : kind = .once <;>
        simp [hsame, hkind, Record.markProcessed, Record.markOnce]
    · simp [hsame]

end

end Ledger

namespace Occurrence

/-- **The step lemma**: a request comes to its end and adds what it adds. The first one for a
file reads it. -/
theorem handle_answered {o : Occurrence ε σ} (hreports : o.host.Reports reports)
    {file : Identity} (hfile : resolver o.request.header o.beside = .ok file) {run : Run σ}
    (hl : run.ledger.Settled reports) :
    ∃ action left, o.request.handle resolver o.beside o.host run = .ok ⟨file, action⟩ left ∧
      run.ledger.Answered reports file o.request.kind left.ledger ∧
      ((run.ledger.get file).processed = false → action = .processed) := by
  cases hdecide : (run.ledger.get file).decide (o.host.isDefined run.host) with
  | skip reason =>
    obtain ⟨left, hleft, hledger⟩ := Request.handle_of_skip hfile hdecide
    have hprocessed := Record.processed_of_skip hdecide
    refine ⟨.skipped reason, left, hleft, ?_, fun hfirst => ?_⟩
    · rw [hledger]
      exact Ledger.answered_resolve hl hprocessed _ _
    · rw [hprocessed] at hfirst
      cases hfirst
  | process =>
    obtain ⟨left, hleft, hledger⟩ :=
      hreports file (o.request.begun o.beside (o.host.isDefined run.host) run file)
    refine ⟨.processed, (left.note (.finished file (reports file.key))).mapLedger
      (·.complete file (reports file.key)), ?_, ?_, fun _ => rfl⟩
    · rw [Request.handle_of_process hfile hdecide, bind_apply, hleft]
      rfl
    · have hanswered := Ledger.answered_complete reports hl.filled file o.request.kind
        (o.host.isDefined run.host)
      show run.ledger.Answered _ _ _ (left.ledger.complete file (reports file.key))
      rw [hledger]
      exact hanswered

/-! ### Any number of requests -/

/-- What requests have added to a ledger and how they were answered. The order of the
requests is seen only in which of them is the first for its file. -/
structure Answers (resolver : Resolver) (reports : Identity.Key → Report)
    (occurrences : List (Occurrence ε σ)) (l : Ledger) (outcomes : List Outcome)
    (later : Ledger) : Prop where
  settled : later.Settled reports
  processed : ∀ f, (later.get f).processed = true ↔
    (l.get f).processed = true ∨ ∃ o ∈ occurrences, o.AsksFor resolver f
  onceGuarded : ∀ f, (later.get f).onceGuarded = true ↔
    (l.get f).onceGuarded = true ∨ ∃ o ∈ occurrences, o.AsksFor resolver f ∧
      (o.request.kind = .once ∨ (reports f.key).declaredOnce = true)
  first : ∀ before o after, occurrences = before ++ o :: after →
    ∃ outcome, outcomes[before.length]? = some outcome ∧
      resolver o.request.header o.beside = .ok outcome.file ∧
      ((l.get outcome.file).processed = false →
        (∀ earlier ∈ before, ¬ earlier.AsksFor resolver outcome.file) →
        outcome.action = .processed)

theorem Answers.nil {l : Ledger} (hl : l.Settled reports) :
    Answers resolver reports ([] : List (Occurrence ε σ)) l [] l where
  settled := hl
  processed := by simp
  onceGuarded := by simp
  first := by simp

theorem Answers.cons {o : Occurrence ε σ} {rest : List (Occurrence ε σ)} {file : Identity}
    {action : Action} {l middle later : Ledger} {outcomes : List Outcome}
    (hfile : resolver o.request.header o.beside = .ok file)
    (hanswered : l.Answered reports file o.request.kind middle)
    (hfirst : (l.get file).processed = false → action = .processed)
    (h : Answers resolver reports rest middle outcomes later) :
    Answers resolver reports (o :: rest) l (⟨file, action⟩ :: outcomes) later where
  settled := h.settled
  processed := by
    intro f
    have hasks : o.AsksFor resolver f ↔ file.isSame f = true := by simp [AsksFor, hfile]
    simp only [h.processed, hanswered.processed, Bool.or_eq_true, List.mem_cons,
      exists_eq_or_imp, hasks, or_assoc]
  onceGuarded := by
    intro f
    have hasks : o.AsksFor resolver f ↔ file.isSame f = true := by simp [AsksFor, hfile]
    simp only [h.onceGuarded, hanswered.onceGuarded, Bool.or_eq_true, Bool.and_eq_true,
      decide_eq_true_eq, List.mem_cons, exists_eq_or_imp, hasks, or_assoc]
  first := by
    intro before p after hsplit
    cases before with
    | nil =>
      obtain ⟨rfl, rfl⟩ := List.cons.inj hsplit
      exact ⟨_, rfl, hfile, fun hnew _ => hfirst hnew⟩
    | cons q before =>
      obtain ⟨rfl, rfl⟩ := List.cons.inj hsplit
      obtain ⟨outcome, houtcome, hmeans, hreads⟩ := h.first before p after rfl
      refine ⟨outcome, houtcome, hmeans, fun hnew hearlier => ?_⟩
      obtain ⟨hother, hearlier⟩ := List.forall_mem_cons.mp hearlier
      refine hreads ?_ hearlier
      -- The request in front is for another file, so this one is as new as before it.
      have hsame : file.isSame outcome.file = false := by simpa [AsksFor, hfile] using hother
      rw [hanswered.processed, hnew, hsame]
      rfl

/-- **The run lemma**: requests that all mean some file come to their end. -/
theorem handleAll_answers {occurrences : List (Occurrence ε σ)}
    (hreports : ∀ o ∈ occurrences, o.host.Reports reports)
    (hresolves : ∀ o ∈ occurrences, ∃ f, resolver o.request.header o.beside = .ok f)
    (run : Run σ) (hl : run.ledger.Settled reports) :
    ∃ outcomes left, handleAll resolver occurrences run = .ok outcomes left ∧
      Answers resolver reports occurrences run.ledger outcomes left.ledger := by
  induction occurrences generalizing run with
  | nil => exact ⟨[], run, rfl, .nil hl⟩
  | cons o rest ih =>
    obtain ⟨⟨file, hfile⟩, hresolves⟩ := List.forall_mem_cons.mp hresolves
    obtain ⟨hhost, hreports⟩ := List.forall_mem_cons.mp hreports
    obtain ⟨action, middle, hmiddle, hanswered, hfirst⟩ := handle_answered hhost hfile hl
    obtain ⟨outcomes, left, hleft, hanswers⟩ := ih hreports hresolves middle (hanswered.settled hl)
    refine ⟨⟨file, action⟩ :: outcomes, left, ?_, hanswers.cons hfile hanswered hfirst⟩
    rw [handleAll, bind_apply, hmiddle]
    simp only [bind_apply, hleft]
    rfl

/-! ### All flags in the end -/

/-- How requests leave a ledger that was empty: the files on record are those that are asked
for, with their flags, and the first request for a file has read it. -/
structure Settles (resolver : Resolver) (reports : Identity.Key → Report)
    (occurrences : List (Occurrence ε σ)) (outcomes : List Outcome) (l : Ledger) : Prop where
  known : ∀ f, (l.get? f).isSome = true ↔ ∃ o ∈ occurrences, o.AsksFor resolver f
  flags : ∀ f r, l.get? f = some r → r.processed = true ∧
    (r.onceGuarded = true ↔
      (∃ o ∈ occurrences, o.AsksFor resolver f ∧ o.request.kind = .once) ∨
        (reports f.key).declaredOnce = true)
  first : ∀ before o after, occurrences = before ++ o :: after →
    ∃ outcome, outcomes[before.length]? = some outcome ∧
      resolver o.request.header o.beside = .ok outcome.file ∧
      ((∀ earlier ∈ before, ¬ earlier.AsksFor resolver outcome.file) →
        outcome.action = .processed)

section
variable {occurrences others : List (Occurrence ε σ)} {outcomes : List Outcome} {l later : Ledger}

theorem Answers.settles (h : Answers resolver reports occurrences {} outcomes l) :
    Settles resolver reports occurrences outcomes l := by
  have hblank : ∀ f, Ledger.get {} f = {} := fun _ => rfl
  have hknown : ∀ f, (l.get? f).isSome = true ↔ ∃ o ∈ occurrences, o.AsksFor resolver f := by
    intro f
    rw [h.settled.filled.isSome_get?, h.processed]
    simp [hblank]
  refine ⟨hknown, ?_, ?_⟩
  · intro f r hr
    have hsome : (l.get? f).isSome = true := by simp [hr]
    have hget : l.get f = r := by rw [Ledger.get, hr, Option.getD_some]
    obtain ⟨o, ho, hasks⟩ := (hknown f).mp hsome
    rw [← hget]
    refine ⟨h.settled.filled.isSome_get? f ▸ hsome, ?_⟩
    rw [h.onceGuarded, hblank]
    constructor
    · rintro (hlocked | ⟨p, hp, hmeans, hkind | hdeclared⟩)
      · cases hlocked
      · exact .inl ⟨p, hp, hmeans, hkind⟩
      · exact .inr hdeclared
    · rintro (⟨p, hp, hmeans, hkind⟩ | hdeclared)
      · exact .inr ⟨p, hp, hmeans, .inl hkind⟩
      · exact .inr ⟨o, ho, hasks, .inr hdeclared⟩
  · intro before o after hsplit
    obtain ⟨outcome, houtcome, hmeans, hreads⟩ := h.first before o after hsplit
    exact ⟨outcome, houtcome, hmeans, hreads rfl⟩

/-- Requests that change places are made in either order. -/
theorem mem_asked (hperm : (others.map asked).Perm (occurrences.map asked))
    {o : Occurrence ε σ} (ho : o ∈ others) : ∃ p ∈ occurrences, p.asked = o.asked :=
  List.mem_map.mp (hperm.mem_iff.mp (List.mem_map_of_mem ho))

theorem exists_asked (hperm : (others.map asked).Perm (occurrences.map asked))
    (P : Request × Path → Prop) :
    (∃ o ∈ others, P o.asked) ↔ ∃ o ∈ occurrences, P o.asked := by
  constructor
  · rintro ⟨o, ho, hasked⟩
    obtain ⟨p, hp, hsame⟩ := mem_asked hperm ho
    exact ⟨p, hp, hsame ▸ hasked⟩
  · rintro ⟨o, ho, hasked⟩
    obtain ⟨p, hp, hsame⟩ := mem_asked hperm.symm ho
    exact ⟨p, hp, hsame ▸ hasked⟩

theorem Settles.get?_flags {outcomes' : List Outcome}
    (h : Settles resolver reports occurrences outcomes l)
    (k : Settles resolver reports others outcomes' later)
    (hperm : (others.map asked).Perm (occurrences.map asked)) (f : Identity) :
    (later.get? f).map Record.flags = (l.get? f).map Record.flags := by
  have hasks := exists_asked hperm fun a => ∃ g, resolver a.1.header a.2 = .ok g ∧ g.isSame f = true
  have honce := exists_asked hperm fun a =>
    (∃ g, resolver a.1.header a.2 = .ok g ∧ g.isSame f = true) ∧ a.1.kind = .once
  have hknown : (later.get? f).isSome = true ↔ (l.get? f).isSome = true :=
    (k.known f).trans (hasks.trans (h.known f).symm)
  cases hr : l.get? f with
  | none =>
    rw [hr] at hknown
    rw [show later.get? f = none by simpa using hknown]
  | some r =>
    rw [hr] at hknown
    obtain ⟨r', hr'⟩ := Option.isSome_iff_exists.mp (hknown.mpr rfl)
    obtain ⟨hprocessed, hlocked⟩ := h.flags f r hr
    obtain ⟨hprocessed', hlocked'⟩ := k.flags f r' hr'
    have hsame : r'.onceGuarded = r.onceGuarded :=
      Bool.eq_iff_iff.mpr (hlocked'.trans ((or_congr_left honce).trans hlocked.symm))
    simp [hr', Record.flags, hprocessed, hprocessed', hsame]

end

end Occurrence

/-- The files on record, told by look-up. -/
theorem Ledger.mem_keys_iff {l : Ledger} {key : Identity.Key} :
    key ∈ l.entries.map (·.1.key) ↔ (l.get? ⟨key, ⟨[]⟩⟩).isSome = true := by
  simp [get?, Identity.isSame]

/-- **The flags in the end do not depend on the order of the requests.** From an empty ledger,
requests that all mean some file come to their end in any order, whatever is defined
meanwhile. The same files are on record then, with the same flags: each has been processed,
and is locked if an `#import` asked for it or its content says so. In either order the first
request for a file reads it. -/
theorem flags_in_any_order (resolver : Resolver) (reports : Identity.Key → Report)
    (occurrences others : List (Occurrence ε σ)) (run twin : Run σ)
    (hreports : ∀ o ∈ occurrences ++ others, o.host.Reports reports)
    (hresolves : ∀ o ∈ occurrences, ∃ f, resolver o.request.header o.beside = .ok f)
    (hperm : (others.map (·.asked)).Perm (occurrences.map (·.asked)))
    (hrun : run.ledger = {}) (htwin : twin.ledger = {}) :
    ∃ outcomes left outcomes' left',
      Occurrence.handleAll resolver occurrences run = .ok outcomes left ∧
      Occurrence.handleAll resolver others twin = .ok outcomes' left' ∧
      Occurrence.Settles resolver reports occurrences outcomes left.ledger ∧
      Occurrence.Settles resolver reports others outcomes' left'.ledger ∧
      (left'.ledger.entries.map (·.1.key)).Perm (left.ledger.entries.map (·.1.key)) ∧
      ∀ f, (left'.ledger.get? f).map Record.flags = (left.ledger.get? f).map Record.flags := by
  obtain ⟨hreports, hreports'⟩ := List.forall_mem_append.mp hreports
  have hresolves' : ∀ o ∈ others, ∃ f, resolver o.request.header o.beside = .ok f := by
    intro o ho
    obtain ⟨p, hp, hasked⟩ := Occurrence.mem_asked hperm ho
    obtain ⟨hrequest, hbeside⟩ := Prod.mk.inj hasked
    rw [← hrequest, ← hbeside]
    exact hresolves p hp
  obtain ⟨outcomes, left, hleft, hanswers⟩ := Occurrence.handleAll_answers hreports hresolves
    run (by rw [hrun]; exact Ledger.settled_empty)
  obtain ⟨outcomes', left', hleft', hanswers'⟩ := Occurrence.handleAll_answers hreports' hresolves'
    twin (by rw [htwin]; exact Ledger.settled_empty)
  rw [hrun] at hanswers
  rw [htwin] at hanswers'
  have hflags := hanswers.settles.get?_flags hanswers'.settles hperm
  refine ⟨outcomes, left, outcomes', left', hleft, hleft', hanswers.settles, hanswers'.settles,
    ?_, hflags⟩
  refine (List.perm_ext_iff_of_nodup hanswers'.settled.filled.distinct
    hanswers.settled.filled.distinct).mpr fun key => ?_
  have hsome := congrArg Option.isSome (hflags ⟨key, ⟨[]⟩⟩)
  rw [Option.isSome_map, Option.isSome_map] at hsome
  rw [Ledger.mem_keys_iff, Ledger.mem_keys_iff, hsome]

end

/-- Every file has a guard, and one of them is to be read once. -/
def guardedReports (key : Identity.Key) : Report :=
  ⟨key = (Identity.ofCanonical (.ofString "/b.h")).key, some "G".toList⟩

/-- A host for which all names are defined, or none. -/
def guardedHost (defined : Bool) : Host String Unit where
  isDefined _ _ := defined
  unresolved e := e.message
  process f := return guardedReports f.key

theorem guardedHost_reports (defined : Bool) : (guardedHost defined).Reports guardedReports :=
  fun _ run => ⟨run, rfl, rfl⟩

def guardedAsked (defined : Bool) (kind : RequestKind) (name : String) :
    Occurrence String Unit :=
  ⟨guardedHost defined, ⟨kind, ⟨name.toList, .quoted⟩⟩, .ofString "/"⟩

/-- All headers are found at the root. -/
def rootResolver : Resolver := fun header _ => .ok (.ofCanonical ⟨'/' :: header.name⟩)

def lateImport : List (Occurrence String Unit) :=
  [guardedAsked true .plain "a.h", guardedAsked false .plain "a.h", guardedAsked true .plain "b.h",
    guardedAsked true .plain "a.h", guardedAsked false .once "a.h"]

def earlyImport : List (Occurrence String Unit) :=
  [guardedAsked false .once "a.h", guardedAsked false .plain "a.h", guardedAsked true .plain "a.h",
    guardedAsked true .plain "a.h", guardedAsked false .plain "b.h"]

/-- A late `#import` finds the file read twice and reads it again, an early one leaves no
further reading. The flags are the same. -/
theorem lateImport_flags :
    (ended? (Occurrence.handleAll rootResolver lateImport { host := () })).map
        (·.2.ledger.entries.map (·.2.count)) = some [3, 1] ∧
      (ended? (Occurrence.handleAll rootResolver earlyImport { host := () })).map
        (·.2.ledger.entries.map (·.2.count)) = some [1, 1] ∧
      ∃ outcomes left outcomes' left',
        Occurrence.handleAll rootResolver lateImport { host := () } = .ok outcomes left ∧
        Occurrence.handleAll rootResolver earlyImport { host := () } = .ok outcomes' left' ∧
        Occurrence.Settles rootResolver guardedReports lateImport outcomes left.ledger ∧
        Occurrence.Settles rootResolver guardedReports earlyImport outcomes' left'.ledger ∧
        (left'.ledger.entries.map (·.1.key)).Perm (left.ledger.entries.map (·.1.key)) ∧
        ∀ f, (left'.ledger.get? f).map Record.flags = (left.ledger.get? f).map Record.flags := by
  have hreports : ∀ o ∈ lateImport ++ earlyImport, o.host.Reports guardedReports := by
    simp [lateImport, earlyImport, guardedAsked, guardedHost_reports]
  refine ⟨by decide +kernel, by decide +kernel, flags_in_any_order rootResolver guardedReports
    lateImport earlyImport { host := () } { host := () } hreports ?_ (by decide +kernel) rfl rfl⟩
  intro o _
  exact ⟨_, rfl⟩

end IncludeOnce
