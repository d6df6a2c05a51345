import Mathlib.Data.List.Chain
import Mathlib.Data.List.TakeWhile
import IncludeOnce.Proofs.Failure
import IncludeOnce.Proofs.Limit
import IncludeOnce.Proofs.Paths

/-! The trace as a walk.

The files that a scan reads make a tree, and the trace lists its requests in the order in
which they are come to: a request first, then those inside the file it opened. `Walk`
says of a list of events that it is such a list, and ties each event of a file that was
read to the state in which its reading began and to the events that came up until it ended
(`Ran`). Every scan leaves a walk (`Course.traces`). The order of depths, where the block of
an event ends, and where failed events can stand are then read off the walk alone.

Where a scan fails, the failed events are the requests on the way to the failure
(`Breaks.failsIn`), and one more if the last of them found no file. -/
namespace IncludeOnce
open Scan

/-! ### Headers sought -/

def Journal.Entry.isSought : Journal.Entry → Bool
  | .sought _ _ => true
  | _ => false

/-- How many headers have been sought. -/
def Journal.sought (journal : Journal) : Nat := journal.toList.countP Entry.isSought

theorem Journal.sought_push (journal : Journal) (entry : Journal.Entry) :
    Journal.sought (journal.push entry) =
      Journal.sought journal + if entry.isSought then 1 else 0 := by
  rw [sought, sought, Array.toList_push, List.countP_append, List.countP_singleton]

/-! ### Walks -/

def IncludeEvent.isFailed (e : IncludeEvent) : Bool := e.result = .failed

/-- The file of an event was read: the scan came past the state in which that began, with the
event pending at the end of the trace. So many headers had been sought by then, and these
events came up until the file was left. -/
def Ran (fs : FileSystem) (settings : Settings) (trail : List (Run Scan)) (sought : Nat)
    (e : IncludeEvent) (inside : List IncludeEvent) : Prop :=
  ∃ begun ∈ trail, ∃ header f report left,
    e = ⟨begun.host.stack.length, e.kind, header.name, .processed f⟩ ∧
    begun.journal.toList.getLast? = some (.processing ⟨e.kind, header⟩ f) ∧
    Journal.sought begun.journal = sought ∧
    begun.host.events.toList.getLast? = some { e with result := .pending } ∧
    includeFile fs settings f begun = .ok report left ∧
    left.host.events.toList = begun.host.events.toList ++ inside

/-- Events are listed as their requests were come to, from a depth on: how many headers had
been sought before, and how many of the events failed. Once a request has failed, nothing
comes behind it at its depth. -/
inductive Walk (fs : FileSystem) (settings : Settings) (trail : List (Run Scan)) :
    Nat → Nat → Nat → List IncludeEvent → Prop
  | done {sought depth : Nat} : Walk fs settings trail sought depth 0 []
  | dropped {sought depth failed : Nat} {e : IncludeEvent} {reason : SkipReason} {f : Identity}
    {rest : List IncludeEvent} (hdepth : e.depth = depth) (hresult : e.result = .skipped reason f)
    (hrest : Walk fs settings trail (sought + 1) depth failed rest) :
    Walk fs settings trail sought depth failed (e :: rest)
  | read {sought depth failed : Nat} {e : IncludeEvent} {f : Identity}
    {inside rest : List IncludeEvent} (hdepth : e.depth = depth) (hresult : e.result = .processed f)
    (hran : Ran fs settings trail (sought + 1) e inside)
    (hinside : Walk fs settings trail (sought + 1) (depth + 1) 0 inside)
    (hrest : Walk fs settings trail (sought + 1 + inside.length) depth failed rest) :
    Walk fs settings trail sought depth failed (e :: (inside ++ rest))
  | failed {sought depth failed : Nat} {e : IncludeEvent} {inside : List IncludeEvent}
    (hdepth : e.depth = depth) (hresult : e.result = .failed)
    (hinside : Walk fs settings trail (sought + 1) (depth + 1) failed inside) :
    Walk fs settings trail sought depth (failed + 1) (e :: inside)

namespace Walk
variable {fs : FileSystem} {settings : Settings} {trail : List (Run Scan)}
  {sought depth failed : Nat} {events more : List IncludeEvent}

theorem widen (h : Walk fs settings trail sought depth failed events) {wider : List (Run Scan)}
    (hwider : trail ⊆ wider) : Walk fs settings wider sought depth failed events := by
  induction h with
  | done => exact .done
  | dropped hdepth hresult hrest ih => exact .dropped hdepth hresult ih
  | read hdepth hresult hran hinside hrest ihinside ihrest =>
    obtain ⟨begun, hbegun, hran⟩ := hran
    exact .read hdepth hresult ⟨begun, hwider hbegun, hran⟩ ihinside ihrest
  | failed hdepth hresult hinside ih => exact .failed hdepth hresult ih

/-- A walk without failure can be gone on with. -/
theorem append (h : Walk fs settings trail sought depth 0 events)
    (k : Walk fs settings trail (sought + events.length) depth failed more) :
    Walk fs settings trail sought depth failed (events ++ more) := by
  generalize hnone : 0 = none at h
  induction h with
  | done => exact k
  | dropped hdepth hresult hrest ih =>
    refine .dropped hdepth hresult (ih ?_ hnone)
    rw [List.length_cons] at k
    rwa [Nat.add_assoc, Nat.add_comm 1]
  | read hdepth hresult hran hinside hrest ihinside ihrest =>
    rw [List.cons_append, List.append_assoc]
    refine .read hdepth hresult hran hinside (ihrest ?_ hnone)
    rw [List.length_cons, List.length_append] at k
    convert k using 1
    omega
  | failed hdepth hresult hinside ih => cases hnone

/-! ### Depths -/

theorem head_depth (h : Walk fs settings trail sought depth failed events) :
    ∀ e ∈ events.head?, e.depth = depth := by
  cases h with
  | done => rintro e ⟨⟩
  | dropped hdepth hresult hrest => rintro e ⟨⟩; exact hdepth
  | read hdepth hresult hran hinside hrest => rintro e ⟨⟩; exact hdepth
  | failed hdepth hresult hinside => rintro e ⟨⟩; exact hdepth

theorem le_depth (h : Walk fs settings trail sought depth failed events) :
    ∀ e ∈ events, depth ≤ e.depth := by
  induction h with
  | done => rintro e ⟨⟩
  | dropped hdepth hresult hrest ih => exact List.forall_mem_cons.mpr ⟨hdepth.ge, ih⟩
  | read hdepth hresult hran hinside hrest ihinside ihrest =>
    rw [List.forall_mem_cons, List.forall_mem_append]
    exact ⟨hdepth.ge, fun e he => Nat.le_of_succ_le (ihinside e he), ihrest⟩
  | failed hdepth hresult hinside ih =>
    exact List.forall_mem_cons.mpr ⟨hdepth.ge, fun e he => Nat.le_of_succ_le (ih e he)⟩

end Walk

/-- An event may follow another: at most one deeper, and deeper only where a file has been
opened or its opening has failed. -/
def IncludeEvent.Precedes (e next : IncludeEvent) : Prop :=
  next.depth ≤ e.depth + 1 ∧
    (next.depth = e.depth + 1 → (∃ f, e.result = .processed f) ∨ e.result = .failed)

namespace Walk
variable {fs : FileSystem} {settings : Settings} {trail : List (Run Scan)}
  {sought depth failed : Nat} {events : List IncludeEvent}

/-- What is not deeper may always follow. -/
theorem precedes_of_le {e next : IncludeEvent} (h : next.depth ≤ e.depth) : e.Precedes next :=
  ⟨by omega, fun hnext => by omega⟩

theorem isChain (h : Walk fs settings trail sought depth failed events) :
    events.IsChain IncludeEvent.Precedes := by
  induction h with
  | done => exact .nil
  | dropped hdepth hresult hrest ih =>
    refine List.isChain_cons.mpr ⟨?_, ih⟩
    intro next hnext
    exact precedes_of_le (by rw [hrest.head_depth next hnext, hdepth])
  | @read _ depth _ e f inside rest hdepth hresult hran hinside hrest ihinside ihrest =>
    have hlast : ∀ x ∈ e :: inside, ∀ next ∈ rest.head?, x.Precedes next := by
      intro x hx next hnext
      refine precedes_of_le ?_
      rw [hrest.head_depth next hnext]
      rcases List.mem_cons.mp hx with rfl | hx
      · exact hdepth.ge
      · exact Nat.le_of_succ_le (hinside.le_depth x hx)
    have hfirst : (e :: inside).IsChain IncludeEvent.Precedes := by
      refine List.isChain_cons.mpr ⟨?_, ihinside⟩
      intro next hnext
      have := hinside.head_depth next hnext
      exact ⟨by omega, fun _ => .inl ⟨f, hresult⟩⟩
    rw [← List.cons_append]
    refine List.isChain_append.mpr ⟨hfirst, ihrest, ?_⟩
    intro x hx next hnext
    exact hlast x (List.mem_of_mem_getLast? hx) next hnext
  | failed hdepth hresult hinside ih =>
    refine List.isChain_cons.mpr ⟨?_, ih⟩
    intro next hnext
    have := hinside.head_depth next hnext
    exact ⟨by omega, fun _ => .inr hresult⟩

/-- What lies deeper than an event ends with the part of the walk it stands in. -/
theorem takeWhile_append (h : Walk fs settings trail sought depth failed events) {d : Nat}
    (hd : depth ≤ d) (front : List IncludeEvent) :
    (front ++ events).takeWhile (fun x => d < x.depth) =
      front.takeWhile (fun x => d < x.depth) := by
  have hnone : events.takeWhile (fun x => d < x.depth) = [] := by
    cases events with
    | nil => rfl
    | cons x rest =>
      have := h.head_depth x rfl
      exact List.takeWhile_cons_of_neg (by simp; omega)
  rw [List.takeWhile_append, hnone]
  split
  · rename_i hall
    rw [List.append_nil, List.IsPrefix.eq_of_length (List.takeWhile_prefix _) hall]
  · rfl

/-- An event of two parts of a walk stands in one of them. -/
theorem split_append {front back before after : List IncludeEvent} {e : IncludeEvent}
    (h : front ++ back = before ++ e :: after) :
    (∃ middle, front = before ++ e :: middle ∧ after = middle ++ back) ∨
      ∃ middle, before = front ++ middle ∧ back = middle ++ e :: after := by
  rcases List.append_eq_append_iff.mp h with ⟨middle, hbefore, hback⟩ | ⟨middle, hfront, hafter⟩
  · exact .inr ⟨middle, hbefore, hback⟩
  · cases middle with
    | nil => exact .inr ⟨[], by rw [hfront, List.append_nil, List.append_nil], hafter.symm⟩
    | cons x middle =>
      obtain ⟨rfl, htail⟩ := List.cons.inj hafter
      exact .inl ⟨middle, hfront, htail⟩

/-- The events that came up while a file was read are those deeper than its own, up to the
first that is not. -/
theorem inside (h : Walk fs settings trail sought depth failed events) :
    ∀ before e after, events = before ++ e :: after → ∀ f, e.result = .processed f →
      Ran fs settings trail (sought + 1 + before.length) e
        (after.takeWhile fun x => e.depth < x.depth) := by
  induction h with
  | done => intro before e after hsplit; simp at hsplit
  | dropped hdepth hresult hrest ih =>
    intro before e after hsplit f hread
    cases before with
    | nil =>
      cases hsplit
      cases hresult.symm.trans hread
    | cons x before =>
      rw [List.length_cons, Nat.add_comm before.length, ← Nat.add_assoc]
      exact ih before e after (List.cons.inj hsplit).2 f hread
  | @read _ _ _ e f inside rest hdepth hresult hran hinside hrest ihinside ihrest =>
    intro before x after hsplit g hread
    cases before with
    | nil =>
      cases hsplit
      have hdeeper : ∀ y ∈ inside, decide (e.depth < y.depth) = true := fun y hy =>
        decide_eq_true (hdepth ▸ hinside.le_depth y hy)
      rw [hrest.takeWhile_append hdepth.ge, List.takeWhile_eq_self_iff.mpr hdeeper]
      exact hran
    | cons y before =>
      rw [List.length_cons, Nat.add_comm before.length, ← Nat.add_assoc]
      obtain ⟨middle, hin, rfl⟩ | ⟨middle, rfl, hbehind⟩ :=
        split_append (List.cons.inj hsplit).2
      · have hdeep := hinside.le_depth x (hin ▸ List.mem_append_right _ List.mem_cons_self)
        rw [hrest.takeWhile_append (Nat.le_of_succ_le hdeep)]
        exact ihinside before x middle hin g hread
      · have := ihrest middle x after hbehind g hread
        rw [List.length_append]
        convert this using 1
        omega
  | failed hdepth hresult hinside ih =>
    intro before e after hsplit f hread
    cases before with
    | nil =>
      cases hsplit
      cases hresult.symm.trans hread
    | cons x before =>
      rw [List.length_cons, Nat.add_comm before.length, ← Nat.add_assoc]
      exact ih before e after (List.cons.inj hsplit).2 f hread

/-- No event of a walk is left pending. -/
theorem settled (h : Walk fs settings trail sought depth failed events) :
    ∀ e ∈ events, e.result ≠ .pending := by
  induction h with
  | done => rintro e ⟨⟩
  | dropped hdepth hresult hrest ih => exact List.forall_mem_cons.mpr ⟨by simp [hresult], ih⟩
  | read hdepth hresult hran hinside hrest ihinside ihrest =>
    rw [List.forall_mem_cons, List.forall_mem_append]
    exact ⟨by simp [hresult], ihinside, ihrest⟩
  | failed hdepth hresult hinside ih => exact List.forall_mem_cons.mpr ⟨by simp [hresult], ih⟩

/-! ### Failed events -/

/-- Failed events stand one inside the other. -/
theorem failed_depths (h : Walk fs settings trail sought depth failed events) :
    (events.filter IncludeEvent.isFailed).map (·.depth) = List.range' depth failed := by
  induction h with
  | done => rfl
  | dropped hdepth hresult hrest ih =>
    rw [List.filter_cons_of_neg (by simp [IncludeEvent.isFailed, hresult])]
    exact ih
  | read hdepth hresult hran hinside hrest ihinside ihrest =>
    rw [List.filter_cons_of_neg (by simp [IncludeEvent.isFailed, hresult]), List.filter_append,
      List.map_append, ihinside, ihrest]
    rfl
  | failed hdepth hresult hinside ih =>
    rw [List.filter_cons_of_pos (by simp [IncludeEvent.isFailed, hresult]), List.map_cons, ih,
      hdepth, List.range'_succ]

theorem countP_failed (h : Walk fs settings trail sought depth failed events) :
    events.countP IncludeEvent.isFailed = failed := by
  have hlength := congrArg List.length h.failed_depths
  rw [List.length_map, List.length_range'] at hlength
  rw [List.countP_eq_length_filter, hlength]

/-- Nothing comes behind a failed event but what came up inside it. -/
theorem after_failed (h : Walk fs settings trail sought depth failed events) :
    ∀ before e after, events = before ++ e :: after → e.result = .failed →
      ∀ x ∈ after, e.depth < x.depth := by
  induction h with
  | done => intro before e after hsplit; simp at hsplit
  | dropped hdepth hresult hrest ih =>
    intro before e after hsplit hfailed
    cases before with
    | nil =>
      cases hsplit
      cases hresult.symm.trans hfailed
    | cons x before => exact ih before e after (List.cons.inj hsplit).2 hfailed
  | read hdepth hresult hran hinside hrest ihinside ihrest =>
    intro before e after hsplit hfailed
    cases before with
    | nil =>
      cases hsplit
      cases hresult.symm.trans hfailed
    | cons x before =>
      obtain ⟨middle, hin, rfl⟩ | ⟨middle, rfl, hbehind⟩ :=
        split_append (List.cons.inj hsplit).2
      · have hnone := List.countP_eq_zero.mp hinside.countP_failed e
          (hin ▸ List.mem_append_right _ List.mem_cons_self)
        simp [IncludeEvent.isFailed, hfailed] at hnone
      · exact ihrest middle e after hbehind hfailed
  | failed hdepth hresult hinside ih =>
    intro before e after hsplit hfailed
    cases before with
    | nil =>
      cases hsplit
      intro x hx
      have := hinside.le_depth x hx
      omega
    | cons x before => exact ih before e after (List.cons.inj hsplit).2 hfailed

end Walk

/-! ### Scans leave walks -/

/-- A scan has left a walk in the trace, with one header sought for each event. -/
def Traces (fs : FileSystem) (settings : Settings) (trail : List (Run Scan)) (failed : Nat)
    (run after : Run Scan) : Prop :=
  ∃ events, after.host.events.toList = run.host.events.toList ++ events ∧
    Journal.sought after.journal = Journal.sought run.journal + events.length ∧
    Walk fs settings trail (Journal.sought run.journal) run.host.stack.length failed events

namespace Traces
variable {fs : FileSystem} {settings : Settings} {trail : List (Run Scan)} {failed : Nat}
  {run middle after : Run Scan}

theorem same (hevents : after.host.events = run.host.events)
    (hsought : Journal.sought after.journal = Journal.sought run.journal) :
    Traces fs settings trail 0 run after :=
  ⟨[], by rw [hevents, List.append_nil], hsought, .done⟩

theorem widen (h : Traces fs settings trail failed run after) {wider : List (Run Scan)}
    (hwider : trail ⊆ wider) : Traces fs settings wider failed run after := by
  obtain ⟨events, hevents, hsought, hwalk⟩ := h
  exact ⟨events, hevents, hsought, hwalk.widen hwider⟩

theorem trans (h : Traces fs settings trail 0 run middle)
    (hstack : middle.host.stack = run.host.stack)
    (k : Traces fs settings trail failed middle after) :
    Traces fs settings trail failed run after := by
  obtain ⟨a, ha, hsa, hwa⟩ := h
  obtain ⟨b, hb, hsb, hwb⟩ := k
  refine ⟨a ++ b, by rw [hb, ha, List.append_assoc], ?_, ?_⟩
  · rw [hsb, hsa, List.length_append, Nat.add_assoc]
  · rw [hsa, hstack] at hwb
    exact hwa.append hwb

/-- What follows touches neither the trace nor the headers sought. -/
theorem before (h : Traces fs settings trail failed run middle)
    (hevents : after.host.events = middle.host.events)
    (hsought : Journal.sought after.journal = Journal.sought middle.journal) :
    Traces fs settings trail failed run after := by
  obtain ⟨events, ha, hs, hwalk⟩ := h
  exact ⟨events, by rw [hevents, ha], by rw [hsought, hs], hwalk⟩

/-- A request with what came up inside it. -/
theorem filled {event : IncludeEvent} {result : EventResult} {inner : List IncludeEvent}
    (hevents : after.host.events.toList = (run.host.events.push event).toList ++ inner)
    (hsought : Journal.sought after.journal = Journal.sought run.journal + 1 + inner.length)
    (hwalk : Walk fs settings trail (Journal.sought run.journal) run.host.stack.length failed
      ({ event with result } :: inner)) :
    Traces fs settings trail failed run (traceFilled run.host.events.size result after) := by
  refine ⟨_, traceFilled_events hevents result, ?_, hwalk⟩
  show Journal.sought after.journal = _
  rw [hsought, List.length_cons]
  omega

end Traces

section
variable {fs : FileSystem} {settings : Settings} {file f : Identity} {location : Location}
  {source inner : SourceId} {kind : RequestKind} {operand trailing : Text} {header : HeaderName}
  {st : FileState} {lines : List (Numbered Line)} {run left : Run Scan} {e : ScanError}
  {sources : Sources} {loaded : SourceFile} {trail inside : List (Run Scan)} {report : Report}
  {r : EStateM.Result ScanError (Run Scan) FileState} {failed : Nat}

theorem Effect.on_sought (x : Effect) (run : Run Scan) :
    Journal.sought (x.on file location run).journal = Journal.sought run.journal := by
  have hown := x.isOwn
  rw [Journal.sought, Effect.on_journal, List.countP_append]
  cases hentry : x.entry with
  | none => rfl
  | some entry =>
    rw [hentry] at hown
    have hquiet : entry.isSought = false := by
      cases entry <;> first | rfl | cases hown
    rw [Option.toList_some, List.countP_singleton, hquiet]
    rfl

/-- A line that asks for nothing seeks no header. -/
theorem step_traces {search : HeaderSearch} {reader : Reader} {line : Line}
    (hasked : line.asked? st = none)
    (hstep : step fs search reader file location st line run = r) :
    Traces fs settings trail 0 run (leftBy r) := by
  rw [← hstep, leftBy_step fs search reader file location hasked]
  exact .same rfl (Effect.on_sought _ run)

theorem soughtInside_sought :
    Journal.sought (soughtInside run file location kind header trailing).journal =
      Journal.sought run.journal + 1 := by
  rw [soughtInside, Run.note, Journal.sought_push, handing_journal]
  rfl

theorem begunInside_sought (run : Run Scan) (file : Identity) (location : Location)
    (kind : RequestKind) (header : HeaderName) (trailing : Text) (f : Identity) :
    Journal.sought (begunInside run file location kind header trailing f).journal =
      Journal.sought run.journal + 1 := by
  rw [Journal.sought, begunInside_journal, List.countP_append]
  rfl

theorem openedInside_events :
    (openedInside run file location kind header trailing f sources).host.events =
      run.host.events.push (pendingEvent run kind header) :=
  handing_events run location kind header trailing

/-- Nothing comes up between the request and its end. -/
theorem handing_events_append (run : Run Scan) (location : Location) (kind : RequestKind)
    (header : HeaderName) (trailing : Text) :
    (handing run location kind header trailing).host.events.toList =
      (run.host.events.push (pendingEvent run kind header)).toList ++ [] := by
  rw [handing_events, List.append_nil]

theorem droppedInside_traces (reason : SkipReason) :
    Traces fs settings trail 0 run
      (droppedInside run file location kind header trailing f reason) := by
  have hsought : Journal.sought ((soughtInside run file location kind header trailing).dropped
      ⟨kind, header⟩ f reason).journal = Journal.sought run.journal + 1 := by
    simp only [Run.dropped, Run.decided, Run.note, Journal.sought_push]
    exact soughtInside_sought
  exact .filled (handing_events_append run location kind header trailing) hsought
    (.dropped rfl rfl .done)

theorem Refused.traces (h : Refused fs settings file location kind operand run e left) :
    Traces fs settings trail e.isMissing.toNat run left := by
  cases h with
  | malformed hread => exact .same rfl rfl
  | @tooDeep header trailing hread hdeep =>
    obtain ⟨d, hd⟩ := warned_eq run location kind trailing
    rw [stoppedInside, hd]
    exact .same rfl (Journal.sought_push _ _)
  | unresolved hread hroom hresolve =>
    exact .filled (handing_events_append _ _ _ _ _) soughtInside_sought (.failed rfl rfl .done)
  | unreadable hmeans hdecide hload =>
    exact .filled (handing_events_append _ _ _ _ _) (begunInside_sought ..)
      (.failed rfl rfl .done)

/-- What came up while a file was read in place. -/
theorem Traces.of_leave
    (h : Traces fs settings inside failed
      (openedInside run file location kind header trailing f sources) (leftBy r)) :
    ∃ events, (leftBy (leave r)).host.events.toList =
        (run.host.events.push (pendingEvent run kind header)).toList ++ events ∧
      Journal.sought (leftBy (leave r)).journal =
        Journal.sought run.journal + 1 + events.length ∧
      Walk fs settings inside (Journal.sought run.journal + 1) (run.host.stack.length + 1) failed
        events := by
  obtain ⟨events, hevents, hsought, hwalk⟩ := h
  have hbegun : Journal.sought
      (openedInside run file location kind header trailing f sources).journal =
        Journal.sought run.journal + 1 :=
    begunInside_sought run file location kind header trailing f
  rw [openedInside_events] at hevents
  rw [hbegun, openedInside_stack] at hwalk
  rw [hbegun] at hsought
  refine ⟨events, ?_, ?_, hwalk⟩
  · rw [leave_events, hevents]
  · rw [leave_journal_eq, hsought]

/-- A file in place was read, and its event stands before what came up inside it. -/
theorem Opens.traces_ok
    (h : Opens fs settings file location kind operand run header trailing f inner sources loaded)
    (hcourse : Course fs settings f inner {} (Line.ofText loaded.text)
      (openedInside run file location kind header trailing f sources) inside r)
    (hleave : leave r = .ok report left)
    (hinner : Traces fs settings inside 0
      (openedInside run file location kind header trailing f sources) (leftBy r))
    (hbegun : begunInside run file location kind header trailing f ∈ trail)
    (hwider : inside ⊆ trail) :
    Traces fs settings trail 0 run (finishedInside run f report left) := by
  obtain ⟨events, hevents, hsought, hwalk⟩ := hinner.of_leave
  rw [hleave] at hevents hsought
  have hreserved : (begunInside run file location kind header trailing f).host.events =
      run.host.events.push (pendingEvent run kind header) :=
    handing_events run location kind header trailing
  have hran : Ran fs settings trail (Journal.sought run.journal + 1)
      ⟨run.host.stack.length, kind, header.name, .processed f⟩ events := by
    refine ⟨_, hbegun, header, f, report, left, ?_, ?_, begunInside_sought .., ?_, ?_, ?_⟩
    · rw [begunInside_stack]
    · rw [begunInside_journal, List.getLast?_append]
      rfl
    · rw [hreserved, Array.toList_push, List.getLast?_concat]
      rfl
    · rw [h.includeFile_eq, hcourse.result_eq, hleave]
    · rw [hreserved]
      exact hevents
  refine .filled hevents ?_ ?_
  · exact (Journal.sought_push _ _).trans hsought
  · rw [← List.append_nil events]
    exact .read rfl rfl hran (hwalk.widen hwider) .done

/-- A file in place failed, and its event stands before what came up inside it. -/
theorem failedInside_traces
    (hleave : leave r = .error e left)
    (hinner : Traces fs settings inside failed
      (openedInside run file location kind header trailing f sources) (leftBy r))
    (hwider : inside ⊆ trail) :
    Traces fs settings trail (failed + 1) run (failedInside run left) := by
  obtain ⟨events, hevents, hsought, hwalk⟩ := hinner.of_leave
  rw [hleave] at hevents hsought
  exact .filled hevents hsought (.failed rfl rfl (hwalk.widen hwider))

/-- **A scan leaves a walk**, in which nothing has failed if the scan comes to its end. -/
theorem Course.traces (h : Course fs settings file source st lines run trail r) :
    ∃ failed, Traces fs settings trail failed run (leftBy r) ∧
      ∀ after left, r = .ok after left → failed = 0 := by
  induction h with
  | done => exact ⟨0, .same rfl rfl, fun _ _ _ => rfl⟩
  | line hasked hstep hrest ih =>
    obtain ⟨failed, htraces, hnone⟩ := ih
    have hstack := (step_aside_ok _ _ _ _ _ hasked hstep).stack
    exact ⟨failed, (step_traces hasked hstep).trans hstack
      (htraces.widen (List.subset_cons_self _ _)), hnone⟩
  | fails hasked hstep =>
    refine ⟨0, (step_traces hasked hstep).before (fail_events _ _) rfl, ?_⟩
    rintro after left ⟨⟩
  | refused hasked hrefused =>
    refine ⟨_, hrefused.traces.before (fail_events _ _) rfl, ?_⟩
    rintro after left ⟨⟩
  | dropped hasked hmeans hdecide hrest ih =>
    obtain ⟨failed, htraces, hnone⟩ := ih
    exact ⟨failed, (droppedInside_traces _).trans (droppedInside_stack _)
      (htraces.widen (List.subset_cons_self _ _)), hnone⟩
  | entered hasked hopens hinner hleave hrest ihinner ihrest =>
    obtain ⟨failed, hinside, hzero⟩ := ihinner
    obtain ⟨st, last, hr⟩ := leave_ok hleave
    rw [hzero st last hr] at hinside
    obtain ⟨failed, htraces, hnone⟩ := ihrest
    have hstack := (finishedInside_smooth hopens hinner.smooth hleave).stack
    refine ⟨failed, Traces.trans ?_ hstack (htraces.widen ?_), hnone⟩
    · refine hopens.traces_ok hinner hleave hinside ?_ ?_
      · simp
      · intro x hx
        simp [hx]
    · intro x hx
      simp [hx]
  | stopped hasked hopens hinner hleave ihinner =>
    obtain ⟨failed, hinside, _⟩ := ihinner
    refine ⟨failed + 1, Traces.before (failedInside_traces hleave hinside ?_) (fail_events _ _) rfl,
      ?_⟩
    · intro x hx
      simp [hx]
    · rintro after left ⟨⟩

/-! ### Failures in the trace -/

/-- A header that is found and refuses to be read stops the scan, unless it has been read
before. -/
theorem Refused.of_refusal {n : Nat} {e : IoError}
    (hmeans : Means fs settings file operand run header trailing f)
    (hdecide : (handing run location kind header trailing).decision f = .process)
    (hnew : run.host.sources.find? f = none) (hinode : fs.inodeAt f.path = .ok n)
    (hrefuses : fs.refusals.lookup n = some e) :
    Refused fs settings file location kind operand run (.unreadable f.path e)
      (failedInside run (begunInside run file location kind header trailing f)) :=
  .unreadable hmeans hdecide
    (Sources.load_unread hnew (FileSystem.read_eq_error_of_refusal hinode hrefuses))

/-- The header stands beside the main file, and is closed to the scan. -/
example : outcome (process
      { entries := [(["main.c".toList], .file 1), (["a.h".toList], .file 2)]
        refusals := [(2, .accessDenied)] } {} ⟨0⟩
      (runOn (.entered ⟨0⟩ ⟨.inode 1, .ofString "/main.c"⟩ "#include \"a.h\"\n".toList))) =
    .error (.unreadable (.ofString "/a.h") .accessDenied) := by
  decide +kernel

/-- A scan that comes to its end leaves no failed event. -/
theorem scanLines_traces {after : FileState}
    (h : scanLines fs settings.search (readerIn fs settings run) file source st lines run =
      .ok after left) : ∃ trail, Traces fs settings trail 0 run left := by
  obtain ⟨trail, hcourse⟩ := exists_course fs settings file source st lines run
  rw [h] at hcourse
  obtain ⟨failed, htraces, hnone⟩ := hcourse.traces
  exact ⟨trail, hnone after left rfl ▸ htraces⟩

/-- So many failed events have been added to the trace. -/
def FailsIn (failed : Nat) (run after : Run Scan) : Prop :=
  ∃ events, after.host.events.toList = run.host.events.toList ++ events ∧
    events.countP IncludeEvent.isFailed = failed

theorem Traces.failsIn {after : Run Scan} (h : Traces fs settings trail failed run after) :
    FailsIn failed run after := by
  obtain ⟨events, hevents, _, hwalk⟩ := h
  exact ⟨events, hevents, hwalk.countP_failed⟩

theorem FailsIn.trans {n : Nat} {middle after : Run Scan} (h : FailsIn 0 run middle)
    (k : FailsIn n middle after) : FailsIn n run after := by
  obtain ⟨a, ha, hna⟩ := h
  obtain ⟨b, hb, hnb⟩ := k
  refine ⟨a ++ b, by rw [hb, ha, List.append_assoc], ?_⟩
  rw [List.countP_append, hna, hnb, Nat.zero_add]

/-- To note a failure adds nothing. -/
theorem FailsIn.fail {n : Nat} {after : Run Scan} (h : FailsIn n run after) (location : Location) :
    FailsIn n run (after.mapHost (·.fail location)) := by
  obtain ⟨events, hevents, hcount⟩ := h
  exact ⟨events, by rw [fail_events, hevents], hcount⟩

theorem ComesTo.failsIn {text : Text} {opened moment : Run Scan} {line : Numbered Line}
    (h : ComesTo fs settings file source text opened line st moment) : FailsIn 0 opened moment := by
  obtain ⟨front, back, _, hfront⟩ := h
  obtain ⟨trail, htraces⟩ := scanLines_traces hfront
  exact htraces.failsIn

/-- **The failed events are the requests on the way to the failure**, with the last line if
it asked for a file that is missing. -/
theorem Breaks.failsIn {text : Text} {opened moment : Run Scan} {way : List Stop} {missing : Bool}
    (h : Breaks fs settings file source text opened way missing moment e left) :
    ∃ n, n + 1 = way.length + missing.toNat ∧ FailsIn n opened left := by
  induction h with
  | line hcomes hasked hstep =>
    have hline : Traces fs settings [] 0 _ _ := step_traces hasked hstep
    exact ⟨0, rfl, (hcomes.failsIn.trans hline.failsIn).fail _⟩
  | @request _ _ _ _ _ _ _ _ _ _ e hcomes hasked hrefused =>
    have hrequest : Traces fs settings [] e.isMissing.toNat _ _ := hrefused.traces
    exact ⟨_, Nat.add_comm _ _, (hcomes.failsIn.trans hrequest.failsIn).fail _⟩
  | ending hscan hopen =>
    obtain ⟨trail, htraces⟩ := scanLines_traces hscan
    exact ⟨0, rfl, htraces.failsIn.fail _⟩
  | @inside _ _ _ _ _ _ _ kind header _ _ _ middle _ left line _ _ _ _ hcomes hasked hopens hinner
      ih =>
    obtain ⟨n, hn, events, hevents, hcount⟩ := ih
    rw [openedInside_events] at hevents
    have hinside : FailsIn (n + 1) middle (failedInside middle (left.mapHost pop)) := by
      have hleft : (left.mapHost pop).host.events.toList = _ := hevents
      refine ⟨_, traceFilled_events hleft .failed, ?_⟩
      rw [List.countP_cons_of_pos (by rfl), hcount]
    exact ⟨n + 1, by rw [List.length_cons]; omega, (hcomes.failsIn.trans hinside).fail _⟩

end

/-! ### The trace of a main file -/

/-- Events are listed as a tree is walked, each before what came up inside it. -/
structure Preordered (fs : FileSystem) (settings : Settings) (trail : List (Run Scan))
    (sought : Nat) (events : List IncludeEvent) : Prop where
  settled : ∀ e ∈ events, e.result ≠ .pending
  first : ∀ e ∈ events.head?, e.depth = 1
  next : events.IsChain IncludeEvent.Precedes
  inside : ∀ before e after, events = before ++ e :: after → ∀ f, e.result = .processed f →
    Ran fs settings trail (sought + 1 + before.length) e
      (after.takeWhile fun x => e.depth < x.depth)

/-- So many of these events failed: one at each depth from 1 on, with nothing behind it but
what came up inside it. -/
structure FailedAlong (m : Nat) (events : List IncludeEvent) : Prop where
  depths : (events.filter IncludeEvent.isFailed).map (·.depth) = List.range' 1 m
  last : ∀ before e after, events = before ++ e :: after → e.result = .failed →
    ∀ x ∈ after, e.depth < x.depth

section
variable {fs : FileSystem} {settings : Settings} {source : SourceId} {run : Run Scan}
  {trail : List (Run Scan)} {r : EStateM.Result ScanError (Run Scan) Unit} {failed : Nat}

theorem Walk.preordered {sought : Nat} {events : List IncludeEvent}
    (h : Walk fs settings trail sought 1 failed events) :
    Preordered fs settings trail sought events :=
  ⟨h.settled, h.head_depth, h.isChain, h.inside⟩

theorem endMain_events (main : Identity) (r : EStateM.Result ScanError (Run Scan) Report) :
    (leftBy (endMain main r)).host.events = (leftBy r).host.events := by
  cases r <;> rfl

theorem MainCourse.walk (h : MainCourse fs settings source run trail r)
    (hempty : run.host.stack = []) (hevents : run.host.events = #[]) :
    ∃ failed, Walk fs settings trail (Journal.sought run.journal) 1 failed
        (leftBy r).host.events.toList ∧ ∀ left, r = .ok () left → failed = 0 := by
  cases h with
  | absent hmain =>
    refine ⟨0, ?_, fun _ _ => rfl⟩
    rw [leftBy, hevents]
    exact .done
  | @scanned main trail r hmain hcourse =>
    obtain ⟨failed, ⟨events, hleft, _, hwalk⟩, hnone⟩ := hcourse.traces
    have hopened : (run.mainOpened main.identity).host.events = #[] := hevents
    have hstack : (run.mainOpened main.identity).host.stack.length = 1 :=
      congrArg (·.length + 1) hempty
    have hsought : Journal.sought (run.mainOpened main.identity).journal =
        Journal.sought run.journal := Journal.sought_push _ _
    rw [hopened, List.nil_append] at hleft
    rw [hstack, hsought] at hwalk
    rw [endMain_events, leave_events, hleft]
    refine ⟨failed, hwalk.widen ?_, ?_⟩
    · intro x hx
      simp [hx]
    · intro left hend
      cases hleave : leave r with
      | error e last => rw [hleave] at hend; cases hend
      | ok report last =>
        obtain ⟨st, last, hr⟩ := leave_ok hleave
        exact hnone st last hr

end

/-- **The trace of a scan is a walk of the files it has read.** No event is left open; the
first stands at depth 1, and an event one deeper than the one before it stands inside it;
the events inside one whose file was read are those that came up while it was read, which
began and ended in states the scan came past. If the scan comes to its end, no event has
failed. If it fails, one event has failed at each depth down to some depth, with nothing
behind it but what came up inside it: as many as lines are noted in the chain, and one more
if the line that failed asks for a file that is missing. -/
theorem process_trace_preordered (fs : FileSystem) (settings : Settings) (source : SourceId)
    (run : Run Scan) (hempty : run.host.stack = []) (hevents : run.host.events = #[])
    (hnone : run.host.failure = none) :
    (∃ trail, MainCourse fs settings source run trail (process fs settings source run)) ∧
    ∀ trail r, MainCourse fs settings source run trail r → r = process fs settings source run ∧
      Preordered fs settings trail (Journal.sought run.journal) (leftBy r).host.events.toList ∧
      (∀ left, r = .ok () left → ∀ e ∈ left.host.events.toList, e.result ≠ .failed) ∧
      ∀ e left, r = .error e left → ∃ main way missing moment last failure,
        run.host.sources.file? source = some main ∧
        Breaks fs settings main.identity source main.text (run.mainOpened main.identity) way missing
          moment e last ∧ left = last.mapHost pop ∧
        left.host.failure = some failure ∧
        failure.location :: failure.chain = (way.map Stop.location).reverse ∧
        FailedAlong (failure.chain.length + missing.toNat) left.host.events.toList := by
  refine ⟨exists_mainCourse fs settings run source, ?_⟩
  intro trail r hcourse
  obtain ⟨failed, hwalk, hzero⟩ := hcourse.walk hempty hevents
  refine ⟨hcourse.result_eq.symm, hwalk.preordered, ?_, ?_⟩
  · rintro left rfl e he hfailed
    have hcount := hwalk.countP_failed.trans (hzero left rfl)
    exact List.countP_eq_zero.mp hcount e he (decide_eq_true hfailed)
  · rintro e left rfl
    obtain ⟨main, way, missing, moment, last, failure, hmain, hbreaks, hleft, hfailure, hway⟩ :=
      process_located hempty hnone hcourse.result_eq
    obtain ⟨n, hn, events, hlast, hcount⟩ := hbreaks.failsIn
    have hall : left.host.events.toList = events := by
      rw [hleft]
      exact hlast.trans (by rw [show (run.mainOpened main.identity).host.events = #[] from hevents,
        List.nil_append])
    have hm : failed = failure.chain.length + missing.toNat := by
      have hlength := congrArg List.length hway
      rw [List.length_cons, List.length_reverse, List.length_map] at hlength
      have := hwalk.countP_failed
      rw [show (leftBy (.error e left : EStateM.Result ScanError (Run Scan) Unit)) = left from rfl,
        hall, hcount] at this
      omega
    refine ⟨main, way, missing, moment, last, failure, hmain, hbreaks, hleft, hfailure, hway, ?_⟩
    exact hm ▸ ⟨hwalk.failed_depths, hwalk.after_failed⟩

/-- A leaf is read twice, and the second time a header behind it is missing. -/
def missingDisk : FileSystem where
  entries := [(["main.c".toList], .file 1), (["a.h".toList], .file 2), (["b.h".toList], .file 3),
    (["leaf.h".toList], .file 4)]
  contents := [
    (2, "#include \"leaf.h\"\n".toList.map (·.toNat.toUInt8)),
    (3, "#include \"leaf.h\"\n#import \"gone.h\"\n".toList.map (·.toNat.toUInt8)),
    (4, "int leaf;\n".toList.map (·.toNat.toUInt8))]

def missingMain : SourceFile :=
  .entered ⟨0⟩ ⟨.inode 1, .ofString "/main.c"⟩ "#include \"a.h\"\n#include \"b.h\"\n".toList

theorem missingMain_trace_preordered :
    (runOn missingMain).host.stack = [] ∧ (runOn missingMain).host.events = #[] ∧
      (runOn missingMain).host.failure = none ∧
      ∃ trail e left, process missingDisk {} ⟨0⟩ (runOn missingMain) = .error e left ∧
        left.host.events.toList.map (fun event => (event.depth, event.result.label)) =
          [(1, "processed"), (2, "processed"), (1, "failed"), (2, "processed"), (2, "failed")] ∧
        Preordered missingDisk {} trail (Journal.sought (runOn missingMain).journal)
          left.host.events.toList ∧
        ∃ main way missing moment last failure,
          (runOn missingMain).host.sources.file? ⟨0⟩ = some main ∧
          Breaks missingDisk {} main.identity ⟨0⟩ main.text
            ((runOn missingMain).mainOpened main.identity) way missing moment e last ∧
          left = last.mapHost pop ∧
          left.host.failure = some failure ∧
          failure.location :: failure.chain = (way.map Stop.location).reverse ∧
          FailedAlong (failure.chain.length + missing.toNat) left.host.events.toList := by
  have htrace : (leftBy (process missingDisk {} ⟨0⟩ (runOn missingMain))).host.events.toList.map
      (fun event => (event.depth, event.result.label)) =
        [(1, "processed"), (2, "processed"), (1, "failed"), (2, "processed"), (2, "failed")] := by
    decide +kernel
  have hfails : outcome (process missingDisk {} ⟨0⟩ (runOn missingMain)) =
      .error (.unresolved (.notFound ⟨"gone.h".toList, .quoted⟩)) := by decide +kernel
  obtain ⟨⟨trail, hcourse⟩, hall⟩ :=
    process_trace_preordered missingDisk {} ⟨0⟩ (runOn missingMain) rfl rfl rfl
  obtain ⟨_, hpreordered, _, herror⟩ := hall trail _ hcourse
  refine ⟨rfl, rfl, rfl, ?_⟩
  cases hprocess : process missingDisk {} ⟨0⟩ (runOn missingMain) with
  | ok value left => rw [hprocess] at hfails; cases hfails
  | error e left =>
    rw [hprocess] at htrace hpreordered
    exact ⟨trail, e, left, rfl, htrace, hpreordered, herror e left hprocess⟩

end IncludeOnce
