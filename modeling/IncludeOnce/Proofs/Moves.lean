import IncludeOnce.Proofs.Records
import IncludeOnce.Proofs.Walk
import Mathlib.Logic.Relation

/-! What can happen in a run.

However deep files ask for one another, a scan is made of few kinds of moves: a macro
is defined or undefined, a file is locked, a request is dropped or a file begun, a file
is read from the disk, a file is finished. Everything else leaves ledger, macros,
sources and history alone. `Move` lists them with the conditions under which they are
made, and `includeWith_makes` says once and for all that scanning a file in place makes
no others. What every move keeps, every run keeps. -/
namespace IncludeOnce
open Scan

/-- The text of a file that has been read shows this guard, or none. -/
def Shows (sources : Sources) (file : Identity) (guard : Option Name) : Prop :=
  ∃ (loaded : SourceFile) (g : Group), sources.known? file = some loaded ∧
    Line.ofText loaded.text = g.lines ∧ g.hasUnknown = false ∧ guard = g.guard?

namespace Shows
variable {s t : Sources} {f g : Identity} {guard other : Option Name}

theorem grow (h : Shows s f guard) (hg : s.Grows t) : Shows t f guard := by
  obtain ⟨loaded, group, hk, hlines, hu, hguard⟩ := h
  exact ⟨loaded, group, hg.known? hk, hlines, hu, hguard⟩

theorem congr (h : Shows s f guard) (hs : f.isSame g = true) : Shows s g guard := by
  obtain ⟨loaded, group, hk, rest⟩ := h
  exact ⟨loaded, group, s.known?_congr hs ▸ hk, rest⟩

/-- A text shows one guard only. -/
theorem unique (h : Shows s f guard) (k : Shows s f other) : guard = other := by
  obtain ⟨loaded, a, hk, ha, hua, rfl⟩ := h
  obtain ⟨loaded', b, hk', hb, hub, rfl⟩ := k
  cases hk.symm.trans hk'
  rw [← a.guard?_lines hua, ← b.guard?_lines hub, ← ha, hb]

end Shows

/-- What a finished file has shown agrees with the ledger and with its text. -/
structure Reported (run : Run Scan) (file : Identity) (report : Report) : Prop where
  once : report.declaredOnce = true → (run.ledger.get file).onceGuarded = true
  guard : Shows run.host.sources file report.guardName

/-- An entry that tells of no change. -/
def Journal.Entry.isIdle : Journal.Entry → Bool
  | .sought _ _ | .ignoredPragma _ | .tooDeep _ => true
  | _ => false

inductive Move (fs : FileSystem) : Run Scan → Run Scan → Prop
  | quiet (run : Run Scan) (f : Scan → Scan) (hm : (f run.host).macros = run.host.macros)
    (hs : (f run.host).sources = run.host.sources) : Move fs run (run.mapHost f)
  | idle (run : Run Scan) (entry : Journal.Entry) (h : entry.isIdle = true) :
    Move fs run (run.note entry)
  | define (run : Run Scan) (name : Name) (body : Text) :
    Move fs run ((run.note (.defined name)).mapHost fun s =>
      { s with macros := s.macros.define name body })
  | undefine (run : Run Scan) (name : Name) :
    Move fs run ((run.note (.undefined name)).mapHost fun s =>
      { s with macros := s.macros.undefine name })
  | lock (run : Run Scan) (file : Identity) :
    Move fs run ((run.note (.lockedByPragma file)).mapLedger (·.markOnce file))
  | skip (run : Run Scan) (request : Request) (file : Identity) (reason : SkipReason)
    (h : run.decision file = .skip reason) : Move fs run (run.dropped request file reason)
  | start (run : Run Scan) (request : Request) (file : Identity)
    (h : run.decision file = .process) : Move fs run (run.started request file)
  | load (run : Run Scan) (file : Identity) (source : SourceId) (sources : Sources)
    (h : run.host.sources.load fs file = .ok (source, sources)) :
    Move fs run (run.mapHost ({ · with sources }))
  | finish (run : Run Scan) (file : Identity) (report : Report) (h : Reported run file report) :
    Move fs run (run.finished file report)

/-- Any number of moves. -/
def Moves (fs : FileSystem) : Run Scan → Run Scan → Prop := Relation.ReflTransGen (Move fs)

namespace Moves
variable {fs : FileSystem} {run middle after : Run Scan}

theorem refl (run : Run Scan) : Moves fs run run := Relation.ReflTransGen.refl

theorem trans (h : Moves fs run middle) (k : Moves fs middle after) : Moves fs run after :=
  Relation.ReflTransGen.trans h k

theorem one (h : Move fs run after) : Moves fs run after := Relation.ReflTransGen.single h

/-- What every move keeps, every run keeps. -/
theorem keep {I : Run Scan → Prop} (hI : ∀ a b, Move fs a b → I a → I b) (h : Moves fs run after)
    (hr : I run) : I after := by
  induction h with
  | refl => exact hr
  | tail _ hm ih => exact hI _ _ hm ih

end Moves

/-! ### What moves keep -/

section
variable {fs : FileSystem} {run after : Run Scan}

/-- A file that is locked stays locked. -/
theorem Move.onceGuarded (h : Move fs run after) (f : Identity)
    (ho : (run.ledger.get f).onceGuarded = true) : (after.ledger.get f).onceGuarded = true := by
  cases h with
  | quiet f hm hs => exact ho
  | idle entry hi => exact ho
  | define name body => exact ho
  | undefine name => exact ho
  | lock file =>
    show ((run.ledger.markOnce file).get f).onceGuarded = true
    rw [Ledger.get_markOnce]
    split
    · rfl
    · exact ho
  | skip request file reason hd =>
    rw [Run.get_dropped]
    split
    · rfl
    · exact ho
  | start request file hd =>
    rw [Run.get_started]
    split
    · split
      · rfl
      · exact ho
    · exact ho
  | load file source sources hl => exact ho
  | finish file report hr =>
    rw [Run.get_finished]
    split
    · simp only [Record.absorb, Record.setGuard]
      split
      · rfl
      · exact ho
    · exact ho

/-- The files read stay as they are. -/
theorem Move.sources (h : Move fs run after) : run.host.sources.Grows after.host.sources := by
  cases h with
  | quiet f hm hs =>
    show run.host.sources.Grows (f run.host).sources
    rw [hs]
    exact .refl _
  | load file source sources hl => exact (Sources.load_ok hl).1
  | _ => exact .refl _

theorem Moves.onceGuarded (h : Moves fs run after) (f : Identity)
    (ho : (run.ledger.get f).onceGuarded = true) : (after.ledger.get f).onceGuarded = true :=
  h.keep (I := fun r => (r.ledger.get f).onceGuarded = true) (fun _ _ hm => hm.onceGuarded f) ho

theorem Moves.sources (h : Moves fs run after) : run.host.sources.Grows after.host.sources :=
  h.keep (I := fun r => run.host.sources.Grows r.host.sources)
    (fun _ _ hm hg => hg.trans hm.sources) (.refl _)

end

/-! ### The trace tells what was decided -/

/-- A request as it went: how it was made, for which header, and what became of it. -/
structure Turn where
  kind : RequestKind
  header : Text
  result : EventResult
deriving DecidableEq

def IncludeEvent.turn (e : IncludeEvent) : Turn := ⟨e.kind, e.header, e.result⟩

/-- The request that an entry decides. -/
def Journal.Entry.turn? : Journal.Entry → Option Turn
  | .skipped request file reason =>
    some ⟨request.kind, request.header.name, .skipped reason file⟩
  | .processing request file => some ⟨request.kind, request.header.name, .processed file⟩
  | _ => none

/-- The trace has grown by the decisions by which the journal has grown. -/
def Told (run after : Run Scan) : Prop :=
  ∃ (events : List IncludeEvent) (entries : List Journal.Entry),
    after.host.events.toList = run.host.events.toList ++ events ∧
      after.journal.toList = run.journal.toList ++ entries ∧
      events.map IncludeEvent.turn = entries.filterMap Journal.Entry.turn?

namespace Told
variable {run middle after : Run Scan}

/-- Nothing was decided. -/
theorem undecided (entries : List Journal.Entry) (he : after.host.events = run.host.events)
    (hj : after.journal.toList = run.journal.toList ++ entries)
    (hn : entries.filterMap Journal.Entry.turn? = []) : Told run after :=
  ⟨[], entries, by rw [he, List.append_nil], hj, hn.symm⟩

theorem refl (run : Run Scan) : Told run run := undecided [] rfl (List.append_nil _).symm rfl

theorem trans (h : Told run middle) (k : Told middle after) : Told run after := by
  obtain ⟨es, js, he, hj, ht⟩ := h
  obtain ⟨es', js', he', hj', ht'⟩ := k
  exact ⟨es ++ es', js ++ js', by rw [he', he, List.append_assoc],
    by rw [hj', hj, List.append_assoc],
    by rw [List.map_append, List.filterMap_append, ht, ht']⟩

end Told

/-! ### Every action makes moves -/

/-- Moves that the trace tells. -/
structure Goes (fs : FileSystem) (run after : Run Scan) : Prop where
  moves : Moves fs run after
  told : Told run after

/-- A change of the scan's own state that leaves macros, sources and trace alone. -/
def Quiet (f : Scan → Scan) : Prop :=
  ∀ s, (f s).macros = s.macros ∧ (f s).sources = s.sources ∧ (f s).events = s.events

namespace Goes
variable {fs : FileSystem} {run middle after : Run Scan}

theorem refl (run : Run Scan) : Goes fs run run := ⟨.refl run, .refl run⟩

theorem trans (h : Goes fs run middle) (k : Goes fs middle after) : Goes fs run after :=
  ⟨h.moves.trans k.moves, h.told.trans k.told⟩

theorem quiet {f : Scan → Scan} (hf : Quiet f) (run : Run Scan) : Goes fs run (run.mapHost f) :=
  ⟨.one (.quiet run f (hf _).1 (hf _).2.1),
    .undecided [] (hf _).2.2 (List.append_nil _).symm rfl⟩

/-- A move that decides nothing and enters one entry. -/
theorem entered (entry : Journal.Entry) (h : Move fs run after)
    (he : after.host.events = run.host.events) (hj : after.journal = run.journal.push entry)
    (ht : entry.turn? = none) : Goes fs run after :=
  ⟨.one h, .undecided [entry] he (by rw [hj, Array.toList_push])
    (by rw [List.filterMap_cons_none ht, List.filterMap_nil])⟩

end Goes

/-- From `run` on, `x` makes moves; if it comes to its end, the trace tells them and what
it gives satisfies `Q`. -/
def Makes {α : Type} (fs : FileSystem) (run : Run Scan) (x : ScanM α)
    (Q : α → Run Scan → Prop) : Prop :=
  match x run with
  | .ok a after => Goes fs run after ∧ Q a after
  | .error _ after => Moves fs run after

namespace Makes
variable {α β : Type} {fs : FileSystem} {run : Run Scan} {x : ScanM α} {Q : α → Run Scan → Prop}

theorem pure {a : α} (h : Q a run) : Makes fs run (pure a) Q := ⟨.refl run, h⟩

theorem throw {e : ScanError} : Makes fs run (throw e : ScanM α) Q := .refl run

theorem ok {a : α} {after : Run Scan} (h : Makes fs run x Q) (hx : x run = .ok a after) :
    Goes fs run after ∧ Q a after := by
  unfold Makes at h
  rw [hx] at h
  exact h

theorem error {e : ScanError} {after : Run Scan} (h : Makes fs run x Q)
    (hx : x run = .error e after) : Moves fs run after := by
  unfold Makes at h
  rw [hx] at h
  exact h

theorem weaken {R : α → Run Scan → Prop} (h : Makes fs run x Q)
    (hQ : ∀ a after, x run = .ok a after → Moves fs run after → Q a after → R a after) :
    Makes fs run x R := by
  unfold Makes
  cases hx : x run with
  | ok a after =>
    obtain ⟨hg, hq⟩ := h.ok hx
    exact ⟨hg, hQ a after hx hg.moves hq⟩
  | error e after => exact h.error hx

/-- First go to another state, then make the rest from there. -/
theorem after {middle : Run Scan} {y : ScanM α} (hg : Goes fs run middle)
    (h : Makes fs middle y Q) (hx : x run = y middle) : Makes fs run x Q := by
  unfold Makes
  rw [hx]
  cases hy : y middle with
  | ok a after =>
    obtain ⟨hgo, hq⟩ := h.ok hy
    exact ⟨hg.trans hgo, hq⟩
  | error e after => exact hg.moves.trans (h.error hy)

theorem bind {f : α → ScanM β} {R : β → Run Scan → Prop} (h : Makes fs run x Q)
    (hf : ∀ a middle, Q a middle → Makes fs middle (f a) R) : Makes fs run (x >>= f) R := by
  cases hx : x run with
  | error e after =>
    have hm := h.error hx
    unfold Makes
    rw [bind_apply, hx]
    exact hm
  | ok a middle =>
    obtain ⟨hg, hq⟩ := h.ok hx
    exact (hf a middle hq).after hg (by rw [bind_apply, hx])

theorem get {f : Run Scan → ScanM β} {R : β → Run Scan → Prop} (h : Makes fs run (f run) R) :
    Makes fs run (get >>= f) R :=
  h.after (.refl run) rfl

theorem ofExcept (e : Except ScanError α) (hQ : ∀ a, e = .ok a → Q a run) :
    Makes fs run (Scan.ofExcept e) Q := by
  cases e with
  | error e => exact throw
  | ok a => exact pure (hQ a rfl)

theorem onFailure {f : Scan → Scan} (h : Makes fs run x Q) (hf : Quiet f) :
    Makes fs run (Scan.onFailure x f) Q := by
  unfold Makes Scan.onFailure
  cases hx : x run with
  | ok a after => exact h.ok hx
  | error e after => exact (h.error hx).trans (Goes.quiet hf after).moves

theorem within {file : Identity} {site : Option Location} {R : α → Run Scan → Prop}
    (h : Makes fs (run.mapHost (·.push file site)) x Q)
    (hQ : ∀ a after, Q a after → R a (after.mapHost pop)) :
    Makes fs run (Scan.within file site x) R := by
  have hpush : Quiet (·.push file site) := fun _ => ⟨rfl, rfl, rfl⟩
  have hpop : ∀ after, Goes fs after (after.mapHost pop) := .quiet fun _ => ⟨rfl, rfl, rfl⟩
  refine after (y := afterwards x pop) (.quiet hpush run) ?_ rfl
  unfold Makes afterwards
  cases hx : x (run.mapHost (·.push file site)) with
  | ok a after =>
    obtain ⟨hg, hq⟩ := h.ok hx
    exact ⟨hg.trans (hpop after), hQ a after hq⟩
  | error e after => exact (h.error hx).trans (hpop after).moves

end Makes

theorem quiet_fail (location : Location) : Quiet (·.fail location) := by
  intro s
  show (s.fail location).macros = _ ∧ (s.fail location).sources = _ ∧ (s.fail location).events = _
  unfold Scan.fail
  split
  · exact ⟨rfl, rfl, rfl⟩
  · exact ⟨rfl, rfl, rfl⟩

theorem quiet_warn (message : String) (location : Location) : Quiet (·.warn message location) :=
  fun _ => ⟨rfl, rfl, rfl⟩

/-- Files are read by moves, and what reading them gives is right. -/
def Reads (fs : FileSystem) (reader : Reader) : Prop :=
  ∀ read, reader = some read → ∀ file run, Makes fs run (read file) fun report after =>
    Reported after file report

section
variable {fs : FileSystem} {search : HeaderSearch} {reader : Reader} {file : Identity}
  {location : Location} {run : Run Scan}

theorem redefining_goes (run : Run Scan) (location : Location) (name : Name) (body : Text) :
    Goes fs run (redefining run location name body) := by
  obtain ⟨d, hd⟩ := redefining_eq run location name body
  rw [hd]
  exact Goes.quiet (f := ({ · with diagnostics := d })) (fun _ => ⟨rfl, rfl, rfl⟩) run

theorem warned_goes (run : Run Scan) (location : Location) (kind : RequestKind)
    (trailing : Text) : Goes fs run (warned run location kind trailing) := by
  obtain ⟨d, hd⟩ := warned_eq run location kind trailing
  rw [hd]
  exact Goes.quiet (f := ({ · with diagnostics := d })) (fun _ => ⟨rfl, rfl, rfl⟩) run

theorem define_makes (operand : Text) :
    Makes fs run (define location operand) fun _ _ => True := by
  unfold Makes
  rw [define_apply]
  cases Identifier.split operand with
  | mk name rest =>
    cases name with
    | nil => exact .refl run
    | cons c more =>
      refine ⟨(redefining_goes run location (c :: more) rest.trim).trans ?_, trivial⟩
      exact .entered (.defined (c :: more)) (.define _ _ _) rfl rfl rfl

/-- A request that is decided goes into the trace before what comes up while its file
is read. -/
theorem traceFilled_told {before begun ended last : Run Scan} {result : EventResult}
    (event : IncludeEvent) (front back : List Journal.Entry) (htold : Told begun ended)
    (hevents : begun.host.events = before.host.events.push event)
    (hbegun : begun.journal.toList = before.journal.toList ++ front)
    (hlast : last.host.events = ended.host.events)
    (hended : last.journal.toList = ended.journal.toList ++ back)
    (hfront : front.filterMap Journal.Entry.turn? = [{ event with result }.turn])
    (hback : back.filterMap Journal.Entry.turn? = []) :
    Told before (traceFilled before.host.events.size result last) := by
  obtain ⟨es, js, he, hj, ht⟩ := htold
  refine ⟨{ event with result } :: es, front ++ (js ++ back), ?_, ?_, ?_⟩
  · rw [hevents, ← hlast] at he
    exact traceFilled_events he result
  · show last.journal.toList = _
    rw [hended, hj, hbegun, List.append_assoc, List.append_assoc]
  · rw [List.filterMap_append, List.filterMap_append, hfront, hback, ← ht]
    simp

theorem handing_moves (run : Run Scan) (location : Location) (kind : RequestKind)
    (header : HeaderName) (trailing : Text) :
    Moves fs run (handing run location kind header trailing) :=
  (warned_goes run location kind trailing).moves.trans (.one (.quiet _ _ rfl rfl))

theorem handing_journal (run : Run Scan) (location : Location) (kind : RequestKind)
    (header : HeaderName) (trailing : Text) :
    (handing run location kind header trailing).journal = run.journal := by
  obtain ⟨d, hd⟩ := handing_eq run location kind header trailing
  rw [hd]
  rfl

theorem handing_events (run : Run Scan) (location : Location) (kind : RequestKind)
    (header : HeaderName) (trailing : Text) :
    (handing run location kind header trailing).host.events =
      run.host.events.push (pendingEvent run kind header) := by
  obtain ⟨d, hd⟩ := handing_eq run location kind header trailing
  rw [hd]
  rfl

theorem traceFilled_move (slot : Nat) (result : EventResult) (run : Run Scan) :
    Moves fs run (traceFilled slot result run) :=
  .one (.quiet run _ rfl rfl)

theorem request_makes (hreads : Reads fs reader) (kind : RequestKind) (operand : Text) :
    Makes fs run (request fs search reader file location kind operand) fun _ _ => True := by
  unfold Makes
  rw [request_apply]
  cases HeaderName.read operand with
  | none => exact .refl run
  | some pair =>
    obtain ⟨header, trailing⟩ := pair
    cases reader with
    | none => exact (warned_goes run location kind trailing).moves.trans (.one (.idle _ _ rfl))
    | some read =>
      have hsought : Moves fs run ((handing run location kind header trailing).note
          (.sought ⟨kind, header⟩ file.directory)) :=
        (handing_moves run location kind header trailing).trans (.one (.idle _ _ rfl))
      have hjournal := handing_journal run location kind header trailing
      have hevents := handing_events run location kind header trailing
      simp only [handle_host]
      cases search.resolve fs header file.directory with
      | error e => exact hsought.trans (traceFilled_move _ _ _)
      | ok f =>
        simp only
        cases hd : ((handing run location kind header trailing).note
            (.sought ⟨kind, header⟩ file.directory)).decision f with
        | skip reason =>
          refine ⟨⟨?_, ?_⟩, trivial⟩
          · exact (hsought.trans (.one (.skip _ ⟨kind, header⟩ f reason hd))).trans
              (traceFilled_move _ _ _)
          · have hdropped := Told.refl (((handing run location kind header trailing).note
              (.sought ⟨kind, header⟩ file.directory)).dropped ⟨kind, header⟩ f reason)
            refine traceFilled_told (pendingEvent run kind header)
              [.sought ⟨kind, header⟩ file.directory, .resolved ⟨kind, header⟩ f,
                .skipped ⟨kind, header⟩ f reason] [] hdropped hevents ?_ rfl
              (List.append_nil _).symm rfl rfl
            simp [Run.note, Run.dropped, Run.decided, hjournal]
        | process =>
          have hbegun := hsought.trans (.one (.start _ ⟨kind, header⟩ f hd))
          have hread := hreads read rfl f (((handing run location kind header trailing).note
            (.sought ⟨kind, header⟩ file.directory)).started ⟨kind, header⟩ f)
          simp only
          cases hx : read f (((handing run location kind header trailing).note
            (.sought ⟨kind, header⟩ file.directory)).started ⟨kind, header⟩ f) with
          | error e ended =>
            exact (hbegun.trans (hread.error hx)).trans (traceFilled_move _ _ _)
          | ok report ended =>
            obtain ⟨hgoes, hreported⟩ := hread.ok hx
            refine ⟨⟨?_, ?_⟩, trivial⟩
            · exact ((hbegun.trans hgoes.moves).trans (.one (.finish _ f report hreported))).trans
                (traceFilled_move _ _ _)
            · refine traceFilled_told (pendingEvent run kind header)
                [.sought ⟨kind, header⟩ file.directory, .resolved ⟨kind, header⟩ f,
                  .processing ⟨kind, header⟩ f] [.finished f report] hgoes.told hevents ?_ rfl
                Array.toList_push rfl rfl
              simp [Run.note, Run.started, Run.mapLedger, Run.decided, hjournal]

theorem command_makes (hreads : Reads fs reader) (c : Command) :
    Makes fs run (Scan.command fs search reader file location c) fun declares after =>
      declares = true → (after.ledger.get file).onceGuarded = true := by
  cases c with
  | request kind operand => exact (request_makes hreads kind operand).bind fun _ _ _ => .pure nofun
  | define operand => exact (define_makes operand).bind fun _ _ _ => .pure nofun
  | undefine operand =>
    refine (Makes.ofExcept (Q := fun _ _ => True) _ fun _ _ => trivial).bind fun name middle _ => ?_
    exact .after (y := pure false) (.entered (.undefined name) (.undefine middle name) rfl rfl rfl)
      (.pure nofun) rfl
  | pragma operand =>
    simp only [Scan.command]
    split
    · refine .after (.entered (.lockedByPragma file) (.lock run file) rfl rfl rfl)
        (y := pure true) (.pure fun _ => ?_) rfl
      show ((run.ledger.markOnce file).get file).onceGuarded = true
      rw [Ledger.get_markOnce, Identity.isSame_refl]
      rfl
    · exact .after (y := pure false) (.entered _ (.idle run (.ignoredPragma _) rfl) rfl rfl rfl)
        (.pure nofun) rfl
  | error message => exact .throw
  | warning message =>
    exact .after (y := pure false) (.quiet (quiet_warn _ location) run) (.pure nofun) rfl

/-- A line that says that its file is to be read once has locked the file. -/
theorem step_makes (hreads : Reads fs reader) (st : FileState) (line : Line) :
    Makes fs run (step fs search reader file location st line) fun next after =>
      next.declaredOnce = true →
        st.declaredOnce = true ∨ (after.ledger.get file).onceGuarded = true := by
  cases line with
  | text content =>
    have hnext :
        (if content.allBlank then st else { st with shape := st.shape.onText }).declaredOnce =
          st.declaredOnce := by split <;> rfl
    simp only [step]
    split
    · have hwrite : Quiet (·.write content.trimEnd) := fun _ => ⟨rfl, rfl, rfl⟩
      exact .after (.quiet hwrite run) (.pure fun h => .inl (hnext ▸ h)) rfl
    · exact .pure fun h => .inl (hnext ▸ h)
  | marker => exact .pure .inl
  | unknown name =>
    simp only [step]
    split
    · exact .pure .inl
    · exact .throw
  | command c =>
    simp only [step]
    split
    · exact .pure .inl
    · refine (command_makes hreads c).bind fun declares middle hlock => .pure fun h => ?_
      exact ((Bool.or_eq_true _ _).mp h).imp id hlock
  | opening t =>
    exact .get ((Makes.ofExcept (Q := fun _ _ => True) _ fun _ _ => trivial).bind fun _ _ _ =>
      .pure .inl)
  | elseIf operand =>
    refine .get (.ofExcept _ fun next h => ?_)
    obtain ⟨s, outer, active, _, _, rfl⟩ := elseIf_eq_ok h
    exact .inl
  | otherwise =>
    refine .ofExcept _ fun next h => ?_
    obtain ⟨s, outer, _, _, rfl⟩ := otherwise_eq_ok h
    exact .inl
  | closing =>
    refine .ofExcept _ fun next h => ?_
    obtain ⟨s, outer, _, rfl⟩ := closeSection_eq_ok h
    exact .inl

theorem scanLines_makes (hreads : Reads fs reader) (source : SourceId) (st : FileState)
    (lines : List (Numbered Line)) :
    Makes fs run (scanLines fs search reader file source st lines) fun next after =>
      next.declaredOnce = true →
        st.declaredOnce = true ∨ (after.ledger.get file).onceGuarded = true := by
  induction lines generalizing st run with
  | nil => exact .pure .inl
  | cons line rest ih =>
    refine ((step_makes hreads st line.content).onFailure (quiet_fail _)).bind
      fun next middle hstep => ?_
    refine (ih next).weaken fun last after _ hmoves hrest hlast => ?_
    obtain hnext | hlocked := hrest hlast
    · exact (hstep hnext).imp id (hmoves.onceGuarded file)
    · exact .inr hlocked

theorem scanFile_makes (hreads : Reads fs reader) {source : SourceId} {loaded : SourceFile}
    (hfile : run.host.sources.file? source = some loaded) :
    Makes fs run (scanFile fs search reader file source) fun report after =>
      report.declaredOnce = true → (after.ledger.get file).onceGuarded = true := by
  refine .after (.refl run) ((scanLines_makes hreads source {} _).bind fun st middle h => ?_)
    (scanFile_apply fs search reader file source hfile)
  unfold FileState.finish
  cases st.sections with
  | nil => exact .pure fun hd => (h hd).resolve_left nofun
  | cons s outer => exact .after (.quiet (quiet_fail s.opened) middle) .throw rfl

/-- What a scan says of a file is right, if the text scanned is the one that has been
read under the identity of the file. -/
theorem scanFile_reports (hreads : Reads fs reader) {source : SourceId} {loaded : SourceFile}
    (hfile : run.host.sources.file? source = some loaded)
    (hknown : run.host.sources.known? file = some loaded) :
    Makes fs run (scanFile fs search reader file source) fun report after =>
      Reported after file report := by
  refine (scanFile_makes hreads hfile).weaken fun report after hok hmoves honce => ⟨honce, ?_⟩
  obtain ⟨g, hg, hu, hguard⟩ := scanFile_ok fs search reader file source hfile hok
  exact ⟨loaded, g, hmoves.sources.known? hknown, hg, hu, hguard⟩

theorem includeWith_makes (hreads : Reads fs reader) (file : Identity) (run : Run Scan) :
    Makes fs run (includeWith fs search reader file) fun report after =>
      Reported after file report := by
  have happly := includeWith_apply fs search reader file run
  cases hl : run.host.sources.load fs file with
  | error e =>
    rw [hl] at happly
    exact Makes.throw.after (.refl run) happly
  | ok pair =>
    obtain ⟨source, sources⟩ := pair
    obtain ⟨_, hfind, loaded, hfile⟩ := Sources.load_ok hl
    have hgoes : Goes fs run (run.mapHost ({ · with sources })) :=
      ⟨.one (.load run file source sources hl), .undecided [] rfl (List.append_nil _).symm rfl⟩
    have hscan : Makes fs (run.mapHost ({ · with sources }))
        (within file run.host.requestSite (scanFile fs search reader file source))
        fun report after => Reported after file report :=
      .within (scanFile_reports hreads hfile (by
        show (sources.find? file).bind sources.file? = some loaded
        rw [hfind]
        exact hfile)) fun report after h => ⟨h.once, h.guard⟩
    rw [hl] at happly
    exact hscan.after hgoes happly

theorem readerWithin_reads (room : Nat) : Reads fs (readerWithin fs search room) := by
  induction room with
  | zero => exact nofun
  | succ room ih =>
    rintro read ⟨⟩
    exact includeWith_makes ih

end

/-! ### A file that asks for itself -/

/-- A file that asks for itself inside its guard, twice. -/
def selfIncluding : SourceFile :=
  .entered ⟨0⟩ ⟨.inode 1, .ofString "/a.h"⟩
    "#ifndef A\n#define A\n#include \"a.h\"\n#include \"a.h\"\n#endif\n".toList

/-- A file system that holds this file only. -/
def selfIncludingDisk : FileSystem where
  entries := [(["a.h".toList], .file 1)]
  contents := [(1, selfIncluding.text.map (·.toNat.toUInt8))]

end IncludeOnce
