import IncludeOnce.Scan

/-! How actions run.

An action takes a state to a result and the state it leaves, also where it fails.
The lemmas here open one action at a time, so that what a longer one does is read
off its parts. -/
namespace IncludeOnce

section Any
variable {ε σ α β : Type}

theorem bind_apply (x : EStateM ε σ α) (f : α → EStateM ε σ β) (s : σ) :
    (x >>= f) s =
      match x s with
      | .ok a after => f a after
      | .error e after => .error e after := by
  show EStateM.bind x f s = _
  unfold EStateM.bind
  cases x s <;> rfl

@[simp] theorem pure_apply (a : α) (s : σ) : (pure a : EStateM ε σ α) s = .ok a s := rfl

@[simp] theorem get_apply (s : σ) : (get : EStateM ε σ σ) s = .ok s s := rfl

@[simp] theorem set_apply (s t : σ) : (set t : EStateM ε σ PUnit) s = .ok ⟨⟩ t := rfl

@[simp] theorem modify_apply (f : σ → σ) (s : σ) :
    (modify f : EStateM ε σ PUnit) s = .ok ⟨⟩ (f s) := rfl

theorem bind_eq_ok {x : EStateM ε σ α} {f : α → EStateM ε σ β} {s t : σ} {b : β}
    (h : (x >>= f) s = .ok b t) : ∃ a m, x s = .ok a m ∧ f a m = .ok b t := by
  rw [bind_apply] at h
  cases hx : x s with
  | ok a m => rw [hx] at h; exact ⟨a, m, rfl, h⟩
  | error e m => rw [hx] at h; cases h

/-- The value that an action gives and the state that it leaves, if it comes to its end. -/
def ended? : EStateM.Result ε σ α → Option (α × σ)
  | .ok a s => some (a, s)
  | .error _ _ => none

/-- What an action comes to, whatever state it leaves. -/
def outcome : EStateM.Result ε σ α → Except ε α
  | .ok a _ => .ok a
  | .error e _ => .error e

/-- The state that an action leaves, on either way out. -/
def leftBy : EStateM.Result ε σ α → σ
  | .ok _ s => s
  | .error _ s => s

theorem eq_ok_of_ended? {r : EStateM.Result ε σ α} {p : α × σ} (h : ended? r = some p) :
    r = .ok p.1 p.2 := by
  cases r with
  | ok a s => cases h; rfl
  | error e s => cases h

end Any

namespace Scan
variable {α β : Type}

@[simp] theorem change_apply (f : Scan → Scan) (run : Run Scan) :
    change f run = .ok () (run.mapHost f) := rfl

@[simp] theorem ofExcept_ok (a : α) : ofExcept (.ok a) = pure a := rfl

theorem ofExcept_eq_ok {x : Except ScanError α} {a : α} {run left : Run Scan}
    (h : ofExcept x run = .ok a left) : x = .ok a ∧ left = run := by
  cases x with
  | error e => cases h
  | ok b => cases h; exact ⟨rfl, rfl⟩

@[simp] theorem onFailure_pure (a : α) (f : Scan → Scan) :
    onFailure (pure a) f = pure a := rfl

/-- What follows without failing may as well follow outside. -/
theorem onFailure_bind_pure (x : ScanM α) (g : α → β) (f : Scan → Scan) :
    onFailure (x >>= fun a => pure (g a)) f = onFailure x f >>= fun a => pure (g a) := by
  funext run
  simp only [onFailure, bind_apply]
  cases x run <;> rfl

theorem onFailure_eq_ok {x : ScanM α} {f : Scan → Scan} {a : α} {run left : Run Scan}
    (h : onFailure x f run = .ok a left) : x run = .ok a left := by
  unfold onFailure at h
  split at h
  · rename_i hx
    rw [hx, h]
  · cases h

end Scan

/-! ### Requests -/

section Handling
variable {ε σ : Type}

/-- The state after a request has been decided, before anything else is done. -/
def Run.decided (run : Run σ) (isDefined : Name → Bool) (request : Request) (file : Identity) :
    Run σ :=
  { run.note (.resolved request file) with
    ledger := (run.ledger.resolve file request.kind isDefined).2 }

theorem Request.fulfil_apply (host : Host ε σ) (file : Identity) (run : Run σ) :
    fulfil host file run =
      match host.process file (run.mapLedger (·.begin file)) with
      | .ok report after =>
        .ok ⟨file, .processed⟩
          ((after.note (.finished file report)).mapLedger (·.complete file report))
      | .error e after => .error e after := by
  simp only [fulfil, bind_apply, modify_apply, pure_apply]
  cases host.process file (run.mapLedger (·.begin file)) <;> rfl

theorem Request.handle_apply (request : Request) (resolver : Resolver) (beside : Path)
    (host : Host ε σ) (run : Run σ) :
    request.handle resolver beside host run =
      match resolver request.header beside with
      | .error e => .error (host.unresolved e) (run.note (.sought request beside))
      | .ok file =>
        match (run.ledger.get file).decide (host.isDefined run.host) with
        | .skip reason =>
          .ok ⟨file, .skipped reason⟩
            (((run.note (.sought request beside)).decided (host.isDefined run.host) request
              file).note (.skipped request file reason))
        | .process =>
          fulfil host file
            (((run.note (.sought request beside)).decided (host.isDefined run.host) request
              file).note (.processing request file)) := by
  simp only [handle, bind_apply, modify_apply]
  cases resolver request.header beside with
  | error e => rfl
  | ok file =>
    simp only [bind_apply, modify_apply, get_apply, set_apply]
    show (match (run.ledger.get file).decide (host.isDefined run.host) with
      | .skip reason => _
      | .process => _ : EStateM ε (Run σ) Outcome) _ = _
    cases (run.ledger.get file).decide (host.isDefined run.host) with
    | process => rfl
    | skip reason => rfl

end Handling

/-- How a request for a file is decided. -/
def Run.decision (run : Run Scan) (file : Identity) : Decision :=
  (run.ledger.get file).decide run.host.macros.isDefined

/-- The state after a request has been dropped. -/
def Run.dropped (run : Run Scan) (request : Request) (file : Identity) (reason : SkipReason) :
    Run Scan :=
  (run.decided run.host.macros.isDefined request file).note (.skipped request file reason)

/-- The state in which the content of a requested file is about to be read. -/
def Run.started (run : Run Scan) (request : Request) (file : Identity) : Run Scan :=
  ((run.decided run.host.macros.isDefined request file).note
    (.processing request file)).mapLedger (·.begin file)

/-- The state after a requested file has been read. -/
def Run.finished (run : Run Scan) (file : Identity) (report : Report) : Run Scan :=
  (run.note (.finished file report)).mapLedger (·.complete file report)

namespace Scan

/-- The handler with the scanner as its host. -/
theorem handle_host (request : Request) (resolver : Resolver) (beside : Path)
    (read : Identity → ScanM Report) (run : Run Scan) :
    request.handle resolver beside (host read) run =
      let sought := run.note (.sought request beside)
      match resolver request.header beside with
      | .error e => .error (.unresolved e) sought
      | .ok file =>
        match sought.decision file with
        | .skip reason => .ok ⟨file, .skipped reason⟩ (sought.dropped request file reason)
        | .process =>
          match read file (sought.started request file) with
          | .ok report after => .ok ⟨file, .processed⟩ (after.finished file report)
          | .error e after => .error e after := by
  rw [Request.handle_apply]
  cases resolver request.header beside with
  | error e => rfl
  | ok file =>
    show (match (run.ledger.get file).decide run.host.macros.isDefined with
      | .skip reason => _
      | .process => _ : EStateM.Result ScanError (Run Scan) Outcome) =
      match (run.ledger.get file).decide run.host.macros.isDefined with
      | .skip reason => _
      | .process => _
    cases (run.ledger.get file).decide run.host.macros.isDefined with
    | skip reason => rfl
    | process =>
      have hbegun : (((run.note (.sought request beside)).decided ((host read).isDefined run.host)
          request file).note (.processing request file)).mapLedger (·.begin file) =
          (run.note (.sought request beside)).started request file := rfl
      simp only [Request.fulfil_apply, hbegun]
      rw [show (host read).process = read from rfl]
      cases read file ((run.note (.sought request beside)).started request file) <;> rfl

/-- The state after a warning that a name has another body already. -/
def redefining (run : Run Scan) (location : Location) (name : Name) (body : Text) : Run Scan :=
  match run.host.macros.body? name with
  | some previous =>
    if previous = body then run
    else run.mapHost (·.warn s!"'{name.display}' macro redefined" location)
  | none => run

/-- Nothing but a diagnostic may come of that. -/
theorem redefining_eq (run : Run Scan) (location : Location) (name : Name) (body : Text) :
    ∃ diagnostics, redefining run location name body = run.mapHost ({ · with diagnostics }) := by
  unfold redefining
  split
  · split
    · exact ⟨run.host.diagnostics, rfl⟩
    · exact ⟨_, rfl⟩
  · exact ⟨run.host.diagnostics, rfl⟩

theorem define_apply (location : Location) (operand : Text) (run : Run Scan) :
    define location operand run =
      match Identifier.split operand with
      | ([], _) => .error .expectedIdentifier run
      | (name, rest) =>
        .ok () (((redefining run location name rest.trim).note (.defined name)).mapHost fun s =>
          { s with macros := s.macros.define name rest.trim }) := by
  unfold define
  cases hs : Identifier.split operand with
  | mk name rest =>
    cases name with
    | nil => rfl
    | cons c more =>
      simp only [bind_apply, get_apply, redefining]
      cases run.host.macros.body? (c :: more) with
      | none => rfl
      | some previous =>
        simp only [ne_eq, ite_not]
        split
        · rfl
        · rfl

/-- The state after a warning of what stands behind a header name. -/
def warned (run : Run Scan) (location : Location) (kind : RequestKind) (trailing : Text) :
    Run Scan :=
  if trailing.allBlank then run
  else run.mapHost (·.warn s!"extra tokens at end of #{kind.word} directive" location)

theorem warned_eq (run : Run Scan) (location : Location) (kind : RequestKind) (trailing : Text) :
    ∃ diagnostics, warned run location kind trailing = run.mapHost ({ · with diagnostics }) := by
  unfold warned
  split
  · exact ⟨run.host.diagnostics, rfl⟩
  · exact ⟨_, rfl⟩

/-- The state in which a request is handed on: its line is noted, and its place in the
trace is reserved. -/
def handing (run : Run Scan) (location : Location) (kind : RequestKind) (header : HeaderName)
    (trailing : Text) : Run Scan :=
  (warned run location kind trailing).mapHost fun s =>
    { s with requestSite := some location }.reserve run.host.stack.length ⟨kind, header⟩

/-- A request in the trace of which it is not known yet what becomes. -/
def pendingEvent (run : Run Scan) (kind : RequestKind) (header : HeaderName) : IncludeEvent :=
  ⟨run.host.stack.length, kind, header.name, .pending⟩

theorem handing_eq (run : Run Scan) (location : Location) (kind : RequestKind)
    (header : HeaderName) (trailing : Text) :
    ∃ diagnostics, handing run location kind header trailing = run.mapHost fun s =>
      { s with
        diagnostics
        requestSite := some location
        events := s.events.push (pendingEvent run kind header) } := by
  obtain ⟨d, hd⟩ := warned_eq run location kind trailing
  exact ⟨d, by rw [handing, hd]; rfl⟩

/-- The state after a request, with what became of it in its place in the trace. -/
def traceFilled (slot : Nat) (result : EventResult) (run : Run Scan) : Run Scan :=
  run.mapHost (·.fill slot result)

theorem modify_length_append {α : Type} (before : List α) (a : α) (after : List α)
    (f : α → α) : (before ++ a :: after).modify before.length f = before ++ f a :: after := by
  induction before with
  | nil => rfl
  | cons b before ih => exact congrArg (b :: ·) ih

/-- What became of a request is filled in where its place was reserved, before all that came
up since. -/
theorem traceFilled_events {before : Array IncludeEvent} {event : IncludeEvent} {run : Run Scan}
    {inner : List IncludeEvent} (h : run.host.events.toList = (before.push event).toList ++ inner)
    (result : EventResult) :
    (traceFilled before.size result run).host.events.toList =
      before.toList ++ { event with result } :: inner := by
  show (run.host.events.modify _ _).toList = _
  rw [Array.toList_modify, h, Array.toList_push, List.append_assoc]
  exact modify_length_append before.toList event inner _

theorem request_apply (fs : FileSystem) (search : HeaderSearch) (reader : Reader)
    (file : Identity) (location : Location) (kind : RequestKind) (operand : Text)
    (run : Run Scan) :
    request fs search reader file location kind operand run =
      match HeaderName.read operand with
      | none => .error (.invalidHeader kind) run
      | some (header, trailing) =>
        match reader with
        | none =>
          .error (.depthExceeded run.host.stack.length)
            ((warned run location kind trailing).note
              (.tooDeep (run.host.stack.reverse.map (·.identity))))
        | some read =>
          match (⟨kind, header⟩ : Request).handle (search.resolve fs) file.directory (host read)
            (handing run location kind header trailing) with
          | .ok outcome after =>
            .ok () (traceFilled run.host.events.size (.ofOutcome outcome) after)
          | .error e after => .error e (traceFilled run.host.events.size .failed after) := by
  unfold request
  cases HeaderName.read operand with
  | none => rfl
  | some pair =>
    obtain ⟨header, trailing⟩ := pair
    have hwarn : ∀ next : Unit → ScanM Unit,
        (do
          if !trailing.allBlank then
            change (·.warn s!"extra tokens at end of #{kind.word} directive" location)
          next ()) run = next () (warned run location kind trailing) := by
      intro next
      unfold warned
      cases trailing.allBlank with
      | true => rfl
      | false => rfl
    refine (hwarn fun _ => _).trans ?_
    obtain ⟨hstack, hevents⟩ :
        (warned run location kind trailing).host.stack = run.host.stack ∧
          (warned run location kind trailing).host.events = run.host.events := by
      obtain ⟨d, hd⟩ := warned_eq run location kind trailing
      rw [hd]
      exact ⟨rfl, rfl⟩
    simp only [bind_apply, get_apply, hstack]
    cases reader with
    | none => rfl
    | some read =>
      simp only [bind_apply, change_apply, traced]
      rw [← hevents]
      show (match (⟨kind, header⟩ : Request).handle (search.resolve fs) file.directory (host read)
          (handing run location kind header trailing) with
        | .ok outcome after => _
        | .error e after => _) = _
      cases (⟨kind, header⟩ : Request).handle (search.resolve fs) file.directory (host read)
          (handing run location kind header trailing) <;> rfl

/-! ### Whole files -/

theorem includeWith_apply (fs : FileSystem) (search : HeaderSearch) (reader : Reader)
    (file : Identity) (run : Run Scan) :
    includeWith fs search reader file run =
      match run.host.sources.load fs file with
      | .error e => .error (.unreadable file.path e) run
      | .ok (source, sources) =>
        within file run.host.requestSite (scanFile fs search reader file source)
          (run.mapHost ({ · with sources })) := by
  simp only [includeWith, load, bind_apply, get_apply]
  cases run.host.sources.load fs file with
  | error e => rfl
  | ok pair => rfl

theorem includeFile_apply (fs : FileSystem) (settings : Settings) (file : Identity)
    (run : Run Scan) :
    includeFile fs settings file run =
      includeWith fs settings.search
        (readerWithin fs settings.search (settings.maxDepth - run.host.stack.length)) file run :=
  rfl

end Scan

/-- The state in which a main file is about to be read. -/
def Run.mainBegun (run : Run Scan) (file : Identity) : Run Scan :=
  (run.note (.mainBegun file)).mapLedger (·.begin file)

/-- The state after a main file has been read. -/
def Run.mainEnded (run : Run Scan) (file : Identity) (report : Report) : Run Scan :=
  (run.note (.mainEnded file report)).mapLedger (·.complete file report)

theorem Scan.process_apply (fs : FileSystem) (settings : Settings) (source : SourceId)
    (run : Run Scan) :
    process fs settings source run =
      match run.host.sources.file? source with
      | none => .ok () run
      | some loaded =>
        match within loaded.identity none (scanFile fs settings.search
            (readerWithin fs settings.search (settings.maxDepth - run.host.stack.length))
            loaded.identity source) (run.mainBegun loaded.identity) with
        | .ok report after => .ok () (after.mainEnded loaded.identity report)
        | .error e after => .error e after := by
  simp only [process, bind_apply, get_apply]
  cases run.host.sources.file? source with
  | none => rfl
  | some loaded =>
    simp only [bind_apply, modify_apply, nextReader, get_apply, pure_apply]
    rw [show ((run.note (.mainBegun loaded.identity)).mapLedger (·.begin loaded.identity)) =
      run.mainBegun loaded.identity from rfl,
      show (run.mainBegun loaded.identity).host = run.host from rfl]
    cases within loaded.identity none (scanFile fs settings.search
      (readerWithin fs settings.search (settings.maxDepth - run.host.stack.length))
      loaded.identity source) (run.mainBegun loaded.identity) with
    | ok report after => rfl
    | error e after => rfl

end IncludeOnce
