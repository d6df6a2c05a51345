import IncludeOnce.Proofs.Units

/-! Warning options change nothing but what is told.

A scan tells warnings and never looks at what has been told (`process_blind`). So two runs
whose diagnostics are related go side by side, as long as the relation holds of what both are
told next (`Telling`). Only the end of a unit looks at the diagnostics, for errors. With
warnings off the two runs agree there, and with warnings as errors they agree until the first
warning, where the stricter run ends (`Pipeline.runInputs_beside`).

`run_under_warning_options` compares a run under any options with the run under none. -/
namespace IncludeOnce
open Scan

/-! ### Actions that do not look at the diagnostics -/

/-- A relation between the diagnostics of two runs that lasts while both are told the same:
warnings, and errors. -/
structure Telling (R : Diagnostics → Diagnostics → Prop) : Prop where
  warn : ∀ {d e : Diagnostics}, R d e → ∀ message location,
    R (d.warn message location) (e.warn message location)
  report : ∀ {d e : Diagnostics}, R d e → ∀ diagnostic : Diagnostic,
    diagnostic.severity = .error → R (d.report diagnostic) (e.report diagnostic)

/-- The same state, with other diagnostics. -/
def Run.under (run : Run Scan) (diagnostics : Diagnostics) : Run Scan :=
  run.mapHost ({ · with diagnostics })

section
variable (R : Diagnostics → Diagnostics → Prop)

/-- A change of the state is the same for other diagnostics, and leaves related ones. -/
def BlindChange (f : Run Scan → Run Scan) : Prop :=
  ∀ run e, R run.host.diagnostics e →
    ∃ e', R (f run).host.diagnostics e' ∧ f (run.under e) = (f run).under e'

/-- Two scans have come to the same, with related diagnostics. -/
inductive SeenAlike {α : Type} :
    EStateM.Result ScanError (Run Scan) α → EStateM.Result ScanError (Run Scan) α → Prop
  | ok (a : α) {run : Run Scan} {e : Diagnostics} (h : R run.host.diagnostics e) :
    SeenAlike (.ok a run) (.ok a (run.under e))
  | error (err : ScanError) {run : Run Scan} {e : Diagnostics} (h : R run.host.diagnostics e) :
    SeenAlike (.error err run) (.error err (run.under e))

/-- An action comes to the same for other diagnostics, and leaves related ones. -/
def Blind {α : Type} (x : ScanM α) : Prop :=
  ∀ run e, R run.host.diagnostics e → SeenAlike R (x run) (x (run.under e))

/-- Files are read by a blind action. -/
def BlindReader (reader : Reader) : Prop :=
  ∀ read, reader = some read → ∀ file, Blind R (read file)

end

section
variable {R : Diagnostics → Diagnostics → Prop} {α β : Type}

namespace Blind

theorem pure (a : α) : Blind R (pure a) := fun _ _ h => .ok a h

theorem throw (err : ScanError) : Blind R (throw err : ScanM α) := fun _ _ h => .error err h

theorem ofExcept (x : Except ScanError α) : Blind R (Scan.ofExcept x) := by
  cases x with
  | error err => exact throw err
  | ok a => exact pure a

theorem note (entry : Journal.Entry) : Blind R (modify (·.note entry) : ScanM PUnit) :=
  fun _ _ h => .ok _ h

theorem mapLedger (f : Ledger → Ledger) : Blind R (modify (·.mapLedger f) : ScanM PUnit) :=
  fun _ _ h => .ok _ h

theorem modify {f : Run Scan → Run Scan} (hf : BlindChange R f) :
    Blind R (modify f : ScanM PUnit) := by
  intro run e h
  obtain ⟨e', h', hrun⟩ := hf run e h
  rw [modify_apply, modify_apply, hrun]
  exact .ok _ h'

theorem bind {x : ScanM α} {f : α → ScanM β} (hx : Blind R x) (hf : ∀ a, Blind R (f a)) :
    Blind R (x >>= f) := by
  intro run e h
  have hrun := hx run e h
  rw [bind_apply, bind_apply]
  generalize x run = r, x (run.under e) = r' at hrun ⊢
  cases hrun with
  | ok a h => exact hf a _ _ h
  | error err h => exact .error err h

/-- What is read of the state is not the diagnostics. -/
theorem read {f : Run Scan → ScanM α} (hsame : ∀ run e, f (run.under e) = f run)
    (hf : ∀ run, Blind R (f run)) : Blind R (get >>= f) := by
  intro run e h
  rw [bind_apply, bind_apply, get_apply, get_apply]
  show SeenAlike R (f run run) (f (run.under e) (run.under e))
  rw [hsame]
  exact hf run run e h

theorem onFailure {x : ScanM α} {f : Scan → Scan} (hx : Blind R x)
    (hf : BlindChange R (·.mapHost f)) : Blind R (onFailure x f) := by
  intro run e h
  have hrun := hx run e h
  unfold Scan.onFailure
  generalize x run = r, x (run.under e) = r' at hrun ⊢
  cases hrun with
  | ok a h => exact .ok a h
  | error err h =>
    obtain ⟨d, hd, hleft⟩ := hf _ _ h
    simp only [hleft]
    exact .error err hd

theorem within {x : ScanM α} (hx : Blind R x) (file : Identity) (site : Option Location) :
    Blind R (within file site x) := by
  refine bind (modify fun run e h => ⟨e, h, rfl⟩) fun _ run e h => ?_
  have hrun := hx run e h
  unfold afterwards
  generalize x run = r, x (run.under e) = r' at hrun ⊢
  cases hrun with
  | ok a h => exact .ok a h
  | error err h => exact .error err h

end Blind

theorem fail_blind (location : Location) : BlindChange R (·.mapHost (·.fail location)) := by
  intro run e h
  refine ⟨e, ?_, ?_⟩
  · show R (run.host.fail location).diagnostics e
    unfold Scan.fail
    split
    · exact h
    · exact h
  · show Run.mk run.ledger run.journal ({ run.host with diagnostics := e }.fail location) =
      Run.mk run.ledger run.journal { run.host.fail location with diagnostics := e }
    unfold Scan.fail
    cases run.host.failure with
    | none => rfl
    | some failure => rfl

/-! ### Requests -/

/-- The handler is as blind as its host. -/
theorem handle_blind {read : Identity → ScanM Report} (hread : ∀ file, Blind R (read file))
    (request : Request) (resolver : Resolver) (beside : Path) :
    Blind R (request.handle resolver beside (host read)) := by
  -- The handler puts back a state that it has read, diagnostics and all, so `Blind.read` is of
  -- no use here.
  intro run e h
  rw [handle_host, handle_host]
  cases resolver request.header beside with
  | error err => exact .error _ h
  | ok file =>
    have hdecision : ((run.under e).note (.sought request beside)).decision file =
        (run.note (.sought request beside)).decision file := rfl
    simp only [hdecision]
    cases (run.note (.sought request beside)).decision file with
    | skip reason => exact .ok _ h
    | process =>
      have hfile : SeenAlike R
          (read file ((run.note (.sought request beside)).started request file))
          (read file (((run.under e).note (.sought request beside)).started request file)) :=
        hread file _ e h
      simp only
      generalize read file ((run.note _).started request file) = r,
        read file (((run.under e).note _).started request file) = r' at hfile ⊢
      cases hfile with
      | ok report h => exact .ok _ h
      | error err h => exact .error err h

section
variable (tell : Telling R)
include tell

theorem warn_blind (message : String) (location : Location) :
    BlindChange R (·.mapHost (·.warn message location)) :=
  fun _ _ h => ⟨_, tell.warn h message (some location), rfl⟩

theorem warned_blind (location : Location) (kind : RequestKind) (trailing : Text) :
    BlindChange R (warned · location kind trailing) := by
  intro run e h
  simp only [warned]
  split
  · exact ⟨e, h, rfl⟩
  · exact warn_blind tell _ location run e h

theorem redefining_blind (location : Location) (name : Name) (body : Text) :
    BlindChange R (redefining · location name body) := by
  intro run e h
  have hbody : (run.under e).host.macros.body? name = run.host.macros.body? name := rfl
  simp only [redefining, hbody]
  cases run.host.macros.body? name with
  | none => exact ⟨e, h, rfl⟩
  | some previous =>
    simp only
    split
    · exact ⟨e, h, rfl⟩
    · exact warn_blind tell _ location run e h

theorem define_blind (location : Location) (operand : Text) :
    Blind R (define location operand) := by
  intro run e h
  rw [define_apply, define_apply]
  cases Identifier.split operand with
  | mk name rest =>
    cases name with
    | nil => exact .error _ h
    | cons c more =>
      obtain ⟨e', h', hrun⟩ := redefining_blind tell location (c :: more) rest.trim run e h
      simp only [hrun]
      exact .ok _ h'

variable {fs : FileSystem} {search : HeaderSearch} {reader : Reader}

theorem request_blind (hreader : BlindReader R reader) (file : Identity) (location : Location)
    (kind : RequestKind) (operand : Text) :
    Blind R (request fs search reader file location kind operand) := by
  intro run e h
  rw [request_apply, request_apply]
  cases HeaderName.read operand with
  | none => exact .error _ h
  | some pair =>
    obtain ⟨header, trailing⟩ := pair
    obtain ⟨d, hd, hwarned⟩ := warned_blind tell location kind trailing run e h
    cases reader with
    | none =>
      simp only [hwarned]
      exact .error _ hd
    | some read =>
      have hhanding : handing (run.under e) location kind header trailing =
          (handing run location kind header trailing).under d := by
        simp only [handing, hwarned]
        rfl
      have hhandle := handle_blind (hreader read rfl) ⟨kind, header⟩ (search.resolve fs)
        file.directory (handing run location kind header trailing) d hd
      simp only [hhanding]
      generalize Request.handle _ _ _ _ (handing run location kind header trailing) = r,
        Request.handle _ _ _ _ ((handing run location kind header trailing).under d) = r'
          at hhandle ⊢
      cases hhandle with
      | ok outcome h => exact .ok _ h
      | error err h => exact .error err h

/-! ### Lines and files -/

theorem command_blind (hreader : BlindReader R reader) (file : Identity) (location : Location)
    (c : Command) : Blind R (command fs search reader file location c) := by
  cases c with
  | request kind operand =>
    exact (request_blind tell hreader file location kind operand).bind fun _ => .pure false
  | define operand => exact (define_blind tell location operand).bind fun _ => .pure false
  | undefine operand =>
    refine (Blind.ofExcept (identifier operand)).bind fun name => ?_
    refine (Blind.note _).bind fun _ => ?_
    exact .bind (.modify fun run e h => ⟨e, h, rfl⟩) fun _ => .pure false
  | pragma operand =>
    simp only [command]
    split
    · exact (Blind.note _).bind fun _ => (Blind.mapLedger _).bind fun _ => .pure true
    · exact (Blind.note _).bind fun _ => .pure false
  | error message => exact .throw _
  | warning message =>
    exact (Blind.modify (warn_blind tell _ location)).bind fun _ => .pure false

/-- **The step lemma**: one line. -/
theorem step_blind (hreader : BlindReader R reader) (file : Identity) (location : Location)
    (st : FileState) (line : Line) :
    Blind R (step fs search reader file location st line) := by
  cases line with
  | text content =>
    simp only [step]
    split
    · exact .bind (.modify fun run e h => ⟨e, h, rfl⟩) fun _ => .pure _
    · exact .pure _
  | marker => exact .pure st
  | unknown name =>
    simp only [step]
    split
    · exact .pure st
    · exact .throw _
  | command c =>
    simp only [step]
    split
    · exact .pure _
    · exact (command_blind tell hreader file location c).bind fun _ => .pure _
  | opening t =>
    refine .read (fun _ _ => rfl) fun run => ?_
    exact (Blind.ofExcept _).bind fun _ => .pure _
  | elseIf operand => exact .read (fun _ _ => rfl) fun run => .ofExcept _
  | otherwise => exact .ofExcept _
  | closing => exact .ofExcept _

/-- **The run lemma**: any number of lines. -/
theorem scanLines_blind (hreader : BlindReader R reader) (file : Identity) (source : SourceId)
    (st : FileState) (lines : List (Numbered Line)) :
    Blind R (scanLines fs search reader file source st lines) := by
  induction lines generalizing st with
  | nil => exact .pure st
  | cons line rest ih =>
    refine .bind ?_ ih
    exact (step_blind tell hreader file _ st line.content).onFailure (fail_blind _)

theorem scanFile_blind (hreader : BlindReader R reader) (file : Identity) (source : SourceId) :
    Blind R (scanFile fs search reader file source) := by
  refine .read (fun _ _ => rfl) fun run => ?_
  split
  · exact .pure _
  · refine (scanLines_blind tell hreader file source _ _).bind fun st => ?_
    split
    · exact .pure _
    · exact (Blind.modify (fail_blind _)).bind fun _ => .throw _

theorem includeWith_blind (hreader : BlindReader R reader) (file : Identity) :
    Blind R (includeWith fs search reader file) := by
  refine .read (fun _ _ => rfl) fun run => ?_
  refine .bind (.read (fun _ _ => rfl) fun run => ?_) fun source => ?_
  · split
    · exact .throw _
    · exact .bind (.modify fun run e h => ⟨e, h, rfl⟩) fun _ => .pure _
  · exact (scanFile_blind tell hreader file source).within file _

/-- Nested files, by the number of files that may still be opened. -/
theorem readerWithin_blind (room : Nat) : BlindReader R (readerWithin fs search room) := by
  induction room with
  | zero => exact fun _ h => nomatch h
  | succ room ih =>
    intro read h file
    cases h
    exact includeWith_blind tell ih file

/-- **A scan does not look at what has been told.** -/
theorem process_blind (settings : Settings) (source : SourceId) :
    Blind R (process fs settings source) := by
  refine .read (fun _ _ => rfl) fun run => ?_
  split
  · exact .pure _
  · rename_i loaded _
    refine (Blind.note _).bind fun _ => (Blind.mapLedger _).bind fun _ => ?_
    simp only [nextReader, bind_assoc, pure_bind]
    refine .read (fun _ _ => rfl) fun run => ?_
    refine .bind (.within ?_ loaded.identity none) fun report => ?_
    · exact scanFile_blind tell (readerWithin_blind tell _) loaded.identity source
    · exact (Blind.note _).bind fun _ => .mapLedger _

end

end

/-! ### Units and inputs -/

/-- A result with another state. -/
def mapState {ε σ τ α : Type} (f : σ → τ) : EStateM.Result ε σ α → EStateM.Result ε τ α
  | .ok a s => .ok a (f s)
  | .error e s => .error e (f s)

theorem outcome_mapState {ε σ τ α : Type} (f : σ → τ) (r : EStateM.Result ε σ α) :
    outcome (mapState f r) = outcome r := by
  cases r <;> rfl

theorem leftBy_mapState {ε σ τ α : Type} (f : σ → τ) (r : EStateM.Result ε σ α) :
    leftBy (mapState f r) = f (leftBy r) := by
  cases r <;> rfl

/-- The same session, with other diagnostics. -/
def Session.under (s : Session) (diagnostics : Diagnostics) : Session := { s with diagnostics }

namespace Pipeline

section
variable (R : Diagnostics → Diagnostics → Prop) (Apart : Diagnostics → Prop)

/-- Two runs come to the same with related diagnostics, or the second one fails alone. -/
inductive Beside {α : Type} (r r' : EStateM.Result PipelineError Session α) : Prop
  | together (e : Diagnostics) (related : R (leftBy r).diagnostics e)
      (same : r' = mapState (·.under e) r)
  | apart (last : Session) (why : Apart (leftBy r).diagnostics) (ended : r' = .error .fatal last)

/-- Errors have been told in both runs or in none, unless the second one fails alone. -/
def ErrorsAgree : Prop :=
  ∀ d e, R d e → e.hasErrors = d.hasErrors ∨ (e.hasErrors = true ∧ Apart d)

end

section
variable {R : Diagnostics → Diagnostics → Prop} {Apart : Diagnostics → Prop} {fs : FileSystem}
  {settings : Settings} {s : Session} {e : Diagnostics}

theorem leftBy_bind_pure {α β : Type} (x : PipelineM α) (f : α → β) (s : Session) :
    leftBy ((x >>= fun a => pure (f a)) s) = leftBy (x s) := by
  rw [bind_apply]
  cases x s <;> rfl

theorem Beside.map {α β : Type} {x : PipelineM α} {t : Session}
    (h : Beside R Apart (x s) (x t)) (f : α → β) :
    Beside R Apart ((x >>= fun a => pure (f a)) s) ((x >>= fun a => pure (f a)) t) := by
  cases h with
  | together e related same =>
    refine .together e ?_ ?_
    · rw [leftBy_bind_pure]
      exact related
    · rw [bind_apply, bind_apply, same]
      cases x s <;> rfl
  | apart last why ended =>
    refine .apart last ?_ ?_
    · rw [leftBy_bind_pure]
      exact why
    · rw [bind_apply, ended]

theorem finish_left (s : Session) (source : SourceId) (run : Run Scan) :
    (leftBy (finish s source run)).diagnostics = run.host.diagnostics := by
  cases hd : run.host.diagnostics.hasErrors with
  | true => rw [finish_fatal s source hd]; rfl
  | false => rw [finish_ok s source hd]; rfl

/-- The end of a unit, where the diagnostics are looked at. -/
theorem finish_beside (errors : ErrorsAgree R Apart) (d : Diagnostics) (source : SourceId)
    {run : Run Scan} (h : R run.host.diagnostics e) :
    Beside R Apart (finish s source run) (finish (s.under d) source (run.under e)) := by
  rcases errors run.host.diagnostics e h with hagree | ⟨hfatal, hapart⟩
  · cases hd : run.host.diagnostics.hasErrors with
    | true =>
      have he : (run.under e).host.diagnostics.hasErrors = true := hagree.trans hd
      rw [finish_fatal s source hd, finish_fatal (s.under d) source he]
      exact .together e h rfl
    | false =>
      have he : (run.under e).host.diagnostics.hasErrors = false := hagree.trans hd
      rw [finish_ok s source hd, finish_ok (s.under d) source he]
      exact .together e h rfl
  · have he : (run.under e).host.diagnostics.hasErrors = true := hfatal
    rw [finish_fatal (s.under d) source he]
    refine .apart _ ?_ rfl
    rw [finish_left]
    exact hapart

theorem runUnit_failed {source : SourceId} {run : Run Scan} {err : ScanError}
    (h : process fs settings source (Pipeline.begin settings s) = .error err run) :
    runUnit fs settings source s = .error .fatal
      ((keep s run).under (run.host.diagnostics.report (diagnose run.host err))) := by
  simp only [runUnit, bind_apply, get_apply, h]
  rfl

theorem runUnit_beside (tell : Telling R) (errors : ErrorsAgree R Apart)
    (h : R s.diagnostics e) (source : SourceId) :
    Beside R Apart (runUnit fs settings source s) (runUnit fs settings source (s.under e)) := by
  have halike : SeenAlike R (process fs settings source (Pipeline.begin settings s))
      (process fs settings source (Pipeline.begin settings (s.under e))) :=
    process_blind tell settings source (Pipeline.begin settings s) e h
  generalize hscan : process fs settings source (Pipeline.begin settings s) = r at halike
  generalize hscan' : process fs settings source (Pipeline.begin settings (s.under e)) = r'
    at halike
  cases halike with
  | ok _ h =>
    rw [runUnit_ok fs settings hscan, runUnit_ok fs settings hscan']
    exact finish_beside errors e source h
  | error err h =>
    rw [runUnit_failed hscan, runUnit_failed hscan']
    exact .together _ (tell.report h _ rfl) rfl

/-- **The step lemma**: one input. -/
theorem runInput_beside (tell : Telling R) (errors : ErrorsAgree R Apart)
    (h : R s.diagnostics e) (p : Path) :
    Beside R Apart (runInput fs settings p s) (runInput fs settings p (s.under e)) := by
  cases hload : s.sources.loadPath fs p with
  | error err =>
    have hload' : (s.under e).sources.loadPath fs p = .error err := hload
    rw [runInput_unopenable hload, runInput_unopenable hload']
    exact .together e h rfl
  | ok pair =>
    have hload' : (s.under e).sources.loadPath fs p = .ok pair := hload
    rw [runInput_opened hload, runInput_opened hload']
    have hopened : R { s with sources := pair.2 }.diagnostics e := h
    exact runUnit_beside tell errors hopened pair.1

/-- **The run lemma**: any inputs. The reason for which the second run failed alone is still
there when the first one ends. -/
theorem runInputs_beside (tell : Telling R) (errors : ErrorsAgree R Apart)
    (stays : ∀ inputs s, Apart s.diagnostics →
      Apart (leftBy (runInputs fs settings inputs s)).diagnostics)
    (h : R s.diagnostics e) (inputs : List Path) :
    Beside R Apart (runInputs fs settings inputs s)
      (runInputs fs settings inputs (s.under e)) := by
  induction inputs generalizing s e with
  | nil => exact .together e h rfl
  | cons p rest ih =>
    cases runInput_beside tell errors h p with
    | together d related same =>
      cases hunit : runInput fs settings p s with
      | error err last =>
        rw [hunit] at related same
        rw [runInputs_fails hunit, runInputs_fails same]
        exact .together d related rfl
      | ok unit after =>
        rw [hunit] at related same
        rw [runInputs_cons, bind_apply, hunit, runInputs_cons, bind_apply, same]
        exact (ih related).map (unit :: ·)
    | apart last why ended =>
      rw [runInputs_fails ended]
      refine .apart last ?_ rfl
      cases hunit : runInput fs settings p s with
      | error err last' =>
        rw [hunit] at why
        rw [runInputs_fails hunit]
        exact why
      | ok unit after =>
        rw [hunit] at why
        rw [(runInputs_goes_on rest hunit).2]
        exact stays rest after why

end

end Pipeline

/-! ### Warnings off, and warnings as errors -/

/-- A diagnostic where warnings are errors. -/
def Diagnostic.raised (d : Diagnostic) : Diagnostic :=
  { d with severity := if d.severity = .warning then .error else d.severity }

theorem Diagnostic.raised_eq {d : Diagnostic} (h : d.severity ≠ .warning) : d.raised = d := by
  rw [raised, if_neg h]

namespace Diagnostics

def hasWarnings (d : Diagnostics) : Bool := d.told.any (·.severity = .warning)

/-- Warnings are told as they are. -/
def Plain (d : Diagnostics) : Prop := d.warningsAreErrors = false ∧ d.warningsOff = false

/-- What is told under no options, and with warnings off. -/
structure Quiet (d e : Diagnostics) : Prop where
  plain : d.Plain
  off : e.warningsOff = true
  told : e.told = d.told.filter (·.severity ≠ .warning)

/-- What is told under no options, and with warnings as errors. -/
structure Strict (d e : Diagnostics) : Prop where
  plain : d.Plain
  areErrors : e.warningsAreErrors = true
  on : e.warningsOff = false
  told : e.told = d.told.map Diagnostic.raised

section
variable {d e : Diagnostics}

theorem Plain.warn_eq (h : d.Plain) (message : String) (location : Option Location) :
    d.warn message location = d.report { severity := .warning, message, location } := by
  simp [warn, h.1, h.2]

theorem quiet_telling : Telling Quiet where
  warn h message location := by
    rw [h.plain.warn_eq]
    refine ⟨h.plain, ?_, ?_⟩
    · simp [warn, h.off]
    · simp [warn, h.off, h.told, report]
  report h diagnostic hseverity := by
    refine ⟨h.plain, h.off, ?_⟩
    simp [report, h.told, hseverity]

theorem strict_telling : Telling Strict where
  warn h message location := by
    rw [h.plain.warn_eq]
    refine ⟨h.plain, ?_, ?_, ?_⟩
    · simp [warn, h.on, report, h.areErrors]
    · simp [warn, h.on, report]
    · simp [warn, h.on, h.areErrors, h.told, report, Diagnostic.raised]
  report h diagnostic hseverity := by
    refine ⟨h.plain, h.areErrors, h.on, ?_⟩
    have hraised : diagnostic.raised = diagnostic := Diagnostic.raised_eq (by simp [hseverity])
    simp [report, h.told, hraised]

theorem Quiet.hasErrors_eq (h : Quiet d e) : e.hasErrors = d.hasErrors := by
  rw [hasErrors, h.told, Array.any_filter, hasErrors]
  congr 1
  funext x
  cases x.severity <;> rfl

theorem Strict.hasErrors_eq (h : Strict d e) : e.hasErrors = (d.hasErrors || d.hasWarnings) := by
  rw [Bool.eq_iff_iff, hasErrors, h.told, Array.any_map, Bool.or_eq_true, hasErrors, hasWarnings,
    Array.any_eq_true', Array.any_eq_true', Array.any_eq_true', ← exists_or]
  refine exists_congr fun x => ?_
  cases hx : x.severity <;> simp [Diagnostic.raised, hx]

/-- A warning that has been told stays told. -/
theorem hasWarnings_report (h : d.hasWarnings = true) (diagnostic : Diagnostic) :
    (d.report diagnostic).hasWarnings = true := by
  simp only [hasWarnings, report, Array.any_push] at h ⊢
  rw [h, Bool.true_or]

theorem hasWarnings_telling : Telling fun d e => d.hasWarnings = true ∧ e = d where
  warn := by
    rintro d e ⟨h, rfl⟩ message location
    refine ⟨?_, rfl⟩
    unfold warn
    split
    · exact h
    · exact hasWarnings_report h _
  report := by
    rintro d e ⟨h, rfl⟩ diagnostic _
    exact ⟨hasWarnings_report h diagnostic, rfl⟩

end

end Diagnostics

namespace Pipeline
variable {fs : FileSystem} {settings : Settings} {s : Session}

theorem runInputs_hasWarnings (inputs : List Path) (h : s.diagnostics.hasWarnings = true) :
    (leftBy (runInputs fs settings inputs s)).diagnostics.hasWarnings = true := by
  -- The run is put beside itself, which leaves what holds of its diagnostics alone.
  have hbeside : Beside (fun d e => d.hasWarnings = true ∧ e = d) (fun _ => False)
      (runInputs fs settings inputs s) (runInputs fs settings inputs (s.under s.diagnostics)) :=
    runInputs_beside Diagnostics.hasWarnings_telling (fun d e h => .inl (by rw [h.2]))
      (fun _ _ => id) ⟨h, rfl⟩ inputs
  cases hbeside with
  | together e related same => exact related.1
  | apart last why ended => exact why.elim

/-- No errors have been told by the end of an input that goes well. -/
theorem runInput_hasErrors {p : Path} {unit : UnitOutput} {after : Session}
    (h : runInput fs settings p s = .ok unit after) : after.diagnostics.hasErrors = false := by
  cases hload : s.sources.loadPath fs p with
  | error e =>
    rw [runInput_unopenable hload] at h
    cases h
  | ok pair =>
    rw [runInput_opened hload] at h
    cases hscan : process fs settings pair.1
        (Pipeline.begin settings { s with sources := pair.2 }) with
    | error err run =>
      rw [runUnit_failed hscan] at h
      cases h
    | ok _ run =>
      rw [runUnit_ok fs settings hscan] at h
      cases hd : run.host.diagnostics.hasErrors with
      | true =>
        rw [finish_fatal _ _ hd] at h
        cases h
      | false =>
        rw [finish_ok _ _ hd] at h
        cases h
        exact hd

theorem runInputs_hasErrors {inputs : List Path} {units : List UnitOutput} {last : Session}
    (h : runInputs fs settings inputs s = .ok units last)
    (hnone : s.diagnostics.hasErrors = false) : last.diagnostics.hasErrors = false := by
  induction inputs generalizing s units with
  | nil =>
    cases h
    exact hnone
  | cons p rest ih =>
    obtain ⟨unit, after, others, hunit, hothers⟩ := runInputs_cons_ok h
    exact ih hothers (runInput_hasErrors hunit)

variable (fs settings)

/-- With warnings off, nothing is different but that they are not told. -/
theorem runInputs_quiet {e : Diagnostics} (h : s.diagnostics.Quiet e) (inputs : List Path) :
    ∃ d, (leftBy (runInputs fs settings inputs s)).diagnostics.Quiet d ∧
      runInputs fs settings inputs (s.under e) =
        mapState (·.under d) (runInputs fs settings inputs s) := by
  have hbeside : Beside Diagnostics.Quiet (fun _ => False) (runInputs fs settings inputs s)
      (runInputs fs settings inputs (s.under e)) :=
    runInputs_beside Diagnostics.quiet_telling (fun d e h => .inl h.hasErrors_eq) (fun _ _ => id)
      h inputs
  cases hbeside with
  | together d related same => exact ⟨d, related, same⟩
  | apart last why ended => exact why.elim

/-- With warnings as errors, a run goes well just if it goes well without one. -/
theorem runInputs_strict {e : Diagnostics} (h : s.diagnostics.Strict e)
    (hnone : e.hasErrors = false) (inputs : List Path) (units : List UnitOutput) :
    outcome (runInputs fs settings inputs (s.under e)) = .ok units ↔
      outcome (runInputs fs settings inputs s) = .ok units ∧
        (leftBy (runInputs fs settings inputs s)).diagnostics.hasWarnings = false := by
  have herrors : ErrorsAgree Diagnostics.Strict (·.hasWarnings = true) := by
    intro d e h
    rw [h.hasErrors_eq]
    cases hd : d.hasWarnings with
    | true => exact .inr ⟨Bool.or_true _, hd⟩
    | false => exact .inl (Bool.or_false _)
  have hbeside : Beside Diagnostics.Strict (·.hasWarnings = true) (runInputs fs settings inputs s)
      (runInputs fs settings inputs (s.under e)) :=
    runInputs_beside Diagnostics.strict_telling herrors
      (fun inputs _ => runInputs_hasWarnings inputs) h inputs
  cases hbeside with
  | together d related same =>
    cases hplain : runInputs fs settings inputs s with
    | error err last =>
      rw [same, hplain]
      exact ⟨nofun, fun h => nomatch h.1⟩
    | ok units' last =>
      rw [hplain] at related same
      have hd : d.hasErrors = false := runInputs_hasErrors same hnone
      rw [related.hasErrors_eq, Bool.or_eq_false_iff] at hd
      rw [same]
      exact ⟨fun h => ⟨h, hd.2⟩, fun h => h.1⟩
  | apart last why ended =>
    rw [ended, why]
    exact ⟨nofun, fun h => nomatch h.2⟩

end Pipeline

/-- The session in which the inputs are run. -/
def Session.start (options : List Text) : Session := { diagnostics := .ofOptions options }

theorem contains_eq_false {options : List Text} {option : Text} (h : option ∉ options) :
    options.contains option = false := by
  simpa using h

/-- **What warning options do to a run**, compared with the run under none. With warnings off,
it comes to the same, and the same is told but for the warnings. With warnings as errors, it
goes well just if the plain run goes well and tells no warning, and then with the same units.
Other options do nothing. -/
theorem run_under_warning_options (fs : FileSystem) (config : Config) :
    let plain := Pipeline.run fs config.settings (.ofConfig { config with warnings := [] })
    let result := Pipeline.run fs config.settings (.ofConfig config)
    ("no-warnings".toList ∈ config.warnings →
      outcome result = outcome plain ∧
      (leftBy result).diagnostics.told =
        (leftBy plain).diagnostics.told.filter (·.severity ≠ .warning) ∧
      leftBy result = (leftBy plain).under (leftBy result).diagnostics) ∧
    ("error".toList ∈ config.warnings → "no-warnings".toList ∉ config.warnings →
      ∀ units, outcome result = .ok units ↔
        outcome plain = .ok units ∧ (leftBy plain).diagnostics.hasWarnings = false) ∧
    ("error".toList ∉ config.warnings → "no-warnings".toList ∉ config.warnings →
      result = plain) := by
  intro plain result
  have hplain : (Diagnostics.ofOptions []).Plain := ⟨rfl, rfl⟩
  refine ⟨?_, ?_, ?_⟩
  · intro hoff
    have hquiet : (Session.start []).diagnostics.Quiet (.ofOptions config.warnings) :=
      ⟨hplain, List.contains_iff_mem.mpr hoff, rfl⟩
    obtain ⟨d, hd, hresult⟩ := Pipeline.runInputs_quiet fs config.settings hquiet config.inputs
    have hsame : result = mapState (·.under d) plain := hresult
    rw [hsame, outcome_mapState, leftBy_mapState]
    exact ⟨rfl, hd.told, rfl⟩
  · intro herror hon units
    have hstrict : (Session.start []).diagnostics.Strict (.ofOptions config.warnings) :=
      ⟨hplain, List.contains_iff_mem.mpr herror, contains_eq_false hon, Array.map_empty.symm⟩
    have hnone : (Diagnostics.ofOptions config.warnings).hasErrors = false := Array.any_empty
    exact Pipeline.runInputs_strict fs config.settings hstrict hnone config.inputs units
  · intro herror hon
    have hoptions : Diagnostics.ofOptions config.warnings = .ofOptions [] := by
      rw [Diagnostics.ofOptions, contains_eq_false herror, contains_eq_false hon]
      rfl
    show Pipeline.runInputs fs config.settings config.inputs (.start config.warnings) = plain
    rw [Session.start, hoptions]
    rfl

/-- The first file has something to warn of, twice. -/
def warningDisk : FileSystem where
  entries := [(["a.c".toList], .file 1), (["b.c".toList], .file 2)]
  contents :=
    [(1, "#define A 1\n#define A 2\n#warning old\na\n".toList.map (·.toNat.toUInt8)),
      (2, "b\n".toList.map (·.toNat.toUInt8))]

def warningConfig (warnings : List String) : Config where
  inputs := [.ofString "/a.c", .ofString "/b.c"]
  warnings := warnings.map (·.toList)

/-- The plain run goes through both files with two warnings. So does a run with warnings off,
and the run with warnings as errors does not. -/
theorem warningConfig_run :
    let run (warnings : List String) :=
      Pipeline.run warningDisk {} (.ofConfig (warningConfig warnings))
    (outcome (run [])).toOption.map (·.map (·.text)) = some ["a\n".toList, "b\n".toList] ∧
      (leftBy (run [])).diagnostics.told.map (·.severity) = #[.warning, .warning] ∧
      outcome (run ["error", "no-warnings"]) = outcome (run []) ∧
      (leftBy (run ["error", "no-warnings"])).diagnostics.told =
        (leftBy (run [])).diagnostics.told.filter (·.severity ≠ .warning) ∧
      (∀ units, outcome (run ["error"]) ≠ .ok units) ∧
      run ["all"] = run [] := by
  have hwarnings : (leftBy (Pipeline.run warningDisk {}
      (.ofConfig (warningConfig [])))).diagnostics.hasWarnings = true := by decide +kernel
  obtain ⟨hoff, _, _⟩ :=
    run_under_warning_options warningDisk (warningConfig ["error", "no-warnings"])
  obtain ⟨_, hstrict, _⟩ := run_under_warning_options warningDisk (warningConfig ["error"])
  obtain ⟨_, _, hother⟩ := run_under_warning_options warningDisk (warningConfig ["all"])
  obtain ⟨hsame, htold, _⟩ := hoff (by decide)
  refine ⟨by decide +kernel, by decide +kernel, hsame, ?_, ?_, hother (by decide) (by decide)⟩
  · -- The two runs are compared as they are written, and not carried out for it.
    simp only [warningConfig, List.map_nil] at htold ⊢
    exact htold
  · intro units hok
    have hnone := ((hstrict (by decide) (by decide) units).mp hok).2
    cases hwarnings.symm.trans hnone

end IncludeOnce
