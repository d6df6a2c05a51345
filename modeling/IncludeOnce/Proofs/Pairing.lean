import IncludeOnce.Proofs.Course
import IncludeOnce.Proofs.Effects
import IncludeOnce.Proofs.Spelling

/-! Two scans at once.

To compare two scans is to say which states have come equally far, and that every change to
the one state keeps it up with the same change to the other. `Pairing` lists the changes:
what a line may change by itself, how files are opened and left, how requests go into the
trace, and how files are read. The scans may number their files differently and ask for
headers under different names, as far as the pairing allows.

All that a scan does is made of these changes. So a line that asks for nothing ends the same
in both (`step_paired`), a request comes to the same (`Refused.paired`, `Opens.paired`), and
two whole scans come to the same end in states that have come equally far (`Course.paired`,
`process_paired`). -/
namespace IncludeOnce
open Scan

/-! ### Pairings -/

/-- A file cannot be read for either scanner, for the same reason; or it is read for both, with
lines that are the same but for the names of headers. -/
inductive LoadsBoth (place : Location → Location → Prop) (name : HeaderName → HeaderName → Prop)
    (host : Scan → Scan → Prop) (s t : Scan) :
    Except IoError (SourceId × Sources) → Except IoError (SourceId × Sources) → Prop
  | error (e : IoError) : LoadsBoth place name host s t (.error e) (.error e)
  | ok {id id' : SourceId} {sources sources' : Sources} {file file' : SourceFile}
    (hplace : ∀ n, place ⟨id, n⟩ ⟨id', n⟩)
    (hhost : host { s with sources } { t with sources := sources' })
    (hfile : sources.file? id = some file) (hfile' : sources'.file? id' = some file')
    (hlines : List.Forall₂ (Numbered.Respelt name) (Line.ofText file.text)
      (Line.ofText file'.text)) :
    LoadsBoth place name host s t (.ok (id, sources)) (.ok (id', sources'))

/-- A relation between the scanners of two disks that every change keeps up, as long as only
certain files are read. -/
structure Pairing (fs gs : FileSystem) (settings : Settings) (reads : Identity → Prop) where
  /-- Places that stand for each other. -/
  place : Location → Location → Prop
  /-- Names of headers that stand for each other, seen from a file. -/
  name : Identity → HeaderName → HeaderName → Prop
  /-- Scanners that have come equally far. -/
  host : Scan → Scan → Prop
  name_refl : ∀ file h, name file h h
  resolve : ∀ {file h h'}, name file h h' →
    settings.search.resolve gs h' file.directory = settings.search.resolve fs h file.directory
  macros : ∀ {s t}, host s t → t.macros = s.macros
  depth : ∀ {s t}, host s t → t.stack.length = s.stack.length
  slots : ∀ {s t}, host s t → t.events.size = s.events.size
  setMacros : ∀ {s t}, host s t → ∀ macros, host { s with macros } { t with macros }
  write : ∀ {s t}, host s t → ∀ line, host (s.write line) (t.write line)
  warn : ∀ {s t}, host s t → ∀ message {a b}, place a b → host (s.warn message a) (t.warn message b)
  setSite : ∀ {s t}, host s t → ∀ {a b}, place a b →
    host { s with requestSite := some a } { t with requestSite := some b }
  push : ∀ {s t}, host s t → ∀ file {a b}, Option.Rel place a b →
    host (s.push file a) (t.push file b)
  pop : ∀ {s t}, host s t → host s.pop t.pop
  fail : ∀ {s t}, host s t → ∀ {a b}, place a b → host (s.fail a) (t.fail b)
  reserve : ∀ {s t}, host s t → ∀ depth kind {file h h'}, name file h h' →
    host (s.reserve depth ⟨kind, h⟩) (t.reserve depth ⟨kind, h'⟩)
  fill : ∀ {s t}, host s t → ∀ slot result, host (s.fill slot result) (t.fill slot result)
  load : ∀ {s t}, host s t → ∀ {header beside f},
    settings.search.resolve fs header beside = .ok f → reads f →
      LoadsBoth place (name f) host s t (s.sources.load fs f) (t.sources.load gs f)

section
variable {fs gs : FileSystem} {settings : Settings} {reads : Identity → Prop}
  (p : Pairing fs gs settings reads)

/-- States that have come equally far. -/
structure Pairing.Paired (run twin : Run Scan) : Prop where
  ledger : twin.ledger = run.ledger
  host : p.host run.host twin.host

/-- Two scans end the same, in states that have come equally far. -/
inductive Pairing.Ends {α β : Type} (R : α → β → Prop) :
    EStateM.Result ScanError (Run Scan) α → EStateM.Result ScanError (Run Scan) β → Prop
  | ok {a : α} {b : β} {run twin : Run Scan} (hvalue : R a b) (hleft : p.Paired run twin) :
    Ends R (.ok a run) (.ok b twin)
  | error (e : ScanError) {run twin : Run Scan} (hleft : p.Paired run twin) :
    Ends R (.error e run) (.error e twin)

end

section
variable {fs gs : FileSystem} {settings : Settings} {reads : Identity → Prop}
  {p : Pairing fs gs settings reads} {α β : Type} {R : α → β → Prop}
  {r : EStateM.Result ScanError (Run Scan) α} {u : EStateM.Result ScanError (Run Scan) β}

namespace Pairing.Ends

theorem eq_ok (h : p.Ends R r u) {a : α} {run : Run Scan} (hr : r = .ok a run) :
    ∃ b twin, u = .ok b twin ∧ R a b ∧ p.Paired run twin := by
  cases h with
  | ok hvalue hleft =>
    cases hr
    exact ⟨_, _, rfl, hvalue, hleft⟩
  | error e hleft => cases hr

theorem eq_error (h : p.Ends R r u) {e : ScanError} {run : Run Scan} (hr : r = .error e run) :
    ∃ twin, u = .error e twin ∧ p.Paired run twin := by
  cases h with
  | ok hvalue hleft => cases hr
  | error e hleft =>
    cases hr
    exact ⟨_, rfl, hleft⟩

theorem left (h : p.Ends R r u) : p.Paired (leftBy r) (leftBy u) := by
  cases h with
  | ok hvalue hleft => exact hleft
  | error e hleft => exact hleft

end Pairing.Ends

theorem Pairing.Ends.outcome {r u : EStateM.Result ScanError (Run Scan) α}
    (h : p.Ends Eq r u) : outcome u = outcome r := by
  cases h with
  | ok hvalue hleft => exact congrArg Except.ok hvalue.symm
  | error e hleft => rfl

end

/-! ### States of files -/

/-- Sections that differ in the lines that opened them. -/
inductive Section.Paired (place : Location → Location → Prop) : Section → Section → Prop
  | mk {a b : Location} (hplace : place a b) (wasSkipping sawElse taken : Bool) :
    Section.Paired place ⟨a, wasSkipping, sawElse, taken⟩ ⟨b, wasSkipping, sawElse, taken⟩

/-- States of a file that differ in where its open sections were opened. -/
inductive FileState.Paired (place : Location → Location → Prop) : FileState → FileState → Prop
  | mk {sections sections' : List Section}
    (hsections : List.Forall₂ (Section.Paired place) sections sections')
    (skipping declaredOnce : Bool) (shape : GuardShape) :
    FileState.Paired place ⟨sections, skipping, declaredOnce, shape⟩
      ⟨sections', skipping, declaredOnce, shape⟩

/-- The same failure, or values that fit. -/
inductive SameEnding {α : Type} (R : α → α → Prop) :
    Except ScanError α → Except ScanError α → Prop
  | ok {a b : α} (h : R a b) : SameEnding R (.ok a) (.ok b)
  | error (e : ScanError) : SameEnding R (.error e) (.error e)

theorem SameEnding.map {α β : Type} {R : β → β → Prop} (x : Except ScanError α) {f g : α → β}
    (h : ∀ a, R (f a) (g a)) : SameEnding R (x.map f) (x.map g) := by
  cases x with
  | error e => exact .error e
  | ok a => exact .ok (h a)

namespace FileState.Paired
variable {place : Location → Location → Prop} {st st' : FileState}

theorem new : FileState.Paired place {} {} := .mk .nil _ _ _

theorem skipping (h : st.Paired place st') : st'.skipping = st.skipping := by
  cases h
  rfl

theorem asked? (h : st.Paired place st') (line : Line) : line.asked? st' = line.asked? st := by
  unfold Line.asked?
  rw [h.skipping]

/-- What becomes of the shape is the same for both. -/
theorem setShape (h : st.Paired place st') (f : GuardShape → GuardShape) :
    FileState.Paired place { st with shape := f st.shape } { st' with shape := f st'.shape } := by
  obtain ⟨hsections, skipping, declaredOnce, shape⟩ := h
  exact .mk hsections skipping declaredOnce (f shape)

theorem asked (h : st.Paired place st') (kind : RequestKind) (operand : Text) :
    (st.asked kind operand).Paired place (st'.asked kind operand) :=
  h.setShape _

theorem declare (h : st.Paired place st') (declares : Bool) :
    FileState.Paired place { st with declaredOnce := st.declaredOnce || declares }
      { st' with declaredOnce := st'.declaredOnce || declares } := by
  obtain ⟨hsections, skipping, declaredOnce, shape⟩ := h
  exact .mk hsections skipping (declaredOnce || declares) shape

theorem openSection (h : st.Paired place st') {a b : Location} (hplace : place a b)
    (condition : Bool) :
    (st.openSection condition a).Paired place (st'.openSection condition b) := by
  obtain ⟨hsections, skipping, declaredOnce, shape⟩ := h
  exact .mk (.cons (.mk hplace _ _ _) hsections) _ _ _

/-- The shape looks only at whether there are sections around. -/
theorem branchShape (h : st.Paired place st') {outer outer' : List Section}
    (houter : List.Forall₂ (Section.Paired place) outer outer') :
    st'.branchShape outer' = st.branchShape outer := by
  cases h
  cases houter with
  | nil => rfl
  | cons => rfl

theorem elseIf (h : st.Paired place st') (condition : Unit → Except ScanError Bool) :
    SameEnding (FileState.Paired place) (st.elseIf condition) (st'.elseIf condition) := by
  obtain ⟨hsections, skipping, declaredOnce, shape⟩ := h
  cases hsections with
  | nil => exact .error _
  | @cons s s' outer outer' hs houter =>
    have hshape := branchShape (.mk (.cons hs houter) skipping declaredOnce shape) houter
    obtain ⟨hplace, wasSkipping, sawElse, taken⟩ := hs
    simp only [FileState.elseIf, FileState.branchable]
    cases sawElse with
    | true => exact .error _
    | false =>
      cases taken with
      | true => exact .ok (hshape ▸ .mk (.cons (.mk hplace _ _ _) houter) _ _ _)
      | false =>
        cases condition () with
        | error e => exact .error e
        | ok active => exact .ok (hshape ▸ .mk (.cons (.mk hplace _ _ _) houter) _ _ _)

theorem otherwise (h : st.Paired place st') :
    SameEnding (FileState.Paired place) st.otherwise st'.otherwise := by
  obtain ⟨hsections, skipping, declaredOnce, shape⟩ := h
  cases hsections with
  | nil => exact .error _
  | @cons s s' outer outer' hs houter =>
    have hshape := branchShape (.mk (.cons hs houter) skipping declaredOnce shape) houter
    obtain ⟨hplace, wasSkipping, sawElse, taken⟩ := hs
    simp only [FileState.otherwise, FileState.branchable]
    cases sawElse with
    | true => exact .error _
    | false => exact .ok (hshape ▸ .mk (.cons (.mk hplace _ _ _) houter) _ _ _)

theorem closeSection (h : st.Paired place st') :
    SameEnding (FileState.Paired place) st.closeSection st'.closeSection := by
  obtain ⟨hsections, skipping, declaredOnce, shape⟩ := h
  cases hsections with
  | nil => exact .error _
  | cons hs houter =>
    obtain ⟨hplace, wasSkipping, sawElse, taken⟩ := hs
    cases houter with
    | nil => exact .ok (.mk .nil _ _ _)
    | cons hs houter => exact .ok (.mk (.cons hs houter) _ _ _)

end FileState.Paired

/-- A line leaves the state of its file the same, wherever the file is. -/
theorem Line.ending_paired {place : Location → Location → Prop} {st st' : FileState}
    (h : st.Paired place st') {a b : Location} (hplace : place a b) (macros : Macros)
    (line : Line) :
    SameEnding (FileState.Paired place) (line.ending macros a st) (line.ending macros b st') := by
  have hshape := h.setShape (·.onDirective line)
  cases line with
  | text content =>
    simp only [Line.ending]
    split
    · exact .ok h
    · exact .ok (h.setShape (·.onText))
  | marker => exact .ok h
  | unknown name =>
    rw [Line.ending, Line.ending, h.skipping]
    split
    · exact .ok h
    · exact .error _
  | command c =>
    rw [Line.ending, Line.ending]
    by_cases hdead : st.skipping = true
    · rw [if_pos hdead, if_pos (h.skipping.trans hdead)]
      exact .ok hshape
    · rw [if_neg hdead, if_neg (h.skipping ▸ hdead)]
      exact .map _ hshape.declare
  | opening t =>
    have htest : test macros st'.skipping t = test macros st.skipping t := by rw [h.skipping]
    rw [Line.ending, Line.ending, htest]
    exact .map _ (hshape.openSection hplace)
  | elseIf operand => exact hshape.elseIf fun _ => condition macros operand
  | otherwise => exact hshape.otherwise
  | closing => exact hshape.closeSection

/-! ### Lines under other names -/

/-- An operand is read as another is, but for a name that stands for it. -/
def Reread (same : HeaderName → HeaderName → Prop) (operand operand' : Text) : Prop :=
  Option.Rel (fun a b => same a.1 b.1 ∧ b.2 = a.2) (HeaderName.read operand)
    (HeaderName.read operand')

section
variable {same : HeaderName → HeaderName → Prop} {operand operand' trailing : Text}
  {header : HeaderName} (h : Reread same operand operand')
include h

theorem Reread.none (hread : HeaderName.read operand = none) :
    HeaderName.read operand' = none := by
  rw [Reread, hread] at h
  generalize HeaderName.read operand' = other at h
  cases h
  rfl

theorem Reread.some (hread : HeaderName.read operand = some (header, trailing)) :
    ∃ header', HeaderName.read operand' = some (header', trailing) ∧ same header header' := by
  rw [Reread, hread] at h
  generalize HeaderName.read operand' = other at h
  cases h with
  | some hpair =>
    obtain ⟨hsame, rfl⟩ := hpair
    exact ⟨_, rfl, hsame⟩

end

/-- The shape of a file does not depend on what a line asks for. -/
theorem FileState.asked_operand (st : FileState) (kind : RequestKind) (operand operand' : Text) :
    st.asked kind operand' = st.asked kind operand := by
  have hshape : st.shape.onDirective (.command (.request kind operand')) =
      st.shape.onDirective (.command (.request kind operand)) := by
    cases st.shape <;> rfl
  rw [FileState.asked, FileState.asked, hshape]

namespace Line.Respelt
variable {same : HeaderName → HeaderName → Prop} {line line' : Line} (h : line.Respelt same line')
  {st : FileState}
include h

/-- A line that asks for nothing is the same, or a request in text that is skipped. -/
theorem unasked (hasked : line.asked? st = none) (macros : Macros) (file : Identity)
    (location : Location) :
    line'.asked? st = none ∧ line'.ending macros location st = line.ending macros location st ∧
      line'.effect file macros st.skipping = line.effect file macros st.skipping := by
  cases h with
  | refl => exact ⟨hasked, rfl, rfl⟩
  | @request h h' kind hs hs' hsame =>
    have hdead : st.skipping = true := by
      cases hs : st.skipping with
      | true => rfl
      | false => simp [Line.asked?, hs] at hasked
    refine ⟨by simp [Line.asked?, hdead], ?_, ?_⟩
    · rw [Line.ending, Line.ending, if_pos hdead, if_pos hdead]
      exact congrArg Except.ok (st.asked_operand kind h.text h'.text)
    · simp only [Line.effect, hdead, if_true]

theorem asked (hrefl : ∀ x, same x x) {kind : RequestKind} {operand : Text}
    (hasked : line.asked? st = some (kind, operand)) :
    ∃ operand', line'.asked? st = some (kind, operand') ∧ Reread same operand operand' := by
  cases h with
  | refl =>
    refine ⟨operand, hasked, ?_⟩
    unfold Reread
    cases HeaderName.read operand with
    | none => exact .none
    | some pair => exact .some ⟨hrefl pair.1, rfl⟩
  | @request h h' kind hs hs' hsame =>
    obtain ⟨hlive, hline⟩ := Line.asked?_eq_some hasked
    cases hline
    refine ⟨h'.text, by rw [Line.asked?, hlive]; rfl, ?_⟩
    rw [Reread, hs.read_text, hs'.read_text]
    exact .some ⟨hsame, rfl⟩

end Line.Respelt

/-- A line that asks for a header asks for it in the same place. -/
theorem Numbered.Respelt.asked {same : HeaderName → HeaderName → Prop}
    {line line' : Numbered Line} (h : line.Respelt same line') (hrefl : ∀ x, same x x)
    {st : FileState} {kind : RequestKind} {operand : Text}
    (hasked : line.content.asked? st = some (kind, operand)) :
    line'.line = line.line ∧ ∃ operand', line'.content.asked? st = some (kind, operand') ∧
      Reread same operand operand' := by
  obtain ⟨number, h⟩ := h
  exact ⟨rfl, h.asked hrefl hasked⟩

/-! ### Changes to both states -/

section
variable {fs gs : FileSystem} {settings : Settings} {reads : Identity → Prop}
  {p : Pairing fs gs settings reads} {run twin left left' : Run Scan} {file f : Identity}
  {a b : Location} {kind : RequestKind} {header header' : HeaderName} {trailing : Text}

namespace Pairing.Paired

theorem note (h : p.Paired run twin) (entry entry' : Journal.Entry) :
    p.Paired (run.note entry) (twin.note entry') :=
  ⟨h.ledger, h.host⟩

theorem mapLedger (h : p.Paired run twin) (f : Ledger → Ledger) :
    p.Paired (run.mapLedger f) (twin.mapLedger f) :=
  ⟨congrArg f h.ledger, h.host⟩

theorem mapHost (h : p.Paired run twin) {f g : Scan → Scan}
    (hfg : p.host (f run.host) (g twin.host)) : p.Paired (run.mapHost f) (twin.mapHost g) :=
  ⟨h.ledger, hfg⟩

theorem pop (h : p.Paired run twin) : p.Paired (run.mapHost Scan.pop) (twin.mapHost Scan.pop) :=
  h.mapHost (p.pop h.host)

theorem fail (h : p.Paired run twin) (hplace : p.place a b) :
    p.Paired (run.mapHost (·.fail a)) (twin.mapHost (·.fail b)) :=
  h.mapHost (f := (·.fail a)) (g := (·.fail b)) (p.fail h.host hplace)

theorem effect (h : p.Paired run twin) (x : Effect) (file : Identity) (hplace : p.place a b) :
    p.Paired (x.on file a run) (x.on file b twin) := by
  obtain ⟨macros, entry, isOwn, locks, written, warning⟩ := x
  refine ⟨by simp only [Effect.on, h.ledger], ?_⟩
  have hmacros := p.setMacros h.host macros
  have hwritten : p.host
      { run.host with macros, written := written.elim run.host.written run.host.written.push }
      { twin.host with
        macros, written := written.elim twin.host.written twin.host.written.push } := by
    cases written with
    | none => exact hmacros
    | some line => exact p.write hmacros line
  cases warning with
  | none => exact hwritten
  | some message => exact p.warn hwritten message hplace

theorem warned (h : p.Paired run twin) (hplace : p.place a b) (kind : RequestKind)
    (trailing : Text) : p.Paired (warned run a kind trailing) (warned twin b kind trailing) := by
  unfold Scan.warned
  split
  · exact h
  · exact h.mapHost (p.warn h.host _ hplace)

theorem handing (h : p.Paired run twin) (hplace : p.place a b) (kind : RequestKind)
    (hname : p.name file header header') (trailing : Text) :
    p.Paired (handing run a kind header trailing) (handing twin b kind header' trailing) := by
  have hwarned := h.warned hplace kind trailing
  unfold Scan.handing
  rw [p.depth h.host]
  exact hwarned.mapHost (p.reserve (p.setSite hwarned.host hplace) _ kind hname)

theorem decision (h : p.Paired run twin) (f : Identity) : twin.decision f = run.decision f := by
  rw [Run.decision, Run.decision, h.ledger, p.macros h.host]

/-- How a header is spelt does not matter for what is decided. -/
theorem decided (h : p.Paired run twin) :
    p.Paired (run.decided run.host.macros.isDefined ⟨kind, header⟩ f)
      (twin.decided twin.host.macros.isDefined ⟨kind, header'⟩ f) where
  ledger := by
    show (twin.ledger.resolve f kind twin.host.macros.isDefined).2 =
      (run.ledger.resolve f kind run.host.macros.isDefined).2
    rw [h.ledger, p.macros h.host]
  host := h.host

/-- The place of a request in the trace is filled in both, where it was reserved in both. -/
theorem filled (h : p.Paired run twin) (hleft : p.Paired left left') (result : EventResult) :
    p.Paired (traceFilled run.host.events.size result left)
      (traceFilled twin.host.events.size result left') := by
  rw [p.slots h.host]
  exact hleft.mapHost (p.fill hleft.host _ result)

theorem soughtInside (h : p.Paired run twin) (hplace : p.place a b)
    (hname : p.name file header header') :
    p.Paired (soughtInside run file a kind header trailing)
      (soughtInside twin file b kind header' trailing) :=
  (h.handing hplace kind hname trailing).note _ _

theorem droppedInside (h : p.Paired run twin) (hplace : p.place a b)
    (hname : p.name file header header') (reason : SkipReason) :
    p.Paired (droppedInside run file a kind header trailing f reason)
      (droppedInside twin file b kind header' trailing f reason) :=
  h.filled ((h.soughtInside hplace hname).decided.note _ _) _

theorem begunInside (h : p.Paired run twin) (hplace : p.place a b)
    (hname : p.name file header header') :
    p.Paired (begunInside run file a kind header trailing f)
      (begunInside twin file b kind header' trailing f) := by
  have hsought : p.Paired (IncludeOnce.soughtInside run file a kind header trailing)
      (IncludeOnce.soughtInside twin file b kind header' trailing) := h.soughtInside hplace hname
  exact (hsought.decided.note (.processing ⟨kind, header⟩ f)
    (.processing ⟨kind, header'⟩ f)).mapLedger (·.begin f)

theorem mainOpened (h : p.Paired run twin) (file : Identity) :
    p.Paired (run.mainOpened file) (twin.mainOpened file) := by
  have hbegun : p.Paired (run.mainBegun file) (twin.mainBegun file) :=
    (h.note (.mainBegun file) (.mainBegun file)).mapLedger (·.begin file)
  exact hbegun.mapHost (p.push hbegun.host file .none)

end Pairing.Paired

end

/-! ### Requests -/

/-- By the journal, only certain files have been begun to be read. -/
def OnlyReads (reads : Identity → Prop) (journal : Journal) : Prop :=
  ∀ request f, .processing request f ∈ journal.toList → reads f

namespace OnlyReads
variable {reads : Identity → Prop}

theorem earlier {journal longer : Journal} (h : OnlyReads reads longer)
    (hlonger : journal.toList <+: longer.toList) : OnlyReads reads journal :=
  fun request f hmem => h request f (hlonger.subset hmem)

theorem begun {run : Run Scan} {file f : Identity} {location : Location} {kind : RequestKind}
    {header : HeaderName} {trailing : Text}
    (h : OnlyReads reads (begunInside run file location kind header trailing f).journal) :
    reads f := by
  refine h ⟨kind, header⟩ f ?_
  rw [begunInside_journal]
  simp

theorem of_leave {r : EStateM.Result ScanError (Run Scan) FileState}
    (h : OnlyReads reads (leftBy (leave r)).journal) : OnlyReads reads (leftBy r).journal := by
  rw [leave_journal_eq] at h
  exact h

/-- No entry is struck, so a file that has been opened is on the journal in the end. -/
theorem opened {fs : FileSystem} {settings : Settings} {run : Run Scan} {file f : Identity}
    {location : Location} {kind : RequestKind} {header : HeaderName} {trailing : Text}
    {inner : SourceId} {sources : Sources} {st : FileState} {lines : List (Numbered Line)}
    {inside : List (Run Scan)} {r : EStateM.Result ScanError (Run Scan) FileState}
    (h : OnlyReads reads (leftBy r).journal)
    (hcourse : Course fs settings f inner st lines
      (openedInside run file location kind header trailing f sources) inside r) : reads f := by
  have hbegun : OnlyReads reads (begunInside run file location kind header trailing f).journal :=
    h.earlier hcourse.journal
  exact hbegun.begun

end OnlyReads

section
variable {fs gs : FileSystem} {settings : Settings} {reads : Identity → Prop}
  (p : Pairing fs gs settings reads) {run twin left left' : Run Scan} {file f : Identity}
  {a b : Location} {kind : RequestKind} {operand operand' trailing : Text}
  {header : HeaderName} {e : ScanError} {inner : SourceId} {sources : Sources}
  {loaded : SourceFile}

/-- The request of the one scan means the same in the other. -/
theorem Means.paired (h : Means fs settings file operand run header trailing f)
    (ho : Reread (p.name file) operand operand') (hp : p.Paired run twin) :
    ∃ header', Means gs settings file operand' twin header' trailing f ∧
      p.name file header header' := by
  obtain ⟨header', hread', hname⟩ := ho.some h.read
  exact ⟨header', ⟨hread', p.depth hp.host ▸ h.room, (p.resolve hname).trans h.resolve⟩, hname⟩

/-- What is refused here is refused there. -/
theorem Refused.paired (h : Refused fs settings file a kind operand run e left)
    (hreads : OnlyReads reads left.journal) (ho : Reread (p.name file) operand operand')
    (hplace : p.place a b) (hp : p.Paired run twin) :
    ∃ left', Refused gs settings file b kind operand' twin e left' ∧ p.Paired left left' := by
  cases h with
  | malformed hread => exact ⟨_, .malformed (ho.none hread), hp⟩
  | tooDeep hread hdeep =>
    obtain ⟨header', hread', _⟩ := ho.some hread
    rw [← p.depth hp.host] at hdeep ⊢
    exact ⟨_, .tooDeep hread' hdeep, (hp.warned hplace _ _).note _ _⟩
  | unresolved hread hroom hresolve =>
    obtain ⟨header', hread', hname⟩ := ho.some hread
    refine ⟨_, .unresolved hread' (p.depth hp.host ▸ hroom) ((p.resolve hname).trans hresolve), ?_⟩
    exact hp.filled (hp.soughtInside hplace hname) .failed
  | @unreadable header trailing f e hmeans hdecide hload =>
    obtain ⟨header', hmeans', hname⟩ := hmeans.paired p ho hp
    have hdecide' := ((hp.handing hplace kind hname trailing).decision f).trans hdecide
    have hread : reads f :=
      OnlyReads.begun (show OnlyReads reads (begunInside run file a kind header trailing f).journal
        from hreads)
    have hloads := p.load hp.host hmeans.resolve hread
    rw [hload] at hloads
    generalize hload' : twin.host.sources.load gs f = result at hloads
    cases hloads
    refine ⟨_, .unreadable hmeans' hdecide' hload', ?_⟩
    exact hp.filled (hp.begunInside hplace hname) .failed

/-- What is opened here is opened there, with lines that are the same but for the names of
headers. -/
theorem Opens.paired
    (h : Opens fs settings file a kind operand run header trailing f inner sources loaded)
    (hread : reads f) (ho : Reread (p.name file) operand operand') (hplace : p.place a b)
    (hp : p.Paired run twin) :
    ∃ header' inner' sources' loaded',
      Opens gs settings file b kind operand' twin header' trailing f inner' sources' loaded' ∧
      (∀ n, p.place ⟨inner, n⟩ ⟨inner', n⟩) ∧
      List.Forall₂ (Numbered.Respelt (p.name f)) (Line.ofText loaded.text)
        (Line.ofText loaded'.text) ∧
      p.Paired (openedInside run file a kind header trailing f sources)
        (openedInside twin file b kind header' trailing f sources') := by
  obtain ⟨header', hmeans', hname⟩ := h.means.paired p ho hp
  have hdecide' := ((hp.handing hplace kind hname trailing).decision f).trans h.decide
  have hbegun : p.Paired (begunInside run file a kind header trailing f)
      (begunInside twin file b kind header' trailing f) := hp.begunInside hplace hname
  have hloads := p.load hbegun.host h.means.resolve hread
  rw [begunInside_sources, begunInside_sources, h.load] at hloads
  generalize hload' : twin.host.sources.load gs f = result at hloads
  cases hloads with
  | ok hinner hhost hfile hfile' hlines =>
    cases hfile.symm.trans h.found
    refine ⟨header', _, _, _, ⟨hmeans', hdecide', hload', hfile'⟩, hinner, hlines, ?_⟩
    have hloaded := hbegun.mapHost (f := ({ · with sources })) (g := ({ · with sources := _ }))
      hhost
    exact hloaded.mapHost (p.push hloaded.host f (.some hplace))

/-! ### Scans -/

theorem Pairing.Ends.ofExcept {α : Type} {R : α → α → Prop} {x y : Except ScanError α}
    (h : SameEnding R x y) (hp : p.Paired run twin) :
    p.Ends R (ofExcept x run) (ofExcept y twin) := by
  cases h with
  | ok hvalue => exact .ok hvalue hp
  | error e => exact .error e hp

/-- **The step lemma**: a line that asks for nothing ends the same in both scans. -/
theorem step_paired {same : HeaderName → HeaderName → Prop} {line line' : Line}
    {st st' : FileState} (hl : line.Respelt same line') (hasked : line.asked? st = none)
    (hst : st.Paired p.place st') (hplace : p.place a b) (hp : p.Paired run twin)
    (search : HeaderSearch) (reader : Reader) (file : Identity) :
    p.Ends (FileState.Paired p.place) (step fs search none file a st line run)
      (step gs search reader file b st' line' twin) := by
  have hasked' : line.asked? st' = none := (hst.asked? line).trans hasked
  obtain ⟨hunasked, hending, heffect⟩ := hl.unasked hasked' run.host.macros file b
  rw [step_eq _ _ _ _ _ hasked, step_eq _ _ _ _ _ hunasked, p.macros hp.host, hending, heffect,
    hst.skipping]
  exact .ofExcept p (Line.ending_paired hst hplace _ line) (hp.effect _ file hplace)

/-- Files are left the same. -/
theorem Pairing.Ends.leave {r u : EStateM.Result ScanError (Run Scan) FileState}
    (h : p.Ends (FileState.Paired p.place) r u) : p.Ends Eq (leave r) (leave u) := by
  cases h with
  | error e hleft => exact .error e hleft.pop
  | ok hst hleft =>
    obtain ⟨hsections, skipping, declaredOnce, shape⟩ := hst
    cases hsections with
    | nil => exact .ok rfl hleft.pop
    | cons hs houter =>
      obtain ⟨hplace, _, _, _⟩ := hs
      exact .error _ (hleft.fail hplace).pop

/-- A main file is left the same. -/
theorem Pairing.Ends.endMain {r u : EStateM.Result ScanError (Run Scan) Report}
    (h : p.Ends Eq r u) (file : Identity) :
    p.Ends Eq (endMain file r) (endMain file u) := by
  cases h with
  | error e hleft => exact .error e hleft
  | @ok report _ _ _ hvalue hleft =>
    cases hvalue
    exact .ok rfl ((hleft.note (.mainEnded file report) (.mainEnded file report)).mapLedger
      (·.complete file report))

end

/-- **The run lemma**: two scans that begin equally far come to the same end. -/
theorem Course.paired {fs gs : FileSystem} {settings : Settings} {reads : Identity → Prop}
    (p : Pairing fs gs settings reads) {file : Identity} {source source' : SourceId}
    {st st' : FileState} {lines lines' : List (Numbered Line)} {run twin : Run Scan}
    {trail : List (Run Scan)} {r : EStateM.Result ScanError (Run Scan) FileState}
    (h : Course fs settings file source st lines run trail r)
    (hreads : OnlyReads reads (leftBy r).journal) (hst : st.Paired p.place st')
    (hplace : ∀ n, p.place ⟨source, n⟩ ⟨source', n⟩)
    (hlines : List.Forall₂ (Numbered.Respelt (p.name file)) lines lines')
    (hp : p.Paired run twin) :
    p.Ends (FileState.Paired p.place) r
      (scanLines gs settings.search (readerIn gs settings twin) file source' st' lines' twin) := by
  -- Only the first scan has a course here. The second is computed beside it, rule by rule.
  induction h generalizing twin source' st' lines' with
  | done =>
    cases hlines
    exact .ok hst hp
  | @line file source st after line rest run middle trail r hasked hstep hrest ih =>
    obtain _ | ⟨⟨number, hl⟩, hrest'⟩ := hlines
    have hends := step_paired p hl hasked hst (hplace number) hp settings.search
      (readerIn gs settings twin) file
    obtain ⟨after', middle', hstep', hafter, hmiddle⟩ := hends.eq_ok hstep
    have hasked' := (hl.unasked ((hst.asked? _).trans hasked) {} file ⟨source', number⟩).1
    rw [scanLines_step gs settings.search _ file hstep',
      ← readerIn_congr (step_aside_ok _ _ _ _ _ hasked' hstep').stack]
    exact ih hreads hafter hplace hrest' hmiddle
  | @fails file source st line rest run left e hasked hstep =>
    obtain _ | ⟨⟨number, hl⟩, hrest'⟩ := hlines
    have hends := step_paired p hl hasked hst (hplace number) hp settings.search
      (readerIn gs settings twin) file
    obtain ⟨left', hstep', hleft⟩ := hends.eq_error hstep
    rw [scanLines_fails gs settings.search _ file hstep']
    exact .error e (hleft.fail (hplace number))
  | @refused file source st line rest kind operand run left e hasked hrefused =>
    obtain _ | @⟨_, line', _, rest', hl, hrest'⟩ := hlines
    obtain ⟨hnumber, operand', hasked', ho⟩ :=
      hl.asked (p.name_refl file) ((hst.asked? _).trans hasked)
    have hat : p.place ⟨source, line.line⟩ ⟨source', line'.line⟩ := hnumber ▸ hplace _
    obtain ⟨left', hrefused', hleft⟩ := hrefused.paired p hreads ho hat hp
    rw [scanLines_unanswered gs settings.search _ file hasked' hrefused'.request_eq]
    exact .error e (hleft.fail hat)
  | @dropped file f source st line rest kind operand trailing header reason run trail r hasked
      hmeans hdecide hrest ih =>
    obtain _ | @⟨_, line', _, rest', hl, hrest'⟩ := hlines
    obtain ⟨hnumber, operand', hasked', ho⟩ :=
      hl.asked (p.name_refl file) ((hst.asked? _).trans hasked)
    have hat : p.place ⟨source, line.line⟩ ⟨source', line'.line⟩ := hnumber ▸ hplace _
    obtain ⟨header', hmeans', hname⟩ := hmeans.paired p ho hp
    have hdecide' := ((hp.handing hat kind hname trailing).decision f).trans hdecide
    have hrequest := request_dropped hmeans' hdecide'
    rw [scanLines_answered gs settings.search _ file hasked' hrequest,
      ← readerIn_congr (droppedInside_stack reason), st'.asked_operand kind operand operand']
    exact ih hreads (hst.asked kind operand) hplace hrest'
      (hp.droppedInside hat hname reason)
  | @entered file f source inner st line rest kind operand trailing header sources loaded report
      run left inside trail r r' hasked hopens hinner hleave hrest ihinner ihrest =>
    obtain _ | @⟨_, line', _, rest', hl, hrest'⟩ := hlines
    obtain ⟨hnumber, operand', hasked', ho⟩ :=
      hl.asked (p.name_refl file) ((hst.asked? _).trans hasked)
    have hat : p.place ⟨source, line.line⟩ ⟨source', line'.line⟩ := hnumber ▸ hplace _
    have hreads' : OnlyReads reads (leftBy r').journal := by
      refine .of_leave ?_
      rw [hleave]
      exact hreads.earlier (List.IsPrefix.trans ⟨_, Array.toList_push.symm⟩ hrest.journal)
    obtain ⟨header', inner', sources', loaded', hopens', hplace', hlines, hopened⟩ :=
      hopens.paired p (hreads'.opened hinner) ho hat hp
    have hends := (ihinner hreads' .new hplace' hlines hopened).leave p
    obtain ⟨_, left', hleave', rfl, hleft⟩ := hends.eq_ok hleave
    have hinclude := hopens'.includeFile_eq.trans hleave'
    have hclosed : (finishedInside twin f report left').host.stack = twin.host.stack := by
      have := hopens'.closed
      rw [hinclude] at this
      exact this
    rw [scanLines_answered gs settings.search _ file hasked' (hopens'.request_ok hinclude),
      ← readerIn_congr hclosed, st'.asked_operand kind operand operand']
    exact ihrest hreads (hst.asked kind operand) hplace hrest'
      (hp.filled ((hleft.note _ _).mapLedger _) _)
  | @stopped file f source inner st line rest kind operand trailing header sources loaded e run
      left inside r' hasked hopens hinner hleave ihinner =>
    obtain _ | @⟨_, line', _, rest', hl, hrest'⟩ := hlines
    obtain ⟨hnumber, operand', hasked', ho⟩ :=
      hl.asked (p.name_refl file) ((hst.asked? _).trans hasked)
    have hat : p.place ⟨source, line.line⟩ ⟨source', line'.line⟩ := hnumber ▸ hplace _
    have hreads' : OnlyReads reads (leftBy r').journal := by
      refine .of_leave ?_
      rw [hleave]
      exact hreads
    obtain ⟨header', inner', sources', loaded', hopens', hplace', hlines, hopened⟩ :=
      hopens.paired p (hreads'.opened hinner) ho hat hp
    have hends := (ihinner hreads' .new hplace' hlines hopened).leave p
    obtain ⟨left', hleave', hleft⟩ := hends.eq_error hleave
    rw [scanLines_unanswered gs settings.search _ file hasked'
      (hopens'.request_error (hopens'.includeFile_eq.trans hleave'))]
    exact .error e ((hp.filled hleft .failed).fail hat)

theorem endMain_journal {history : List Journal.Entry}
    {r : EStateM.Result ScanError (Run Scan) Report} (h : history <+: (leftBy r).journal.toList)
    (file : Identity) : history <+: (leftBy (endMain file r)).journal.toList := by
  cases r with
  | ok report left => exact h.trans ⟨_, Array.toList_push.symm⟩
  | error e left => exact h

/-- **Two scans of a main file that begin equally far come to the same end.** -/
theorem process_paired {fs gs : FileSystem} {settings : Settings} {reads : Identity → Prop}
    (p : Pairing fs gs settings reads) {source source' : SourceId} {main main' : SourceFile}
    {run twin : Run Scan} (hmain : run.host.sources.file? source = some main)
    (hmain' : twin.host.sources.file? source' = some main')
    (hidentity : main'.identity = main.identity)
    (hplace : ∀ n, p.place ⟨source, n⟩ ⟨source', n⟩)
    (hlines : List.Forall₂ (Numbered.Respelt (p.name main.identity)) (Line.ofText main.text)
      (Line.ofText main'.text))
    (hreads : OnlyReads reads (leftBy (process fs settings source run)).journal)
    (hp : p.Paired run twin) :
    p.Ends Eq (process fs settings source run) (process gs settings source' twin) := by
  obtain ⟨trail, hcourse⟩ := exists_course fs settings main.identity source {}
    (Line.ofText main.text) (run.mainOpened main.identity)
  rw [process_main fs settings run hmain] at hreads ⊢
  rw [process_main gs settings twin hmain', hidentity]
  have hreads' := hreads.earlier
    (endMain_journal (leave_journal List.prefix_rfl) main.identity)
  have hends := hcourse.paired p hreads' .new hplace hlines (hp.mainOpened main.identity)
  exact (hends.leave p).endMain p main.identity

end IncludeOnce
