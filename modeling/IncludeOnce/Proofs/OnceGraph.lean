import Mathlib.Data.Finset.Card
import IncludeOnce.Proofs.Limit
import IncludeOnce.Proofs.Paths

/-! Files that are all to be read once.

Files may ask for one another in any way. Let each of them say that it is to be read once,
before any other directive. Then a file is locked before it can ask for anything, and a
file that is being read is never read again inside itself. So the open files are pairwise
different, there are no more of them than files in all, and a limit that allows for that
many is never met (`once_graph`). -/
namespace IncludeOnce
open Scan

/-! ### Once-guarded graphs -/

/-- The first directive says that the file is to be read once. Text and markers may stand
before it. -/
def opensOnce : List (Numbered Line) → Bool
  | [] => false
  | line :: rest =>
    match line.content with
    | .text _ | .marker => opensOnce rest
    | .command (.pragma operand) => (Identifier.split operand).1 = "once".toList
    | _ => false

/-- The lines of a file as it is on the disk. -/
def Identity.linesOn (f : Identity) (fs : FileSystem) : List (Numbered Line) :=
  match f.key with
  | .inode n => Line.ofText (fs.textOf n)
  | .path _ => []

/-- The file that a line means, if it asks for one and the file is found. -/
def Line.meant? (fs : FileSystem) (search : HeaderSearch) (beside : Path) :
    Line → Option Identity
  | .command (.request _ operand) =>
    (HeaderName.read operand).bind fun (header, _) => (search.resolve fs header beside).toOption
  | _ => none

/-- The members are files on the disk, each under all names by which it is come to. They ask
for one another only, and each is to be read once. -/
structure OnceGraph (fs : FileSystem) (search : HeaderSearch) (members : Finset Identity) :
    Prop where
  isOn : ∀ f ∈ members, f.IsOn fs
  closed : ∀ f ∈ members, ∀ line ∈ f.linesOn fs,
    ∀ g ∈ line.content.meant? fs search f.directory, g ∈ members
  once : ∀ f ∈ members, opensOnce (f.linesOn fs) = true

/-- What has been read is what is on the disk. -/
def Sources.OnDisk (fs : FileSystem) (s : Sources) : Prop :=
  ∀ id file, s.file? id = some file →
    ∃ n, file.identity.key = .inode n ∧ file.text = fs.textOf n

theorem Line.meant?_request {fs : FileSystem} {search : HeaderSearch} {beside : Path}
    {kind : RequestKind} {operand trailing : Text} {header : HeaderName} {f : Identity}
    (hread : HeaderName.read operand = some (header, trailing))
    (hresolve : search.resolve fs header beside = .ok f) :
    f ∈ (Line.command (.request kind operand)).meant? fs search beside := by
  simp [meant?, hread, hresolve, Except.toOption]

namespace Sources
variable {fs : FileSystem} {s t : Sources} {f : Identity} {id : SourceId}

theorem OnDisk.load (h : s.OnDisk fs) (hf : f.IsOn fs) (hload : s.load fs f = .ok (id, t)) :
    t.OnDisk fs := by
  rcases load_cases hload with ⟨_, rfl⟩ | ⟨hnew, octets, hread, _, rfl⟩
  · exact h
  · obtain ⟨n, hkey, hn⟩ := hf
    obtain ⟨m, hm, _, rfl⟩ := FileSystem.read_eq_ok_iff.mp hread
    intro other file hfile
    rw [enter, SourceTable.file?_enter] at hfile
    split at hfile
    · cases hfile
      exact ⟨n, hkey, by rw [← hn m hm]; rfl⟩
    · exact h other file hfile

/-- The lines that are read for a file are those on the disk. -/
theorem OnDisk.lines (h : t.OnDisk fs) {file : SourceFile} (hfile : t.file? id = some file)
    (hsame : f.isSame file.identity = true) : Line.ofText file.text = f.linesOn fs := by
  obtain ⟨n, hkey, htext⟩ := h id file hfile
  rw [Identity.isSame_iff, hkey] at hsame
  rw [Identity.linesOn, hsame, htext]

end Sources

/-! ### Records of files that are read once -/

/-- Every file on record has been begun once. -/
def Ledger.Counted (l : Ledger) : Prop :=
  ∀ entry ∈ l.entries, entry.2.processed = true ∧ entry.2.count = 1

namespace Ledger.Counted
variable {l : Ledger} {f : Identity}

theorem get (h : l.Counted) (hf : (l.get f).processed = true) : (l.get f).count = 1 := by
  rcases l.get_blank_or_mem f with hblank | ⟨entry, hmem, hentry⟩
  · rw [hblank] at hf
    cases hf
  · rw [← hentry]
    exact (h entry hmem).2

theorem get_blank (h : l.Counted) (hf : (l.get f).processed = false) : l.get f = {} := by
  rcases l.get_blank_or_mem f with hblank | ⟨entry, hmem, hentry⟩
  · exact hblank
  · rw [← hentry, (h entry hmem).1] at hf
    cases hf

/-- The record of a file that has been begun may change, but not in this. -/
theorem update (h : l.Counted) (hf : (l.get f).processed = true) {change : Record → Record}
    (hp : ∀ r, (change r).processed = r.processed) (hc : ∀ r, (change r).count = r.count) :
    (l.update f change).Counted :=
  forall_update (P := fun r => r.processed = true ∧ r.count = 1) h
    ⟨(hp _).trans hf, (hc _).trans (h.get hf)⟩

theorem resolve (h : l.Counted) (hf : (l.get f).processed = true) (kind : RequestKind)
    (isDefined : Name → Bool) : (l.resolve f kind isDefined).2.Counted := by
  cases kind with
  | plain => exact h.update hf (fun _ => rfl) fun _ => rfl
  | once => exact h.update hf (fun _ => rfl) fun _ => rfl

/-- A file is begun that has not been begun before. -/
theorem begin (h : l.Counted) (hf : (l.get f).processed = false) (kind : RequestKind)
    (isDefined : Name → Bool) : ((l.resolve f kind isDefined).2.begin f).Counted := by
  have hblank := h.get_blank hf
  cases kind with
  | plain =>
    show ((l.update f id).update f Record.markProcessed).Counted
    rw [update_update]
    exact forall_update (P := fun r => r.processed = true ∧ r.count = 1) h
      (by rw [hblank]; exact ⟨rfl, rfl⟩)
  | once =>
    show ((l.update f Record.markOnce).update f Record.markProcessed).Counted
    rw [update_update]
    exact forall_update (P := fun r => r.processed = true ∧ r.count = 1) h
      (by rw [hblank]; exact ⟨rfl, rfl⟩)

end Ledger.Counted

/-! ### Orderly states -/

/-- What holds at every moment of a scan of once-guarded files. -/
structure Orderly (fs : FileSystem) (members : Finset Identity) (run : Run Scan) : Prop where
  /-- No file is open twice. -/
  distinct : (run.host.stack.map (·.identity.key)).Nodup
  member : ∀ o ∈ run.host.stack, o.identity ∈ members
  begun : ∀ o ∈ run.host.stack, (run.ledger.get o.identity).processed = true
  counted : run.ledger.Counted
  onDisk : run.host.sources.OnDisk fs

/-- Every file that has been begun is locked. -/
def AllLocked (run : Run Scan) : Prop :=
  ∀ f, (run.ledger.get f).processed = true → (run.ledger.get f).onceGuarded = true

/-- A file is being read in which nothing has been asked for before it was locked: either it
is locked, or its lines still open with the pragma. -/
structure Locking (file : Identity) (st : FileState) (lines : List (Numbered Line))
    (run : Run Scan) : Prop where
  isOpen : ∃ o ∈ run.host.stack, o.identity = file
  others : ∀ f, (run.ledger.get f).processed = true →
    (run.ledger.get f).onceGuarded = true ∨ file.isSame f = true
  own : (run.ledger.get file).onceGuarded = true ∨ st.skipping = false ∧ opensOnce lines = true

section
variable {fs : FileSystem} {settings : Settings} {members : Finset Identity}
  {file f : Identity} {location : Location} {kind : RequestKind} {operand trailing : Text}
  {header : HeaderName} {st after : FileState} {line : Numbered Line}
  {lines rest : List (Numbered Line)} {run middle left : Run Scan} {sources : Sources}
  {e : ScanError}

namespace Orderly

/-- The open files are as many as the members at most. -/
theorem length_le (h : Orderly fs members run) :
    run.host.stack.length ≤ (members.image Identity.key).card := by
  have hsub : (run.host.stack.map (·.identity.key)).toFinset ⊆ members.image Identity.key := by
    intro key hkey
    obtain ⟨o, ho, rfl⟩ := List.mem_map.mp (List.mem_toFinset.mp hkey)
    exact Finset.mem_image_of_mem _ (h.member o ho)
  have hcard := Finset.card_le_card hsub
  rw [List.toFinset_card_of_nodup h.distinct, List.length_map] at hcard
  exact hcard

/-- The same files are open, and no file on record is forgotten. -/
theorem same (h : Orderly fs members run) (hstack : middle.host.stack = run.host.stack)
    (hprocessed : ∀ f, (run.ledger.get f).processed = true →
      (middle.ledger.get f).processed = true)
    (hcounted : middle.ledger.Counted) (hdisk : middle.host.sources.OnDisk fs) :
    Orderly fs members middle where
  distinct := hstack ▸ h.distinct
  member := hstack ▸ h.member
  begun := by
    rw [hstack]
    exact fun o ho => hprocessed _ (h.begun o ho)
  counted := hcounted
  onDisk := hdisk

/-- Nothing has changed that counts. -/
theorem quiet (h : Orderly fs members run) (hstack : middle.host.stack = run.host.stack)
    (hledger : middle.ledger = run.ledger)
    (hsources : middle.host.sources = run.host.sources) : Orderly fs members middle :=
  h.same hstack (fun f hf => by rw [hledger]; exact hf) (hledger ▸ h.counted)
    (hsources ▸ h.onDisk)

theorem fail (h : Orderly fs members run) (location : Location) :
    Orderly fs members (run.mapHost (·.fail location)) := by
  obtain ⟨failure, hf⟩ := run.host.fail_eq location
  refine h.quiet (fail_stack _ _) rfl ?_
  show (run.host.fail location).sources = _
  rw [hf]

/-- A line stays within its file. -/
theorem aside (h : Orderly fs members run) (hfile : (run.ledger.get file).processed = true)
    (haside : Aside file run middle) : Orderly fs members middle := by
  have hdisk := haside.sources ▸ h.onDisk
  rcases haside.ledger with hl | hl
  · exact h.quiet haside.stack hl haside.sources
  · refine h.same haside.stack ?_ ?_ hdisk
    · intro f hf
      rw [hl, Ledger.get_markOnce]
      split
      · exact hf
      · exact hf
    · rw [hl]
      exact h.counted.update hfile (fun _ => rfl) fun _ => rfl

end Orderly

theorem AllLocked.finish (h : AllLocked run) (f : Identity) (report : Report) :
    AllLocked (run.finished f report) := by
  intro g hg
  rw [Run.get_finished] at hg ⊢
  split
  · rename_i hsame
    rw [if_pos hsame, Record.processed_absorb] at hg
    rw [Record.onceGuarded_absorb, h g hg]
    rfl
  · rename_i hsame
    rw [if_neg hsame] at hg
    exact h g hg

theorem Locking.allLocked (h : Locking file st lines run)
    (hown : (run.ledger.get file).onceGuarded = true) : AllLocked run := by
  intro f hf
  rcases h.others f hf with hlocked | hsame
  · exact hlocked
  · rw [← run.ledger.get_congr hsame]
    exact hown

/-- A file that asks for another is locked. -/
theorem Locking.asked (h : Locking file st (line :: rest) run)
    (hasked : line.content.asked? st = some (kind, operand)) : AllLocked run := by
  refine h.allLocked (h.own.resolve_right ?_)
  rintro ⟨_, hopens⟩
  rw [opensOnce, (Line.asked?_eq_some hasked).2] at hopens
  cases hopens

/-- What is decided to be read has not been begun before. -/
theorem AllLocked.unprocessed (h : AllLocked run)
    (hdecide : (handing run location kind header trailing).decision f = .process) :
    (run.ledger.get f).processed = false := by
  rw [Run.decision, handing_ledger, Record.decide] at hdecide
  cases hp : (run.ledger.get f).processed with
  | false => rfl
  | true =>
    rw [hp, h f hp] at hdecide
    cases hdecide

/-- What is dropped has been begun before. -/
theorem processed_of_skip {reason : SkipReason}
    (hdecide : (handing run location kind header trailing).decision f = .skip reason) :
    (run.ledger.get f).processed = true := by
  rw [Run.decision, handing_ledger] at hdecide
  exact Record.processed_of_skip hdecide

theorem Locking.of_allLocked (horderly : Orderly fs members run) (hlocked : AllLocked run)
    (hopen : ∃ o ∈ run.host.stack, o.identity = file) : Locking file st lines run := by
  obtain ⟨o, ho, rfl⟩ := hopen
  exact ⟨⟨o, ho, rfl⟩, fun f hf => .inl (hlocked f hf), .inl (hlocked _ (horderly.begun o ho))⟩

/-! ### What requests do to the records -/

theorem begunInside_get (run : Run Scan) (file : Identity) (location : Location)
    (kind : RequestKind) (header : HeaderName) (trailing : Text) (f g : Identity) :
    (begunInside run file location kind header trailing f).ledger.get g =
      if f.isSame g then
        (if kind = .once then (run.ledger.get g).markOnce else run.ledger.get g).markProcessed
      else run.ledger.get g := by
  have hget := Run.get_started ((handing run location kind header trailing).note
    (.sought ⟨kind, header⟩ file.directory)) ⟨kind, header⟩ f g
  rw [show ((handing run location kind header trailing).note
    (.sought ⟨kind, header⟩ file.directory)).ledger = run.ledger from
      handing_ledger run location kind header trailing] at hget
  exact hget

theorem droppedInside_get (run : Run Scan) (file : Identity) (location : Location)
    (kind : RequestKind) (header : HeaderName) (trailing : Text) (f : Identity)
    (reason : SkipReason) (g : Identity) :
    (droppedInside run file location kind header trailing f reason).ledger.get g =
      if kind = .once ∧ f.isSame g = true then (run.ledger.get g).markOnce
      else run.ledger.get g := by
  have hget := Run.get_dropped (soughtInside run file location kind header trailing)
    ⟨kind, header⟩ f g reason
  rw [show (soughtInside run file location kind header trailing).ledger = run.ledger from
      handing_ledger run location kind header trailing] at hget
  exact hget

namespace Orderly

theorem start (h : Orderly fs members run) (hf : (run.ledger.get f).processed = false) :
    Orderly fs members (begunInside run file location kind header trailing f) := by
  refine h.same begunInside_stack ?_ ?_ ?_
  · intro g hg
    rw [begunInside_get]
    split
    · rfl
    · exact hg
  · have hcounted := h.counted.begin hf kind run.host.macros.isDefined
    rw [← handing_ledger run location kind header trailing] at hcounted
    exact hcounted
  · rw [begunInside_sources]
    exact h.onDisk

/-- A file is opened that has not been begun before. -/
theorem enter (h : Orderly fs members run) (hf : (run.ledger.get f).processed = false)
    (hmember : f ∈ members) (hdisk : sources.OnDisk fs) :
    Orderly fs members (openedInside run file location kind header trailing f sources) := by
  have hbegun : Orderly fs members (begunInside run file location kind header trailing
    f) := h.start hf
  have hstack : (openedInside run file location kind header trailing f
    sources).host.stack = ⟨f, some location⟩ :: run.host.stack := openedInside_stack
  refine ⟨?_, ?_, ?_, hbegun.counted, hdisk⟩
  · rw [hstack, List.map_cons, List.nodup_cons]
    refine ⟨?_, h.distinct⟩
    -- An open file has been begun, and this one has not.
    intro hmem
    obtain ⟨o, ho, hkey⟩ := List.mem_map.mp hmem
    have hopen := h.begun o ho
    rw [run.ledger.get_congr (Identity.isSame_iff.mpr hkey), hf] at hopen
    cases hopen
  · rw [hstack]
    exact List.forall_mem_cons.mpr ⟨hmember, h.member⟩
  · rw [hstack]
    refine List.forall_mem_cons.mpr ⟨?_, ?_⟩
    · show ((begunInside run file location kind header trailing f).ledger.get
        f).processed = true
      rw [begunInside_get, if_pos (Identity.isSame_refl f)]
      rfl
    · rw [← begunInside_stack]
      exact hbegun.begun

theorem drop (h : Orderly fs members run) (hf : (run.ledger.get f).processed = true)
    (reason : SkipReason) :
    Orderly fs members (droppedInside run file location kind header trailing f reason) := by
  refine h.same (droppedInside_stack reason) ?_ ?_ ?_
  · intro g hg
    rw [droppedInside_get]
    split
    · exact hg
    · exact hg
  · have hcounted := h.counted.resolve hf kind
      (soughtInside run file location kind header trailing).host.macros.isDefined
    rw [← handing_ledger run location kind header trailing] at hcounted
    exact hcounted
  · have hsources := handing_sources run location kind header trailing
    rw [show (droppedInside run file location kind header trailing f
      reason).host.sources = run.host.sources from hsources]
    exact h.onDisk

/-- The innermost file is left. -/
theorem exit {r : EStateM.Result ScanError (Run Scan) FileState} {o : OpenFile}
    {stack : List OpenFile} (h : Orderly fs members (leftBy r))
    (hstack : (leftBy r).host.stack = o :: stack) : Orderly fs members (leftBy (leave r)) := by
  have hafter : (leftBy (leave r)).host.stack = stack := leave_stack hstack
  obtain ⟨failure, hf⟩ := leftBy_leave r
  obtain ⟨hdistinct, hmember, hbegun, hcounted, hdisk⟩ := h
  rw [hstack] at hdistinct hmember hbegun
  have hledger : (leftBy (leave r)).ledger = (leftBy r).ledger := by rw [hf]; rfl
  have hsources : (leftBy (leave r)).host.sources = (leftBy r).host.sources := by
    rw [hf]; rfl
  refine ⟨?_, ?_, ?_, hledger ▸ hcounted, hsources ▸ hdisk⟩
  · rw [hafter]
    exact (List.nodup_cons.mp hdistinct).2
  · rw [hafter]
    exact (List.forall_mem_cons.mp hmember).2
  · rw [hafter, hledger]
    exact (List.forall_mem_cons.mp hbegun).2

theorem finish (h : Orderly fs members run) (hf : (run.ledger.get f).processed = true)
    (report : Report) : Orderly fs members (run.finished f report) := by
  refine h.same rfl ?_ ?_ h.onDisk
  · intro g hg
    rw [Run.get_finished]
    split
    · rw [Record.processed_absorb]
      exact hg
    · exact hg
  · exact h.counted.update hf (fun r => r.processed_absorb report) fun r => r.count_absorb report

end Orderly

theorem AllLocked.drop (h : AllLocked run) (reason : SkipReason) :
    AllLocked (droppedInside run file location kind header trailing f reason) := by
  intro g hg
  rw [droppedInside_get] at hg ⊢
  split
  · rfl
  · rename_i hother
    rw [if_neg hother] at hg
    exact h g hg

theorem Locking.enter (h : AllLocked run) (hopens : opensOnce lines = true) :
    Locking f {} lines (openedInside run file location kind header trailing f sources) where
  isOpen := ⟨⟨f, some location⟩, by rw [openedInside_stack]; exact List.mem_cons_self, rfl⟩
  others g hg := by
    have hget := begunInside_get run file location kind header trailing f g
    rw [show (openedInside run file location kind header trailing f sources).ledger =
      (begunInside run file location kind header trailing f).ledger from rfl, hget] at hg ⊢
    split
    · rename_i hsame
      exact .inr hsame
    · rename_i hother
      rw [if_neg hother] at hg
      exact .inl (h g hg)
  own := .inr ⟨rfl, hopens⟩

theorem Refused.orderly (h : Refused fs settings file location kind operand run e left)
    (horderly : Orderly fs members run) (hlocked : AllLocked run) : Orderly fs members left := by
  cases h with
  | malformed hread => exact horderly
  | @tooDeep header trailing hread hdeep =>
    obtain ⟨d, hd⟩ := warned_eq run location kind trailing
    refine horderly.quiet ?_ ?_ ?_ <;> rw [stoppedInside, hd] <;> rfl
  | @unresolved header trailing e hread hroom hresolve =>
    exact horderly.quiet (handing_host run location kind header trailing).1
      (handing_ledger run location kind header trailing)
      (handing_sources run location kind header trailing)
  | @unreadable header trailing f e hmeans hdecide hload =>
    have hbegun : Orderly fs members (begunInside run file location kind header trailing f) :=
      horderly.start (hlocked.unprocessed hdecide)
    exact hbegun.quiet rfl rfl rfl

/-- Up to the pragma that locks a file, its lines are text and markers. -/
theorem step_opensOnce {search : HeaderSearch} {reader : Reader} (hlive : st.skipping = false)
    (hopens : opensOnce (line :: rest) = true)
    (hstep : step fs search reader file location st line.content run = .ok after middle) :
    (middle.ledger.get file).onceGuarded = true ∨
      after.skipping = false ∧ opensOnce rest = true := by
  unfold opensOnce at hopens
  cases hline : line.content with
  | text content =>
    rw [hline] at hopens hstep
    simp only [step, hlive, Bool.not_false, if_true, bind_apply, change_apply, pure_apply] at hstep
    cases hstep
    refine .inr ⟨?_, hopens⟩
    split
    · exact hlive
    · rfl
  | marker =>
    rw [hline] at hopens hstep
    cases hstep
    exact .inr ⟨hlive, hopens⟩
  | command c =>
    rw [hline] at hopens hstep
    cases c with
    | pragma operand =>
      have honce : (Identifier.split operand).1 = "once".toList := by simpa using hopens
      simp only [step, hlive, command, honce, Bool.false_eq_true, if_false, if_true, bind_apply,
        modify_apply, pure_apply] at hstep
      cases hstep
      refine .inl ?_
      show ((run.ledger.markOnce file).get file).onceGuarded = true
      rw [Ledger.get_markOnce, if_pos (Identity.isSame_refl file)]
      rfl
    | _ => cases hopens
  | _ =>
    rw [hline] at hopens
    cases hopens

/-- The step lemma for lines that ask for nothing. -/
theorem Locking.step {search : HeaderSearch} {reader : Reader}
    (h : Locking file st (line :: rest) run) (hasked : line.content.asked? st = none)
    (hstep : step fs search reader file location st line.content run = .ok after middle) :
    Locking file after rest middle := by
  have haside := step_aside_ok _ _ _ _ _ hasked hstep
  have hget : ∀ f, (middle.ledger.get f).processed = (run.ledger.get f).processed ∧
      ((run.ledger.get f).onceGuarded = true → (middle.ledger.get f).onceGuarded = true) := by
    intro f
    rcases haside.ledger with hl | hl
    · rw [hl]
      exact ⟨rfl, id⟩
    · rw [hl, Ledger.get_markOnce]
      split
      · exact ⟨rfl, fun _ => rfl⟩
      · exact ⟨rfl, id⟩
  refine ⟨haside.stack.symm ▸ h.isOpen, ?_, ?_⟩
  · intro f hf
    rw [(hget f).1] at hf
    exact (h.others f hf).imp_left (hget f).2
  · rcases h.own with hlocked | ⟨hlive, hopens⟩
    · exact .inl ((hget file).2 hlocked)
    · exact step_opensOnce hlive hopens hstep

end

/-! ### Whole scans -/

section
variable {fs : FileSystem} {settings : Settings} {members : Finset Identity} {file f : Identity}
  {location : Location} {source inner : SourceId} {kind : RequestKind} {operand trailing : Text}
  {header : HeaderName} {sources : Sources} {loaded : SourceFile} {report : Report}
  {st : FileState} {lines : List (Numbered Line)} {run left : Run Scan}
  {trail : List (Run Scan)} {r : EStateM.Result ScanError (Run Scan) FileState}

/-- A file that is opened is a member and has the lines that are on the disk, and opening it
keeps the order. -/
theorem Opens.enter (hgraph : OnceGraph fs settings.search members) {line : Numbered Line}
    {rest : List (Numbered Line)}
    (h : Opens fs settings file location kind operand run header trailing f inner sources loaded)
    (hasked : line.content.asked? st = some (kind, operand))
    (hlines : ∀ l ∈ line :: rest, ∀ g ∈ l.content.meant? fs settings.search file.directory,
      g ∈ members)
    (horderly : Orderly fs members run) (hlocked : AllLocked run) :
    f ∈ members ∧ Line.ofText loaded.text = f.linesOn fs ∧
      Orderly fs members (openedInside run file location kind header trailing f sources) := by
  have hmember : f ∈ members := by
    refine (List.forall_mem_cons.mp hlines).1 f ?_
    rw [(Line.asked?_eq_some hasked).2]
    exact Line.meant?_request h.means.read h.means.resolve
  have hdisk := horderly.onDisk.load (hgraph.isOn f hmember) h.load
  obtain ⟨_, hfind, _⟩ := Sources.load_ok h.load
  obtain ⟨found, hfound, hsame⟩ := Sources.find?_eq_some hfind
  cases h.found.symm.trans hfound
  exact ⟨hmember, hdisk.lines h.found hsame,
    horderly.enter (hlocked.unprocessed h.decide) hmember hdisk⟩

/-- A file that was opened has been left. -/
theorem Orderly.closed (h : Orderly fs members (leftBy r)) {site : Option Location}
    {stack : List OpenFile} (hstack : (leftBy r).host.stack = ⟨f, site⟩ :: stack) :
    Orderly fs members (leftBy (leave r)) ∧
      ((leftBy (leave r)).ledger.get f).processed = true ∧
      (leftBy (leave r)).ledger = (leftBy r).ledger := by
  obtain ⟨failure, hf⟩ := leftBy_leave r
  have hledger : (leftBy (leave r)).ledger = (leftBy r).ledger := by rw [hf]; rfl
  refine ⟨h.exit hstack, ?_, hledger⟩
  rw [hledger]
  exact h.begun _ (by rw [hstack]; exact List.mem_cons_self)

/-- **A scan of once-guarded files is orderly at every moment**, and at its end every file that
has been begun is locked. -/
theorem Course.orderly (hgraph : OnceGraph fs settings.search members)
    (h : Course fs settings file source st lines run trail r)
    (hlines : ∀ line ∈ lines, ∀ g ∈ line.content.meant? fs settings.search file.directory,
      g ∈ members)
    (horderly : Orderly fs members run) (hlocking : Locking file st lines run) :
    (∀ moment ∈ trail, Orderly fs members moment) ∧
      ∀ after left, r = .ok after left → AllLocked left := by
  induction h with
  | done file source st run =>
    refine ⟨List.forall_mem_singleton.mpr horderly, ?_⟩
    rintro after left hr
    cases hr
    refine hlocking.allLocked (hlocking.own.resolve_right ?_)
    exact fun hopens => Bool.false_ne_true hopens.2
  | line hasked hstep hrest ih =>
    obtain ⟨o, ho, rfl⟩ := hlocking.isOpen
    have hmiddle := horderly.aside (horderly.begun o ho) (step_aside_ok _ _ _ _ _ hasked hstep)
    obtain ⟨htrail, hlocked⟩ := ih (List.forall_mem_cons.mp hlines).2 hmiddle
      (hlocking.step hasked hstep)
    exact ⟨List.forall_mem_cons.mpr ⟨horderly, htrail⟩, hlocked⟩
  | fails hasked hstep =>
    obtain ⟨o, ho, rfl⟩ := hlocking.isOpen
    have hleft := horderly.aside (horderly.begun o ho)
      (step_aside_error _ _ _ _ _ hasked hstep)
    constructor
    · exact List.forall_mem_cons.mpr ⟨horderly, List.forall_mem_singleton.mpr (hleft.fail _)⟩
    · intro after left hr
      cases hr
  | refused hasked hrefused =>
    have hleft := hrefused.orderly horderly (hlocking.asked hasked)
    constructor
    · exact List.forall_mem_cons.mpr ⟨horderly, List.forall_mem_singleton.mpr (hleft.fail _)⟩
    · intro after left hr
      cases hr
  | @dropped file f source st line rest kind operand trailing header reason run trail r hasked
      hmeans hdecide hrest ih =>
    have hdropped : Orderly fs members
        (droppedInside run file ⟨source, line.line⟩ kind header trailing f reason) :=
      horderly.drop (processed_of_skip hdecide) reason
    obtain ⟨htrail, hlocked⟩ := ih (List.forall_mem_cons.mp hlines).2 hdropped
      (.of_allLocked hdropped ((hlocking.asked hasked).drop reason)
        ((droppedInside_stack reason).symm ▸ hlocking.isOpen))
    exact ⟨List.forall_mem_cons.mpr ⟨horderly, htrail⟩, hlocked⟩
  | @entered file f source inner st line rest kind operand trailing header sources loaded report
      run left inside trail r r' hasked hopens hinner hleave hrest ihinner ihrest =>
    have hlocked := hlocking.asked hasked
    obtain ⟨hmember, hloaded, henter⟩ := hopens.enter hgraph hasked hlines horderly hlocked
    obtain ⟨hinside, hlast⟩ := ihinner (hloaded ▸ hgraph.closed f hmember) henter
      (.enter hlocked (hloaded ▸ hgraph.once f hmember))
    have hstack := hinner.stack.trans openedInside_stack
    obtain ⟨hleft, hprocessed, hledger⟩ := (hinside _ hinner.leftBy_mem).closed hstack
    obtain ⟨st', last, rfl⟩ := leave_ok hleave
    have hclosed := leave_stack hstack
    rw [hleave] at hleft hprocessed hledger hclosed
    have hall : AllLocked left := by
      intro g hg
      rw [show left.ledger = last.ledger from hledger] at hg ⊢
      exact hlast st' last rfl g hg
    have hfinished : Orderly fs members (finishedInside run f report left) :=
      (hleft.finish hprocessed report).quiet rfl rfl rfl
    obtain ⟨htrail, hend⟩ := ihrest (List.forall_mem_cons.mp hlines).2 hfinished
      (.of_allLocked hfinished (hall.finish f report) (hclosed.symm ▸ hlocking.isOpen))
    refine ⟨?_, hend⟩
    rw [List.forall_mem_cons, List.forall_mem_cons, List.forall_mem_append]
    exact ⟨horderly, horderly.start (hlocked.unprocessed hopens.decide), hinside, htrail⟩
  | @stopped file f source inner st line rest kind operand trailing header sources loaded e run
      left inside r' hasked hopens hinner hleave ihinner =>
    have hlocked := hlocking.asked hasked
    obtain ⟨hmember, hloaded, henter⟩ := hopens.enter hgraph hasked hlines horderly hlocked
    obtain ⟨hinside, _⟩ := ihinner (hloaded ▸ hgraph.closed f hmember) henter
      (.enter hlocked (hloaded ▸ hgraph.once f hmember))
    obtain ⟨hleft, _⟩ :=
      (hinside _ hinner.leftBy_mem).closed (hinner.stack.trans openedInside_stack)
    rw [hleave] at hleft
    have hfailed : Orderly fs members (failedInside run left) :=
      hleft.quiet rfl rfl rfl
    constructor
    · rw [List.forall_mem_cons, List.forall_mem_cons, List.forall_mem_append,
        List.forall_mem_singleton]
      exact ⟨horderly, horderly.start (hlocked.unprocessed hopens.decide), hinside,
        hfailed.fail _⟩
    · intro after left hr
      cases hr

/-- The scan starts on a fresh ledger. -/
theorem Orderly.new (hledger : run.ledger = {}) (hstack : run.host.stack = [])
    (hdisk : run.host.sources.OnDisk fs) : Orderly fs members run := by
  refine ⟨?_, ?_, ?_, ?_, hdisk⟩
  · rw [hstack]
    exact List.nodup_nil
  · rw [hstack]
    exact nofun
  · rw [hstack]
    exact nofun
  · rw [hledger]
    exact nofun

theorem Orderly.mainBegun (h : Orderly fs members run) (hledger : run.ledger = {}) :
    Orderly fs members (run.mainBegun file) := by
  refine h.same rfl ?_ ?_ h.onDisk
  · rw [hledger]
    exact nofun
  · show (run.ledger.update file Record.markProcessed).Counted
    have hblank : run.ledger.get file = {} := by rw [hledger]; rfl
    exact Ledger.forall_update (P := fun r => r.processed = true ∧ r.count = 1) h.counted
      (by rw [hblank]; exact ⟨rfl, rfl⟩)

theorem mainBegun_get (hledger : run.ledger = {}) (f : Identity) :
    (run.mainBegun file).ledger.get f =
      if file.isSame f then ({} : Record).markProcessed else {} := by
  show (run.ledger.begin file).get f = _
  rw [Ledger.get_begin, hledger]
  rfl

theorem Orderly.mainOpened (h : Orderly fs members run) (hledger : run.ledger = {})
    (hstack : run.host.stack = []) (hmember : file ∈ members) :
    Orderly fs members (run.mainOpened file) := by
  have hbegun : Orderly fs members (run.mainBegun file) := h.mainBegun hledger
  have hopen : (run.mainOpened file).host.stack = [⟨file, none⟩] :=
    congrArg (OpenFile.mk file none :: ·) hstack
  refine ⟨?_, ?_, ?_, hbegun.counted, h.onDisk⟩
  · rw [hopen]
    exact List.nodup_singleton _
  · rw [hopen]
    exact List.forall_mem_singleton.mpr hmember
  · rw [hopen]
    refine List.forall_mem_singleton.mpr ?_
    show ((run.mainBegun file).ledger.get file).processed = true
    rw [mainBegun_get hledger, if_pos (Identity.isSame_refl file)]
    rfl

theorem Locking.mainOpened (hledger : run.ledger = {}) (hopens : opensOnce lines = true) :
    Locking file {} lines (run.mainOpened file) where
  isOpen := ⟨⟨file, none⟩, List.mem_cons_self, rfl⟩
  others f hf := by
    rw [show (run.mainOpened file).ledger = (run.mainBegun file).ledger from rfl,
      mainBegun_get hledger] at hf
    split at hf
    · rename_i hsame
      exact .inr hsame
    · cases hf
  own := .inr ⟨rfl, hopens⟩

/-- A main file has been left. -/
theorem Orderly.endMain (h : Orderly fs members (leftBy r)) {site : Option Location}
    (hstack : (leftBy r).host.stack = [⟨file, site⟩]) :
    Orderly fs members (leftBy (endMain file (leave r))) := by
  obtain ⟨hleft, hprocessed, _⟩ := h.closed hstack
  cases hleave : leave r with
  | error e left =>
    rw [hleave] at hleft
    exact hleft
  | ok report left =>
    rw [hleave] at hleft hprocessed
    exact (hleft.finish hprocessed report).quiet rfl rfl rfl

/-- A main file and all that it asks for are to be read once. -/
theorem MainCourse.orderly {r : EStateM.Result ScanError (Run Scan) Unit}
    (hgraph : OnceGraph fs settings.search members) (hledger : run.ledger = {})
    (hstack : run.host.stack = []) (hdisk : run.host.sources.OnDisk fs)
    (hmember : ∀ main, run.host.sources.file? source = some main → main.identity ∈ members)
    (h : MainCourse fs settings source run trail r) :
    (∀ moment ∈ trail, Orderly fs members moment) ∧ Orderly fs members (leftBy r) := by
  have hnew : Orderly fs members run := .new hledger hstack hdisk
  cases h with
  | absent hmain => exact ⟨List.forall_mem_singleton.mpr hnew, hnew⟩
  | @scanned main trail r hmain hcourse =>
    have hmain' := hmember main hmain
    have hlines := hdisk.lines hmain main.identity.isSame_refl
    have hopened := hnew.mainOpened hledger hstack hmain'
    obtain ⟨htrail, _⟩ := hcourse.orderly hgraph (hlines ▸ hgraph.closed _ hmain') hopened
      (.mainOpened hledger (hlines ▸ hgraph.once _ hmain'))
    have hopen : (run.mainOpened main.identity).host.stack = [⟨main.identity, none⟩] :=
      congrArg (OpenFile.mk main.identity none :: ·) hstack
    have hend := (htrail _ hcourse.leftBy_mem).endMain (hcourse.stack.trans hopen)
    refine ⟨?_, hend⟩
    rw [List.forall_mem_cons, List.forall_mem_cons, List.forall_mem_append,
      List.forall_mem_singleton]
    exact ⟨hnew, hnew.mainBegun hledger, htrail, hend⟩

end

/-- **Once-guarded files never loop.** However they ask for one another, a main file that is
scanned on a fresh ledger does not meet a limit that allows for all of them, no file is open
twice at any moment, and in the end every file on record has been read once. -/
theorem once_graph {fs : FileSystem} (settings : Settings) {members : Finset Identity}
    (hgraph : OnceGraph fs settings.search members)
    (hcard : (members.image Identity.key).card ≤ settings.maxDepth)
    (run : Run Scan) (hledger : run.ledger = {}) (hstack : run.host.stack = [])
    (hdisk : run.host.sources.OnDisk fs) (source : SourceId) (main : SourceFile)
    (hmain : run.host.sources.file? source = some main) (hmember : main.identity ∈ members) :
    (∀ d left, process fs settings source run ≠ .error (.depthExceeded d) left) ∧
      (∃ trail, MainCourse fs settings source run trail (process fs settings source run)) ∧
      (∀ trail r, MainCourse fs settings source run trail r →
        ∀ moment ∈ trail, (moment.host.stack.map (·.identity.key)).Nodup) ∧
      ∀ entry ∈ (leftBy (process fs settings source run)).ledger.entries, entry.2.count = 1 := by
  have horderly : ∀ {trail r}, MainCourse fs settings source run trail r →
      (∀ moment ∈ trail, Orderly fs members moment) ∧ Orderly fs members (leftBy r) := by
    intro trail r hcourse
    refine hcourse.orderly hgraph hledger hstack hdisk ?_
    rintro other hother
    cases hmain.symm.trans hother
    exact hmember
  obtain ⟨trail, hcourse⟩ := exists_mainCourse fs settings run source
  obtain ⟨htrail, hleft⟩ := horderly hcourse
  refine ⟨?_, ⟨trail, hcourse⟩, ?_, fun entry hentry => (hleft.counted entry hentry).2⟩
  · intro d left hexceeded
    obtain ⟨_, moment, _, _, _, _, _, hpast, hlength, hdeep, _⟩ :=
      (hcourse.endsWithin hstack).exceeded d left hexceeded
    have hle := (htrail moment (hpast.subset List.mem_cons_self)).length_le
    omega
  · intro trail r hother moment hmem
    exact ((horderly hother).1 moment hmem).distinct

/-- Two files that ask for each other, and one of them for itself. -/
def mutualDisk : FileSystem where
  entries := [(["a.h".toList], .file 1), (["b.h".toList], .file 2)]
  contents := ["", "a\n#pragma once\n#include \"b.h\"\n",
    "#\n#pragma once\n#import \"a.h\"\n#include \"b.h\"\nb\n"].zipIdx.map fun (text, n) =>
      (n, text.toList.map (·.toNat.toUInt8))

def mutualMain : SourceFile := .entered ⟨0⟩ ⟨.inode 1, .ofString "/a.h"⟩ (mutualDisk.textOf 1)

def mutualMembers : Finset Identity :=
  {⟨.inode 1, .ofString "/a.h"⟩, ⟨.inode 2, .ofString "/b.h"⟩}

theorem mutualMembers_onceGraph : OnceGraph mutualDisk {} mutualMembers := by
  refine ⟨?_, by decide +kernel, by decide +kernel⟩
  have hread : ∀ f ∈ mutualMembers, mutualDisk.inodeAt f.path = .ok 1 ∧ f.key = .inode 1 ∨
      mutualDisk.inodeAt f.path = .ok 2 ∧ f.key = .inode 2 := by
    decide +kernel
  intro f hf
  rcases hread f hf with ⟨hat, hkey⟩ | ⟨hat, hkey⟩
  · exact ⟨1, hkey, fun m hm => (Except.ok.inj (hat.symm.trans hm)).symm⟩
  · exact ⟨2, hkey, fun m hm => (Except.ok.inj (hat.symm.trans hm)).symm⟩

theorem mutualMain_onDisk : (runOn mutualMain).host.sources.OnDisk mutualDisk := by
  intro id file hfile
  have hmem : file ∈ #[mutualMain] := Array.mem_of_getElem? hfile
  have hfile : file = mutualMain := by simpa using hmem
  exact ⟨1, by rw [hfile]; rfl, by rw [hfile]; rfl⟩

/-- Two files allowed are enough for them, and each is read once. -/
theorem mutual_once_graph :
    OnceGraph mutualDisk {} mutualMembers ∧ (mutualMembers.image Identity.key).card = 2 ∧
      outcome (process mutualDisk { maxDepth := 2 } ⟨0⟩ (runOn mutualMain)) = .ok () ∧
      (leftBy (process mutualDisk { maxDepth := 2 } ⟨0⟩ (runOn mutualMain))).host.text =
        "a\nb\n".toList ∧
      (leftBy (process mutualDisk { maxDepth := 2 } ⟨0⟩ (runOn mutualMain))).ledger.size = 2 ∧
      ∀ entry ∈ (leftBy (process mutualDisk { maxDepth := 2 } ⟨0⟩
        (runOn mutualMain))).ledger.entries, entry.2.count = 1 :=
  ⟨mutualMembers_onceGraph, by decide +kernel, by decide +kernel, by decide +kernel,
    by decide +kernel,
    (once_graph { maxDepth := 2 } mutualMembers_onceGraph (by decide +kernel)
      (runOn mutualMain) rfl rfl mutualMain_onDisk ⟨0⟩ mutualMain rfl
      (by decide +kernel)).2.2.2⟩

end IncludeOnce
