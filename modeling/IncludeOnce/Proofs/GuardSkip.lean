import IncludeOnce.Proofs.Reachable
import Mathlib.Data.List.TakeWhile

/-! Dropping a guarded file is as good as reading it.

A request is dropped when the guard of its file is defined. Had the file been read
instead, all of it but blank lines and markers would have stood in text that is skipped,
whatever the earlier scan that found the guard had gone through.
`guard_skip_unobservable`: in every state that occurs, reading the file instead of
dropping the request gives the same report as before and leaves the same state, but for
empty lines in the text and one more in the count of the file. -/
namespace IncludeOnce
open Scan

theorem Text.trimEnd_of_allBlank {t : Text} (h : t.allBlank = true) : t.trimEnd = [] := by
  have hall : ∀ c ∈ t.reverse, Text.isBlank c = true := fun c hc =>
    List.all_eq_true.mp h c (List.mem_reverse.mp hc)
  rw [trimEnd, dropEndWhile, List.dropWhile_eq_nil_iff.mpr hall]
  rfl

namespace Scan

/-- Empty lines put out. -/
def blanked (s : Scan) (lines : Nat) : Scan :=
  { s with written := s.written ++ Array.replicate lines [] }

theorem blanked_zero (s : Scan) : s.blanked 0 = s := by simp [blanked]

theorem blanked_blanked (s : Scan) (a b : Nat) : (s.blanked a).blanked b = s.blanked (a + b) := by
  simp only [blanked, Array.append_assoc, Array.replicate_append_replicate]

theorem text_blanked (s : Scan) (lines : Nat) :
    (s.blanked lines).text = s.text ++ List.replicate lines '\n' := by
  have hlines : (List.replicate lines ([] : Text)).flatMap (· ++ ['\n']) =
      List.replicate lines '\n' := by
    induction lines with
    | zero => rfl
    | succ n ih => rw [List.replicate_succ, List.flatMap_cons, ih]; rfl
  rw [text, blanked, Array.toList_append, Array.toList_replicate, List.flatMap_append, hlines]
  rfl

end Scan

/-! ### Guarded groups -/

section
variable (fs : FileSystem) (search : HeaderSearch) (reader : Reader) (file : Identity)
  (source : SourceId)

/-- What a walk does that comes to its end with nothing but empty lines put out. -/
def IsBlank (x : ScanM Bool) (run : Run Scan) : Prop :=
  ∃ n, x run = .ok false (run.mapHost (·.blanked n))

theorem Plain.run_silent {p : Plain} (h : p.isSilent = true) (location : Location)
    (run : Run Scan) : IsBlank (p.run fs search reader file location) run := by
  cases p with
  | text content =>
    refine ⟨1, ?_⟩
    have hwrite : (fun s : Scan => s.write content.trimEnd) = (·.blanked 1) := by
      funext s
      rw [write, Text.trimEnd_of_allBlank h]
      rfl
    rw [Plain.run, hwrite]
    rfl
  | marker =>
    refine ⟨0, ?_⟩
    show EStateM.Result.ok false run = _
    rw [Run.mapHost, blanked_zero]
  | unknown name => cases h
  | command c => cases h

/-- A silent line in front. -/
theorem Group.run_silent_cons {p : Plain} (hp : p.isSilent = true) (number : Nat) {rest : Group}
    (run : Run Scan)
    (hrest : ∀ n, IsBlank (rest.run fs search reader file source) (run.mapHost (·.blanked n))) :
    IsBlank ((Group.plain number p rest).run fs search reader file source) run := by
  obtain ⟨a, ha⟩ := p.run_silent fs search reader file hp ⟨source, number⟩ run
  obtain ⟨b, hb⟩ := hrest a
  refine ⟨a + b, ?_⟩
  rw [Group.run, bind_apply, onFailure, ha]
  simp only [bind_apply, hb, pure_apply]
  rw [Run.mapHost, Run.mapHost, blanked_blanked]
  rfl

theorem Group.run_silent {g : Group} (h : g.isSilent = true) (run : Run Scan) :
    IsBlank (g.run fs search reader file source) run := by
  cases g with
  | done =>
    refine ⟨0, ?_⟩
    show EStateM.Result.ok false run = _
    rw [Run.mapHost, blanked_zero]
  | plain number line rest =>
    obtain ⟨hline, hrest⟩ := (Bool.and_eq_true _ _).mp h
    exact Group.run_silent_cons fs search reader file source hline number run
      fun _ => Group.run_silent hrest _
  | conditional number opening body tail rest => cases h

/-- **A guarded group does nothing where its guard is defined.** -/
theorem Group.run_guarded {g : Group} {name : Name} (h : g.guard? = some name) (run : Run Scan)
    (hd : run.host.macros.isDefined name = true) :
    IsBlank (g.run fs search reader file source) run := by
  cases g with
  | done => cases h
  | plain number line rest =>
    rw [Group.guard?] at h
    split at h
    · rename_i hline
      exact Group.run_silent_cons fs search reader file source hline number run
        fun _ => Group.run_guarded h _ hd
    · cases h
  | conditional number opening body tail rest =>
    obtain ⟨test, named⟩ := opening
    cases test with
    | condition operand => cases h
    | ifDefined operand => cases h
    | ifUndefined operand =>
      cases tail with
      | elseIf number operand body more => cases h
      | otherwise number body closing => cases h
      | closing closed =>
        rw [Group.guard?] at h
        split at h
        · rename_i hsilent
          have hholds : (Opening.mk (.ifUndefined operand) named).holds run = .ok false run := by
            rw [Opening.holds_ifUndefined h, hd]
            rfl
          obtain ⟨n, hn⟩ := Group.run_silent fs search reader file source hsilent run
          refine ⟨n, ?_⟩
          rw [Group.run, bind_apply, onFailure, hholds]
          simp only [Bool.false_eq_true, if_false, bind_apply, Tail.run, pure_apply, hn,
            Bool.or_false]
        · cases h

end

/-! ### Reading instead of dropping -/

/-- Reads a file in place, as for a request that is not dropped. -/
def readInstead (fs : FileSystem) (settings : Settings) (file : Identity) : ScanM Report := do
  modify (·.mapLedger (·.begin file))
  let report ← includeFile fs settings file
  modify (·.mapLedger (·.complete file report))
  return report

/-- A file that has been read and whose guard is defined puts out empty lines when it is
scanned in place, and does nothing else. -/
theorem includeFile_guarded (fs : FileSystem) (settings : Settings) {file : Identity}
    {name : Name} {run : Run Scan} (hs : Shows run.host.sources file (some name))
    (hd : run.host.macros.isDefined name = true) :
    ∃ n, includeFile fs settings file run =
      .ok ⟨false, some name⟩ (run.mapHost (·.blanked n)) := by
  obtain ⟨loaded, g, hknown, hlines, hu, hguard⟩ := hs
  obtain ⟨source, hfind, hfile⟩ := Option.bind_eq_some_iff.mp hknown
  have hload : run.host.sources.load fs file = .ok (source, run.host.sources) := by
    exact Sources.load_known hfind
  let opened := run.mapHost (·.push file run.host.requestSite)
  obtain ⟨n, hn⟩ := Group.run_guarded fs settings.search
    (readerWithin fs settings.search (settings.maxDepth - run.host.stack.length)) file source
    hguard.symm opened hd
  refine ⟨n, ?_⟩
  rw [includeFile_apply, includeWith_apply, hload]
  simp only [within, bind_apply, change_apply, afterwards]
  rw [show (run.mapHost ({ · with sources := run.host.sources })).mapHost
    (·.push file run.host.requestSite) = opened from rfl,
    scanFile_group _ _ _ _ _ (by exact hfile) g hlines, Group.report, bind_apply, hn]
  simp only [pure_apply]
  rw [← hguard]
  rfl

theorem Record.decide_includeGuard {r : Record} {isDefined : Name → Bool} {name : Name}
    (h : r.decide isDefined = .skip (.includeGuard name)) :
    r.processed = true ∧ r.guardName = some name ∧ isDefined name = true := by
  unfold Record.decide at h
  split at h
  · cases h
  · rename_i hp
    split at h
    · cases h
    · split at h
      · rename_i other hother
        split at h
        · rename_i hd
          cases h
          exact ⟨by simpa using hp, hother, hd⟩
        · cases h
      · cases h

/-- Reading a file again that shows what its record says only counts. -/
theorem Record.absorb_markProcessed {r : Record} {name : Name} (hp : r.processed = true)
    (hg : r.guardName = some name) :
    r.markProcessed.absorb ⟨false, some name⟩ = { r with count := r.count + 1 } := by
  obtain ⟨processed, once, guard, count⟩ := r
  cases hp
  cases hg
  rfl

/-- What a request has done that was dropped. -/
theorem handle_skipped {request : Request} {resolver : Resolver} {beside : Path}
    {read : Identity → ScanM Report} {run skipped : Run Scan} {f : Identity} {reason : SkipReason}
    (h : request.handle resolver beside (host read) run = .ok ⟨f, .skipped reason⟩ skipped) :
    run.decision f = .skip reason ∧
      skipped = (run.note (.sought request beside)).dropped request f reason := by
  rw [handle_host] at h
  simp only at h
  split at h
  · cases h
  · rename_i file _
    split at h
    · rename_i why hd
      cases h
      exact ⟨hd, rfl⟩
    · split at h
      · cases h
      · cases h

/-- **The skip of a guarded file cannot be observed.** Where a request is dropped because
the guard `name` of its file is defined, reading the file instead comes to its end, finds
the guard again, and leaves the very state that dropping it leaves, but for empty lines at
the end of the text and one more in the count of the file. -/
theorem guard_skip_unobservable (fs : FileSystem) (settings : Settings) (run skipped : Run Scan)
    (hrun : Reachable fs settings run) (request : Request) (resolver : Resolver) (beside : Path)
    (read : Identity → ScanM Report) (f : Identity) (name : Name)
    (hskip : request.handle resolver beside (host read) run =
      .ok ⟨f, .skipped (.includeGuard name)⟩ skipped) :
    ∃ (lines : Nat) (left : Run Scan),
      readInstead fs settings f skipped = .ok ⟨false, some name⟩ left ∧
      left.host = { skipped.host with written := left.host.written } ∧
      left.host.text = skipped.host.text ++ List.replicate lines '\n' ∧
      left.journal = skipped.journal ∧
      left.ledger = skipped.ledger.update f fun r => { r with count := r.count + 1 } := by
  obtain ⟨hdecision, rfl⟩ := handle_skipped hskip
  obtain ⟨hp, hg, hd⟩ := Record.decide_includeGuard hdecision
  let skipped := (run.note (.sought request beside)).dropped request f (.includeGuard name)
  let begun := skipped.mapLedger (·.begin f)
  have hshows : Shows begun.host.sources f (some name) := hrun.sound.guard f name hg
  obtain ⟨lines, hread⟩ := includeFile_guarded fs settings hshows hd
  refine ⟨lines, (begun.mapHost (·.blanked lines)).mapLedger (·.complete f ⟨false, some name⟩),
    ?_, rfl, text_blanked _ _, rfl, ?_⟩
  · simp only [readInstead, bind_apply, modify_apply, pure_apply]
    rw [hread]
  · have hrecord : (skipped.ledger.get f).processed = true ∧
        (skipped.ledger.get f).guardName = some name := by
      rw [Run.get_dropped]
      split
      · exact ⟨hp, hg⟩
      · exact ⟨hp, hg⟩
    refine (Ledger.update_update skipped.ledger f _ _).trans (Ledger.update_congr _ _ ?_)
    exact Record.absorb_markProcessed hrecord.1 hrecord.2

/-- A new scanner that has read the file that asks for itself, and scanned it. -/
def selfIncludingScanned : Run Scan :=
  leftBy (process selfIncludingDisk {} ⟨0⟩ (runOn selfIncluding))

theorem selfIncludingScanned_reachable : Reachable selfIncludingDisk {} selfIncludingScanned := by
  have hread : (selfIncludingDisk.read selfIncluding.identity.path).map Utf8.decode =
      .ok selfIncluding.text := by
    decide +kernel
  have hload : ({} : Sources).load selfIncludingDisk selfIncluding.identity =
      .ok (⟨0⟩, ({} : Sources).enter selfIncluding.identity selfIncluding.text rfl) := by
    cases hr : selfIncludingDisk.read selfIncluding.identity.path with
    | error e => rw [hr] at hread; cases hread
    | ok octets =>
      rw [hr] at hread
      have htext : Utf8.decode octets = selfIncluding.text := Except.ok.inj hread
      rw [Sources.load_new rfl hr, htext]
      rfl
  exact .processed ⟨0⟩ (.loaded (.new #[] {}) hload)

/-- The file asks for itself once more, and is neither read nor missed. -/
theorem selfIncluding_skip_unobservable :
    ∃ (skipped : Run Scan) (lines : Nat) (left : Run Scan),
      (⟨.plain, ⟨"a.h".toList, .quoted⟩⟩ : Request).handle
        (({} : HeaderSearch).resolve selfIncludingDisk) (.ofString "/")
        (host fun _ => throw .unterminated) selfIncludingScanned =
        .ok ⟨selfIncluding.identity, .skipped (.includeGuard ['A'])⟩ skipped ∧
      readInstead selfIncludingDisk {} selfIncluding.identity skipped =
        .ok ⟨false, some ['A']⟩ left ∧
      left.host.text = skipped.host.text ++ List.replicate lines '\n' := by
  have hhandle : (ended? ((⟨.plain, ⟨"a.h".toList, .quoted⟩⟩ : Request).handle
      (({} : HeaderSearch).resolve selfIncludingDisk) (.ofString "/")
      (host fun _ => throw .unterminated) selfIncludingScanned)).map
        (fun p => (p.1.file, p.1.action)) =
      some (selfIncluding.identity, .skipped (.includeGuard ['A'])) := by
    decide +kernel
  obtain ⟨⟨⟨file, action⟩, skipped⟩, hended, hvalue⟩ := Option.map_eq_some_iff.mp hhandle
  cases hvalue
  have hskip := eq_ok_of_ended? hended
  obtain ⟨lines, left, hread, _, htext, _⟩ := guard_skip_unobservable _ _ _ _
    selfIncludingScanned_reachable _ _ _ _ _ _ hskip
  exact ⟨skipped, lines, left, hskip, hread, htext⟩

end IncludeOnce
