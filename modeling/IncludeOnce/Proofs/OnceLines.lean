import IncludeOnce.Proofs.Failure
import IncludeOnce.Proofs.History
import IncludeOnce.Proofs.RoundTrip

/-! The lines that lock files.

The journal says of a file that a line of it has locked it. `Locks` says when that is so, in
terms of the files alone: the scan comes, in the file that is open or in one that is read in
place of a line, to a live line `#pragma once`. The entries of a scan that say so are just
those lines, one for each, and each stands in the journal where its line was come to
(`process_locked_iff`). So a file has been locked by a line just if a live line of it says so
(`process_locks_iff`). Which lines say so is told by their characters
(`Line.saysOnce_ofStripped_iff`). -/
namespace IncludeOnce
open Scan

/-! ### How such a line is written -/

namespace Line

theorem saysOnce_ofDirective_iff {name operand : Text} :
    (ofDirective name operand).saysOnce = true ↔
      name = "pragma".toList ∧ (Identifier.split operand).1 = "once".toList := by
  by_cases hname : name = "pragma".toList
  · subst hname
    have hline : ofDirective "pragma".toList operand = .command (.pragma operand) := rfl
    rw [hline]
    simp [saysOnce, Command.saysOnce]
  · have hnone : (ofDirective name operand).saysOnce = false := by
      simp only [ofDirective, if_neg hname, apply_ite saysOnce]
      simp only [saysOnce, Command.saysOnce, ite_self]
    rw [hnone]
    simp only [hname, false_and, Bool.false_eq_true]

/-- A line says that its file is to be read once just if it is the mark, the word `pragma` and
the word `once`, whatever stands behind that word. -/
theorem saysOnce_ofStripped_iff {stripped : Text} :
    (ofStripped stripped).saysOnce = true ↔
      ∃ more, Identifier.Stops more ∧
        Names stripped "pragma".toList ("once".toList ++ more) := by
  constructor
  · intro honce
    obtain ⟨c, hc⟩ : ∃ c, ofStripped stripped = .command c := by
      cases hline : ofStripped stripped with
      | command c => exact ⟨c, rfl⟩
      | _ =>
        rw [hline] at honce
        cases honce
    obtain ⟨name, operand, hdirective, hnames⟩ := ofStripped_eq_command hc
    rw [hc, ← hdirective] at honce
    obtain ⟨rfl, hword⟩ := saysOnce_ofDirective_iff.mp honce
    obtain ⟨_, more, hstops, rfl⟩ := (Identifier.split_fst_eq_iff (by decide)).mp hword
    exact ⟨more, hstops, hnames⟩
  · rintro ⟨more, hstops, hnames⟩
    have hend : Text.trimEnd ("once".toList ++ more) = "once".toList ++ more.trimEnd :=
      Text.trimEnd_append_cons (c := 'e') (by decide) "onc".toList more
    have htight : Text.IsTight (Text.trimEnd ("once".toList ++ more)) :=
      Text.isTight_trimEnd (c := 'o') (by decide) ("nce".toList ++ more)
    obtain ⟨right, _, hright⟩ := Text.exists_trimEnd_append more
    rw [hright] at hstops
    rw [hnames.trimEnd.ofStripped_eq (by decide) htight, saysOnce_ofDirective_iff, hend]
    exact ⟨rfl, (Identifier.split_fst_eq_iff (by decide)).mpr ⟨by decide, _, hstops.left, rfl⟩⟩

end Line

/-! ### Lines that are come to -/

/-- The scan of an open file comes to a live line that says that its file is to be read once:
the file of that line, and the state in which it is come to. -/
inductive Locks (fs : FileSystem) (settings : Settings) :
    Identity → SourceId → Text → Run Scan → Identity → Run Scan → Prop
  /-- The line is one of the open file. -/
  | here {file : Identity} {source : SourceId} {text : Text} {opened moment : Run Scan}
    {line : Numbered Line} {st : FileState}
    (hcomes : ComesTo fs settings file source text opened line st moment)
    (hlive : st.skipping = false) (honce : line.content.saysOnce = true) :
    Locks fs settings file source text opened file moment
  /-- The line stands in a file that is read in place of a line. -/
  | inside {file f g : Identity} {source inner : SourceId} {text operand trailing : Text}
    {kind : RequestKind} {header : HeaderName} {sources : Sources} {loaded : SourceFile}
    {opened middle moment : Run Scan} {line : Numbered Line} {st : FileState}
    (hcomes : ComesTo fs settings file source text opened line st middle)
    (hasked : line.content.asked? st = some (kind, operand))
    (hopens : Opens fs settings file ⟨source, line.line⟩ kind operand middle header trailing f inner
      sources loaded)
    (hinner : Locks fs settings f inner loaded.text
      (openedInside middle file ⟨source, line.line⟩ kind header trailing f sources) g moment) :
    Locks fs settings file source text opened g moment

/-! ### Entries that lock are made by such lines -/

section
variable {fs : FileSystem} {settings : Settings} {file f g : Identity} {location : Location}
  {source inner : SourceId} {kind : RequestKind} {operand trailing : Text} {header : HeaderName}
  {st : FileState} {lines : List (Numbered Line)} {run middle left : Run Scan} {e : ScanError}
  {sources : Sources} {trail : List (Run Scan)} {before whole : List Journal.Entry}
  {r : EStateM.Result ScanError (Run Scan) FileState}

/-- What has been noted since locks no file. -/
def LocksNone (run after : Run Scan) : Prop :=
  ∃ entries, after.journal.toList = run.journal.toList ++ entries ∧
    ∀ g, .lockedByPragma g ∉ entries

theorem LocksNone.journal (h : LocksNone run middle) :
    run.journal.toList <+: middle.journal.toList := by
  obtain ⟨entries, hentries, _⟩ := h
  exact ⟨entries, hentries.symm⟩

/-- What has been noted by some moment ends before an entry, or has that entry in it. -/
theorem behind_or_within {later : List Journal.Entry} {a : Journal.Entry}
    (hlater : later <+: whole) (hnext : before ++ [a] <+: whole) :
    later <+: before ∨ before ++ [a] <+: later := by
  rcases List.prefix_or_prefix_of_prefix hlater hnext with h | h
  · rcases List.prefix_concat_iff.mp h with rfl | h
    · exact .inr List.prefix_rfl
    · exact .inl h
  · exact .inr h

/-- Where the next entry locks a file, all that locks none has been noted before. -/
theorem LocksNone.noted (h : LocksNone run middle) (hbefore : run.journal.toList <+: before)
    (hnext : before ++ [.lockedByPragma g] <+: whole)
    (hmiddle : middle.journal.toList <+: whole) : middle.journal.toList <+: before := by
  obtain ⟨entries, hentries, hnone⟩ := h
  rcases behind_or_within hmiddle hnext with hbehind | hwithin
  · exact hbehind
  · obtain ⟨more, rfl⟩ := hbefore
    rw [hentries, List.append_assoc, List.prefix_append_right_inj] at hwithin
    exact absurd (hwithin.subset (by simp)) (hnone g)

/-- It does not lock a file next. -/
theorem LocksNone.not_noted (h : LocksNone run left) (hbefore : run.journal.toList <+: before) :
    ¬ before ++ [.lockedByPragma g] <+: left.journal.toList := by
  intro hnext
  exact not_next (hnext.trans (h.noted hbefore hnext List.prefix_rfl))

theorem Refused.locksNone (h : Refused fs settings file location kind operand run e left) :
    LocksNone run left := by
  cases h with
  | malformed hread => exact ⟨[], (List.append_nil _).symm, by simp⟩
  | @tooDeep header trailing hread hdeep =>
    obtain ⟨d, hd⟩ := warned_eq run location kind trailing
    rw [stoppedInside, hd]
    exact ⟨_, Array.toList_push, by simp⟩
  | unresolved hread hroom hresolve => exact ⟨_, soughtInside_journal .., by simp⟩
  | unreadable hmeans hdecide hload => exact ⟨_, begunInside_journal .., by simp⟩

/-- A line that asks for nothing makes the next entry that locks a file, or has been handled
before that. -/
theorem step_locks {search : HeaderSearch} {reader : Reader} {line : Line}
    (hasked : line.asked? st = none)
    (hstep : leftBy (step fs search reader file location st line run) = left)
    (hbefore : run.journal.toList <+: before)
    (hnext : before ++ [.lockedByPragma g] <+: whole) (hleft : left.journal.toList <+: whole) :
    (run.journal.toList = before ∧ st.skipping = false ∧ line.saysOnce = true ∧ g = file) ∨
      left.journal.toList <+: before := by
  have hjournal := Effect.on_journal (line.effect file run.host.macros st.skipping) file location
    run
  rw [leftBy_step fs search reader file location hasked] at hstep
  rw [hstep] at hjournal
  cases hentry : (line.effect file run.host.macros st.skipping).entry with
  | none =>
    rw [hentry, Option.toList_none, List.append_nil] at hjournal
    exact .inr (hjournal ▸ hbefore)
  | some entry =>
    rw [hentry, Option.toList_some] at hjournal
    rcases behind_or_within hleft hnext with hbehind | hwithin
    · exact .inr hbehind
    · rw [hjournal] at hwithin
      have hnow : run.journal.toList = before :=
        hbefore.eq_of_length_le (by simpa using hwithin.length_le)
      have hlocks : entry = .lockedByPragma g := next_unique List.prefix_rfl (hnow ▸ hwithin)
      exact .inl ⟨hnow, Line.effect_entry_eq_locked.mp (hlocks ▸ hentry)⟩

/-- The next entry that locks a file is made while the file that is opened is read, or after
that. -/
theorem Course.locks_opened {text : Text} {inside : List (Run Scan)}
    (h : Course fs settings f inner {} (Line.ofText text)
      (openedInside run file location kind header trailing f sources) inside r)
    (hinner : (openedInside run file location kind header trailing f sources).journal.toList <+:
        before → before ++ [.lockedByPragma g] <+: (leftBy r).journal.toList →
      ∃ moment, Locks fs settings f inner text
        (openedInside run file location kind header trailing f sources) g moment ∧
          moment.journal.toList = before)
    (hbefore : run.journal.toList <+: before)
    (hnext : before ++ [.lockedByPragma g] <+: whole)
    (hleft : (leftBy (leave r)).journal.toList <+: whole) :
    (∃ moment, Locks fs settings f inner text
        (openedInside run file location kind header trailing f sources) g moment ∧
          moment.journal.toList = before) ∨
      (leftBy (leave r)).journal.toList <+: before := by
  have hopened : LocksNone run (openedInside run file location kind header trailing f sources) :=
    ⟨_, begunInside_journal .., by simp⟩
  rw [leave_journal_eq] at hleft ⊢
  rcases behind_or_within hleft hnext with hbehind | hwithin
  · exact .inr hbehind
  · exact .inl (hinner (hopened.noted hbefore hnext (h.journal.trans hleft)) hwithin)

/-- **An entry that locks a file is made by a live line of the file** that says so, when that
line is come to. -/
theorem Course.locks (h : Course fs settings file source st lines run trail r) :
    ∀ text opened front, Line.ofText text = front ++ lines →
      scanLines fs settings.search (readerIn fs settings opened) file source {} front opened =
        .ok st run →
      ∀ g before, run.journal.toList <+: before →
        before ++ [.lockedByPragma g] <+: (leftBy r).journal.toList →
        ∃ moment, Locks fs settings file source text opened g moment ∧
          moment.journal.toList = before := by
  -- Along the course, what has been noted never reaches beyond `before`, until the line is come
  -- to with just that noted.
  induction h with
  | done =>
    intro text opened front hlines hfront g before hbefore hnext
    exact absurd (hnext.trans hbefore) not_next
  | line hasked hstep hrest ih =>
    intro text opened front hlines hfront g before hbefore hnext
    obtain ⟨hlines', hfront'⟩ := Course.onward hlines hfront (.line hasked hstep (.done _ _ _ _))
    obtain ⟨hnow, hlive, honce, rfl⟩ | hmiddle :=
      step_locks hasked (congrArg leftBy hstep) hbefore hnext hrest.journal
    · exact ⟨_, .here ⟨front, _, hlines, hfront⟩ hlive honce, hnow⟩
    · exact ih text opened _ hlines' hfront' g before hmiddle hnext
  | fails hasked hstep =>
    intro text opened front hlines hfront g before hbefore hnext
    obtain ⟨hnow, hlive, honce, rfl⟩ | hleft :=
      step_locks hasked (congrArg leftBy hstep) hbefore hnext List.prefix_rfl
    · exact ⟨_, .here ⟨front, _, hlines, hfront⟩ hlive honce, hnow⟩
    · exact absurd (hnext.trans hleft) not_next
  | refused hasked hrefused =>
    intro text opened front hlines hfront g before hbefore hnext
    exact absurd hnext (hrefused.locksNone.not_noted hbefore)
  | @dropped file f source st line rest kind operand trailing header reason run trail r hasked
      hmeans hdecide hrest ih =>
    intro text opened front hlines hfront g before hbefore hnext
    obtain ⟨hlines', hfront'⟩ :=
      Course.onward hlines hfront (.dropped hasked hmeans hdecide (.done _ _ _ _))
    have hdropped : LocksNone run
        (droppedInside run file ⟨source, line.line⟩ kind header trailing f reason) :=
      ⟨_, droppedInside_journal .., by simp⟩
    exact ih text opened _ hlines' hfront' g before (hdropped.noted hbefore hnext hrest.journal)
      hnext
  | @entered file f source inner st line rest kind operand trailing header sources loaded report
      run left inside trail r r' hasked hopens hinner hleave hrest ihinner ihrest =>
    intro text opened front hlines hfront g before hbefore hnext
    obtain ⟨hlines', hfront'⟩ :=
      Course.onward hlines hfront (.entered hasked hopens hinner hleave (.done _ _ _ _))
    have hfinished : LocksNone left (finishedInside run f report left) :=
      ⟨[.finished f report], Array.toList_push, by simp⟩
    have hleft : (leftBy (leave r')).journal.toList <+: (leftBy r).journal.toList := by
      rw [hleave]
      exact List.IsPrefix.trans ⟨_, Array.toList_push.symm⟩ hrest.journal
    obtain ⟨moment, hlocks, hmoment⟩ | hbehind :=
      hinner.locks_opened (ihinner _ _ [] rfl rfl g before) hbefore hnext hleft
    · exact ⟨moment, .inside ⟨front, _, hlines, hfront⟩ hasked hopens hlocks, hmoment⟩
    · rw [hleave] at hbehind
      exact ihrest text opened _ hlines' hfront' g before
        (hfinished.noted hbehind hnext hrest.journal) hnext
  | stopped hasked hopens hinner hleave ihinner =>
    intro text opened front hlines hfront g before hbefore hnext
    have hleft := congrArg (·.journal.toList) (congrArg leftBy hleave)
    obtain ⟨moment, hlocks, hmoment⟩ | hbehind :=
      hinner.locks_opened (ihinner _ _ [] rfl rfl g before) hbefore hnext
        (by rw [hleft]; exact List.prefix_rfl)
    · exact ⟨moment, .inside ⟨front, _, hlines, hfront⟩ hasked hopens hlocks, hmoment⟩
    · rw [hleft] at hbehind
      exact absurd (hnext.trans hbehind) not_next

/-! ### Such lines make entries -/

/-- What remains of a scan when a line is come to. -/
theorem ComesTo.remains {text : Text} {opened moment : Run Scan} {line : Numbered Line}
    (h : ComesTo fs settings file source text opened line st moment) :
    ∃ back, scanLines fs settings.search (readerIn fs settings opened) file source {}
        (Line.ofText text) opened =
      scanLines fs settings.search (readerIn fs settings moment) file source st (line :: back)
        moment := by
  obtain ⟨front, back, hlines, hfront⟩ := h
  refine ⟨back, ?_⟩
  rw [hlines, scanLines_append, bind_apply, hfront, readerIn_congr (scanLines_smooth hfront).stack]

/-- Nothing is struck from the journal on the way to a line. -/
theorem ComesTo.journal {text : Text} {opened moment : Run Scan} {line : Numbered Line}
    (h : ComesTo fs settings file source text opened line st moment) :
    opened.journal.toList <+: moment.journal.toList := by
  obtain ⟨front, back, _, hfront⟩ := h
  obtain ⟨trail, hcourse⟩ := exists_course fs settings file source {} front opened
  have hjournal := hcourse.journal
  rw [hfront] at hjournal
  exact hjournal

/-- What a line that asks for nothing has noted stays noted. -/
theorem Course.step_journal {line : Numbered Line} {rest : List (Numbered Line)}
    (h : Course fs settings file source st (line :: rest) run trail r)
    (hasked : line.content.asked? st = none) :
    (leftBy (step fs settings.search none file ⟨source, line.line⟩ st line.content
      run)).journal.toList <+: (leftBy r).journal.toList := by
  cases h with
  | line _ hstep hrest =>
    rw [hstep]
    exact hrest.journal
  | fails _ hstep =>
    rw [hstep]
    exact List.prefix_rfl
  | refused hasked' _ => cases hasked.symm.trans hasked'
  | dropped hasked' _ _ _ => cases hasked.symm.trans hasked'
  | entered hasked' _ _ _ _ => cases hasked.symm.trans hasked'
  | stopped hasked' _ _ _ => cases hasked.symm.trans hasked'

/-- What has been noted inside a file that is read in place of a line stays noted. -/
theorem Opens.journal {line : Numbered Line} {loaded : SourceFile}
    (h : Opens fs settings file ⟨source, line.line⟩ kind operand run header trailing f inner sources
      loaded)
    (hasked : line.content.asked? st = some (kind, operand)) (rest : List (Numbered Line)) :
    (leftBy (scanLines fs settings.search (readerIn fs settings
        (openedInside run file ⟨source, line.line⟩ kind header trailing f sources)) f inner {}
        (Line.ofText loaded.text)
        (openedInside run file ⟨source, line.line⟩ kind header trailing f
          sources))).journal.toList <+:
      (leftBy (scanLines fs settings.search (readerIn fs settings run) file source st (line :: rest)
        run)).journal.toList := by
  have hstack := h.closed
  rw [← leave_journal_eq, ← h.includeFile_eq]
  cases hinclude : includeFile fs settings f
      (begunInside run file ⟨source, line.line⟩ kind header trailing f) with
  | ok report left =>
    have hfinished : (finishedInside run f report left).host.stack = run.host.stack := by
      rw [hinclude] at hstack
      exact hstack
    obtain ⟨trail, hcourse⟩ := exists_course fs settings file source (st.asked kind operand) rest
      (finishedInside run f report left)
    rw [readerIn_congr hfinished] at hcourse
    rw [scanLines_answered fs settings.search _ file hasked (h.request_ok hinclude)]
    exact List.IsPrefix.trans ⟨_, Array.toList_push.symm⟩ hcourse.journal
  | error e left =>
    rw [scanLines_unanswered fs settings.search _ file hasked (h.request_error hinclude)]
    exact List.prefix_rfl

theorem Line.asked?_eq_none_of_saysOnce {line : Line} (honce : line.saysOnce = true) :
    line.asked? st = none := by
  cases line with
  | command c =>
    cases c with
    | pragma operand => rfl
    | _ => cases honce
  | _ => cases honce

variable {text : Text} {opened moment : Run Scan}

/-- **A live line that says so makes an entry that locks its file**, and makes it when it is
come to. -/
theorem Locks.noted (h : Locks fs settings file source text opened g moment) :
    moment.journal.toList ++ [.lockedByPragma g] <+:
      (leftBy (scanLines fs settings.search (readerIn fs settings opened) file source {}
        (Line.ofText text) opened)).journal.toList := by
  induction h with
  | @here file source text opened moment line st hcomes hlive honce =>
    obtain ⟨back, hremains⟩ := hcomes.remains
    obtain ⟨trail, hcourse⟩ := exists_course fs settings file source st (line :: back) moment
    have hasked : line.content.asked? st = none := Line.asked?_eq_none_of_saysOnce honce
    have hentry : (line.content.effect file moment.host.macros st.skipping).entry =
        some (.lockedByPragma file) := Line.effect_entry_eq_locked.mpr ⟨hlive, honce, rfl⟩
    have hstep := hcourse.step_journal hasked
    rw [leftBy_step fs settings.search none file _ hasked, Effect.on_journal, hentry] at hstep
    rw [hremains]
    exact hstep
  | inside hcomes hasked hopens hinner ih =>
    obtain ⟨back, hremains⟩ := hcomes.remains
    rw [hremains]
    exact ih.trans (hopens.journal hasked back)

theorem Locks.journal (h : Locks fs settings file source text opened g moment) :
    opened.journal.toList <+: moment.journal.toList := by
  induction h with
  | here hcomes hlive honce => exact hcomes.journal
  | inside hcomes hasked hopens hinner ih =>
    exact hcomes.journal.trans (List.IsPrefix.trans ⟨_, (begunInside_journal ..).symm⟩ ih)

end

/-! ### The history of a main file -/

section
variable {fs : FileSystem} {settings : Settings} {source : SourceId} {main : SourceFile}
  {run : Run Scan} {history before : List Journal.Entry} {f g : Identity}

/-- The end of a main file locks no file. -/
theorem endMain_locksNone (file : Identity) (r : EStateM.Result ScanError (Run Scan) FileState) :
    LocksNone (leftBy r) (leftBy (endMain file (leave r))) := by
  have hjournal := leave_journal_eq r
  cases hleave : leave r with
  | ok report left =>
    rw [hleave] at hjournal
    refine ⟨[.mainEnded file report], ?_, by simp⟩
    show (left.journal.push _).toList = _
    rw [Array.toList_push, ← hjournal]
    rfl
  | error e left =>
    rw [hleave] at hjournal
    refine ⟨[], ?_, by simp⟩
    rw [List.append_nil, ← hjournal]
    rfl

/-- **The entries of a scan that lock files are the live lines that say so**, one for each of
them, and each stands in the history where its line was come to. -/
theorem process_locked_iff (hmain : run.host.sources.file? source = some main)
    (hhistory : (leftBy (process fs settings source run)).journal.toList =
      run.journal.toList ++ history) :
    before ++ [.lockedByPragma g] <+: history ↔
      ∃ moment, Locks fs settings main.identity source main.text (run.mainOpened main.identity) g
        moment ∧ moment.journal.toList = run.journal.toList ++ before := by
  have hopened : LocksNone run (run.mainOpened main.identity) :=
    ⟨[.mainBegun main.identity], Array.toList_push, by simp⟩
  obtain ⟨trail, hcourse⟩ := exists_course fs settings main.identity source {}
    (Line.ofText main.text) (run.mainOpened main.identity)
  have hended := endMain_locksNone main.identity (scanLines fs settings.search
    (readerIn fs settings (run.mainOpened main.identity)) main.identity source {}
    (Line.ofText main.text) (run.mainOpened main.identity))
  rw [← process_main fs settings run hmain] at hended
  have hlines := hended.journal
  rw [hhistory] at hlines
  rw [← List.prefix_append_right_inj run.journal.toList, ← List.append_assoc]
  constructor
  · intro hnext
    have hbegun := hopened.noted (List.prefix_append _ _) hnext (hcourse.journal.trans hlines)
    refine hcourse.locks main.text _ [] rfl rfl g _ hbegun ?_
    rcases behind_or_within hlines hnext with hbehind | hwithin
    · rw [← hhistory] at hnext
      exact absurd hnext (hended.not_noted hbehind)
    · exact hwithin
  · rintro ⟨moment, hlocks, hmoment⟩
    rw [← hmoment]
    exact hlocks.noted.trans hlines

/-- A file has been locked by a line just if the scan has come to a live line of it that says
so. -/
theorem process_locks_iff (hmain : run.host.sources.file? source = some main)
    (hhistory : (leftBy (process fs settings source run)).journal.toList =
      run.journal.toList ++ history) :
    history.any (·.locks f) = true ↔
      ∃ g moment, Locks fs settings main.identity source main.text (run.mainOpened main.identity) g
        moment ∧ g.isSame f = true := by
  rw [List.any_eq_true]
  constructor
  · rintro ⟨entry, hentry, hlocks⟩
    obtain ⟨g, rfl, hsame⟩ : ∃ g, entry = .lockedByPragma g ∧ g.isSame f = true := by
      cases entry with
      | lockedByPragma g => exact ⟨g, rfl, hlocks⟩
      | _ => cases hlocks
    obtain ⟨before, after, rfl⟩ := List.append_of_mem hentry
    have hnext : before ++ [.lockedByPragma g] <+: before ++ .lockedByPragma g :: after :=
      ⟨after, by simp⟩
    obtain ⟨moment, hlocks, _⟩ := (process_locked_iff hmain hhistory).mp hnext
    exact ⟨g, moment, hlocks, hsame⟩
  · rintro ⟨g, moment, hlocks, hsame⟩
    obtain ⟨before, hbefore⟩ : run.journal.toList <+: moment.journal.toList :=
      List.IsPrefix.trans ⟨_, Array.toList_push.symm⟩ hlocks.journal
    have hnext := (process_locked_iff hmain hhistory).mpr ⟨moment, hlocks, hbefore.symm⟩
    exact ⟨.lockedByPragma g, hnext.subset (by simp), hsame⟩

end

end IncludeOnce
