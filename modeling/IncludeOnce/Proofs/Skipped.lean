import IncludeOnce.Proofs.Failure

/-! Text that is skipped.

Lines that are skipped change nothing but the state of their own file, and of that only the open
sections and the shape of the guard: whatever they say, no text is put out, no name defined, no
file asked for and nothing told (`step_skipped`). They are still followed as far as sections
go, so they can fail. A branch may be out of place. An `#elif` may come up in a section of which
no branch has been taken, so that it might end the skipping itself: its condition is evaluated,
and may have no value. And an `#ifdef` or `#ifndef` without a name fails although nothing hangs
on it, unlike an `#if`, which is not looked at (`FailsSkipped`).

`skipped_text_inert` says this of all lines up to the one that makes the file live again. That
no condition inside a section is evaluated that stands in skipped text itself rests on what
sections occur (`FileState.IsNested`). -/
namespace IncludeOnce
open Scan

/-! ### The sections that occur -/

/-- Open sections as they come about, innermost first: one that stands in text that is skipped
has no branch left to be taken, and stands in another one. -/
def Section.Nested : List Section → Prop
  | [] => True
  | s :: outer => (s.wasSkipping = true → s.taken = true ∧ outer ≠ []) ∧ Nested outer

/-- The state of a file as it comes about: nothing is skipped outside of all sections. -/
structure FileState.IsNested (st : FileState) : Prop where
  sections : Section.Nested st.sections
  skipping : st.skipping = true → st.sections ≠ []

theorem FileState.IsNested.initial : FileState.IsNested {} where
  sections := trivial
  skipping h := by cases h

section
variable {fs : FileSystem} {search : HeaderSearch} {reader : Reader} {file : Identity}
  {location : Location} {source : SourceId} {st after : FileState} {run left : Run Scan}

/-- A line that is no part of a section leaves the sections alone. -/
theorem step_plain_sections {p : Plain}
    (h : step fs search reader file location st p.line run = .ok after left) :
    after.sections = st.sections ∧ after.skipping = st.skipping := by
  cases hs : st.skipping with
  | true =>
    rw [step_dead fs search reader file hs location p 0] at h
    cases h
    exact ⟨rfl, hs⟩
  | false =>
    rw [step_live fs search reader file hs location p 0] at h
    obtain ⟨once, middle, _, h⟩ := bind_eq_ok h
    cases h
    exact ⟨rfl, hs⟩

theorem step_isNested {line : Line} (hst : st.IsNested)
    (h : step fs search reader file location st line run = .ok after left) : after.IsNested := by
  have hplain : ∀ p : Plain, line = p.line → after.IsNested := by
    rintro p rfl
    obtain ⟨hsections, hskipping⟩ := step_plain_sections h
    exact ⟨hsections ▸ hst.sections, by rw [hsections, hskipping]; exact hst.skipping⟩
  cases line with
  | text content => exact hplain (.text content) rfl
  | marker => exact hplain .marker rfl
  | unknown name => exact hplain (.unknown name) rfl
  | command c => exact hplain (.command c) rfl
  | opening t =>
    obtain ⟨_, _, _, h⟩ := bind_eq_ok h
    obtain ⟨holds, _, _, h⟩ := bind_eq_ok h
    cases h
    refine ⟨⟨fun hs => ⟨?_, hst.skipping hs⟩, hst.sections⟩, fun _ => List.cons_ne_nil _ _⟩
    have hs : st.skipping = true := hs
    simp [hs]
  | elseIf operand =>
    obtain ⟨_, _, _, h⟩ := bind_eq_ok h
    obtain ⟨s, outer, active, hs, _, rfl⟩ := elseIf_eq_ok (ofExcept_eq_ok h).1
    have hnested : Section.Nested (s :: outer) := hs ▸ hst.sections
    refine ⟨⟨fun hw => ?_, hnested.2⟩, fun _ => List.cons_ne_nil _ _⟩
    obtain ⟨htaken, houter⟩ := hnested.1 hw
    exact ⟨by simp [htaken], houter⟩
  | otherwise =>
    obtain ⟨s, outer, hs, _, rfl⟩ := otherwise_eq_ok (ofExcept_eq_ok h).1
    have hnested : Section.Nested (s :: outer) := hs ▸ hst.sections
    exact ⟨⟨fun hw => ⟨rfl, (hnested.1 hw).2⟩, hnested.2⟩, fun _ => List.cons_ne_nil _ _⟩
  | closing =>
    obtain ⟨s, outer, hs, rfl⟩ := closeSection_eq_ok (ofExcept_eq_ok h).1
    have hnested : Section.Nested (s :: outer) := hs ▸ hst.sections
    exact ⟨hnested.2, fun hw => (hnested.1 hw).2⟩

/-- Whatever lines a file begins with, its sections are nested behind them. -/
theorem scanLines_isNested {lines : List (Numbered Line)} (hst : st.IsNested)
    (h : scanLines fs search reader file source st lines run = .ok after left) :
    after.IsNested := by
  induction lines generalizing st run with
  | nil =>
    cases h
    exact hst
  | cons line rest ih =>
    obtain ⟨next, middle, hstep, hrest⟩ := bind_eq_ok h
    exact ih (step_isNested hst (onFailure_eq_ok hstep)) hrest

end

/-! ### One line -/

/-- Why a line fails in text that is skipped. -/
inductive FailsSkipped (macros : Macros) (st : FileState) : Line → ScanError → Prop
  /-- A branch is out of place: its section has had an `#else`. -/
  | afterElse {line : Line} {e : ScanError} {s : Section} {outer : List Section}
    (hline : line = .otherwise ∨ ∃ operand, line = .elseIf operand)
    (hsections : st.sections = s :: outer) (helse : s.sawElse = true)
    (h : e.code = "unbalanced_conditional") : FailsSkipped macros st line e
  /-- A condition has no value that is evaluated because the file is live if it holds: its
  section stands in live text, and no branch of it has been taken. -/
  | condition {operand : Text} {e : ScanError} {s : Section} {outer : List Section}
    (hsections : st.sections = s :: outer) (hlive : s.wasSkipping = false)
    (helse : s.sawElse = false) (htaken : s.taken = false)
    (h : Scan.condition macros operand = .error e) : FailsSkipped macros st (.elseIf operand) e
  /-- A test of a name has none. -/
  | unnamed {t : Test} (h : t.isNamed = false) :
    FailsSkipped macros st (.opening t) .expectedIdentifier

section
variable (fs : FileSystem) (search : HeaderSearch) (reader : Reader) (file : Identity)
  (location : Location)

/-- A test without a name fails, skipped or not. -/
theorem step_opening_unnamed (st : FileState) {t : Test} (h : t.isNamed = false)
    (run : Run Scan) :
    step fs search reader file location st (.opening t) run = .error .expectedIdentifier run := by
  have htest : Scan.test run.host.macros st.skipping t = .error .expectedIdentifier := by
    cases t with
    | condition operand => cases h
    | ifDefined operand =>
      have hnone : Identifier.first? operand = none := by simpa [Test.isNamed] using h
      simp only [Scan.test, identifier, hnone]
      rfl
    | ifUndefined operand =>
      have hnone : Identifier.first? operand = none := by simpa [Test.isNamed] using h
      simp only [Scan.test, identifier, hnone]
      rfl
  simp only [step, bind_apply, get_apply, htest]
  rfl

/-- **A line that is skipped changes only the state of its file,** and does not say that the file
is to be read once. -/
theorem step_skipped {st : FileState} (hst : st.IsNested) (hs : st.skipping = true) (line : Line)
    (run : Run Scan) :
    (∃ after, step fs search reader file location st line run = .ok after run ∧
      after.declaredOnce = st.declaredOnce) ∨
    ∃ e, step fs search reader file location st line run = .error e run ∧
      FailsSkipped run.host.macros st line e := by
  have hplain : ∀ p : Plain, ∃ after,
      step fs search reader file location st p.line run = .ok after run ∧
        after.declaredOnce = st.declaredOnce := fun p =>
    ⟨_, congrFun (step_dead fs search reader file hs location p 0) run, Bool.or_false _⟩
  obtain ⟨s, outer, hsections⟩ := List.exists_cons_of_ne_nil (hst.skipping hs)
  cases line with
  | text content => exact .inl (hplain (.text content))
  | marker => exact .inl (hplain .marker)
  | unknown name => exact .inl (hplain (.unknown name))
  | command c => exact .inl (hplain (.command c))
  | opening t =>
    cases hnamed : t.isNamed with
    | true =>
      exact .inl ⟨_, congrFun (step_opening_dead fs search reader file hs location ⟨t, hnamed⟩) run,
        rfl⟩
    | false =>
      exact .inr ⟨_, step_opening_unnamed fs search reader file location st hnamed run,
        .unnamed hnamed⟩
  | elseIf operand =>
    cases helse : s.sawElse with
    | true =>
      refine .inr ⟨.elseIfAfterElse, ?_, .afterElse (.inr ⟨operand, rfl⟩) hsections helse rfl⟩
      simp only [step, bind_apply, get_apply, FileState.elseIf, FileState.branchable, hsections,
        helse, if_true]
      rfl
    | false =>
      cases htaken : s.taken with
      | true =>
        exact .inl ⟨_, congrFun (step_elseIf_taken fs search reader file hsections helse htaken
          location operand) run, rfl⟩
      | false =>
        have hlive : s.wasSkipping = false := by
          have hnested : Section.Nested (s :: outer) := hsections ▸ hst.sections
          cases hw : s.wasSkipping with
          | false => rfl
          | true => exact absurd ((hnested.1 hw).1.symm.trans htaken) (by decide)
        rw [step_elseIf_untaken fs search reader file hsections helse htaken location operand]
        simp only [holds, bind_apply, get_apply]
        cases hc : Scan.condition run.host.macros operand with
        | ok b => exact .inl ⟨_, rfl, rfl⟩
        | error e => exact .inr ⟨e, rfl, .condition hsections hlive helse htaken hc⟩
  | otherwise =>
    cases helse : s.sawElse with
    | true =>
      refine .inr ⟨.elseAfterElse, ?_, .afterElse (.inl rfl) hsections helse rfl⟩
      simp only [step, FileState.otherwise, FileState.branchable, hsections, helse, if_true]
      rfl
    | false =>
      simp only [step, FileState.otherwise, FileState.branchable, hsections, helse,
        Bool.false_eq_true, if_false]
      exact .inl ⟨_, rfl, rfl⟩
  | closing =>
    exact .inl ⟨_, congrFun (step_closing fs search reader file hsections location 0) run,
      Bool.or_false _⟩

end

/-! ### Lines up to one that is live -/

section
variable (fs : FileSystem) (search : HeaderSearch) (reader : Reader) (file : Identity)
  (source : SourceId)

/-- The file is skipped before each of these lines, so that none of them but the last can make
it live. -/
def SkippedOver (st : FileState) (run : Run Scan) : List (Numbered Line) → Prop
  | [] => True
  | line :: rest => st.skipping = true ∧ ∀ after left,
      step fs search reader file ⟨source, line.line⟩ st line.content run = .ok after left →
        SkippedOver after left rest

theorem SkippedOver.cons {st after : FileState} {run left : Run Scan} {line : Numbered Line}
    {rest : List (Numbered Line)} (hs : st.skipping = true)
    (hstep : step fs search reader file ⟨source, line.line⟩ st line.content run = .ok after left)
    (hrest : SkippedOver fs search reader file source after left rest) :
    SkippedOver fs search reader file source st run (line :: rest) := by
  refine ⟨hs, ?_⟩
  intro after' left' h
  rw [hstep] at h
  cases h
  exact hrest

/-- Lines that are skipped come to their end and leave everything as it was, or one of them fails
and nothing but that is noted. -/
theorem scanLines_skipped {st : FileState} (hst : st.IsNested) (run : Run Scan)
    {lines : List (Numbered Line)}
    (hlines : SkippedOver fs search reader file source st run lines) :
    (∃ after, scanLines fs search reader file source st lines run = .ok after run ∧
      after.declaredOnce = st.declaredOnce ∧ after.IsNested) ∨
    ∃ front line back middle e, lines = front ++ line :: back ∧
      scanLines fs search reader file source st front run = .ok middle run ∧
      scanLines fs search reader file source st lines run =
        .error e (run.mapHost (·.fail ⟨source, line.line⟩)) ∧
      FailsSkipped run.host.macros middle line.content e := by
  induction lines generalizing st with
  | nil => exact .inl ⟨st, rfl, rfl, hst⟩
  | cons line rest ih =>
    obtain ⟨hs, hrest⟩ := hlines
    rcases step_skipped fs search reader file ⟨source, line.line⟩ hst hs line.content run with
      ⟨after, hstep, honce⟩ | ⟨e, hstep, hfails⟩
    · have hscan : ∀ more, scanLines fs search reader file source st (line :: more) run =
          scanLines fs search reader file source after more run := fun more =>
        scanLines_step fs search reader file hstep
      rcases ih (step_isNested hst hstep) (hrest after run hstep) with
        ⟨last, hlast, hlater, hnested⟩ | ⟨front, bad, back, middle, e, rfl, hfront, hbad, hfails⟩
      · exact .inl ⟨last, (hscan rest).trans hlast, hlater.trans honce, hnested⟩
      · exact .inr ⟨line :: front, bad, back, middle, e, rfl, (hscan front).trans hfront,
          (hscan _).trans hbad, hfails⟩
    · exact .inr ⟨[], line, rest, st, e, rfl, rfl, scanLines_fails fs search reader file hstep,
        hfails⟩

/-- **Text that is skipped is inert.** Take a file that is skipped behind some of its lines, and
the lines after these up to the one that makes it live again. Where they are scanned to their
end, nothing in the state of the scan has changed, and the file has not been said to be read
once; if it ends there, still skipped, a section is open. Where one of them fails, nothing but
the failure is noted, and that is one of `FailsSkipped`. A test without a name does fail. -/
theorem skipped_text_inert {before lines : List (Numbered Line)} {start run : Run Scan}
    {st : FileState}
    (hbefore : scanLines fs search reader file source {} before start = .ok st run)
    (hlines : SkippedOver fs search reader file source st run lines) :
    (∀ after left, scanLines fs search reader file source st lines run = .ok after left →
      left = run ∧ after.declaredOnce = st.declaredOnce ∧
      (after.skipping = true → ∃ s outer, after.sections = s :: outer ∧
        after.finish run = .error .unterminated (run.mapHost (·.fail s.opened)) ∧
        ScanError.unterminated.code = "unbalanced_conditional")) ∧
    (∀ e left, scanLines fs search reader file source st lines run = .error e left →
      ∃ front line back middle, lines = front ++ line :: back ∧
        scanLines fs search reader file source st front run = .ok middle run ∧
        left = run.mapHost (·.fail ⟨source, line.line⟩) ∧
        FailsSkipped run.host.macros middle line.content e) ∧
    ∀ front number t back middle, lines = front ++ ⟨number, .opening t⟩ :: back →
      scanLines fs search reader file source st front run = .ok middle run →
      t.isNamed = false →
      scanLines fs search reader file source st lines run =
        .error .expectedIdentifier (run.mapHost (·.fail ⟨source, number⟩)) := by
  have hst : st.IsNested := scanLines_isNested .initial hbefore
  have hscan := scanLines_skipped fs search reader file source hst run hlines
  refine ⟨?_, ?_, ?_⟩
  · intro after left hok
    rcases hscan with ⟨last, hlast, honce, hnested⟩ | ⟨_, _, _, _, _, _, _, hbad, _⟩
    · rw [hlast] at hok
      cases hok
      refine ⟨rfl, honce, ?_⟩
      intro hs
      obtain ⟨s, outer, hsections⟩ := List.exists_cons_of_ne_nil (hnested.skipping hs)
      refine ⟨s, outer, hsections, ?_, rfl⟩
      rw [FileState.finish, hsections]
      rfl
    · rw [hbad] at hok
      cases hok
  · intro e left herror
    rcases hscan with ⟨last, hlast, _⟩ | ⟨front, line, back, middle, e', hsplit, hfront, hbad, hfails⟩
    · rw [hlast] at herror
      cases herror
    · rw [hbad] at herror
      cases herror
      exact ⟨front, line, back, middle, hsplit, hfront, rfl, hfails⟩
  · rintro front number t back middle rfl hfront hunnamed
    rw [scanLines_append, bind_apply, hfront]
    exact scanLines_fails fs search reader file
      (step_opening_unnamed fs search reader file ⟨source, number⟩ middle hunnamed run)

end

/-- Much in a section that cannot be read, and its other branch. -/
def skippedFile : SourceFile :=
  .entered ⟨0⟩ (.ofCanonical (.ofString "/s.c"))
    "#ifdef A\n#if (\n#error no\n#endif\n#pragma once\n#bad\n#else\n".toList

/-- The lines of this file after the first. -/
def skippedLines : List (Numbered Line) :=
  [⟨2, .opening (.condition ['('])⟩, ⟨3, .command (.error "no".toList)⟩, ⟨4, .closing⟩,
    ⟨5, .command (.pragma "once".toList)⟩, ⟨6, .unknown "bad".toList⟩, ⟨7, .otherwise⟩]

theorem skippedLines_inert :
    Line.ofText skippedFile.text = ⟨1, .opening (.ifDefined ['A'])⟩ :: skippedLines ∧
      ∃ st after, scanLines {} {} none skippedFile.identity ⟨0⟩ {}
          [⟨1, .opening (.ifDefined ['A'])⟩] (runOn skippedFile) = .ok st (runOn skippedFile) ∧
        SkippedOver {} {} none skippedFile.identity ⟨0⟩ st (runOn skippedFile) skippedLines ∧
        scanLines {} {} none skippedFile.identity ⟨0⟩ st skippedLines (runOn skippedFile) =
          .ok after (runOn skippedFile) ∧
        after.skipping = false ∧ after.declaredOnce = st.declaredOnce := by
  let st : FileState :=
    { sections := [⟨⟨⟨0⟩, 1⟩, false, false, false⟩], skipping := true, shape := .broken }
  have hbefore : scanLines {} {} none skippedFile.identity ⟨0⟩ {}
      [⟨1, .opening (.ifDefined ['A'])⟩] (runOn skippedFile) = .ok st (runOn skippedFile) := rfl
  have hlines : SkippedOver {} {} none skippedFile.identity ⟨0⟩ st (runOn skippedFile)
      skippedLines := by
    iterate 6 refine .cons _ _ _ _ _ rfl rfl ?_
    trivial
  have hscan : scanLines {} {} none skippedFile.identity ⟨0⟩ st skippedLines (runOn skippedFile) =
      .ok _ (runOn skippedFile) := rfl
  obtain ⟨_, honce, _⟩ := (skipped_text_inert {} {} none _ ⟨0⟩ hbefore hlines).1 _ _ hscan
  exact ⟨by decide, st, _, hbefore, hlines, hscan, rfl, honce⟩

/-- A test without a name in a section that is skipped. -/
def unnamedTest : SourceFile :=
  .entered ⟨0⟩ (.ofCanonical (.ofString "/u.c")) "#ifdef A\n#ifdef\n#endif\n#endif\nx\n".toList

/-- Not only what is out of place fails in text that is skipped. -/
theorem unnamedTest_fails_skipped :
    ∃ st left, scanLines {} {} none unnamedTest.identity ⟨0⟩ {}
        ((Line.ofText unnamedTest.text).take 1) (runOn unnamedTest) = .ok st (runOn unnamedTest) ∧
      st.skipping = true ∧
      scanFile {} {} none unnamedTest.identity ⟨0⟩ (runOn unnamedTest) =
        .error .expectedIdentifier left ∧
      ScanError.expectedIdentifier.code ≠ "unbalanced_conditional" :=
  ⟨_, _, rfl, rfl, rfl, by decide⟩

end IncludeOnce
