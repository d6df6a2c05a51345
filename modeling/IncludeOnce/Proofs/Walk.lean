import IncludeOnce.Proofs.Group

/-! Walking a group.

`Group.run` walks a live group. Of a section it evaluates the tests in order up to the
first that holds, runs the group behind that test, or the one after `#else` when none
holds, and leaves the other groups alone.

The scanner keeps no tree. It keeps one bit that says whether text is live and a
stack of open sections, and looks at each line once. `scanFile_walks_groups` says
that this comes to the same: on a file that is a group the scan is the walk, result
and state alike, and a file that is no group is never scanned to its end. -/
namespace IncludeOnce
open Scan

section Walk
variable (fs : FileSystem) (search : HeaderSearch) (reader : Reader) (file : Identity)
  (source : SourceId)

/-- A live line, and whether it says that the file is to be read once. -/
def Plain.run (location : Location) : Plain → ScanM Bool
  | .text content => do
    change (·.write content.trimEnd)
    return false
  | .marker => return false
  | .unknown name => throw (.invalidDirective name)
  | .command c => Scan.command fs search reader file location c

/-- Whether the test of a live section holds. -/
def Opening.holds (opening : Opening) : ScanM Bool := do
  Scan.ofExcept (Scan.test (← get).host.macros false opening.test)

/-- Whether the condition of a live `#elif` holds. -/
def holds (operand : Text) : ScanM Bool := do
  Scan.ofExcept (Scan.condition (← get).host.macros operand)

mutual
/-- Walks a live group, and tells whether a line said that the file is to be read
once. -/
def Group.run : Group → ScanM Bool
  | .done => return false
  | .plain number line rest => do
    let once ← onFailure (line.run fs search reader file ⟨source, number⟩)
      (·.fail ⟨source, number⟩)
    let later ← rest.run
    return once || later
  | .conditional number opening body tail rest => do
    let holds ← onFailure opening.holds (·.fail ⟨source, number⟩)
    let once ← (if holds then body.run else tail.run)
    let later ← rest.run
    return once || later

/-- Walks the rest of a live section of which no test has held. -/
def Tail.run : Tail → ScanM Bool
  | .closing _ => return false
  | .elseIf number operand body more => do
    let holds ← onFailure (holds operand) (·.fail ⟨source, number⟩)
    if holds then body.run else more.run
  | .otherwise _ body _ => body.run
end

/-- Walks a whole file. -/
def Group.report (g : Group) : ScanM Report := do
  let once ← g.run fs search reader file source
  return ⟨once, g.guard?⟩

end Walk

/-- An `#ifndef` holds where its name is not defined. -/
theorem Opening.holds_ifUndefined {operand : Text} {name : Name}
    (h : Identifier.first? operand = some name) (named : (Test.ifUndefined operand).isNamed = true)
    (run : Run Scan) :
    (Opening.mk (.ifUndefined operand) named).holds run =
      .ok (!run.host.macros.isDefined name) run := by
  simp only [Opening.holds, bind_apply, get_apply, Scan.test, identifier, h]
  rfl

/-! ### The state past lines -/

attribute [ext] FileState

namespace FileState

/-- The state past lines that leave the open sections as they are. -/
def past (st : FileState) (once : Bool) (lines : List (Numbered Line)) : FileState :=
  { st with
    declaredOnce := st.declaredOnce || once
    shape := (st.outline.after lines).shape }

/-- The state past the lines that end the innermost section, `s`. -/
def out (st : FileState) (s : Section) (outer : List Section) (once : Bool)
    (lines : List (Numbered Line)) : FileState :=
  { st with
    sections := outer
    skipping := s.wasSkipping
    declaredOnce := st.declaredOnce || once
    shape := (st.outline.after lines).shape }

/-- Past lines that keep the depth, the outline is theirs. -/
theorem outline_past (st : FileState) (once : Bool) {lines : List (Numbered Line)}
    (hd : (st.outline.after lines).depth = st.outline.depth) :
    (st.past once lines).outline = st.outline.after lines :=
  Outline.ext hd.symm rfl

theorem past_past (st : FileState) (a b : Bool) {l : List (Numbered Line)}
    (hd : (st.outline.after l).depth = st.outline.depth) (m : List (Numbered Line)) :
    (st.past a l).past b m = st.past (a || b) (l ++ m) := by
  have ho := st.outline_past a hd
  simp only [past] at ho ⊢
  rw [ho, ← Outline.after_append, Bool.or_assoc]

theorem past_out (st : FileState) (s : Section) (outer : List Section) (a b : Bool)
    {l : List (Numbered Line)} (hd : (st.outline.after l).depth = st.outline.depth)
    (m : List (Numbered Line)) :
    (st.past a l).out s outer b m = st.out s outer (a || b) (l ++ m) := by
  have ho := st.outline_past a hd
  simp only [past, out] at ho ⊢
  rw [ho, ← Outline.after_append, Bool.or_assoc]

end FileState

section
variable (fs : FileSystem) (search : HeaderSearch) (reader : Reader) (file : Identity)
  (source : SourceId)

theorem scanLines_cons (st : FileState) (line : Numbered Line) (rest : List (Numbered Line)) :
    scanLines fs search reader file source st (line :: rest) =
      onFailure (step fs search reader file ⟨source, line.line⟩ st line.content)
        (·.fail ⟨source, line.line⟩) >>= fun st =>
      scanLines fs search reader file source st rest := rfl

/-! ### Text that is skipped -/

theorem step_dead {st : FileState} (hs : st.skipping = true) (location : Location) (p : Plain)
    (number : Nat) :
    step fs search reader file location st p.line =
      pure (st.past false (Group.plain number p .done).lines) := by
  obtain ⟨sections, skipping, declaredOnce, shape⟩ := st
  cases hs
  simp only [FileState.past, FileState.outline, Group.lines, Outline.after_cons, Outline.after_nil,
    Bool.or_false]
  cases p with
  | text content =>
    by_cases hc : content.allBlank = true <;> simp [Plain.line, step, Outline.next, hc]
  | marker => rfl
  | unknown name => rfl
  | command c => rfl

/-- In text that is skipped a named test fails nowhere. -/
theorem test_dead (macros : Macros) (opening : Opening) :
    ∃ b, Scan.test macros true opening.test = .ok b := by
  obtain ⟨t, hn⟩ := opening
  cases t with
  | condition operand => exact ⟨false, rfl⟩
  | ifDefined operand =>
    obtain ⟨name, hname⟩ := Option.isSome_iff_exists.mp hn
    exact ⟨macros.isDefined name, by simp only [Scan.test, identifier, hname]; rfl⟩
  | ifUndefined operand =>
    obtain ⟨name, hname⟩ := Option.isSome_iff_exists.mp hn
    exact ⟨!macros.isDefined name, by simp only [Scan.test, identifier, hname]; rfl⟩

/-- A section opened in text that is skipped: none of its branches will be taken. -/
def FileState.shut (st : FileState) (test : Test) (opened : Location) : FileState :=
  { st with
    sections := ⟨opened, true, false, true⟩ :: st.sections
    shape := st.shape.onDirective (.opening test) }

theorem FileState.shut_out {st : FileState} (hs : st.skipping = true) (test : Test)
    (opened : Location) (once : Bool) (number : Nat) (lines : List (Numbered Line)) :
    (st.shut test opened).out ⟨opened, true, false, true⟩ st.sections once lines =
      st.past once (⟨number, .opening test⟩ :: lines) :=
  FileState.ext rfl hs.symm rfl rfl

theorem step_opening_dead {st : FileState} (hs : st.skipping = true) (location : Location)
    (opening : Opening) :
    step fs search reader file location st (.opening opening.test) =
      pure (st.shut opening.test location) := by
  funext run
  obtain ⟨b, hb⟩ := test_dead run.host.macros opening
  simp only [step, bind_apply, get_apply, hs, hb, ofExcept_ok, pure_apply, FileState.openSection,
    FileState.shut, Bool.true_or]

/-- An `#elif` of a section that has been taken. -/
theorem step_elseIf_taken {st : FileState} {s : Section} {outer : List Section}
    (h : st.sections = s :: outer) (he : s.sawElse = false) (ht : s.taken = true)
    (location : Location) (operand : Text) :
    step fs search reader file location st (.elseIf operand) =
      pure { st with skipping := true, shape := (st.outline.next (.elseIf operand)).shape } := by
  funext run
  obtain ⟨opened, was, saw, taken⟩ := s
  cases he
  cases ht
  simp only [step, bind_apply, get_apply, FileState.elseIf, FileState.branchable, h,
    Bool.false_eq_true, if_false, FileState.outline, Outline.next, Outline.branched,
    FileState.branchShape, List.length_cons]
  cases outer <;> rfl

/-- An `#else` of a section that has been taken. -/
theorem step_otherwise_taken {st : FileState} {s : Section} {outer : List Section}
    (h : st.sections = s :: outer) (he : s.sawElse = false) (ht : s.taken = true)
    (location : Location) :
    step fs search reader file location st .otherwise =
      pure { st with
        sections := { s with sawElse := true } :: outer
        skipping := true
        shape := (st.outline.next .otherwise).shape } := by
  obtain ⟨opened, was, saw, taken⟩ := s
  cases he
  cases ht
  simp only [step, FileState.otherwise, FileState.branchable, h, Bool.false_eq_true, if_false,
    FileState.outline, Outline.next, Outline.branched, FileState.branchShape, List.length_cons]
  cases outer <;> rfl

theorem step_closing {st : FileState} {s : Section} {outer : List Section}
    (h : st.sections = s :: outer) (location : Location) (number : Nat) :
    step fs search reader file location st .closing =
      pure (st.out s outer false [⟨number, .closing⟩]) := by
  simp only [step, FileState.closeSection, h, ofExcept_ok, FileState.out, FileState.outline,
    Outline.after_cons, Outline.after_nil, Outline.next, List.length_cons, Bool.or_false]
  cases outer <;> rfl

theorem scanLines_closing {st : FileState} {s : Section} {outer : List Section}
    (h : st.sections = s :: outer) (number : Nat) (rest : List (Numbered Line)) :
    scanLines fs search reader file source st (⟨number, .closing⟩ :: rest) =
      scanLines fs search reader file source (st.out s outer false [⟨number, .closing⟩]) rest := by
  rw [scanLines_cons, step_closing fs search reader file h _ number, onFailure_pure, pure_bind]

mutual
/-- Groups in text that is skipped do nothing. -/
theorem scanLines_dead (g : Group) {st : FileState} (hs : st.skipping = true)
    (rest : List (Numbered Line)) :
    scanLines fs search reader file source st (g.lines ++ rest) =
      scanLines fs search reader file source (st.past false g.lines) rest := by
  cases g with
  | done => simp [Group.lines, FileState.past, FileState.outline]
  | plain number line more =>
    rw [Group.lines, List.cons_append, scanLines_cons,
      step_dead fs search reader file hs _ line number, onFailure_pure, pure_bind,
      scanLines_dead more (by exact hs), FileState.past_past _ _ _ (Group.after_depth _ _)]
    rfl
  | conditional number opening body tail more =>
    rw [Group.lines, List.cons_append, scanLines_cons, step_opening_dead fs search reader file hs,
      onFailure_pure, pure_bind, List.append_assoc, List.append_assoc,
      scanLines_dead body (by exact hs)]
    rw [scanLines_taken tail ⟨⟨source, number⟩, true, false, true⟩ st.sections rfl rfl rfl,
      scanLines_dead more (by rfl), FileState.past_out _ _ _ _ _ (Group.after_depth _ _),
      FileState.shut_out hs _ _ _ number, FileState.past_past _ _ _ (Outline.after_section ..),
      List.cons_append, List.append_assoc]
    rfl

/-- The rest of a section that has been taken does nothing but end it. -/
theorem scanLines_taken (t : Tail) (s : Section) (outer : List Section) {st : FileState}
    (h : st.sections = s :: outer) (he : s.sawElse = false) (ht : s.taken = true)
    (rest : List (Numbered Line)) :
    scanLines fs search reader file source st (t.lines ++ rest) =
      scanLines fs search reader file source (st.out s outer false t.lines) rest := by
  cases t with
  | closing number => exact scanLines_closing fs search reader file source h number rest
  | elseIf number operand body more =>
    rw [Tail.lines, List.cons_append, scanLines_cons,
      step_elseIf_taken fs search reader file h he ht, onFailure_pure, pure_bind,
      List.append_assoc, scanLines_dead body (by rfl),
      scanLines_taken more s outer (by exact h) he ht,
      FileState.past_out _ _ _ _ _ (Group.after_depth _ _)]
    rfl
  | otherwise number body closing =>
    rw [Tail.lines, List.cons_append, scanLines_cons,
      step_otherwise_taken fs search reader file h he ht, onFailure_pure, pure_bind,
      List.append_assoc, scanLines_dead body (by rfl), List.cons_append, List.nil_append,
      scanLines_closing fs search reader file source (by rfl),
      FileState.past_out _ _ _ _ _ (Group.after_depth _ _)]
    simp only [FileState.out, FileState.outline, h]
    rfl
end

end

/-! ### Text that is live -/

section
variable (fs : FileSystem) (search : HeaderSearch) (reader : Reader) (file : Identity)
  (source : SourceId)

theorem step_live {st : FileState} (hs : st.skipping = false) (location : Location) (p : Plain)
    (number : Nat) :
    step fs search reader file location st p.line =
      p.run fs search reader file location >>= fun once =>
      pure (st.past once (Group.plain number p .done).lines) := by
  obtain ⟨sections, skipping, declaredOnce, shape⟩ := st
  cases hs
  simp only [FileState.past, FileState.outline, Group.lines, Outline.after_cons, Outline.after_nil]
  cases p with
  | text content =>
    by_cases hc : content.allBlank = true <;>
      simp [Plain.line, Plain.run, step, Outline.next, hc]
  | marker => simp [Plain.line, Plain.run, step, Outline.next]
  | unknown name => rfl
  | command c => rfl

/-- A live section as its opening line leaves it. -/
def FileState.opened (st : FileState) (test : Test) (opened : Location) (holds : Bool) :
    FileState :=
  { st with
    sections := ⟨opened, false, false, holds⟩ :: st.sections
    skipping := !holds
    shape := st.shape.onDirective (.opening test) }

theorem FileState.opened_out {st : FileState} (hs : st.skipping = false) (test : Test)
    (opened : Location) (holds once : Bool) (number : Nat) (lines : List (Numbered Line)) :
    (st.opened test opened holds).out ⟨opened, false, false, holds⟩ st.sections once lines =
      st.past once (⟨number, .opening test⟩ :: lines) :=
  FileState.ext rfl hs.symm rfl rfl

theorem step_opening_live {st : FileState} (hs : st.skipping = false) (location : Location)
    (opening : Opening) :
    step fs search reader file location st (.opening opening.test) =
      opening.holds >>= fun holds => pure (st.opened opening.test location holds) := by
  simp only [step, Opening.holds, hs, bind_assoc]
  rfl

/-- An `#elif` of a live section of which no test has held. -/
theorem step_elseIf_untaken {st : FileState} {s : Section} {outer : List Section}
    (h : st.sections = s :: outer) (he : s.sawElse = false) (ht : s.taken = false)
    (location : Location) (operand : Text) :
    step fs search reader file location st (.elseIf operand) =
      holds operand >>= fun holds =>
      pure { st with
        sections := { s with taken := holds } :: outer
        skipping := !holds
        shape := (st.outline.next (.elseIf operand)).shape } := by
  funext run
  obtain ⟨opened, was, saw, taken⟩ := s
  cases he
  cases ht
  simp only [step, holds, bind_apply, get_apply, FileState.elseIf, FileState.branchable, h,
    Bool.false_eq_true, if_false, FileState.outline, Outline.next, Outline.branched,
    FileState.branchShape, List.length_cons]
  cases Scan.condition run.host.macros operand with
  | error e => rfl
  | ok b => cases outer <;> rfl

/-- An `#else` of a live section of which no test has held. -/
theorem step_otherwise_untaken {st : FileState} {s : Section} {outer : List Section}
    (h : st.sections = s :: outer) (he : s.sawElse = false) (ht : s.taken = false)
    (location : Location) :
    step fs search reader file location st .otherwise =
      pure { st with
        sections := { s with sawElse := true, taken := true } :: outer
        skipping := false
        shape := (st.outline.next .otherwise).shape } := by
  obtain ⟨opened, was, saw, taken⟩ := s
  cases he
  cases ht
  simp only [step, FileState.otherwise, FileState.branchable, h, Bool.false_eq_true, if_false,
    FileState.outline, Outline.next, Outline.branched, FileState.branchShape, List.length_cons]
  cases outer <;> rfl

mutual
/-- Scanning the lines of a live group is walking it. -/
theorem scanLines_live (g : Group) {st : FileState} (hs : st.skipping = false)
    (rest : List (Numbered Line)) :
    scanLines fs search reader file source st (g.lines ++ rest) =
      g.run fs search reader file source >>= fun once =>
      scanLines fs search reader file source (st.past once g.lines) rest := by
  cases g with
  | done => simp [Group.lines, Group.run, FileState.past, FileState.outline]
  | plain number line more =>
    rw [Group.lines, List.cons_append, scanLines_cons,
      step_live fs search reader file hs _ line number, onFailure_bind_pure, Group.run, bind_assoc,
      bind_assoc]
    congr 1
    funext once
    rw [pure_bind, scanLines_live more (by exact hs), bind_assoc]
    congr 1
    funext later
    rw [pure_bind, FileState.past_past _ _ _ (Group.after_depth _ _)]
    rfl
  | conditional number opening body tail more =>
    rw [Group.lines, List.cons_append, scanLines_cons,
      step_opening_live fs search reader file hs, onFailure_bind_pure, Group.run, bind_assoc,
      bind_assoc, List.append_assoc, List.append_assoc]
    congr 1
    funext holds
    rw [pure_bind]
    -- either way the section is left as its `#endif` leaves it, and the rest is live
    suffices hsection : ∀ next,
        scanLines fs search reader file source (st.opened opening.test ⟨source, number⟩ holds)
          (body.lines ++ (tail.lines ++ next)) =
        (if holds then body.run fs search reader file source
          else tail.run fs search reader file source) >>= fun once =>
        scanLines fs search reader file source
          (st.past once (⟨number, .opening opening.test⟩ :: (body.lines ++ tail.lines))) next by
      rw [hsection, bind_assoc]
      congr 1
      funext once
      rw [scanLines_live more (by exact hs), bind_assoc]
      congr 1
      funext later
      rw [pure_bind, FileState.past_past _ _ _ (Outline.after_section ..), List.cons_append,
        List.append_assoc]
    intro next
    cases holds with
    | true =>
      rw [scanLines_live body (by rfl), if_pos rfl]
      congr 1
      funext once
      rw [scanLines_taken fs search reader file source tail
        ⟨⟨source, number⟩, false, false, true⟩ st.sections rfl rfl rfl,
        FileState.past_out _ _ _ _ _ (Group.after_depth _ _), Bool.or_false,
        FileState.opened_out hs _ _ _ _ number]
    | false =>
      rw [scanLines_dead fs search reader file source body (by rfl), if_neg (by decide),
        scanLines_untaken tail
          ⟨⟨source, number⟩, false, false, false⟩ st.sections rfl rfl rfl rfl]
      congr 1
      funext once
      rw [FileState.past_out _ _ _ _ _ (Group.after_depth _ _), Bool.false_or,
        FileState.opened_out hs _ _ _ _ number]

/-- Scanning on in a live section of which no test has held is walking its rest. -/
theorem scanLines_untaken (t : Tail) (s : Section) (outer : List Section) {st : FileState}
    (h : st.sections = s :: outer) (hw : s.wasSkipping = false) (he : s.sawElse = false)
    (ht : s.taken = false) (rest : List (Numbered Line)) :
    scanLines fs search reader file source st (t.lines ++ rest) =
      t.run fs search reader file source >>= fun once =>
      scanLines fs search reader file source (st.out s outer once t.lines) rest := by
  cases t with
  | closing number =>
    rw [Tail.run, pure_bind]
    exact scanLines_closing fs search reader file source h number rest
  | elseIf number operand body more =>
    rw [Tail.lines, List.cons_append, scanLines_cons,
      step_elseIf_untaken fs search reader file h he ht, onFailure_bind_pure, Tail.run, bind_assoc,
      bind_assoc, List.append_assoc]
    congr 1
    funext holds
    rw [pure_bind]
    cases holds with
    | true =>
      rw [scanLines_live body (by rfl), if_pos rfl]
      congr 1
      funext once
      rw [scanLines_taken fs search reader file source more
        { s with taken := true } outer rfl (by exact he) rfl,
        FileState.past_out _ _ _ _ _ (Group.after_depth _ _), Bool.or_false]
      simp only [FileState.out, FileState.outline, h]
      rfl
    | false =>
      rw [scanLines_dead fs search reader file source body (by rfl), if_neg (by decide),
        scanLines_untaken more
          { s with taken := false } outer rfl (by exact hw) (by exact he) rfl]
      congr 1
      funext once
      rw [FileState.past_out _ _ _ _ _ (Group.after_depth _ _), Bool.false_or]
      simp only [FileState.out, FileState.outline, h]
      rfl
  | otherwise number body closing =>
    rw [Tail.lines, List.cons_append, scanLines_cons,
      step_otherwise_untaken fs search reader file h he ht, onFailure_pure, pure_bind,
      List.append_assoc, scanLines_live body (by rfl), Tail.run]
    congr 1
    funext once
    rw [List.cons_append, List.nil_append,
      scanLines_closing fs search reader file source (by rfl),
      FileState.past_out _ _ _ _ _ (Group.after_depth _ _), Bool.or_false]
    simp only [FileState.out, FileState.outline, h]
    rfl
end

end

/-! ### The scan of a file is the walk of its group -/

/-- The end of a file, where no section may be open. -/
def FileState.finish (st : FileState) : ScanM Report :=
  match st.sections with
  | [] => return st.report
  | s :: _ => do
    change (·.fail s.opened)
    throw .unterminated

section
variable (fs : FileSystem) (search : HeaderSearch) (reader : Reader) (file : Identity)
  (source : SourceId)

theorem scanFile_apply {run : Run Scan} {loaded : SourceFile}
    (h : run.host.sources.file? source = some loaded) :
    scanFile fs search reader file source run =
      (scanLines fs search reader file source {} (Line.ofText loaded.text) >>=
        FileState.finish) run := by
  simp only [scanFile, bind_apply, get_apply, h]
  rfl

/-- A group that has an unknown directive outside all sections is not walked to its
end. -/
theorem Group.run_hasUnknown (g : Group) (hu : g.hasUnknown = true) (run : Run Scan) :
    ∃ e left, g.run fs search reader file source run = .error e left := by
  cases g with
  | done => cases hu
  | plain number line rest =>
    rw [Group.run, bind_apply]
    cases hline : onFailure (line.run fs search reader file ⟨source, number⟩)
        (·.fail ⟨source, number⟩) run with
    | error e left => exact ⟨e, left, rfl⟩
    | ok once middle =>
      have hrest : rest.hasUnknown = true := by
        cases line with
        | unknown name => cases hline
        | text content => exact hu
        | marker => exact hu
        | command c => exact hu
      obtain ⟨e, left, he⟩ := Group.run_hasUnknown rest hrest middle
      exact ⟨e, left, by simp only [bind_apply, he]⟩
  | conditional number opening body tail rest =>
    rw [Group.run, bind_apply]
    cases onFailure opening.holds (·.fail ⟨source, number⟩) run with
    | error e left => exact ⟨e, left, rfl⟩
    | ok holds middle =>
      simp only [bind_apply]
      cases (if holds then body.run fs search reader file source
        else tail.run fs search reader file source) middle with
      | error e left => exact ⟨e, left, rfl⟩
      | ok once late =>
        obtain ⟨e, left, he⟩ := Group.run_hasUnknown rest hu late
        exact ⟨e, left, by simp only [he]⟩

theorem scanFile_group {run : Run Scan} {loaded : SourceFile}
    (h : run.host.sources.file? source = some loaded) (g : Group)
    (hg : Line.ofText loaded.text = g.lines) :
    scanFile fs search reader file source run = g.report fs search reader file source run := by
  have hscan : scanLines fs search reader file source {} (g.lines ++ []) = _ :=
    scanLines_live fs search reader file source g rfl []
  rw [List.append_nil] at hscan
  rw [scanFile_apply fs search reader file source h, hg, hscan, bind_assoc, Group.report]
  cases hu : g.hasUnknown with
  | true =>
    obtain ⟨e, left, he⟩ := Group.run_hasUnknown fs search reader file source g hu run
    simp only [bind_apply, he]
  | false =>
    refine congrArg (fun next => (g.run fs search reader file source >>= next) run) ?_
    funext once
    simp only [scanLines, pure_bind, FileState.finish, FileState.past, FileState.report,
      Bool.false_or]
    rw [← g.guard?_lines hu]
    rfl

/-- A file that is scanned to its end is a group. -/
theorem exists_group {run left : Run Scan} {loaded : SourceFile} {report : Report}
    (h : run.host.sources.file? source = some loaded)
    (hok : scanFile fs search reader file source run = .ok report left) :
    ∃ g : Group, Line.ofText loaded.text = g.lines := by
  rw [scanFile_apply fs search reader file source h] at hok
  obtain ⟨st, middle, hscan, hend⟩ := bind_eq_ok hok
  obtain ⟨hn, _⟩ := scanLines_ok hscan
  have hclosed : st.sections = [] := by
    cases hs : st.sections with
    | nil => rfl
    | cons s outer => rw [FileState.finish, hs] at hend; cases hend
  rw [FileState.stack, FileState.stack, hclosed] at hn
  exact Line.splits_of_nestAll [] _ hn

/-- What a scan that comes to its end has found out about the guard. -/
theorem scanFile_ok {run left : Run Scan} {loaded : SourceFile} {report : Report}
    (h : run.host.sources.file? source = some loaded)
    (hok : scanFile fs search reader file source run = .ok report left) :
    ∃ g : Group, Line.ofText loaded.text = g.lines ∧ g.hasUnknown = false ∧
      report.guardName = g.guard? := by
  obtain ⟨g, hg⟩ := exists_group fs search reader file source h hok
  rw [scanFile_group fs search reader file source h g hg, Group.report] at hok
  obtain ⟨once, middle, hrun, hend⟩ := bind_eq_ok hok
  cases hend
  refine ⟨g, hg, ?_, rfl⟩
  cases hu : g.hasUnknown with
  | false => rfl
  | true =>
    obtain ⟨e, other, he⟩ := Group.run_hasUnknown fs search reader file source g hu run
    rw [he] at hrun
    cases hrun

/-- **The scan is the walk.** On a file that is a group, whatever the state, the scan
gives the result of the walk and leaves the state that the walk leaves: text, macros,
ledger, diagnostics, trace and all. A file that is no group never comes to its end. -/
theorem scanFile_walks_groups (run : Run Scan) (loaded : SourceFile)
    (h : run.host.sources.file? source = some loaded) :
    (∀ g : Group, Line.ofText loaded.text = g.lines →
      scanFile fs search reader file source run = g.report fs search reader file source run) ∧
    ((¬ ∃ g : Group, Line.ofText loaded.text = g.lines) →
      ∀ report left, scanFile fs search reader file source run ≠ .ok report left) :=
  ⟨scanFile_group fs search reader file source h,
    fun hno _ _ hok => hno (exists_group fs search reader file source h hok)⟩

end

/-- A file whose first branch no live text could hold, with its `#elif` and `#else`. -/
def branchingFile : SourceFile :=
  .entered ⟨0⟩ (.ofCanonical (.ofString "/a.c"))
    "#ifdef A\n#bad\n#elif 1\nx\n#else\ny\n#endif\n".toList

def branchingGroup : Group :=
  .conditional 1 ⟨.ifDefined ['A'], rfl⟩ (.plain 2 (.unknown "bad".toList) .done)
    (.elseIf 3 ['1'] (.plain 4 (.text ['x']) .done)
      (.otherwise 5 (.plain 6 (.text ['y']) .done) 7))
    .done

/-- A new run that has read one file. -/
def runOn (f : SourceFile) : Run Scan :=
  { host := { sources := ({} : Sources).enter f.identity f.text rfl } }

theorem branchingFile_walked :
    (runOn branchingFile).host.sources.file? ⟨0⟩ = some branchingFile ∧
      Line.ofText branchingFile.text = branchingGroup.lines ∧
      scanFile {} {} none branchingFile.identity ⟨0⟩ (runOn branchingFile) =
        branchingGroup.report {} {} none branchingFile.identity ⟨0⟩ (runOn branchingFile) := by
  have hg : Line.ofText branchingFile.text = branchingGroup.lines := by decide
  exact ⟨rfl, hg, (scanFile_walks_groups {} {} none _ ⟨0⟩ _ branchingFile rfl).1 branchingGroup hg⟩

end IncludeOnce
