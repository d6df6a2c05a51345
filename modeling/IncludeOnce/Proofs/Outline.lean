import IncludeOnce.Proofs.Actions

/-! What the lines of a file alone tell.

Which sections are open and what shape the include guard has does not depend on which
lines are live. `Line.nest` follows the sections and `Outline` the shape, line by line,
and `step_ok` says that a line which does not fail moves a file state as they do. So
whatever two scans of one text did, if both came to the end they saw the same guard. -/
namespace IncludeOnce

/-- How deep the sections are nested, and the shape of the guard. -/
structure Outline where
  depth : Nat := 0
  shape : GuardShape := .unseen
deriving DecidableEq

namespace Outline

/-- The shape after a branch line of the innermost section. -/
def branched (o : Outline) (line : Line) : Outline :=
  { o with
    shape :=
      if o.depth = 1 then (o.shape.onDirective line).onBranch else o.shape.onDirective line }

def next (o : Outline) : Line → Outline
  | .text content => if content.allBlank then o else { o with shape := o.shape.onText }
  | .marker | .unknown _ => o
  | .command c => { o with shape := o.shape.onDirective (.command c) }
  | .opening t => ⟨o.depth + 1, o.shape.onDirective (.opening t)⟩
  | .elseIf operand => o.branched (.elseIf operand)
  | .otherwise => o.branched .otherwise
  | .closing =>
    ⟨o.depth - 1,
      if o.depth = 1 then (o.shape.onDirective .closing).onClosing
      else o.shape.onDirective .closing⟩

def after (o : Outline) (lines : List (Numbered Line)) : Outline :=
  lines.foldl (fun o line => o.next line.content) o

@[simp] theorem after_nil (o : Outline) : o.after [] = o := rfl

@[simp] theorem after_cons (o : Outline) (line : Numbered Line) (rest : List (Numbered Line)) :
    o.after (line :: rest) = (o.next line.content).after rest := rfl

theorem after_append (o : Outline) (a b : List (Numbered Line)) :
    o.after (a ++ b) = (o.after a).after b :=
  List.foldl_append

end Outline

/-- Whether a test of a name has one. -/
def Test.isNamed : Test → Bool
  | .condition _ => true
  | .ifDefined operand => (Identifier.first? operand).isSome
  | .ifUndefined operand => (Identifier.first? operand).isSome

/-- The sections open after a line, innermost first, each by whether it has had its
`#else`; none where the line is out of place. -/
def Line.nest (stack : List Bool) : Line → Option (List Bool)
  | .opening t => if t.isNamed then some (false :: stack) else none
  | .elseIf _ =>
    match stack with
    | false :: outer => some (false :: outer)
    | _ => none
  | .otherwise =>
    match stack with
    | false :: outer => some (true :: outer)
    | _ => none
  | .closing =>
    match stack with
    | _ :: outer => some outer
    | [] => none
  | .text _ | .marker | .unknown _ | .command _ => some stack

/-- The sections open after lines. -/
def Line.nestAll (stack : List Bool) (lines : List (Numbered Line)) : Option (List Bool) :=
  lines.foldlM (fun stack line => line.content.nest stack) stack

theorem Line.nestAll_cons (stack : List Bool) (line : Numbered Line)
    (rest : List (Numbered Line)) :
    nestAll stack (line :: rest) = (line.content.nest stack).bind (nestAll · rest) := rfl

/-- The sections of a file state as `Line.nest` sees them. -/
def FileState.stack (st : FileState) : List Bool := st.sections.map (·.sawElse)

/-- The guard around all of these lines. -/
def Line.guard? (lines : List (Numbered Line)) : Option Name :=
  (({} : Outline).after lines).shape.name?

def FileState.outline (st : FileState) : Outline := ⟨st.sections.length, st.shape⟩

namespace Scan
variable {fs : FileSystem} {search : HeaderSearch} {reader : Reader} {file : Identity}
  {location : Location} {st after : FileState} {run left : Run Scan}

theorem test_named {macros : Macros} {skipping b : Bool} {t : Test}
    (h : Scan.test macros skipping t = .ok b) : t.isNamed = true := by
  cases t with
  | condition operand => rfl
  | ifDefined operand =>
    simp only [Test.isNamed]
    cases hi : Identifier.first? operand with
    | none => simp only [Scan.test, identifier, hi] at h; cases h
    | some name => rfl
  | ifUndefined operand =>
    simp only [Test.isNamed]
    cases hi : Identifier.first? operand with
    | none => simp only [Scan.test, identifier, hi] at h; cases h
    | some name => rfl

theorem branchable_eq_ok {a b : ScanError} {s : Section} {outer : List Section}
    (h : st.branchable a b = .ok (s, outer)) : st.sections = s :: outer ∧ s.sawElse = false := by
  unfold FileState.branchable at h
  split at h
  · cases h
  · rename_i s' outer' hs
    split at h
    · cases h
    · rename_i he
      cases h
      exact ⟨hs, by simpa using he⟩

theorem elseIf_eq_ok {condition : Unit → Except ScanError Bool}
    (h : st.elseIf condition = .ok after) :
    ∃ s outer active, st.sections = s :: outer ∧ s.sawElse = false ∧
      after = { st with
        sections := { s with taken := s.taken || active } :: outer
        skipping := !active
        shape := st.branchShape outer } := by
  unfold FileState.elseIf at h
  cases hb : st.branchable .elseIfWithoutIf .elseIfAfterElse with
  | error e => rw [hb] at h; cases h
  | ok pair =>
    obtain ⟨s, outer⟩ := pair
    obtain ⟨hs, he⟩ := branchable_eq_ok hb
    rw [hb] at h
    simp only [bind, Except.bind] at h
    split at h
    · cases h
      exact ⟨s, outer, false, hs, he, rfl⟩
    · cases hc : condition () with
      | error e => rw [hc] at h; cases h
      | ok active =>
        rw [hc] at h
        cases h
        exact ⟨s, outer, active, hs, he, rfl⟩

theorem otherwise_eq_ok (h : st.otherwise = .ok after) :
    ∃ s outer, st.sections = s :: outer ∧ s.sawElse = false ∧
      after = { st with
        sections := { s with sawElse := true, taken := true } :: outer
        skipping := s.taken
        shape := st.branchShape outer } := by
  unfold FileState.otherwise at h
  cases hb : st.branchable .elseWithoutIf .elseAfterElse with
  | error e => rw [hb] at h; cases h
  | ok pair =>
    obtain ⟨s, outer⟩ := pair
    obtain ⟨hs, he⟩ := branchable_eq_ok hb
    rw [hb] at h
    cases h
    exact ⟨s, outer, hs, he, rfl⟩

theorem closeSection_eq_ok (h : st.closeSection = .ok after) :
    ∃ s outer, st.sections = s :: outer ∧
      after = { st with
        sections := outer
        skipping := s.wasSkipping
        shape := if outer = [] then st.shape.onClosing else st.shape } := by
  unfold FileState.closeSection at h
  split at h
  · cases h
  · rename_i s outer hs
    cases h
    exact ⟨s, outer, hs, rfl⟩

/-- A line that does not fail moves sections and shape as the line alone tells. -/
theorem step_ok {line : Line}
    (h : step fs search reader file location st line run = .ok after left) :
    line.nest st.stack = some after.stack ∧ after.outline = st.outline.next line := by
  cases line with
  | text content =>
    simp only [step] at h
    have ha : after = if content.allBlank then st else { st with shape := st.shape.onText } := by
      split at h
      · rw [bind_apply] at h; cases h; rfl
      · cases h; rfl
    subst ha
    by_cases hc : content.allBlank = true <;>
      simp [hc, Line.nest, FileState.stack, FileState.outline, Outline.next]
  | marker => cases h; exact ⟨rfl, rfl⟩
  | unknown name =>
    simp only [step] at h
    split at h
    · cases h; exact ⟨rfl, rfl⟩
    · cases h
  | command c =>
    simp only [step] at h
    split at h
    · cases h; exact ⟨rfl, rfl⟩
    · obtain ⟨declares, _, _, h⟩ := bind_eq_ok h
      cases h
      exact ⟨rfl, rfl⟩
  | opening t =>
    obtain ⟨_, _, hget, h⟩ := bind_eq_ok h
    obtain ⟨b, _, htest, h⟩ := bind_eq_ok h
    cases h
    have hn := test_named (ofExcept_eq_ok htest).1
    exact ⟨by simp only [Line.nest, hn]; rfl, rfl⟩
  | elseIf operand =>
    obtain ⟨_, _, _, h⟩ := bind_eq_ok h
    obtain ⟨s, outer, active, hs, he, rfl⟩ := elseIf_eq_ok (ofExcept_eq_ok h).1
    have hs : st.sections = s :: outer := hs
    refine ⟨by simp [Line.nest, FileState.stack, hs, he], ?_⟩
    simp only [FileState.outline, Outline.next, Outline.branched, FileState.branchShape, hs]
    cases outer <;> rfl
  | otherwise =>
    obtain ⟨s, outer, hs, he, rfl⟩ := otherwise_eq_ok (ofExcept_eq_ok h).1
    have hs : st.sections = s :: outer := hs
    refine ⟨by simp [Line.nest, FileState.stack, hs, he], ?_⟩
    simp only [FileState.outline, Outline.next, Outline.branched, FileState.branchShape, hs]
    cases outer <;> rfl
  | closing =>
    obtain ⟨s, outer, hs, rfl⟩ := closeSection_eq_ok (ofExcept_eq_ok h).1
    have hs : st.sections = s :: outer := hs
    refine ⟨by simp [Line.nest, FileState.stack, hs], ?_⟩
    simp only [FileState.outline, Outline.next, hs]
    cases outer <;> rfl

theorem scanLines_ok {source : SourceId} {lines : List (Numbered Line)}
    (h : scanLines fs search reader file source st lines run = .ok after left) :
    Line.nestAll st.stack lines = some after.stack ∧ after.outline = st.outline.after lines := by
  induction lines generalizing st run with
  | nil => cases h; exact ⟨rfl, rfl⟩
  | cons line rest ih =>
    obtain ⟨next, middle, hstep, hrest⟩ := bind_eq_ok h
    obtain ⟨hn, ho⟩ := step_ok (onFailure_eq_ok hstep)
    obtain ⟨hns, hos⟩ := ih hrest
    refine ⟨?_, ?_⟩
    · rw [Line.nestAll_cons, hn]
      exact hns
    · rw [hos, ho]
      rfl

end Scan

end IncludeOnce
