import IncludeOnce.Proofs.Walk

/-! The form of a guarded file.

Whether a file is guarded can be told from its lines without following them one by one. All
of it but blank lines and markers stands between an `#ifndef` line and the `#endif` of the same
section, and the section has no other branch (`Line.IsGuarded`). Which sections are open where
is counted: an `#endif` ends the section around the lines before it if these open and end the
same number of sections and never end more than they have opened (`Line.IsBody`).

The scanner follows the lines with a shape of four states, next to the stack of sections and
to what is live. `guard_told_by_form` says that this finds the form and nothing else, in every
scan that comes to its end. -/
namespace IncludeOnce
open Scan

namespace Line

/-- By how much a line changes the number of open sections. -/
def rise : Line → Int
  | .opening _ => 1
  | .closing => -1
  | _ => 0

/-- By how much lines change the number of open sections. -/
def level : List Line → Int
  | [] => 0
  | line :: rest => line.rise + level rest

/-- A line that begins another branch of a section. -/
def isBranch : Line → Bool
  | .elseIf _ | .otherwise => true
  | _ => false

/-- A blank line or a marker. -/
def isSilent : Line → Bool
  | .text content => content.allBlank
  | .marker => true
  | _ => false

/-- Lines behind which an `#endif` ends the section that is open in front of them: they end
each section that they open, and no other. -/
structure IsBody (body : List Line) : Prop where
  level_eq : level body = 0
  level_front : ∀ front back, body = front ++ back → 0 ≤ level front

/-- No branch among the lines is one of the section around them. -/
def IsUndivided (body : List Line) : Prop :=
  ∀ front line back, body = front ++ line :: back → line.isBranch = true → level front ≠ 0

/-- All lines but silent ones stand in one `#ifndef` section of a single branch, which tests
`name`. -/
def IsGuarded (name : Name) (lines : List Line) : Prop :=
  ∃ before operand body after,
    lines = before ++ .opening (.ifUndefined operand) :: (body ++ .closing :: after) ∧
      Identifier.first? operand = some name ∧ (∀ line ∈ before, line.isSilent = true) ∧
      (∀ line ∈ after, line.isSilent = true) ∧ IsBody body ∧ IsUndivided body

@[simp] theorem level_nil : level [] = 0 := rfl

@[simp] theorem level_cons (line : Line) (rest : List Line) :
    level (line :: rest) = line.rise + level rest := rfl

@[simp] theorem level_append (a b : List Line) : level (a ++ b) = level a + level b := by
  induction a with
  | nil => simp
  | cons line rest ih => simp [ih, Int.add_assoc]

/-! ### Lines by their first one -/

/-- A silent line in front does not matter. -/
theorem isGuarded_cons_silent {name : Name} {line : Line} (h : line.isSilent = true)
    (rest : List Line) : IsGuarded name (line :: rest) ↔ IsGuarded name rest := by
  constructor
  · rintro ⟨before, operand, body, after, hlines, hname, hbefore, hrest⟩
    cases before with
    | nil =>
      cases hlines
      cases h
    | cons first before =>
      cases hlines
      exact ⟨before, operand, body, after, rfl, hname,
        fun l hl => hbefore l (List.mem_cons_of_mem _ hl), hrest⟩
  · rintro ⟨before, operand, body, after, rfl, hname, hbefore, hrest⟩
    refine ⟨line :: before, operand, body, after, rfl, hname, ?_, hrest⟩
    intro l hl
    rcases List.mem_cons.mp hl with rfl | hl
    · exact h
    · exact hbefore l hl

/-- The first line that is not silent is the `#ifndef` of the guard. -/
theorem not_isGuarded_cons {name : Name} {line : Line} (h : line.isSilent = false)
    (hopening : ∀ operand, line ≠ .opening (.ifUndefined operand)) (rest : List Line) :
    ¬ IsGuarded name (line :: rest) := by
  rintro ⟨before, operand, body, after, hlines, _, hbefore, _⟩
  cases before with
  | nil => exact hopening operand (List.cons.inj hlines).1
  | cons first before =>
    cases hlines
    exact absurd (hbefore line List.mem_cons_self) (by simp [h])

/-- Behind an `#ifndef` the first line that ends or divides its section has to end it, and
nothing may follow but silent lines. -/
theorem isGuarded_opening_iff (name : Name) (operand : Text) {body : List Line}
    (hbody : IsBody body) (hundivided : IsUndivided body) (line : Line)
    (hline : line = .closing ∨ line.isBranch = true) (after : List Line) :
    IsGuarded name (.opening (.ifUndefined operand) :: (body ++ line :: after)) ↔
      line = .closing ∧ Identifier.first? operand = some name ∧
        ∀ l ∈ after, l.isSilent = true := by
  constructor
  · rintro ⟨before, other, inner, behind, hlines, hname, hbefore, hbehind, hinner, hwhole⟩
    cases before with
    | cons first before =>
      obtain ⟨rfl, _⟩ := List.cons.inj hlines
      cases hbefore _ List.mem_cons_self
    | nil =>
      obtain ⟨hopening, htail⟩ := List.cons.inj hlines
      cases hopening
      -- the two ways to tell where the section ends come to the same line
      rcases List.append_eq_append_iff.mp htail with ⟨more, hinside, hrest⟩ |
        ⟨more, hinside, hrest⟩
      · cases more with
        | nil =>
          cases hrest
          exact ⟨rfl, hname, hbehind⟩
        | cons first more =>
          cases hrest
          rcases hline with rfl | hbranch
          · have hlow := hinner.level_front (body ++ [.closing]) more (by simp [hinside])
            simp [hbody.level_eq, rise] at hlow
          · exact absurd hbody.level_eq (hwhole body line more hinside hbranch)
      · cases more with
        | nil =>
          cases hrest
          exact ⟨rfl, hname, hbehind⟩
        | cons first more =>
          cases hrest
          have hlow := hbody.level_front (inner ++ [.closing]) more (by simp [hinside])
          simp [hinner.level_eq, rise] at hlow
  · rintro ⟨rfl, hname, hafter⟩
    exact ⟨[], operand, body, after, rfl, hname, by simp, hafter, hbody, hundivided⟩

end Line

/-! ### Groups are bodies -/

/-- From a level on, lines never fall below the lowest, and no branch stands there. -/
def Line.Above (n : Int) : List Line → Prop
  | [] => 0 ≤ n
  | line :: rest => 0 ≤ n ∧ (line.isBranch = true → n ≠ 0) ∧ Above (n + line.rise) rest

namespace Line.Above

theorem nonneg {n : Int} {lines : List Line} (h : Above n lines) : 0 ≤ n := by
  cases lines with
  | nil => exact h
  | cons line rest => exact h.1

theorem closing {n : Int} (hn : 0 < n) : Above n [.closing] := by
  refine ⟨Int.le_of_lt hn, (by intro h; cases h), ?_⟩
  show 0 ≤ n + -1
  omega

theorem append {n : Int} {a b : List Line} (ha : Above n a) (hb : Above (n + level a) b) :
    Above n (a ++ b) := by
  induction a generalizing n with
  | nil => simpa using hb
  | cons line rest ih =>
    obtain ⟨hn, hbranch, hrest⟩ := ha
    exact ⟨hn, hbranch, ih hrest (by simpa [Int.add_assoc] using hb)⟩

/-- What holds of all lines holds behind some of them. -/
theorem behind {n : Int} {a b : List Line} (h : Above n (a ++ b)) : Above (n + level a) b := by
  induction a generalizing n with
  | nil => simpa using h
  | cons line rest ih => simpa [Int.add_assoc] using ih h.2.2

theorem isBody {body : List Line} (h : Above 0 body) (hlevel : level body = 0) :
    IsBody body where
  level_eq := hlevel
  level_front := by
    rintro front back rfl
    have hback := h.behind.nonneg
    omega

theorem isUndivided {body : List Line} (h : Above 0 body) : IsUndivided body := by
  rintro front line back rfl hbranch
  have hline := h.behind.2.1 hbranch
  omega

end Line.Above

/-- The lines of a file without their numbers. -/
def Line.contents (lines : List (Numbered Line)) : List Line := lines.map (·.content)

namespace Line

@[simp] theorem contents_nil : contents [] = [] := rfl

@[simp] theorem contents_cons (line : Numbered Line) (rest : List (Numbered Line)) :
    contents (line :: rest) = line.content :: contents rest := rfl

@[simp] theorem contents_append (a b : List (Numbered Line)) :
    contents (a ++ b) = contents a ++ contents b :=
  List.map_append

end Line

namespace Plain

theorem rise_line (p : Plain) : p.line.rise = 0 := by cases p <;> rfl

theorem isBranch_line (p : Plain) : p.line.isBranch = false := by cases p <;> rfl

theorem isSilent_line (p : Plain) : p.line.isSilent = p.isSilent := by cases p <;> rfl

end Plain

mutual
/-- A group ends the sections that it opens. -/
theorem Group.level_lines (g : Group) : Line.level (Line.contents g.lines) = 0 := by
  cases g with
  | done => rfl
  | plain number line rest => simp [Group.lines, Group.level_lines rest, Plain.rise_line]
  | conditional number opening body tail rest =>
    simp [Group.lines, Group.level_lines rest, Group.level_lines body, Tail.level_lines tail,
      Line.rise]

/-- The rest of a section ends it. -/
theorem Tail.level_lines (t : Tail) : Line.level (Line.contents t.lines) = -1 := by
  cases t with
  | closing number => rfl
  | elseIf number operand body more =>
    simp [Tail.lines, Group.level_lines body, Tail.level_lines more, Line.rise]
  | otherwise number body closing => simp [Tail.lines, Group.level_lines body, Line.rise]
end

mutual
theorem Group.above_lines (g : Group) {n : Int} (hn : 0 ≤ n) :
    Line.Above n (Line.contents g.lines) := by
  cases g with
  | done => exact hn
  | plain number line rest =>
    rw [Group.lines, Line.contents_cons]
    refine ⟨hn, ?_, ?_⟩
    · intro hbranch
      rw [Plain.isBranch_line] at hbranch
      cases hbranch
    · rw [Plain.rise_line, Int.add_zero]
      exact Group.above_lines rest hn
  | conditional number opening body tail rest =>
    rw [Group.lines, Line.contents_cons, Line.contents_append, Line.contents_append]
    have hopened : 0 < n + Line.rise (.opening opening.test) := by simp only [Line.rise]; omega
    refine ⟨hn, (by intro h; cases h), ?_⟩
    refine (Group.above_lines body (Int.le_of_lt hopened)).append ?_
    rw [Group.level_lines, Int.add_zero]
    refine (Tail.above_lines tail hopened).append ?_
    rw [Tail.level_lines]
    refine Group.above_lines rest ?_
    simp only [Line.rise]
    omega

theorem Tail.above_lines (t : Tail) {n : Int} (hn : 0 < n) :
    Line.Above n (Line.contents t.lines) := by
  cases t with
  | closing number => exact Line.Above.closing hn
  | elseIf number operand body more =>
    rw [Tail.lines, Line.contents_cons, Line.contents_append]
    have hbranch : 0 < n + Line.rise (.elseIf operand) := by simp only [Line.rise]; omega
    refine ⟨Int.le_of_lt hn, fun _ => Int.ne_of_gt hn, ?_⟩
    refine (Group.above_lines body (Int.le_of_lt hbranch)).append ?_
    rw [Group.level_lines, Int.add_zero]
    exact Tail.above_lines more hbranch
  | otherwise number body closing =>
    rw [Tail.lines, Line.contents_cons, Line.contents_append]
    have hbranch : 0 < n + Line.rise .otherwise := by simp only [Line.rise]; omega
    refine ⟨Int.le_of_lt hn, fun _ => Int.ne_of_gt hn, ?_⟩
    refine (Group.above_lines body (Int.le_of_lt hbranch)).append ?_
    rw [Group.level_lines, Int.add_zero]
    exact Line.Above.closing hbranch
end

theorem Group.isSilent_iff (g : Group) :
    g.isSilent = true ↔ ∀ line ∈ Line.contents g.lines, line.isSilent = true := by
  cases g with
  | done => simp [Group.isSilent, Group.lines]
  | plain number line rest =>
    simp [Group.isSilent, Group.lines, Group.isSilent_iff rest, Plain.isSilent_line]
  | conditional number opening body tail rest => simp [Group.isSilent, Group.lines, Line.isSilent]

/-- **The guard of a group is the guard that its lines have the form of.** -/
theorem Group.guard?_eq_some_iff (g : Group) (name : Name) :
    g.guard? = some name ↔ Line.IsGuarded name (Line.contents g.lines) := by
  cases g with
  | done =>
    refine iff_of_false (by simp [Group.guard?]) ?_
    rintro ⟨before, operand, body, after, hlines, _⟩
    simp [Group.lines] at hlines
  | plain number line rest =>
    rw [Group.guard?, Group.lines, Line.contents_cons]
    cases hs : line.isSilent with
    | true =>
      rw [if_pos rfl, Line.isGuarded_cons_silent (by rw [Plain.isSilent_line, hs])]
      exact Group.guard?_eq_some_iff rest name
    | false =>
      rw [if_neg (by decide)]
      refine iff_of_false (by simp) (Line.not_isGuarded_cons ?_ ?_ _)
      · rw [Plain.isSilent_line, hs]
      · intro operand h
        cases line <;> cases h
  | conditional number opening body tail rest =>
    obtain ⟨test, named⟩ := opening
    rw [Group.lines, Line.contents_cons, Line.contents_append, Line.contents_append]
    have hbody := (body.above_lines (n := 0) (Int.le_refl 0)).isBody body.level_lines
    have hundivided := (body.above_lines (n := 0) (Int.le_refl 0)).isUndivided
    cases test with
    | condition operand =>
      exact iff_of_false (by simp [Group.guard?])
        (Line.not_isGuarded_cons rfl (by intro _ h; cases h) _)
    | ifDefined operand =>
      exact iff_of_false (by simp [Group.guard?])
        (Line.not_isGuarded_cons rfl (by intro _ h; cases h) _)
    | ifUndefined operand =>
      cases tail with
      | closing closed =>
        have hform := Line.isGuarded_opening_iff name operand hbody hundivided .closing
          (.inl rfl) (Line.contents rest.lines)
        rw [← Group.isSilent_iff] at hform
        rw [Group.guard?]
        refine Iff.trans ?_ hform.symm
        cases rest.isSilent <;> simp
      | elseIf divided operand' branch more =>
        have hform := Line.isGuarded_opening_iff name operand hbody hundivided (.elseIf operand')
          (.inr rfl)
          (Line.contents (branch.lines ++ more.lines) ++ Line.contents rest.lines)
        refine iff_of_false (by simp [Group.guard?]) ?_
        intro h
        cases (hform.mp h).1
      | otherwise divided branch closing =>
        have hform := Line.isGuarded_opening_iff name operand hbody hundivided .otherwise
          (.inr rfl)
          (Line.contents (branch.lines ++ [⟨closing, .closing⟩]) ++ Line.contents rest.lines)
        refine iff_of_false (by simp [Group.guard?]) ?_
        intro h
        cases (hform.mp h).1

/-! ### What scans find -/

section
variable {fs : FileSystem} {search : HeaderSearch} {reader : Reader} {file : Identity}
  {source : SourceId} {run left : Run Scan} {loaded : SourceFile} {report : Report}

theorem scanFile_guard_iff (h : run.host.sources.file? source = some loaded)
    (hok : scanFile fs search reader file source run = .ok report left) (name : Name) :
    report.guardName = some name ↔
      Line.IsGuarded name (Line.contents (Line.ofText loaded.text)) := by
  obtain ⟨g, hg, _, hguard⟩ := scanFile_ok fs search reader file source h hok
  rw [hguard, hg]
  exact g.guard?_eq_some_iff name

/-- **The guard is told by the form of the text.** A scan of a file that comes to its end,
whatever the disk, the macros, the ledger and the limits, reports the guard `name` just if the
text has the form of a file guarded by `name`, and none if it has no such form. So any two such
scans of one text report the same. -/
theorem guard_told_by_form (h : run.host.sources.file? source = some loaded)
    (hok : scanFile fs search reader file source run = .ok report left) :
    (∀ name, report.guardName = some name ↔
      Line.IsGuarded name (Line.contents (Line.ofText loaded.text))) ∧
    ((¬ ∃ name, Line.IsGuarded name (Line.contents (Line.ofText loaded.text))) →
      report.guardName = none) ∧
    ∀ (fs' : FileSystem) (search' : HeaderSearch) (reader' : Reader) (file' : Identity)
      (source' : SourceId) (run' left' : Run Scan) (loaded' : SourceFile) (report' : Report),
      run'.host.sources.file? source' = some loaded' → loaded'.text = loaded.text →
      scanFile fs' search' reader' file' source' run' = .ok report' left' →
      report'.guardName = report.guardName := by
  have hform := scanFile_guard_iff h hok
  refine ⟨hform, ?_, ?_⟩
  · intro hnone
    rw [Option.eq_none_iff_forall_ne_some]
    intro name hname
    exact hnone ⟨name, (hform name).mp hname⟩
  · intro fs' search' reader' file' source' run' left' loaded' report' h' htext hok'
    have hform' := scanFile_guard_iff h' hok'
    rw [htext] at hform'
    exact Option.ext fun name => (hform' name).trans (hform name).symm

end

/-- A guarded file with a marker, a comment and sections inside the guard. -/
def nestedGuard : SourceFile :=
  .entered ⟨0⟩ (.ofCanonical (.ofString "/n.h"))
    "/* n */\n# 1\n#ifndef N\n#define N\n#ifdef A\nx\n#else\n#bad\n#endif\n#endif\n\n".toList

/-- The start of a scan of this file where one name is defined. -/
def nestedRun (name : Name) : Run Scan :=
  (runOn nestedGuard).mapHost fun s => { s with macros := s.macros.define name [] }

/-- Where `A` is defined the file is scanned through, and where `N` is all of it is skipped. -/
theorem nestedGuard_told_by_form :
    Line.IsGuarded ['N'] (Line.contents (Line.ofText nestedGuard.text)) ∧
      ∃ report left report' left',
        scanFile {} {} none nestedGuard.identity ⟨0⟩ (nestedRun ['A']) = .ok report left ∧
        scanFile {} {} none nestedGuard.identity ⟨0⟩ (nestedRun ['N']) = .ok report' left' ∧
        report.guardName = some ['N'] ∧ report'.guardName = some ['N'] := by
  have hended : (ended? (scanFile {} {} none nestedGuard.identity ⟨0⟩ (nestedRun ['A']))).map
      (·.1.guardName) = some (some ['N']) := by decide +kernel
  have hended' : (ended? (scanFile {} {} none nestedGuard.identity ⟨0⟩ (nestedRun ['N']))).isSome =
      true := by decide +kernel
  obtain ⟨⟨report, left⟩, hscan, hname⟩ := Option.map_eq_some_iff.mp hended
  obtain ⟨⟨report', left'⟩, hscan'⟩ := Option.isSome_iff_exists.mp hended'
  have hok := eq_ok_of_ended? hscan
  have hok' := eq_ok_of_ended? hscan'
  obtain ⟨hform, _, hsame⟩ := guard_told_by_form rfl hok
  exact ⟨(hform ['N']).mp hname, report, left, report', left', hok, hok', hname,
    (hsame _ _ _ _ _ _ _ _ _ rfl rfl hok').trans hname⟩

end IncludeOnce
