import IncludeOnce.Scan.State

/-! The order in which headers are sought.

A header is sought in one place after the other. Its candidates are one list, and the header is
the first of them that is a regular file (`HeaderSearch.find?_eq_find?_candidates`), whatever else
there is on the disk: directories that are missing, directories by the name of the header, files
later in the list.

So a search is compared with another by its candidates. An angled name has no candidate beside the
file that asks for it and none in a quoted directory (`candidates_angled`). A quoted name has those
of the angled name behind its own (`candidates_quoted`). And a directory that is put behind all
others only makes the list longer (`candidates_system_append`). -/
namespace IncludeOnce

/-- The first of some paths that is a regular file. -/
def FirstFile (fs : FileSystem) (paths : List Path) (p : Path) : Prop :=
  ∃ before after, paths = before ++ p :: after ∧ fs.isFile p = true ∧
    ∀ q ∈ before, fs.isFile q = false

namespace HeaderSearch
variable (s : HeaderSearch) (fs : FileSystem)

/-- **Seeking a header in one place after the other finds the first of its candidates.** -/
theorem find?_eq_find?_candidates (h : HeaderName) (beside : Path) :
    s.find? fs h beside = (s.candidates h beside).find? fs.isFile := by
  obtain ⟨name, delimiter⟩ := h
  cases hname : Path.isAbsolute ⟨name⟩ with
  | true => cases hfile : fs.isFile ⟨name⟩ <;> simp [find?, candidates, hname, hfile]
  | false =>
    cases delimiter with
    | angled => simp [find?, candidates, hname, directories, findIn?]
    | quoted =>
      cases hfile : fs.isFile (beside.join ⟨name⟩) with
      | true => simp [find?, candidates, hname, directories, hfile]
      | false => simp [find?, candidates, hname, directories, findIn?, hfile, Option.or_assoc]

theorem find?_eq_some_iff (h : HeaderName) (beside p : Path) :
    s.find? fs h beside = some p ↔ FirstFile fs (s.candidates h beside) p := by
  rw [find?_eq_find?_candidates, List.find?_eq_some_iff_append, FirstFile]
  constructor
  · intro ⟨hfile, before, after, hsplit, hbefore⟩
    exact ⟨before, after, hsplit, hfile, by simpa using hbefore⟩
  · intro ⟨before, after, hsplit, hfile, hbefore⟩
    exact ⟨hfile, before, after, hsplit, by simpa using hbefore⟩

theorem find?_eq_none_iff (h : HeaderName) (beside : Path) :
    s.find? fs h beside = none ↔ ∀ p ∈ s.candidates h beside, fs.isFile p = false := by
  simp [find?_eq_find?_candidates]

/-- The header that is found is looked at, and no other. -/
theorem resolve_of_find? {h : HeaderName} {beside p : Path} (hp : s.find? fs h beside = some p) :
    s.resolve fs h beside = (fs.identify p).mapError (.unreadable p) := by
  rw [resolve, hp]

theorem resolve_eq_notFound_iff (h : HeaderName) (beside : Path) :
    s.resolve fs h beside = .error (.notFound h) ↔ s.find? fs h beside = none := by
  cases hp : s.find? fs h beside with
  | none => simp [resolve, hp]
  | some p =>
    rw [resolve_of_find? s fs hp]
    refine iff_of_false ?_ (by simp)
    intro herror
    cases hidentify : fs.identify p with
    | ok f =>
      rw [hidentify] at herror
      cases herror
    | error e =>
      rw [hidentify] at herror
      cases herror

/-- The lists of directories that are asked for a relative name, one behind the other. -/
def stages (beside : Path) : Delimiter → List (List Path)
  | .quoted => [[beside], s.quoted, s.common, s.system]
  | .angled => [s.common, s.system]

section
variable {name : Text} (hname : Path.isAbsolute ⟨name⟩ = false)
include hname

/-- Asking each list only where those before it hold nothing finds the first of all
candidates. -/
theorem find?_eq_findSome?_stages (d : Delimiter) (beside : Path) :
    s.find? fs ⟨name, d⟩ beside = (s.stages beside d).findSome? fun dirs =>
      (dirs.map (·.join ⟨name⟩)).find? fs.isFile := by
  have hdirectories : s.directories beside d = (s.stages beside d).flatten := by
    cases d <;> simp [directories, stages]
  have hcandidates : s.candidates ⟨name, d⟩ beside =
      ((s.stages beside d).map (List.map (·.join ⟨name⟩))).flatten := by
    simp [candidates, hname, hdirectories, List.map_flatten]
  rw [find?_eq_find?_candidates, hcandidates, List.find?_flatten, List.findSome?_map]
  rfl

theorem candidates_angled (beside : Path) :
    s.candidates ⟨name, .angled⟩ beside =
      s.common.map (·.join ⟨name⟩) ++ s.system.map (·.join ⟨name⟩) := by
  simp [candidates, directories, hname]

theorem candidates_quoted (beside : Path) :
    s.candidates ⟨name, .quoted⟩ beside =
      (beside :: s.quoted).map (·.join ⟨name⟩) ++ s.candidates ⟨name, .angled⟩ beside := by
  simp [candidates, directories, hname]

/-- A quoted name is sought where no angled one is, and then like one. -/
theorem find?_quoted (beside : Path) :
    s.find? fs ⟨name, .quoted⟩ beside =
      (((beside :: s.quoted).map (·.join ⟨name⟩)).find? fs.isFile).or
        (s.find? fs ⟨name, .angled⟩ beside) := by
  rw [find?_eq_find?_candidates, candidates_quoted s hname, List.find?_append,
    find?_eq_find?_candidates]

end

/-- Where a directory is put behind all others, the candidates that there were come first. -/
theorem candidates_system_append (more : List Path) (h : HeaderName) (beside : Path) :
    s.candidates h beside <+: candidates { s with system := s.system ++ more } h beside := by
  obtain ⟨name, delimiter⟩ := h
  cases hname : Path.isAbsolute ⟨name⟩ with
  | true => simp [candidates, hname]
  | false =>
    refine ⟨more.map (·.join ⟨name⟩), ?_⟩
    cases delimiter <;> simp [candidates, directories, hname]

/-- The places that are no angled name's do not matter to one. -/
theorem angled_anywhere {name : Text} (hname : Path.isAbsolute ⟨name⟩ = false)
    (quoted : List Path) (beside elsewhere : Path) :
    find? { s with quoted } fs ⟨name, .angled⟩ elsewhere = s.find? fs ⟨name, .angled⟩ beside ∧
      resolve { s with quoted } fs ⟨name, .angled⟩ elsewhere =
        s.resolve fs ⟨name, .angled⟩ beside := by
  have hfind : find? { s with quoted } fs ⟨name, .angled⟩ elsewhere =
      s.find? fs ⟨name, .angled⟩ beside := by
    rw [find?_eq_find?_candidates, find?_eq_find?_candidates, candidates_angled _ hname,
      candidates_angled _ hname]
  exact ⟨hfind, by rw [resolve, resolve, hfind]⟩

/-- What is found stays found when directories are put behind all others. -/
theorem find?_system_append {h : HeaderName} {beside p : Path}
    (hp : s.find? fs h beside = some p) (more : List Path) :
    find? { s with system := s.system ++ more } fs h beside = some p ∧
      resolve { s with system := s.system ++ more } fs h beside = s.resolve fs h beside := by
  obtain ⟨later, hlater⟩ := candidates_system_append s more h beside
  have hfind : find? { s with system := s.system ++ more } fs h beside = some p := by
    rw [find?_eq_find?_candidates] at hp
    rw [find?_eq_find?_candidates, ← hlater, List.find?_append, hp, Option.some_or]
  exact ⟨hfind, by rw [resolve_of_find? _ fs hfind, resolve_of_find? s fs hp]⟩

/-- **A header is the first of its candidates that is a file.** The candidates of an absolute name
are the name itself. A relative name has one in each directory that is asked for it, in their
order; a quoted one in the directory beside which it stands and in the quoted directories first.
Where none is a file, and only there, the header is not found. The lists of directories may as well
be asked one behind the other, each only where those before it hold nothing.

So an angled name is found alike from anywhere and whatever the quoted directories are, a quoted
name that none of its own places holds is found like an angled one, and what is found stays found
when directories are put behind all others. -/
theorem found_first_in_order (name : Text) (d : Delimiter) (beside : Path) :
    (s.candidates ⟨name, d⟩ beside =
      if Path.isAbsolute ⟨name⟩ then [⟨name⟩]
      else ((if d = .quoted then beside :: s.quoted else []) ++ s.common ++ s.system).map
        (·.join ⟨name⟩)) ∧
    (∀ p, s.find? fs ⟨name, d⟩ beside = some p ↔
      FirstFile fs (s.candidates ⟨name, d⟩ beside) p) ∧
    (∀ p, FirstFile fs (s.candidates ⟨name, d⟩ beside) p →
      s.resolve fs ⟨name, d⟩ beside = (fs.identify p).mapError (.unreadable p)) ∧
    (s.resolve fs ⟨name, d⟩ beside = .error (.notFound ⟨name, d⟩) ↔
      ∀ p ∈ s.candidates ⟨name, d⟩ beside, fs.isFile p = false) ∧
    (Path.isAbsolute ⟨name⟩ = false →
      (s.find? fs ⟨name, d⟩ beside = (s.stages beside d).findSome? fun dirs =>
        (dirs.map (·.join ⟨name⟩)).find? fs.isFile) ∧
      (∀ quoted elsewhere,
        find? { s with quoted } fs ⟨name, .angled⟩ elsewhere = s.find? fs ⟨name, .angled⟩ beside ∧
        resolve { s with quoted } fs ⟨name, .angled⟩ elsewhere =
          s.resolve fs ⟨name, .angled⟩ beside) ∧
      ((∀ dir ∈ beside :: s.quoted, fs.isFile (dir.join ⟨name⟩) = false) →
        s.find? fs ⟨name, .quoted⟩ beside = s.find? fs ⟨name, .angled⟩ beside) ∧
      ∀ more p, s.find? fs ⟨name, d⟩ beside = some p →
        find? { s with system := s.system ++ more } fs ⟨name, d⟩ beside = some p ∧
        resolve { s with system := s.system ++ more } fs ⟨name, d⟩ beside =
          s.resolve fs ⟨name, d⟩ beside) := by
  refine ⟨?_, s.find?_eq_some_iff fs _ beside, ?_, ?_, ?_⟩
  · cases hname : Path.isAbsolute ⟨name⟩ with
    | true => simp [candidates, hname]
    | false => cases d <;> simp [candidates, directories, hname]
  · intro p hp
    exact s.resolve_of_find? fs ((s.find?_eq_some_iff fs _ beside p).mpr hp)
  · rw [resolve_eq_notFound_iff, find?_eq_none_iff]
  · intro hname
    refine ⟨s.find?_eq_findSome?_stages fs hname d beside,
      fun quoted elsewhere => s.angled_anywhere fs hname quoted beside elsewhere, ?_, ?_⟩
    · intro hown
      have hnone : ((beside :: s.quoted).map (·.join ⟨name⟩)).find? fs.isFile = none := by
        simpa using hown
      rw [find?_quoted s fs hname, hnone, Option.none_or]
    · intro more p hp
      exact s.find?_system_append fs hp more

/-- Two headers of one name, and a directory by that name before them. -/
def orderedDisk : FileSystem where
  entries := [(["src".toList], .directory 1), (["q".toList], .directory 2),
    (["i".toList], .directory 3), (["s".toList], .directory 4),
    (["x.h".toList, "q".toList], .directory 5), (["x.h".toList, "i".toList], .file 6),
    (["x.h".toList, "s".toList], .file 7)]

/-- One of the directories is missing. -/
def orderedSearch : HeaderSearch where
  quoted := [.ofString "/q"]
  common := [.ofString "/none", .ofString "/i"]
  system := [.ofString "/s"]

theorem orderedSearch_found_first :
    Path.isAbsolute ⟨"x.h".toList⟩ = false ∧
      orderedSearch.find? orderedDisk ⟨"x.h".toList, .quoted⟩ (.ofString "/src") =
        some (.ofString "/i/x.h") ∧
      orderedSearch.find? orderedDisk ⟨"x.h".toList, .angled⟩ (.ofString "/src") =
        some (.ofString "/i/x.h") ∧
      find? { orderedSearch with system := orderedSearch.system ++ [.ofString "/q"] } orderedDisk
        ⟨"x.h".toList, .quoted⟩ (.ofString "/src") = some (.ofString "/i/x.h") := by
  have hname : Path.isAbsolute ⟨"x.h".toList⟩ = false := by decide
  obtain ⟨_, hfirst, _, _, hrelative⟩ :=
    found_first_in_order orderedSearch orderedDisk "x.h".toList .quoted (.ofString "/src")
  obtain ⟨_, _, halike, hlasts⟩ := hrelative hname
  have hfound : orderedSearch.find? orderedDisk ⟨"x.h".toList, .quoted⟩ (.ofString "/src") =
      some (.ofString "/i/x.h") :=
    (hfirst _).mpr ⟨[.ofString "/src/x.h", .ofString "/q/x.h", .ofString "/none/x.h"],
      [.ofString "/s/x.h"], by decide +kernel, by decide +kernel, by decide +kernel⟩
  have hown : ∀ dir ∈ Path.ofString "/src" :: orderedSearch.quoted,
      orderedDisk.isFile (dir.join ⟨"x.h".toList⟩) = false := by
    decide +kernel
  exact ⟨hname, hfound, (halike hown).symm.trans hfound, (hlasts [.ofString "/q"] _ hfound).1⟩

end HeaderSearch

end IncludeOnce
