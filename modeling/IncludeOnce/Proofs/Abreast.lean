import IncludeOnce.Proofs.Pairing

/-! Two scans side by side.

Take two scans of the same files, one of them after other files have been read and other
diagnostics told. The numbers of the files differ then, and with them every location, but
nothing that is decided or put out depends on a number. `Scan.Abreast` says that two scanners
have come equally far. It is a pairing (`abreast`), provided that no file is come to under
two paths: the text that is kept for a file is then the one that its path finds. -/
namespace IncludeOnce
open Scan

/-! ### What has been read -/

/-- The text of the file that a path finds. -/
def FileSystem.textAt (fs : FileSystem) (p : Path) : Except IoError Text :=
  (fs.read p).map Utf8.decode

/-- No file is reached under two paths. -/
def OnePath (reached : Identity → Prop) : Prop :=
  ∀ f g, reached f → reached g → f.key = g.key → f.path = g.path

theorem OnePath.eq {reached : Identity → Prop} (h : OnePath reached) {f g : Identity}
    (hf : reached f) (hg : reached g) (hsame : f.isSame g = true) : f = g := by
  have hkey := Identity.isSame_iff.mp hsame
  obtain ⟨key, path⟩ := f
  cases hkey
  cases h _ _ hf hg rfl
  rfl

/-- Only files that are reached have been read, and each with the text that is there. -/
def Sources.ReadFrom (fs : FileSystem) (reached : Identity → Prop) (s : Sources) : Prop :=
  ∀ id file, s.file? id = some file →
    reached file.identity ∧ fs.textAt file.path = .ok file.text

namespace Sources.ReadFrom
variable {fs : FileSystem} {reached : Identity → Prop} {s : Sources} {f : Identity}

theorem empty : ReadFrom fs reached {} := by
  intro id file hfile
  simp [SourceTable.file?] at hfile

/-- What has been read for a file is what its path finds. -/
theorem found (h : s.ReadFrom fs reached) (hone : OnePath reached) (hf : reached f)
    {id : SourceId} (hfind : s.find? f = some id) :
    ∃ file, s.file? id = some file ∧ file.identity = f ∧ fs.textAt f.path = .ok file.text := by
  obtain ⟨file, hfile, hsame⟩ := find?_eq_some hfind
  obtain ⟨hreached, htext⟩ := h id file hfile
  cases hone.eq hf hreached hsame
  have hpath : file.path = file.identity.path :=
    congrArg SourceFile.path (s.agrees.numbered id file hfile)
  exact ⟨file, hfile, rfl, hpath ▸ htext⟩

theorem load_error (h : s.ReadFrom fs reached) (hone : OnePath reached) (hf : reached f)
    {e : IoError} (he : fs.textAt f.path = .error e) : s.load fs f = .error e := by
  cases hfind : s.find? f with
  | some id =>
    obtain ⟨file, _, _, htext⟩ := h.found hone hf hfind
    cases he.symm.trans htext
  | none =>
    unfold FileSystem.textAt at he
    cases hr : fs.read f.path with
    | error e' =>
      rw [hr] at he
      cases he
      exact load_unread hfind hr
    | ok octets =>
      rw [hr] at he
      cases he

theorem load_ok (h : s.ReadFrom fs reached) (hone : OnePath reached) (hf : reached f)
    {text : Text} (ht : fs.textAt f.path = .ok text) :
    ∃ id t file, s.load fs f = .ok (id, t) ∧ t.ReadFrom fs reached ∧ t.file? id = some file ∧
      file.identity = f ∧ file.text = text := by
  cases hfind : s.find? f with
  | some id =>
    obtain ⟨file, hfile, hidentity, htext⟩ := h.found hone hf hfind
    cases ht.symm.trans htext
    exact ⟨id, s, file, load_known hfind, h, hfile, hidentity, rfl⟩
  | none =>
    have hat := ht
    unfold FileSystem.textAt at ht
    cases hr : fs.read f.path with
    | error e =>
      rw [hr] at ht
      cases ht
    | ok octets =>
      rw [hr] at ht
      cases ht
      refine ⟨_, _, .entered ⟨s.files.size⟩ f (Utf8.decode octets), load_new hfind hr, ?_, ?_,
        rfl, rfl⟩
      · intro id file hfile
        rw [enter, SourceTable.file?_enter] at hfile
        split at hfile
        · cases hfile
          exact ⟨hf, hat⟩
        · exact h id file hfile
      · rw [enter, SourceTable.file?_enter, if_pos rfl]

end Sources.ReadFrom

namespace Diagnostics

/-- Both under these options, and both with errors or without. -/
structure Akin (options d e : Diagnostics) : Prop where
  errors : e.hasErrors = d.hasErrors
  areErrors : d.warningsAreErrors = options.warningsAreErrors ∧
    e.warningsAreErrors = options.warningsAreErrors
  off : d.warningsOff = options.warningsOff ∧ e.warningsOff = options.warningsOff

theorem hasErrors_warn (d : Diagnostics) (message : String) (location : Option Location) :
    (d.warn message location).hasErrors =
      (d.hasErrors || (!d.warningsOff && d.warningsAreErrors)) := by
  unfold warn
  cases d.warningsOff with
  | true => simp
  | false =>
    cases d.warningsAreErrors with
    | true => simp [report, hasErrors]
    | false => simp [report, hasErrors]

theorem warn_options (d : Diagnostics) (message : String) (location : Option Location) :
    (d.warn message location).warningsAreErrors = d.warningsAreErrors ∧
      (d.warn message location).warningsOff = d.warningsOff := by
  unfold warn
  split
  · exact ⟨rfl, rfl⟩
  · exact ⟨rfl, rfl⟩

theorem Akin.warn {options d e : Diagnostics} (h : Akin options d e) (message : String)
    (a b : Option Location) : Akin options (d.warn message a) (e.warn message b) where
  errors := by
    rw [hasErrors_warn, hasErrors_warn, h.errors, h.areErrors.1, h.areErrors.2, h.off.1, h.off.2]
  areErrors := by
    rw [(d.warn_options message a).1, (e.warn_options message b).1]
    exact h.areErrors
  off := by
    rw [(d.warn_options message a).2, (e.warn_options message b).2]
    exact h.off

end Diagnostics

/-! ### Scanners abreast -/

/-- The two scanners have put out and learnt the same. -/
structure Scan.Abreast (fs : FileSystem) (reached : Identity → Prop) (options : Diagnostics)
    (s t : Scan) : Prop where
  macros : t.macros = s.macros
  written : t.written = s.written
  events : t.events = s.events
  depth : t.stack.length = s.stack.length
  diagnostics : options.Akin s.diagnostics t.diagnostics
  sources : s.sources.ReadFrom fs reached ∧ t.sources.ReadFrom fs reached

namespace Scan.Abreast
variable {fs : FileSystem} {reached : Identity → Prop} {options : Diagnostics} {s t : Scan}

theorem pop (h : Abreast fs reached options s t) : Abreast fs reached options s.pop t.pop := by
  refine { h with depth := ?_ }
  show t.stack.tail.length = s.stack.tail.length
  rw [List.length_tail, List.length_tail, h.depth]

/-- Where failures are noted is not compared. -/
theorem fail (h : Abreast fs reached options s t) (a b : Location) :
    Abreast fs reached options (s.fail a) (t.fail b) := by
  obtain ⟨failure, hs⟩ := s.fail_eq a
  obtain ⟨failure', ht⟩ := t.fail_eq b
  rw [hs, ht]
  exact { h with }

theorem reserve (h : Abreast fs reached options s t) (depth : Nat) (request : Request) :
    Abreast fs reached options (s.reserve depth request) (t.reserve depth request) :=
  { h with
    events := congrArg (·.push ⟨depth, request.kind, request.header.name, .pending⟩) h.events }

/-- A file is read for both with the text that is there, or for neither. -/
theorem load (h : Abreast fs reached options s t) (hone : OnePath reached) {f : Identity}
    (hf : reached f) :
    LoadsBoth (fun _ _ => True) (fun x y => y = x) (Abreast fs reached options) s t
      (s.sources.load fs f) (t.sources.load fs f) := by
  cases htext : fs.textAt f.path with
  | error e =>
    rw [h.sources.1.load_error hone hf htext, h.sources.2.load_error hone hf htext]
    exact .error e
  | ok text =>
    obtain ⟨id, sources, file, hload, hsources, hfile, _, rfl⟩ :=
      h.sources.1.load_ok hone hf htext
    obtain ⟨id', sources', file', hload', hsources', hfile', _, hsame⟩ :=
      h.sources.2.load_ok hone hf htext
    rw [hload, hload']
    refine .ok (fun _ => trivial) { h with sources := ⟨hsources, hsources'⟩ } hfile hfile' ?_
    rw [hsame]
    exact Numbered.Respelt.refl _ _

end Scan.Abreast

/-- **Scanners abreast are a pairing**, whatever numbers their files have. -/
def abreast (fs : FileSystem) (settings : Settings) {reached : Identity → Prop}
    (hone : OnePath reached) (options : Diagnostics) : Pairing fs fs settings reached where
  place _ _ := True
  name _ h h' := h' = h
  host := Scan.Abreast fs reached options
  name_refl _ _ := rfl
  resolve hname := by rw [hname]
  macros h := h.macros
  depth h := h.depth
  slots h := congrArg Array.size h.events
  setMacros h _ := { h with macros := rfl }
  write h line := { h with written := congrArg (·.push line) h.written }
  warn h message _ _ _ := { h with diagnostics := h.diagnostics.warn message _ _ }
  setSite h _ _ _ := { h with }
  push h _ _ _ _ := { h with depth := congrArg (· + 1) h.depth }
  pop h := h.pop
  fail h _ _ _ := h.fail _ _
  reserve h depth kind _ header _ hname := hname ▸ h.reserve depth ⟨kind, header⟩
  fill h slot result := { h with events := congrArg (·.modify slot ({ · with result })) h.events }
  load h _ _ _ _ hf := h.load hone hf

end IncludeOnce
