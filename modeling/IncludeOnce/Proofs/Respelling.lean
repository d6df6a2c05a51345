import IncludeOnce.Proofs.OnceGraph
import IncludeOnce.Proofs.OnceOrGuard
import IncludeOnce.Proofs.Pairing

/-! Headers asked for under other names.

Take two disks that differ in the texts of files only, and in these only by requests that
are made under another name for the same file. A scan of the one is a scan of the other but
for the names: `Scan.Echoes` says that two scanners have come equally far, and it is a pairing
(`echoes`). So nothing that is told after a scan depends on how headers are spelt, whether the
scan fails or not (`respelling_unobservable`). -/
namespace IncludeOnce
open Scan

/-! ### Names for the same file -/

/-- Two header names mean the same file, or no file for the same reason, seen from a file. -/
def SameFrom (fs : FileSystem) (search : HeaderSearch) (file : Identity)
    (h h' : HeaderName) : Prop :=
  search.resolve fs h' file.directory = search.resolve fs h file.directory

/-- Two header names mean files under one canonical path, from wherever a file with a number
is read. -/
def SamePath (fs : FileSystem) (search : HeaderSearch) (reads : Identity → Prop) (n : Nat)
    (h h' : HeaderName) : Prop :=
  ∀ file, reads file → file.key = .inode n → ∃ f g,
    search.resolve fs h file.directory = .ok f ∧ search.resolve fs h' file.directory = .ok g ∧
      g.path = f.path

/-- Two disks that differ in how the files that are read spell the names of headers. -/
structure RespeltDisks (fs gs : FileSystem) (search : HeaderSearch) (reads : Identity → Prop) :
    Prop where
  stands : fs.Stands fs.current
  same : gs = { fs with contents := gs.contents }
  text : ∀ n, Respelt (SamePath fs search reads n) (fs.textOf n).lines (gs.textOf n).lines

theorem SamePath.sameFrom {fs : FileSystem} {search : HeaderSearch} {reads : Identity → Prop}
    {n : Nat} {h h' : HeaderName} {file : Identity} (hc : fs.Stands fs.current)
    (hsame : SamePath fs search reads n h h') (hread : reads file) (hkey : file.key = .inode n) :
    SameFrom fs search file h h' := by
  obtain ⟨f, g, hf, hg, hpath⟩ := hsame file hread hkey
  obtain ⟨p, hp⟩ := HeaderSearch.resolve_ok hf
  obtain ⟨q, hq⟩ := HeaderSearch.resolve_ok hg
  rw [SameFrom, hf, hg, FileSystem.identify_path hc hp hq hpath]

theorem Numbered.Respelt.weaken {same wider : HeaderName → HeaderName → Prop}
    (h : ∀ x y, same x y → wider x y) {l l' : Numbered Line} (hl : l.Respelt same l') :
    l.Respelt wider l' := by
  obtain ⟨number, hline⟩ := hl
  refine .at number ?_
  cases hline with
  | refl => exact .refl _
  | request kind hs hs' hsame => exact .request kind hs hs' (h _ _ hsame)

namespace RespeltDisks
variable {fs gs : FileSystem} {search : HeaderSearch} {reads : Identity → Prop}
  (h : RespeltDisks fs gs search reads)
include h

theorem resolve : search.resolve gs = search.resolve fs := by
  rw [h.same]
  exact FileSystem.resolve_contents fs _ search

/-- The lines of a file that is read are the same but for names that mean the same there. -/
theorem lines {f : Identity} (hread : reads f) :
    List.Forall₂ (Numbered.Respelt (SameFrom fs search f)) (f.linesOn fs) (f.linesOn gs) := by
  obtain ⟨key, path⟩ := f
  cases key with
  | path parts => exact .nil
  | inode n =>
    exact (h.text n).ofLines.imp fun _ _ hl =>
      hl.weaken fun _ _ hsame => hsame.sameFrom h.stands hread rfl

end RespeltDisks

/-! ### States that have come equally far -/

/-- An event but for the name of the header. -/
def IncludeEvent.unnamed (e : IncludeEvent) : IncludeEvent := { e with header := [] }

/-- The same files have been read, each from its own disk. -/
structure Sources.Echoes (fs gs : FileSystem) (s t : Sources) : Prop where
  identity : t.files.map (·.identity) = s.files.map (·.identity)
  here : s.OnDisk fs
  there : t.OnDisk gs

/-- A scan without its trace and the texts of files. -/
def Scan.bare (s : Scan) : Scan := { s with events := #[], sources := {} }

/-- A scanner, and one that asks for headers under other names. -/
structure Scan.Echoes (fs gs : FileSystem) (s t : Scan) : Prop where
  bare : t.bare = s.bare
  events : t.events.map (·.unnamed) = s.events.map (·.unnamed)
  sources : s.sources.Echoes fs gs t.sources

/-- The same files are read on both disks. -/
theorem RespeltDisks.load {fs gs : FileSystem} {search : HeaderSearch} {reads : Identity → Prop}
    (h : RespeltDisks fs gs search reads) {s t : Sources} (hs : s.Echoes fs gs t) {f : Identity}
    (hf : f.IsOn fs) :
    (∃ e, s.load fs f = .error e ∧ t.load gs f = .error e) ∨
      ∃ id s' t', s.load fs f = .ok (id, s') ∧ t.load gs f = .ok (id, t') ∧
        s'.Echoes fs gs t' := by
  have hf' : f.IsOn gs := by
    obtain ⟨n, hkey, hn⟩ := hf
    refine ⟨n, hkey, ?_⟩
    rw [h.same, fs.inodeAt_contents]
    exact hn
  obtain herror | ⟨id, hl, hl'⟩ | ⟨m, hnew, hnew', hm, hl, hl'⟩ :=
    Sources.load_either h.same hs.identity f
  · exact .inl herror
  · exact .inr ⟨id, s, t, hl, hl', hs⟩
  · refine .inr ⟨_, _, _, hl, hl', ?_, hs.here.load hf hl, hs.there.load hf' hl'⟩
    exact Sources.map_identity_enter hs.identity _ _ hnew hnew'

/-- The lines of the file that has been read are those on the disk. -/
theorem Sources.OnDisk.loaded {fs : FileSystem} {s t : Sources} {f : Identity} {id : SourceId}
    (ht : t.OnDisk fs) (h : s.load fs f = .ok (id, t)) :
    ∃ file, t.file? id = some file ∧ Line.ofText file.text = f.linesOn fs := by
  obtain ⟨_, hfind, _⟩ := load_ok h
  obtain ⟨file, hfile, hsame⟩ := find?_eq_some hfind
  exact ⟨file, hfile, ht.lines hfile hsame⟩

/-- To fill a place in the trace has nothing to do with names. -/
theorem map_unnamed_modify (events : Array IncludeEvent) (slot : Nat) (result : EventResult) :
    (events.modify slot ({ · with result })).map (·.unnamed) =
      (events.map (·.unnamed)).modify slot ({ · with result }) := by
  apply Array.ext_getElem?
  intro i
  rw [Array.getElem?_map, Array.getElem?_modify, Array.getElem?_modify, Array.getElem?_map]
  split
  · cases events[i]? <;> rfl
  · rfl

namespace Scan.Echoes
variable {fs gs : FileSystem} {s t : Scan} (h : s.Echoes fs gs t)
include h

/-- What neither looks at the trace and the sources nor changes them is the same for both. -/
theorem map {f : Scan → Scan} (hbare : ∀ s, (f s).bare = (f s.bare).bare)
    (hevents : ∀ s, (f s).events = s.events) (hsources : ∀ s, (f s).sources = s.sources) :
    (f s).Echoes fs gs (f t) where
  bare := by rw [hbare t, h.bare, ← hbare]
  events := by rw [hevents, hevents, h.events]
  sources := by
    rw [hsources, hsources]
    exact h.sources

theorem fail (location : Location) : (s.fail location).Echoes fs gs (t.fail location) := by
  have hfail : ∀ s : Scan, ∃ failure, s.fail location = { s with failure } :=
    fun s => s.fail_eq location
  refine h.map (f := (·.fail location)) ?_ ?_ ?_
  · intro s
    cases hs : s.failure with
    | none => simp only [Scan.fail, Scan.bare, hs]
    | some failure => simp only [Scan.fail, Scan.bare, hs]
  · intro s
    obtain ⟨failure, hs⟩ := hfail s
    rw [hs]
  · intro s
    obtain ⟨failure, hs⟩ := hfail s
    rw [hs]

theorem push (file : Identity) {a b : Option Location} (hplace : Option.Rel Eq a b) :
    (s.push file a).Echoes fs gs (t.push file b) := by
  have hsame : b = a := by
    cases hplace with
    | none => rfl
    | some hplace => rw [hplace]
  rw [hsame]
  exact h.map (f := (·.push file a)) (fun _ => rfl) (fun _ => rfl) fun _ => rfl

theorem reserve (depth : Nat) (kind : RequestKind) (header header' : HeaderName) :
    (s.reserve depth ⟨kind, header⟩).Echoes fs gs (t.reserve depth ⟨kind, header'⟩) where
  bare := h.bare
  events := by
    simp only [Scan.reserve, Array.map_push, h.events]
    rfl
  sources := h.sources

theorem fill (slot : Nat) (result : EventResult) :
    (s.fill slot result).Echoes fs gs (t.fill slot result) where
  bare := h.bare
  events := by
    simp only [Scan.fill]
    rw [map_unnamed_modify, map_unnamed_modify, h.events]
  sources := h.sources

/-- A file is read for both, each with the lines on its own disk. -/
theorem load {search : HeaderSearch} {reads : Identity → Prop}
    (hx : RespeltDisks fs gs search reads) {f : Identity} (hf : f.IsOn fs) (hread : reads f) :
    LoadsBoth Eq (SameFrom fs search f) (Scan.Echoes fs gs) s t (s.sources.load fs f)
      (t.sources.load gs f) := by
  obtain ⟨e, hl, hl'⟩ | ⟨id, s', t', hl, hl', hsources⟩ := hx.load h.sources hf
  · rw [hl, hl']
    exact .error e
  · obtain ⟨file, hfile, hlines⟩ := hsources.here.loaded hl
    obtain ⟨file', hfile', hlines'⟩ := hsources.there.loaded hl'
    rw [hl, hl']
    refine .ok (fun _ => rfl) ⟨h.bare, h.events, hsources⟩ hfile hfile' ?_
    rw [hlines, hlines']
    exact hx.lines hread

end Scan.Echoes

/-- **Scans that ask for headers under other names are a pairing**, if the names mean the
same. -/
def echoes {fs gs : FileSystem} {settings : Settings} {reads : Identity → Prop}
    (hx : RespeltDisks fs gs settings.search reads) : Pairing fs gs settings reads where
  place := Eq
  name := SameFrom fs settings.search
  host := Scan.Echoes fs gs
  name_refl _ _ := rfl
  resolve hname := by
    rw [hx.resolve]
    exact hname
  macros h := (congrArg Scan.macros h.bare :)
  depth h := (congrArg (·.stack.length) h.bare :)
  slots h := by simpa using congrArg Array.size h.events
  setMacros h macros := h.map (f := ({ · with macros })) (fun _ => rfl) (fun _ => rfl) fun _ => rfl
  write h line := h.map (f := (·.write line)) (fun _ => rfl) (fun _ => rfl) fun _ => rfl
  warn h message a _ hplace :=
    hplace ▸ h.map (f := (·.warn message a)) (fun _ => rfl) (fun _ => rfl) fun _ => rfl
  setSite h a _ hplace :=
    hplace ▸ h.map (f := ({ · with requestSite := some a })) (fun _ => rfl) (fun _ => rfl)
      fun _ => rfl
  push h file _ _ hplace := h.push file hplace
  pop h := h.map (fun _ => rfl) (fun _ => rfl) fun _ => rfl
  fail h a _ hplace := hplace ▸ h.fail a
  reserve h depth kind _ _ _ _ := h.reserve depth kind _ _
  fill h slot result := h.fill slot result
  load h _ _ _ hresolve hread := h.load hx (HeaderSearch.resolve_isOn hx.stands hresolve) hread

section
variable {fs gs : FileSystem} {settings : Settings} {reads : Identity → Prop} {source : SourceId}
  {run twin : Run Scan}

/-- **A main file does the same on both disks.** -/
theorem process_echoes (hx : RespeltDisks fs gs settings.search reads)
    (hmain : ∀ main, run.host.sources.file? source = some main → reads main.identity)
    (hreads : OnlyReads reads (leftBy (process fs settings source run)).journal)
    (he : (echoes hx).Paired run twin) :
    (echoes hx).Ends Eq (process fs settings source run) (process gs settings source twin) := by
  have hsources : run.host.sources.Echoes fs gs twin.host.sources := he.host.sources
  cases hfile : run.host.sources.file? source with
  | none =>
    rw [process_apply, process_apply, hfile,
      Sources.file?_none_of_identity hsources.identity hfile]
    exact .ok rfl he
  | some main =>
    obtain ⟨main', hfile', hidentity⟩ :=
      Sources.exists_file?_of_identity hsources.identity hfile
    refine process_paired (echoes hx) hfile hfile' hidentity (fun _ => rfl) ?_ hreads he
    rw [hsources.here.lines hfile main.identity.isSame_refl,
      hsources.there.lines hfile' main'.identity.isSame_refl, hidentity]
    exact hx.lines (hmain main hfile)

end

/-! ### What is told of a scan -/

/-- The file that an entry says is begun, as a main file or in place of a line. -/
def Journal.Entry.begun? : Journal.Entry → Option Identity
  | .mainBegun f | .processing _ f => some f
  | _ => none

/-- The files that have been begun, under the paths by which they were come to. -/
def Journal.begun (journal : Journal) : List Identity := journal.toList.filterMap Entry.begun?

theorem process_begun (fs : FileSystem) (settings : Settings) {source : SourceId} {run : Run Scan}
    {main : SourceFile} (hmain : run.host.sources.file? source = some main) :
    main.identity ∈ (leftBy (process fs settings source run)).journal.begun := by
  obtain ⟨trail, hcourse⟩ := exists_course fs settings main.identity source {}
    (Line.ofText main.text) (run.mainOpened main.identity)
  have hbegun : .mainBegun main.identity ∈ (run.mainOpened main.identity).journal.toList := by
    show _ ∈ (run.journal.push _).toList
    simp
  rw [process_main fs settings run hmain]
  refine List.mem_filterMap.mpr ⟨.mainBegun main.identity, ?_, rfl⟩
  exact (endMain_journal (leave_journal hcourse.journal) main.identity).subset hbegun

/-- A new scan of a main file, with a fresh ledger, after files have been read and the main
file among them. -/
def scanMain (fs : FileSystem) (settings : Settings) (diagnostics : Diagnostics)
    (opened : List Path) (main : SourceId) :
    Except IoError (EStateM.Result ScanError (Run Scan) Unit) :=
  (({} : Sources).loadAll fs opened).map fun sources =>
    process fs settings main (Pipeline.begin settings { sources, diagnostics })

/-- The files that a new scan of a main file reads. -/
def ReadBy (fs : FileSystem) (settings : Settings) (diagnostics : Diagnostics)
    (opened : List Path) (main : SourceId) (f : Identity) : Prop :=
  ∃ r, scanMain fs settings diagnostics opened main = .ok r ∧ f ∈ (leftBy r).journal.begun

/-- Two scans come to the same end, and all that is told of them is the same but for the names
of headers in the trace. -/
structure SameButNames (r u : EStateM.Result ScanError (Run Scan) Unit) : Prop where
  outcome : outcome u = outcome r
  failure : (leftBy u).host.failure = (leftBy r).host.failure
  text : (leftBy u).host.text = (leftBy r).host.text
  macros : (leftBy u).host.macros = (leftBy r).host.macros
  ledger : (leftBy u).ledger = (leftBy r).ledger
  diagnostics : (leftBy u).host.diagnostics = (leftBy r).host.diagnostics
  /-- The same files have been read, under the same numbers. -/
  sources : (leftBy u).host.sources.files.map (·.identity) =
    (leftBy r).host.sources.files.map (·.identity)
  events : (leftBy u).host.events.map (·.unnamed) = (leftBy r).host.events.map (·.unnamed)

theorem SameButNames.of_ends {fs gs : FileSystem} {settings : Settings}
    {reads : Identity → Prop} {hx : RespeltDisks fs gs settings.search reads}
    {r u : EStateM.Result ScanError (Run Scan) Unit} (h : (echoes hx).Ends Eq r u) :
    SameButNames r u :=
  have hleft : (leftBy r).host.Echoes fs gs (leftBy u).host := h.left.host
  { outcome := h.outcome
    failure := (congrArg Scan.failure hleft.bare :)
    text := (congrArg Scan.text hleft.bare :)
    macros := (congrArg Scan.macros hleft.bare :)
    ledger := h.left.ledger
    diagnostics := (congrArg Scan.diagnostics hleft.bare :)
    sources := hleft.sources.identity
    events := hleft.events }

/-- **How headers are spelt does not show.** Some requests that stand by themselves are made
under another name, which means a file under the same canonical path wherever the scan reads
the line. Whatever files have been read, and whichever of them is the main file, either the
same file cannot be read, or the scan comes to the same end, and nothing that is told of it
differs but the names. -/
theorem respelling_unobservable (fs gs : FileSystem) (settings : Settings)
    (diagnostics : Diagnostics) (opened : List Path) (main : SourceId)
    (h : RespeltDisks fs gs settings.search (ReadBy fs settings diagnostics opened main)) :
    (∃ e, scanMain fs settings diagnostics opened main = .error e ∧
      scanMain gs settings diagnostics opened main = .error e) ∨
    ∃ r u, scanMain fs settings diagnostics opened main = .ok r ∧
      scanMain gs settings diagnostics opened main = .ok u ∧ SameButNames r u := by
  have hnone : ∀ disk, ({} : Sources).OnDisk disk := by
    intro disk id file hfile
    simp [SourceTable.file?] at hfile
  have hblank : ({} : Sources).Echoes fs gs {} := ⟨rfl, hnone fs, hnone gs⟩
  obtain ⟨e, hl, hl'⟩ | ⟨s, t, hl, hl', hs⟩ := Sources.loadAll_either h.same
    (fun _ _ _ _ hs hi => h.load hs (FileSystem.identify_inode h.stands hi)) hblank opened
  · unfold scanMain
    rw [hl, hl']
    exact .inl ⟨e, rfl, rfl⟩
  · have hscan : scanMain fs settings diagnostics opened main = .ok (process fs settings main
        (Pipeline.begin settings { sources := s, diagnostics })) := by
      rw [scanMain, hl]
      rfl
    have hscan' : scanMain gs settings diagnostics opened main = .ok (process gs settings main
        (Pipeline.begin settings { sources := t, diagnostics })) := by
      rw [scanMain, hl']
      rfl
    have hreads : OnlyReads (ReadBy fs settings diagnostics opened main) (leftBy (process fs
        settings main (Pipeline.begin settings { sources := s, diagnostics }))).journal :=
      fun request f hmem => ⟨_, hscan, List.mem_filterMap.mpr ⟨_, hmem, rfl⟩⟩
    have hbegin : (echoes h).Paired (Pipeline.begin settings { sources := s, diagnostics })
      (Pipeline.begin settings { sources := t, diagnostics }) := ⟨rfl, rfl, rfl, hs⟩
    have hends := process_echoes h
      (fun file hfile => ⟨_, hscan, process_begun fs settings hfile⟩) hreads hbegin
    exact .inr ⟨_, _, hscan, hscan', .of_ends hends⟩

/-- What a main file says that asks twice for a header. -/
def askingUnder (first second : HeaderName) : List Text :=
  ["/* a".toList, "*/".toList, Request.text ⟨.once, first⟩, ['x'], Request.text ⟨.plain, second⟩]

/-- A disk with a main file in a directory and a header outside. -/
def askingOutside (first second : HeaderName) : FileSystem where
  entries := [(["d".toList], .directory 1), (["a.c".toList, "d".toList], .file 2),
    (["h.h".toList], .file 3)]
  contents := [
    (2, ((askingUnder first second).flatMap (· ++ ['\n'])).map (·.toNat.toUInt8)),
    (3, ['h', '\n'].map (·.toNat.toUInt8))]

/-- Headers are sought in the root. -/
def fromRoot : Settings where
  search := { common := [.ofString "/"] }

/-- The name by which the header is asked for. -/
def outside : HeaderName := ⟨"../h.h".toList, .quoted⟩

/-- Other names for it. -/
def roundabout : HeaderName := ⟨"./../d/../h.h".toList, .quoted⟩

def atRoot : HeaderName := ⟨"h.h".toList, .angled⟩

/-- The directory of the main file is the only one from which the header is asked for. -/
theorem askingOutside_samePath {other : HeaderName}
    (h : fromRoot.search.resolve (askingOutside outside outside) other (.ofString "/d") =
      .ok ⟨.inode 3, .ofString "/h.h"⟩) :
    SamePath (askingOutside outside outside) fromRoot.search
      (ReadBy (askingOutside outside outside) fromRoot {} [.ofString "/d/a.c"] ⟨0⟩) 2 outside
      other := by
  rintro file ⟨r, hr, hfile⟩ hkey
  have hbegun : (scanMain (askingOutside outside outside) fromRoot {} [.ofString "/d/a.c"]
      ⟨0⟩).toOption.map (fun r => (leftBy r).journal.begun) =
        some [⟨.inode 2, .ofString "/d/a.c"⟩, ⟨.inode 3, .ofString "/h.h"⟩] := by
    decide +kernel
  rw [hr] at hbegun
  have hlist : (leftBy r).journal.begun = _ := Option.some.inj hbegun
  rw [hlist] at hfile
  have houtside : fromRoot.search.resolve (askingOutside outside outside) outside
      (.ofString "/d") = .ok ⟨.inode 3, .ofString "/h.h"⟩ := by
    decide +kernel
  rcases List.mem_pair.mp hfile with rfl | rfl
  · have hdirectory : Identity.directory ⟨.inode 2, .ofString "/d/a.c"⟩ = .ofString "/d" := by
      decide +kernel
    rw [hdirectory]
    exact ⟨_, _, houtside, h, rfl⟩
  · cases hkey

theorem askingOutside_respelt :
    RespeltDisks (askingOutside outside outside) (askingOutside roundabout atRoot) fromRoot.search
      (ReadBy (askingOutside outside outside) fromRoot {} [.ofString "/d/a.c"] ⟨0⟩) := by
  refine ⟨trivial, rfl, ?_⟩
  intro n
  by_cases hn : n = 2
  · have hlines : ((askingOutside outside outside).textOf 2).lines = askingUnder outside outside ∧
        ((askingOutside roundabout atRoot).textOf 2).lines = askingUnder roundabout atRoot := by
      decide +kernel
    have hclosed : Line.IsClosed ["/* a".toList, "*/".toList] := ⟨by decide, by decide⟩
    have hclosed' : Line.IsClosed [['x']] := ⟨by decide, by decide⟩
    have houtside : outside.IsSpelling := ⟨by decide, by decide, by decide⟩
    rw [hn, hlines.1, hlines.2]
    exact .request .once hclosed houtside ⟨by decide, by decide, by decide⟩
      (askingOutside_samePath (by decide +kernel)) (.request .plain hclosed' houtside
        ⟨by decide, by decide, by decide⟩ (askingOutside_samePath (by decide +kernel)) (.refl []))
  · have htext : (askingOutside outside outside).textOf n =
        (askingOutside roundabout atRoot).textOf n := by
      have hlookup : (n == 2) = false := beq_false_of_ne hn
      simp only [FileSystem.textOf, askingOutside, List.lookup_cons, hlookup]
    rw [htext]
    exact .refl _

/-- The header is read and then dropped, whatever it is called. -/
theorem askingOutside_respelling_unobservable :
    RespeltDisks (askingOutside outside outside) (askingOutside roundabout atRoot) fromRoot.search
        (ReadBy (askingOutside outside outside) fromRoot {} [.ofString "/d/a.c"] ⟨0⟩) ∧
      (scanMain (askingOutside outside outside) fromRoot {} [.ofString "/d/a.c"] ⟨0⟩).toOption.map
        (fun r => (leftBy r).host.events.toList.map fun e => (e.depth, e.result.label)) =
          some [(1, "processed"), (1, "skipped-once")] ∧
      ((∃ e, scanMain (askingOutside outside outside) fromRoot {} [.ofString "/d/a.c"] ⟨0⟩ =
            .error e ∧
          scanMain (askingOutside roundabout atRoot) fromRoot {} [.ofString "/d/a.c"] ⟨0⟩ =
            .error e) ∨
        ∃ r u, scanMain (askingOutside outside outside) fromRoot {} [.ofString "/d/a.c"] ⟨0⟩ =
            .ok r ∧
          scanMain (askingOutside roundabout atRoot) fromRoot {} [.ofString "/d/a.c"] ⟨0⟩ = .ok u ∧
          SameButNames r u) :=
  ⟨askingOutside_respelt, by decide +kernel,
    respelling_unobservable _ _ fromRoot {} [.ofString "/d/a.c"] ⟨0⟩ askingOutside_respelt⟩

end IncludeOnce
