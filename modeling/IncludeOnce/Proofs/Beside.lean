import IncludeOnce.Proofs.Units

/-! Where main files search first.

A quoted header is sought first beside the file that asks for it, and a file may have several
names. A file that is read in place goes by the name under which it was asked for. A main
file goes by the name under which it is kept, which is the first one that it was read by, in
whatever unit (`main_searches_beside_kept_name`). Its headers are sought beside the input
just if that name stands in the same directory, and elsewhere if a unit before has read the
file under a name in another directory (`linked_searches_elsewhere`). -/
namespace IncludeOnce
open Scan

/-- The name under which a file is kept: the first one that it was read by. -/
def Sources.nameOf (s : Sources) (f : Identity) : Identity :=
  ((s.known? f).map (·.identity)).getD f

theorem Sources.load_identity {s t : Sources} {fs : FileSystem} {f : Identity} {id : SourceId}
    {file : SourceFile} (h : s.load fs f = .ok (id, t)) (hfile : t.file? id = some file) :
    file.identity = s.nameOf f := by
  unfold nameOf known?
  rcases load_cases h with ⟨hfind, rfl⟩ | ⟨hnew, octets, _, rfl, rfl⟩
  · rw [hfind, Option.bind_some, hfile]
    rfl
  · rw [enter, SourceTable.file?_enter, if_pos rfl] at hfile
    cases hfile
    rw [hnew]
    rfl

/-! ### Where a header is sought -/

/-- The entries made when a header is sought from a directory. -/
def HeaderSearch.entries (search : HeaderSearch) (fs : FileSystem) (request : Request)
    (beside : Path) : List Journal.Entry :=
  .sought request beside ::
    match search.resolve fs request.header beside with
    | .error _ => []
    | .ok f => [.resolved request f]

/-- The header that a line asks for is sought from a directory, and found as from there. -/
def SoughtFrom (fs : FileSystem) (settings : Settings) (file : Identity) (location : Location)
    (kind : RequestKind) (operand : Text) (run : Run Scan) (beside : Path) : Prop :=
  ∃ header trailing, HeaderName.read operand = some (header, trailing) ∧
    run.journal.toList ++ settings.search.entries fs ⟨kind, header⟩ beside <+:
      (leftBy (request fs settings.search (readerIn fs settings run) file location kind operand
        run)).journal.toList

section
variable {fs : FileSystem} {settings : Settings} {file f : Identity} {location : Location}
  {kind : RequestKind} {operand trailing : Text} {header : HeaderName} {run : Run Scan}

theorem HeaderSearch.entries_error {search : HeaderSearch} {r : Request} {beside : Path}
    {e : ResolutionError} (h : search.resolve fs r.header beside = .error e) :
    search.entries fs r beside = [.sought r beside] := by
  rw [entries, h]

theorem HeaderSearch.entries_ok {search : HeaderSearch} {r : Request} {beside : Path}
    (h : search.resolve fs r.header beside = .ok f) :
    search.entries fs r beside = [.sought r beside, .resolved r f] := by
  rw [entries, h]

theorem includeFile_journal (fs : FileSystem) (settings : Settings) (f : Identity)
    (run : Run Scan) :
    run.journal.toList <+: (leftBy (includeFile fs settings f run)).journal.toList := by
  obtain ⟨trail, hcourse⟩ := exists_placeCourse fs settings run f
  generalize includeFile fs settings f run = r at hcourse
  cases hcourse with
  | unreadable hload => exact List.prefix_rfl
  | scanned hload hfound hcourse => exact leave_journal hcourse.journal

/-- A request that has a header and does not meet the limit has it sought beside the file. -/
theorem request_soughtFrom (hread : HeaderName.read operand = some (header, trailing))
    (hroom : run.host.stack.length ≤ settings.maxDepth) :
    SoughtFrom fs settings file location kind operand run file.directory := by
  refine ⟨header, trailing, hread, ?_⟩
  cases hresolve : settings.search.resolve fs header file.directory with
  | error e =>
    rw [request_unresolved hread hroom hresolve, HeaderSearch.entries_error hresolve]
    rw [← soughtInside_journal run file location kind header trailing]
    exact List.prefix_rfl
  | ok f =>
    have hmeans : Means fs settings file operand run header trailing f := ⟨hread, hroom, hresolve⟩
    rw [HeaderSearch.entries_ok hresolve]
    cases hdecide : (handing run location kind header trailing).decision f with
    | skip reason =>
      rw [request_dropped hmeans hdecide]
      refine ⟨[.skipped ⟨kind, header⟩ f reason], ?_⟩
      rw [leftBy, droppedInside_journal, List.append_assoc]
      rfl
    | process =>
      have hbegun : run.journal.toList ++
          [.sought ⟨kind, header⟩ file.directory, .resolved ⟨kind, header⟩ f] <+:
            (begunInside run file location kind header trailing f).journal.toList := by
        rw [begunInside_journal]
        exact ⟨[.processing ⟨kind, header⟩ f], by simp⟩
      have hinside := hbegun.trans (includeFile_journal fs settings f _)
      obtain ⟨report, left, hok, hrequest⟩ | ⟨e, left, herror, hrequest⟩ :=
        request_begun hmeans hdecide
      · rw [hok] at hinside
        rw [hrequest]
        exact hinside.trans ⟨_, Array.toList_push.symm⟩
      · rw [herror] at hinside
        rw [hrequest]
        exact hinside

/-- A header is sought from one directory at most. -/
theorem SoughtFrom.unique {a b : Path}
    (ha : SoughtFrom fs settings file location kind operand run a)
    (hb : SoughtFrom fs settings file location kind operand run b) : a = b := by
  obtain ⟨header, trailing, hread, more, hmore⟩ := ha
  obtain ⟨header', trailing', hread', more', hmore'⟩ := hb
  cases hread.symm.trans hread'
  -- Both begin as the journal did, and the search is the next entry in both.
  rw [← hmore, List.append_assoc, List.append_assoc, List.append_cancel_left_eq] at hmore'
  obtain ⟨hsought, _⟩ := List.cons.inj hmore'
  cases hsought
  rfl

/-- Nothing is sought beyond the limit on open files. -/
theorem not_soughtFrom_beyond (hdeep : settings.maxDepth < run.host.stack.length)
    (beside : Path) : ¬ SoughtFrom fs settings file location kind operand run beside := by
  rintro ⟨header, trailing, hread, more, hmore⟩
  obtain ⟨d, hd⟩ := warned_eq run location kind trailing
  rw [request_beyond hread hdeep, leftBy, stoppedInside, hd, Run.note, Run.mapHost,
    Array.toList_push, List.append_assoc, List.append_cancel_left_eq] at hmore
  cases (List.cons.inj hmore).1

/-- **A header is sought beside the file that asks for it**, as that file goes by its name,
and from no other directory. -/
theorem soughtFrom_iff (hread : HeaderName.read operand = some (header, trailing))
    (beside : Path) :
    SoughtFrom fs settings file location kind operand run beside ↔
      run.host.stack.length ≤ settings.maxDepth ∧ beside = file.directory := by
  constructor
  · intro hsought
    have hroom : run.host.stack.length ≤ settings.maxDepth :=
      Nat.le_of_not_lt fun hdeep => not_soughtFrom_beyond hdeep beside hsought
    exact ⟨hroom, hsought.unique (request_soughtFrom hread hroom)⟩
  · rintro ⟨hroom, rfl⟩
    exact request_soughtFrom hread hroom

end

/-! ### Main files -/

/-- A run comes to a unit, and in the unit to a line of the main file itself that asks for
a header. -/
inductive AsksInMain (fs : FileSystem) (config : Config) :
    Identity → Session → SourceFile → Location → RequestKind → Text → Run Scan → Prop
  | intro {before rest : List Path} {p : Path} {f : Identity} {units : List UnitOutput}
    {s : Session} {source : SourceId} {sources : Sources} {main : SourceFile}
    {front back : List (Numbered Line)} {line : Numbered Line} {st : FileState}
    {kind : RequestKind} {operand : Text} {moment : Run Scan}
    (hinputs : config.inputs = before ++ p :: rest)
    (hbefore : Pipeline.runInputs fs config.settings before (.fresh config) = .ok units s)
    (hidentify : fs.identify p = .ok f)
    (hload : s.sources.load fs f = .ok (source, sources))
    (hmain : sources.file? source = some main)
    (hlines : Line.ofText main.text = front ++ line :: back)
    {opened : Run Scan}
    (hopened : opened =
      (Pipeline.begin config.settings { s with sources }).mainOpened main.identity)
    (hfront : scanLines fs config.settings.search (readerIn fs config.settings opened)
      main.identity source {} front opened = .ok st moment)
    (hasked : line.content.asked? st = some (kind, operand)) :
    AsksInMain fs config f s main ⟨source, line.line⟩ kind operand moment

section
variable {fs : FileSystem} {config : Config} {f : Identity} {s : Session} {main : SourceFile}
  {location : Location} {kind : RequestKind} {operand : Text} {moment : Run Scan}

/-- The main file is the only one open by then. -/
theorem AsksInMain.stack (h : AsksInMain fs config f s main location kind operand moment) :
    moment.host.stack = [⟨main.identity, none⟩] := by
  obtain ⟨_, _, _, _, _, _, hopened, hfront, _⟩ := h
  obtain ⟨trail, hcourse⟩ := exists_course fs config.settings main.identity _ {} _ _
  rw [hfront] at hcourse
  have hstack := hcourse.stack
  rw [hopened] at hstack
  exact hstack

/-- A main file goes by the name under which it is kept. -/
theorem AsksInMain.identity
    (h : AsksInMain fs config f s main location kind operand moment) :
    main.identity = s.sources.nameOf f := by
  obtain ⟨_, _, _, hload, hmain, _, _, _, _⟩ := h
  exact Sources.load_identity hload hmain

/-- The session after some of the inputs. -/
theorem Config.standing_after (hone : OnePath (config.Reaches fs)) {before rest : List Path}
    {units : List UnitOutput} (hinputs : config.inputs = before ++ rest)
    (hbefore : Pipeline.runInputs fs config.settings before (.fresh config) = .ok units s) :
    Pipeline.Standing fs (config.Reaches fs) (.ofOptions config.warnings) s := by
  refine Pipeline.runInputs_standing hone before (Session.fresh_standing _) ?_ hbefore ?_
  · rintro p ⟨front, back, hp, hfront⟩ f hf
    rw [hp, List.append_assoc] at hinputs
    exact .input hinputs hfront hf
  · intro request f hread
    have hjournal : s.journal.toList <+: (leftBy (Pipeline.runInputs fs config.settings
        (before ++ rest) (.fresh config))).journal.toList := by
      rw [Pipeline.runInputs_append rest hbefore]
      exact Pipeline.runInputs_journal rest s
    rw [← hinputs] at hjournal
    exact .header (hjournal.subset hread)

/-- Where no file is reached under two paths, a main file goes by the name it is given by. -/
theorem AsksInMain.nameOf_eq
    (h : AsksInMain fs config f s main location kind operand moment)
    (hone : OnePath (config.Reaches fs)) : s.sources.nameOf f = f := by
  obtain ⟨hinputs, hbefore, hidentify, _, _, _, _, _, _⟩ := h
  have hf : config.Reaches fs f :=
    .input hinputs (by rw [Config.comesTo_on, hbefore]; rfl) hidentify
  have hsources := (Config.standing_after hone hinputs hbefore).sources
  unfold Sources.nameOf Sources.known?
  cases hfind : s.sources.find? f with
  | none => rfl
  | some id =>
    obtain ⟨file, hfile, hidentity, _⟩ := hsources.found hone hf hfind
    rw [Option.bind_some, hfile]
    exact hidentity

end

theorem HeaderSearch.candidates_head? {search : HeaderSearch} {header : HeaderName}
    (hquoted : header.delimiter = .quoted) (hrelative : Path.isAbsolute ⟨header.name⟩ = false)
    (beside : Path) :
    (search.candidates header beside).head? = some (beside.join ⟨header.name⟩) := by
  simp [candidates, directories, hquoted, hrelative]

/-- **A main file searches beside the name under which it is kept.** That is beside the input
just if the name stands in the same directory, as it does if the file has not been read before
or if no file is reached under two paths. -/
theorem main_searches_beside_kept_name {fs : FileSystem} {config : Config} {f : Identity}
    {s : Session} {main : SourceFile} {location : Location} {kind : RequestKind} {operand : Text}
    {moment : Run Scan} (h : AsksInMain fs config f s main location kind operand moment)
    {header : HeaderName} {trailing : Text}
    (hread : HeaderName.read operand = some (header, trailing))
    (hquoted : header.delimiter = .quoted) (hrelative : Path.isAbsolute ⟨header.name⟩ = false) :
    (∀ beside, SoughtFrom fs config.settings main.identity location kind operand moment beside ↔
      1 ≤ config.settings.maxDepth ∧ beside = (s.sources.nameOf f).directory) ∧
    (∀ beside, (config.settings.search.candidates header beside).head? =
      some (beside.join ⟨header.name⟩)) ∧
    (1 ≤ config.settings.maxDepth →
      (SoughtFrom fs config.settings main.identity location kind operand moment f.directory ↔
        (s.sources.nameOf f).directory = f.directory)) ∧
    (s.sources.known? f = none ∨ OnePath (config.Reaches fs) → s.sources.nameOf f = f) := by
  have hsought : ∀ beside,
      SoughtFrom fs config.settings main.identity location kind operand moment beside ↔
        1 ≤ config.settings.maxDepth ∧ beside = (s.sources.nameOf f).directory := by
    intro beside
    rw [soughtFrom_iff hread, h.stack, h.identity]
    rfl
  refine ⟨hsought, HeaderSearch.candidates_head? hquoted hrelative, ?_, ?_⟩
  · intro hroom
    rw [hsought, eq_comm (a := f.directory)]
    exact and_iff_right hroom
  · rintro (hnew | hone)
    · rw [Sources.nameOf, hnew]
      rfl
    · exact h.nameOf_eq hone

/-- A main file with a second name in another directory, and a header beside either name. -/
def linkedDisk : FileSystem where
  entries := [(["a".toList], .directory 1), (["b".toList], .directory 2),
    (["main.c".toList, "a".toList], .file 3), (["main.c".toList, "b".toList], .file 3),
    (["h.h".toList, "a".toList], .file 4), (["h.h".toList, "b".toList], .file 5)]
  contents := [(3, "#include \"h.h\"\n"), (4, "from a\n"), (5, "from b\n")].map
    fun (n, text) => (n, text.toList.map (·.toNat.toUInt8))

/-- Both names are given. -/
def linked : Config where
  inputs := [.ofString "/a/main.c", .ofString "/b/main.c"]

/-- The second name leads to a file that has a header beside it, and with this header the
unit is made that the name makes alone. After the first name it is made with the other. -/
theorem linked_searches_elsewhere :
    linkedDisk.identify (.ofString "/b/main.c") = .ok ⟨.inode 3, .ofString "/b/main.c"⟩ ∧
      linked.settings.search.resolve linkedDisk ⟨"h.h".toList, .quoted⟩ (.ofString "/b") =
        .ok ⟨.inode 5, .ofString "/b/h.h"⟩ ∧
      ((linked.on [.ofString "/b/main.c"]).comesTo linkedDisk).map (·.map (·.text)) =
        .ok ["from b\n".toList] ∧
      (linked.comesTo linkedDisk).map (·.map (·.text)) =
        .ok ["from a\n".toList, "from a\n".toList] := by
  decide +kernel

/-- The session after the first name. -/
def linkedSession : Session :=
  leftBy (Pipeline.runInputs linkedDisk linked.settings [.ofString "/a/main.c"]
    (.fresh linked))

theorem linked_asks : ∃ main moment, AsksInMain linkedDisk linked
    ⟨.inode 3, .ofString "/b/main.c"⟩ linkedSession main ⟨⟨0⟩, 1⟩ .plain "\"h.h\"".toList
      moment := by
  have hfirst : (outcome (Pipeline.runInputs linkedDisk linked.settings [.ofString "/a/main.c"]
      (.fresh linked))).isOk = true := by
    decide +kernel
  obtain ⟨units, hunits⟩ : ∃ units, Pipeline.runInputs linkedDisk linked.settings
      [.ofString "/a/main.c"] (.fresh linked) = .ok units linkedSession := by
    unfold linkedSession
    cases hrun : Pipeline.runInputs linkedDisk linked.settings [.ofString "/a/main.c"]
        (.fresh linked) with
    | ok units s => exact ⟨units, rfl⟩
    | error e s =>
      rw [hrun] at hfirst
      cases hfirst
  have hfind : linkedSession.sources.find? ⟨.inode 3, .ofString "/b/main.c"⟩ = some ⟨0⟩ := by
    decide +kernel
  have htext : (linkedSession.sources.file? ⟨0⟩).map (·.text) =
      some "#include \"h.h\"\n".toList := by
    decide +kernel
  obtain ⟨main, hmain, hmaintext⟩ := Option.map_eq_some_iff.mp htext
  have hlines : Line.ofText main.text =
      [] ++ ⟨1, .command (.request .plain "\"h.h\"".toList)⟩ :: [] := by
    rw [hmaintext]
    decide +kernel
  have hload : linkedSession.sources.load linkedDisk ⟨.inode 3, .ofString "/b/main.c"⟩ =
      .ok (⟨0⟩, linkedSession.sources) := Sources.load_known hfind
  have hidentify : linkedDisk.identify (.ofString "/b/main.c") =
      .ok ⟨.inode 3, .ofString "/b/main.c"⟩ := by
    decide +kernel
  have hinputs : linked.inputs = [.ofString "/a/main.c"] ++ .ofString "/b/main.c" :: [] := rfl
  exact ⟨main, _, .intro hinputs hunits hidentify hload hmain hlines rfl rfl rfl⟩

/-- The header is sought beside the first name, although the second is given. -/
theorem linked_searches_beside_first : ∃ main moment,
    AsksInMain linkedDisk linked ⟨.inode 3, .ofString "/b/main.c"⟩ linkedSession main ⟨⟨0⟩, 1⟩
      .plain "\"h.h\"".toList moment ∧
    SoughtFrom linkedDisk linked.settings main.identity ⟨⟨0⟩, 1⟩ .plain "\"h.h\"".toList moment
      (.ofString "/a") ∧
    ¬ SoughtFrom linkedDisk linked.settings main.identity ⟨⟨0⟩, 1⟩ .plain "\"h.h\"".toList moment
      (.ofString "/b") := by
  obtain ⟨main, moment, hasks⟩ := linked_asks
  have hread : HeaderName.read "\"h.h\"".toList = some (⟨"h.h".toList, .quoted⟩, []) := by
    decide +kernel
  have hname : (linkedSession.sources.nameOf ⟨.inode 3, .ofString "/b/main.c"⟩).directory =
      .ofString "/a" := by
    decide +kernel
  obtain ⟨hsought, _, _, _⟩ := main_searches_beside_kept_name hasks hread rfl (by decide)
  rw [hname] at hsought
  refine ⟨main, moment, hasks, (hsought _).mpr ⟨by decide, rfl⟩, ?_⟩
  intro hsecond
  exact absurd ((hsought _).mp hsecond).2 (by decide)

end IncludeOnce
