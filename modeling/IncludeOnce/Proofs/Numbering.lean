import IncludeOnce.Proofs.Records

/-! The table of the files that have been read.

Files are asked for again and again, by paths and by identities, while the disk changes and
some of the calls fail. The table gives each file one number, in the order in which the files
were first read, and never changes what it keeps under a number (`sources_one_to_one`). It has
two sides, the files by number and the numbers by identity, which are changed one after the
other; after every call they undo each other (`SourceTable.Agrees`).

A call either finds the file or enters it at the end (`SourceTable.load_cases`), and what is
known of the table after some calls (`Log.Sound`) is kept by one call more. -/
namespace IncludeOnce

/-- An element at the end counts if it has not been there before. -/
theorem eraseDups_concat (l : List Nat) (n : Nat) :
    (l ++ [n]).eraseDups = if n ∈ l then l.eraseDups else l.eraseDups ++ [n] := by
  rw [List.eraseDups_append]
  by_cases h : n ∈ l <;> simp [List.removeAll, List.eraseDups_cons, h]

theorem SourceId.number_eq {id : SourceId} (h : id.index < largest) :
    id.number = id.index + 1 := by
  unfold number largest at *
  omega

theorem SourceId.number_inj {a b : SourceId} (ha : a.index < largest) (hb : b.index < largest) :
    a.number = b.number ↔ a = b := by
  rw [number_eq ha, number_eq hb, Nat.add_right_cancel_iff]
  obtain ⟨i⟩ := a
  obtain ⟨j⟩ := b
  simp

namespace SourceTable

/-! ### One call -/

section
variable {t u left : SourceTable} {fs : FileSystem} {f : Identity} {id : SourceId}
  {file : SourceFile} {e : IoError}

theorem Agrees.index_lt (h : t.Agrees) (hfind : t.find? f = some id) :
    id.index < t.files.size := by
  obtain ⟨file, hfile, _⟩ := (h.inverse f id).mp hfind
  exact file?_isSome.mp ⟨file, hfile⟩

theorem Agrees.find?_identity (h : t.Agrees) (hfile : t.file? id = some file) :
    t.find? file.identity = some id :=
  (h.inverse file.identity id).mpr ⟨file, hfile, file.identity.isSame_refl⟩

/-- A file of the table is found whatever is on the disk. -/
theorem Agrees.load_stored (h : t.Agrees) (hfile : t.file? id = some file)
    (disk : FileSystem) : SourceTable.load disk file.identity t = .ok id t :=
  load_known (h.find?_identity hfile)

/-- What a table keeps under a number, another keeps too. -/
def Extends (t u : SourceTable) : Prop := ∀ id file, t.file? id = some file → u.file? id = some file

theorem Extends.refl (t : SourceTable) : t.Extends t := fun _ _ h => h

theorem Extends.trans {v : SourceTable} (h : t.Extends u) (k : u.Extends v) : t.Extends v :=
  fun id file hfile => k id file (h id file hfile)

theorem Extends.enter (t : SourceTable) (f : Identity) (text : Text) :
    t.Extends (t.enter f text) := by
  intro id file hfile
  have hlt : id.index < t.files.size := file?_isSome.mp ⟨file, hfile⟩
  rw [file?_enter, if_neg (Nat.ne_of_lt hlt), hfile]

theorem Extends.load (h : SourceTable.load fs f t = .ok id left) : t.Extends left := by
  rcases load_cases h with ⟨_, rfl⟩ | ⟨_, _, octets, _, rfl⟩
  · exact .refl left
  · exact .enter t f _

/-- Numbers stay where the files stay. -/
theorem Extends.find? (h : t.Extends u) (ht : t.Agrees) (hu : u.Agrees)
    (hfind : t.find? f = some id) : u.find? f = some id := by
  obtain ⟨file, hfile, hsame⟩ := (ht.inverse f id).mp hfind
  exact (hu.inverse f id).mpr ⟨file, h id file hfile, hsame⟩

/-- Two ways to ask for a file: by a path to it, and by its identity. -/
inductive Ask
  | path (p : Path)
  | file (f : Identity)

/-- The file that is asked for, on a disk. -/
def Ask.means (fs : FileSystem) : Ask → Except IoError Identity
  | .path p => fs.identify p
  | .file f => .ok f

/-- Asks for a file, on a disk. -/
def Ask.load (fs : FileSystem) : Ask → EStateM IoError SourceTable SourceId
  | .path p => loadPath fs p
  | .file f => SourceTable.load fs f

theorem Ask.load_of_means {a : Ask} (h : a.means fs = .ok f) :
    a.load fs t = SourceTable.load fs f t := by
  cases a with
  | path p => exact loadPath_found h
  | file g =>
    cases h
    rfl

theorem Ask.load_of_means_error {a : Ask} (h : a.means fs = .error e) :
    a.load fs t = .error e t := by
  cases a with
  | path p => exact loadPath_absent h
  | file g => cases h

end

/-! ### Any number of calls -/

/-- A call, on the disk as it is by then. -/
structure Call where
  disk : FileSystem
  ask : Ask

/-- The file that a call asked for and the number that it was given. -/
structure Handout where
  file : Identity
  id : SourceId

/-- What has been handed out, in order, and the table. -/
structure Log where
  given : List Handout := []
  table : SourceTable := {}

namespace Log

/-- One more call. A call that fails hands out nothing, and goes on with the table that it
has left. -/
def call (log : Log) (c : Call) : Log :=
  match c.ask.means c.disk, c.ask.load c.disk log.table with
  | .ok f, .ok id table => ⟨log.given ++ [⟨f, id⟩], table⟩
  | _, .ok _ table => { log with table }
  | _, .error _ table => { log with table }

/-- More calls, one after the other. -/
def callAll (log : Log) (calls : List Call) : Log := calls.foldl call log

section
variable {log : Log} {c : Call}

/-- A call fails and leaves all as it was, or the file that it asks for is loaded. -/
theorem call_cases (log : Log) (c : Call) :
    (log.call c = log ∧ ∃ e, c.ask.load c.disk log.table = .error e log.table) ∨
      ∃ f id table, SourceTable.load c.disk f log.table = .ok id table ∧
        c.ask.load c.disk log.table = .ok id table ∧
        log.call c = ⟨log.given ++ [⟨f, id⟩], table⟩ := by
  unfold call
  cases hmeans : c.ask.means c.disk with
  | error e =>
    rw [Ask.load_of_means_error hmeans]
    exact .inl ⟨rfl, e, rfl⟩
  | ok f =>
    rw [Ask.load_of_means hmeans]
    cases hload : SourceTable.load c.disk f log.table with
    | error e left =>
      cases load_error hload
      exact .inl ⟨rfl, e, rfl⟩
    | ok id table => exact .inr ⟨f, id, table, hload, rfl, rfl⟩

/-- A call that fails changes nothing. -/
theorem call_of_error {e : IoError} {left : SourceTable}
    (h : c.ask.load c.disk log.table = .error e left) : left = log.table ∧ log.call c = log := by
  rcases log.call_cases c with ⟨hlog, e', herror⟩ | ⟨f, id, table, _, hok, _⟩
  · cases h.symm.trans herror
    exact ⟨rfl, hlog⟩
  · cases h.symm.trans hok

theorem extends_call (log : Log) (c : Call) : log.table.Extends (log.call c).table := by
  rcases log.call_cases c with ⟨hlog, _⟩ | ⟨f, id, table, hload, _, hlog⟩
  · rw [hlog]
    exact .refl _
  · rw [hlog]
    exact .load hload

theorem extends_callAll (log : Log) (calls : List Call) :
    log.table.Extends (log.callAll calls).table := by
  induction calls generalizing log with
  | nil => exact .refl _
  | cons c rest ih => exact (log.extends_call c).trans (ih (log.call c))

/-- What is known of the table by what has been handed out. -/
structure Sound (log : Log) : Prop where
  agrees : log.table.Agrees
  /-- Each file is found under the number that was handed out for it. -/
  handed : ∀ h ∈ log.given, log.table.find? h.file = some h.id
  /-- What is kept has been handed out, under the name that was asked for. -/
  stored : ∀ id file, log.table.file? id = some file → ⟨file.identity, id⟩ ∈ log.given
  /-- The numbers come one after the other. -/
  numbered : log.table.files.size ≤ SourceId.largest →
    (log.given.map (·.id.number)).eraseDups = List.range' 1 log.table.files.size

theorem sound_new : Sound {} where
  agrees := agrees_new
  handed := by simp
  stored := by simp [file?]
  numbered := by simp

/-- The file was in the table already. -/
theorem Sound.again (h : log.Sound) {f : Identity} {id : SourceId}
    (hfind : log.table.find? f = some id) : Sound ⟨log.given ++ [⟨f, id⟩], log.table⟩ where
  agrees := h.agrees
  handed := by
    intro handout hmem
    rcases List.mem_append.mp hmem with hmem | hmem
    · exact h.handed handout hmem
    · rw [List.mem_singleton.mp hmem]
      exact hfind
  stored id file hfile := List.mem_append_left _ (h.stored id file hfile)
  numbered := by
    intro hfew
    have hlt := h.agrees.index_lt hfind
    have hnumber := SourceId.number_eq (Nat.lt_of_lt_of_le hlt hfew)
    have hold : id.number ∈ log.given.map (·.id.number) := by
      rw [← List.mem_eraseDups, h.numbered hfew, List.mem_range'_1, hnumber]
      omega
    rw [List.map_append, List.map_singleton, eraseDups_concat, if_pos hold]
    exact h.numbered hfew

/-- The file is new, and has been read. -/
theorem Sound.anew (h : log.Sound) {f : Identity} (hnew : log.table.find? f = none)
    (text : Text) :
    Sound ⟨log.given ++ [⟨f, ⟨log.table.files.size⟩⟩], log.table.enter f text⟩ := by
  have hagrees := h.agrees.enter hnew text
  refine ⟨hagrees, ?_, ?_, ?_⟩
  · intro handout hmem
    rcases List.mem_append.mp hmem with hmem | hmem
    · exact (Extends.enter log.table f text).find? h.agrees hagrees (h.handed handout hmem)
    · rw [List.mem_singleton.mp hmem]
      exact (log.table.find?_enter f f text).trans (if_pos f.isSame_refl)
  · intro id file hfile
    rw [file?_enter] at hfile
    split at hfile
    · rename_i hlast
      cases hfile
      obtain ⟨index⟩ := id
      cases hlast
      exact List.mem_append_right _ (List.mem_singleton_self _)
    · exact List.mem_append_left _ (h.stored id file hfile)
  · intro hfew
    rw [size_enter] at hfew ⊢
    have hnumber : (⟨log.table.files.size⟩ : SourceId).number = log.table.files.size + 1 :=
      SourceId.number_eq (Nat.lt_of_succ_le hfew)
    have hnumbered := h.numbered (Nat.le_of_succ_le hfew)
    have hlater : log.table.files.size + 1 ∉ log.given.map (·.id.number) := by
      rw [← List.mem_eraseDups, hnumbered, List.mem_range'_1]
      omega
    rw [List.map_append, List.map_singleton, hnumber, eraseDups_concat, if_neg hlater, hnumbered,
      List.range'_concat]
    simp [Nat.add_comm]

/-- **The step lemma**: one call more. -/
theorem Sound.call (h : log.Sound) (c : Call) : (log.call c).Sound := by
  rcases log.call_cases c with ⟨hlog, _⟩ | ⟨f, id, table, hload, _, hlog⟩
  · rw [hlog]
    exact h
  · rw [hlog]
    rcases load_cases hload with ⟨hfind, rfl⟩ | ⟨hnew, rfl, octets, _, rfl⟩
    · exact h.again hfind
    · exact h.anew hnew _

/-- **The run lemma**: any calls. -/
theorem Sound.callAll (h : log.Sound) (calls : List Call) : (log.callAll calls).Sound := by
  induction calls generalizing log with
  | nil => exact h
  | cons c rest ih => exact ih (h.call c)

/-- One number is handed out for one file. -/
theorem Sound.id_eq_iff (h : log.Sound) {a b : Handout} (ha : a ∈ log.given)
    (hb : b ∈ log.given) : a.id = b.id ↔ a.file.isSame b.file = true := by
  have hfind := h.handed a ha
  have hfind' := h.handed b hb
  constructor
  · intro hid
    obtain ⟨file, hfile, hsame⟩ := (h.agrees.inverse _ _).mp hfind
    obtain ⟨file', hfile', hsame'⟩ := (h.agrees.inverse _ _).mp hfind'
    rw [hid] at hfile
    cases hfile.symm.trans hfile'
    rw [Identity.isSame_congr hsame, Identity.isSame_comm]
    exact hsame'
  · intro hsame
    rw [find?_congr _ hsame] at hfind
    exact Option.some.inj (hfind.symm.trans hfind')

end

end Log

end SourceTable

open SourceTable

/-- **The table of files read is one to one and stable.** After any calls on a new table, each
on the disk as it was by then, the numbers handed out are 1 up to the number of files, in the
order of first loading, and two calls were given the same number just if they asked for the
same file. A file is kept under each of these numbers and under no other, and the look-ups by
number and by identity undo each other. The file has that number and the path of its identity;
it was entered when its number was handed out for it, it is loaded by its identity whatever is
on the disk, and it is kept as it is through any later calls. A call that fails leaves the
table as it was. -/
theorem sources_one_to_one (calls later : List Call)
    (few : (Log.callAll {} calls).table.files.size < SourceId.largest) :
    let log := Log.callAll {} calls
    (log.given.map (·.id.number)).eraseDups = List.range' 1 log.table.files.size ∧
      (∀ a ∈ log.given, log.table.find? a.file = some a.id ∧
        ∀ b ∈ log.given, a.id.number = b.id.number ↔ a.file.isSame b.file = true) ∧
      (∀ id, (∃ file, log.table.file? id = some file) ↔ id.index < log.table.files.size) ∧
      (∀ f id, log.table.find? f = some id ↔
        ∃ file, log.table.file? id = some file ∧ f.isSame file.identity = true) ∧
      (∀ id file, log.table.file? id = some file →
        file.id = id ∧ id.number = id.index + 1 ∧ file.path = file.identity.path ∧
        ⟨file.identity, id⟩ ∈ log.given ∧
        (∀ disk, SourceTable.load disk file.identity log.table = .ok id log.table) ∧
        (log.callAll later).table.file? id = some file) ∧
      ∀ c e left, c.ask.load c.disk log.table = .error e left →
        left = log.table ∧ log.call c = log := by
  intro log
  have hsound : log.Sound := Log.sound_new.callAll calls
  have hindex : ∀ {f : Identity} {id : SourceId}, log.table.find? f = some id →
      id.index < SourceId.largest :=
    fun hfind => Nat.lt_trans (hsound.agrees.index_lt hfind) few
  refine ⟨hsound.numbered (Nat.le_of_lt few), ?_, fun id => file?_isSome, hsound.agrees.inverse,
    ?_, fun c e left => Log.call_of_error⟩
  · intro a ha
    refine ⟨hsound.handed a ha, ?_⟩
    intro b hb
    rw [SourceId.number_inj (hindex (hsound.handed a ha)) (hindex (hsound.handed b hb))]
    exact hsound.id_eq_iff ha hb
  · intro id file hfile
    have hentered := hsound.agrees.numbered id file hfile
    have hnumber := SourceId.number_eq (hindex (hsound.agrees.find?_identity hfile))
    have hkept := log.extends_callAll later id file hfile
    exact ⟨congrArg SourceFile.id hentered, hnumber, congrArg SourceFile.path hentered,
      hsound.stored id file hfile, hsound.agrees.load_stored hfile, hkept⟩

/-- Two names of one file. -/
def sharedDisk : FileSystem where
  entries := [(["a.h".toList], .file 1), (["b.h".toList], .file 1)]
  contents := [(1, "one".toList.map (·.toNat.toUInt8))]

/-- Another file has taken the first name, and the second name is gone. -/
def renamedDisk : FileSystem where
  entries := [(["a.h".toList], .file 2)]
  contents := [(2, "two".toList.map (·.toNat.toUInt8))]

/-- The last call asks for the file that has no name any more. -/
def relinkingCalls : List SourceTable.Call :=
  [⟨sharedDisk, .path (.ofString "/a.h")⟩, ⟨sharedDisk, .path (.ofString "/b.h")⟩,
    ⟨renamedDisk, .path (.ofString "/b.h")⟩, ⟨renamedDisk, .path (.ofString "/a.h")⟩,
    ⟨renamedDisk, .file ⟨.inode 1, .ofString "/b.h"⟩⟩]

/-- The third call fails. The others are given the numbers of two files, and the first of them
is found on an empty disk. -/
theorem relinkingCalls_one_to_one :
    let log := Log.callAll {} relinkingCalls
    log.given.map (·.id.number) = [1, 1, 2, 1] ∧
      log.table.files.size < SourceId.largest ∧
      ∃ file, (log.callAll relinkingCalls).table.file? ⟨0⟩ = some file ∧ file.id = ⟨0⟩ ∧
        SourceTable.load {} file.identity log.table = .ok ⟨0⟩ log.table := by
  have few : (Log.callAll {} relinkingCalls).table.files.size < SourceId.largest := by
    decide +kernel
  obtain ⟨_, _, hfiles, _, hkept, _⟩ := sources_one_to_one relinkingCalls relinkingCalls few
  obtain ⟨file, hfile⟩ := (hfiles ⟨0⟩).mpr (by decide +kernel)
  obtain ⟨hid, _, _, _, hfound, hlater⟩ := hkept ⟨0⟩ file hfile
  exact ⟨by decide +kernel, few, file, hlater, hid, hfound {}⟩

end IncludeOnce
