import IncludeOnce.FileSystem
import IncludeOnce.Text.Utf8

/-! The files read so far.

Each file is read once; asking for it again, under whatever name, gives the same
number and the text as it was first read. Numbers are handed out in the order of
first reading. -/
namespace IncludeOnce

/-- The place of a file among the files read, counted from 0 and shown from 1. -/
structure SourceId where
  index : Nat
deriving DecidableEq

namespace SourceId

/-- The largest number that 32 bits hold. -/
def largest : Nat := 4294967295

/-- The number that is shown. It is counted in 32 bits and stops at the largest. -/
def number (id : SourceId) : Nat := min (id.index % (largest + 1) + 1) largest

def display (id : SourceId) : String := s!"SourceId({id.number})"

end SourceId

/-- A line of a file; lines are counted from 1. -/
structure Location where
  source : SourceId
  line : Nat
deriving DecidableEq

def Location.display (l : Location) : String :=
  s!"SourceLoc(source_id={l.source.display}, line={l.line})"

/-- A file that has been read, and the number under which it is kept. -/
structure SourceFile where
  id : SourceId
  path : Path
  identity : Identity
  text : Text

/-- A file as it is entered. -/
def SourceFile.entered (id : SourceId) (f : Identity) (text : Text) : SourceFile :=
  ⟨id, f.path, f, text⟩

/-- The files in the order of first reading, and their numbers by identity. -/
structure SourceTable where
  files : Array SourceFile := #[]
  ids : List (Identity × SourceId) := []

namespace SourceTable

def file? (t : SourceTable) (id : SourceId) : Option SourceFile := t.files[id.index]?

def find? (t : SourceTable) (f : Identity) : Option SourceId :=
  (t.ids.find? (·.1.isSame f)).map (·.2)

def push (t : SourceTable) (file : SourceFile) : SourceTable :=
  { t with files := t.files.push file }

/-- Puts down the number of a file, in place of any earlier one. -/
def insert (t : SourceTable) (f : Identity) (id : SourceId) : SourceTable :=
  { t with ids := (f, id) :: t.ids.filter (!·.1.isSame f) }

/-- The number of a file, which is read if it has none yet. -/
def load (fs : FileSystem) (f : Identity) : EStateM IoError SourceTable SourceId := do
  if let some id := (← get).find? f then
    return id
  let octets ← MonadExcept.ofExcept (fs.read f.path)
  let id : SourceId := ⟨(← get).files.size⟩
  modify (·.push (.entered id f (Utf8.decode octets)))
  modify (·.insert f id)
  return id

/-- Loads the file that a path finds. -/
def loadPath (fs : FileSystem) (p : Path) : EStateM IoError SourceTable SourceId := do
  load fs (← MonadExcept.ofExcept (fs.identify p))

/-- The text of a line, without its end. -/
def line? (t : SourceTable) (l : Location) : Option Text :=
  match t.file? l.source, l.line with
  | some f, n + 1 => f.text.lines[n]?
  | _, _ => none

/-- A location as it is shown in hints, if its file is known. -/
def place? (t : SourceTable) (l : Location) : Option String :=
  (t.file? l.source).map fun f => s!"{f.path.display}:{l.line}"

/-! ### Loading -/

section
variable {t left : SourceTable} {fs : FileSystem} {f g : Identity} {id : SourceId} {e : IoError}
  {text : Text} {file : SourceFile}

/-- A file is entered on both sides. -/
def enter (t : SourceTable) (f : Identity) (text : Text) : SourceTable :=
  (t.push (.entered ⟨t.files.size⟩ f text)).insert f ⟨t.files.size⟩

theorem load_known (h : t.find? f = some id) : load fs f t = .ok id t := by
  show (load fs f).run t = _
  simp only [load, EStateM.run_bind, EStateM.run_get, h]
  rfl

theorem load_unread (h : t.find? f = none) (hread : fs.read f.path = .error e) :
    load fs f t = .error e t := by
  show (load fs f).run t = _
  simp only [load, EStateM.run_bind, EStateM.run_get, h, hread, MonadExcept.ofExcept]
  rfl

theorem load_new {octets : List UInt8} (h : t.find? f = none)
    (hread : fs.read f.path = .ok octets) :
    load fs f t = .ok ⟨t.files.size⟩ (t.enter f (Utf8.decode octets)) := by
  show (load fs f).run t = _
  simp only [load, EStateM.run_bind, EStateM.run_get, h, hread, MonadExcept.ofExcept]
  rfl

/-- A file that is loaded has been in the table, or has been read and is entered at the
end. -/
theorem load_cases (h : load fs f t = .ok id left) :
    (t.find? f = some id ∧ left = t) ∨
      (t.find? f = none ∧ id = ⟨t.files.size⟩ ∧
        ∃ octets, fs.read f.path = .ok octets ∧ left = t.enter f (Utf8.decode octets)) := by
  cases hfind : t.find? f with
  | some found =>
    rw [load_known hfind] at h
    cases h
    exact .inl ⟨rfl, rfl⟩
  | none =>
    cases hread : fs.read f.path with
    | error e =>
      rw [load_unread hfind hread] at h
      cases h
    | ok octets =>
      rw [load_new hfind hread] at h
      cases h
      exact .inr ⟨rfl, rfl, octets, rfl, rfl⟩

/-- Nothing is entered before a file has been read. -/
theorem load_error (h : load fs f t = .error e left) : left = t := by
  cases hfind : t.find? f with
  | some found =>
    rw [load_known hfind] at h
    cases h
  | none =>
    cases hread : fs.read f.path with
    | error e =>
      rw [load_unread hfind hread] at h
      cases h
      rfl
    | ok octets =>
      rw [load_new hfind hread] at h
      cases h

/-! ### The two sides -/

theorem find?_congr (t : SourceTable) (h : f.isSame g = true) : t.find? f = t.find? g := by
  have hsame : (fun entry : Identity × SourceId => entry.1.isSame f) =
      fun entry => entry.1.isSame g := by
    funext entry
    rw [Identity.isSame_comm, Identity.isSame_congr h, Identity.isSame_comm]
  rw [find?, find?, hsame]

theorem find?_push (t : SourceTable) (file : SourceFile) (f : Identity) :
    (t.push file).find? f = t.find? f :=
  rfl

theorem file?_insert (t : SourceTable) (f : Identity) (id other : SourceId) :
    (t.insert f id).file? other = t.file? other :=
  rfl

theorem file?_push (t : SourceTable) (file : SourceFile) (id : SourceId) :
    (t.push file).file? id = if id.index = t.files.size then some file else t.file? id := by
  rw [file?, push, Array.getElem?_push]
  rfl

theorem find?_insert (t : SourceTable) (f g : Identity) (id : SourceId) :
    (t.insert f id).find? g = if f.isSame g then some id else t.find? g := by
  unfold find? insert
  cases hsame : f.isSame g with
  | true => simp [hsame]
  | false =>
    -- The entries that are thrown out are not the ones that are sought.
    have hkept : ∀ entry : Identity × SourceId, (!entry.1.isSame f && entry.1.isSame g) =
        entry.1.isSame g := by
      intro entry
      cases hf : entry.1.isSame f with
      | false => rfl
      | true => rw [Identity.isSame_congr hf, hsame]; rfl
    simp [hsame, List.find?_filter, hkept]

theorem file?_enter (t : SourceTable) (f : Identity) (text : Text) (id : SourceId) :
    (t.enter f text).file? id =
      if id.index = t.files.size then some (.entered ⟨t.files.size⟩ f text) else t.file? id := by
  rw [enter, file?_insert, file?_push]

theorem find?_enter (t : SourceTable) (f g : Identity) (text : Text) :
    (t.enter f text).find? g = if f.isSame g then some ⟨t.files.size⟩ else t.find? g := by
  rw [enter, find?_insert, find?_push]

theorem size_enter (t : SourceTable) (f : Identity) (text : Text) :
    (t.enter f text).files.size = t.files.size + 1 :=
  Array.size_push _

theorem file?_isSome : (∃ file, t.file? id = some file) ↔ id.index < t.files.size := by
  rw [← Option.isSome_iff_exists, file?, isSome_getElem?]

/-- The two sides of a table agree. -/
structure Agrees (t : SourceTable) : Prop where
  /-- A file has the number under which it is kept, and the path of its identity. -/
  numbered : ∀ id file, t.file? id = some file → file = .entered id file.identity file.text
  /-- The look-ups by identity and by number undo each other. -/
  inverse : ∀ f id, t.find? f = some id ↔
    ∃ file, t.file? id = some file ∧ f.isSame file.identity = true

theorem agrees_new : Agrees {} where
  numbered := by simp [file?]
  inverse := by simp [find?, file?]

theorem Agrees.enter (h : t.Agrees) (hnew : t.find? f = none) (text : Text) :
    (t.enter f text).Agrees where
  numbered id file hfile := by
    rw [file?_enter] at hfile
    split at hfile
    · rename_i hlast
      obtain ⟨index⟩ := id
      cases hlast
      cases hfile
      rfl
    · exact h.numbered id file hfile
  inverse g id := by
    rw [find?_enter, file?_enter]
    cases hsame : f.isSame g with
    | true =>
      -- The file stands at the end and nowhere else.
      have hnone : t.find? g = none := t.find?_congr hsame ▸ hnew
      rw [if_pos rfl]
      split
      · rename_i hlast
        obtain ⟨index⟩ := id
        cases hlast
        simp [SourceFile.entered, Identity.isSame_comm g, hsame]
      · rename_i hearlier
        rw [← h.inverse g id, hnone]
        constructor
        · intro hid
          cases hid
          exact absurd rfl hearlier
        · intro hid
          cases hid
    | false =>
      rw [if_neg Bool.false_ne_true, h.inverse g id]
      split
      · rename_i hlast
        have habsent : t.file? id = none := by simp [file?, hlast]
        simp [SourceFile.entered, Identity.isSame_comm g, hsame, habsent]
      · rfl

/-- **Loading keeps the two sides in agreement.** -/
theorem Agrees.load (h : t.Agrees) (hload : load fs f t = .ok id left) : left.Agrees := by
  rcases load_cases hload with ⟨_, rfl⟩ | ⟨hnew, _, octets, _, rfl⟩
  · exact h
  · exact h.enter hnew _

theorem loadPath_absent {p : Path} (h : fs.identify p = .error e) :
    loadPath fs p t = .error e t := by
  show (loadPath fs p).run t = _
  simp only [loadPath, EStateM.run_bind, h, MonadExcept.ofExcept]
  rfl

theorem loadPath_found {p : Path} (h : fs.identify p = .ok f) :
    loadPath fs p t = load fs f t := by
  simp [loadPath, h, MonadExcept.ofExcept]

theorem Agrees.loadPath {p : Path} (h : t.Agrees) (hload : loadPath fs p t = .ok id left) :
    left.Agrees := by
  cases hfound : fs.identify p with
  | error e =>
    rw [loadPath_absent hfound] at hload
    cases hload
  | ok f =>
    rw [loadPath_found hfound] at hload
    exact h.load hload

end

end SourceTable

/-- A table whose two sides agree. -/
structure Sources extends SourceTable where
  agrees : toSourceTable.Agrees := by exact SourceTable.agrees_new

namespace Sources

/-- The table with one file more. -/
def enter (s : Sources) (f : Identity) (text : Text) (hnew : s.find? f = none) : Sources :=
  ⟨s.toSourceTable.enter f text, s.agrees.enter hnew text⟩

/-- Changes the table, if that succeeds. -/
def change (s : Sources) (x : EStateM IoError SourceTable SourceId)
    (keeps : ∀ {t left id}, t.Agrees → x t = .ok id left → left.Agrees) :
    Except IoError (SourceId × Sources) :=
  match hx : x s.toSourceTable with
  | .ok id table => .ok (id, ⟨table, keeps s.agrees hx⟩)
  | .error e _ => .error e

/-- The number of a file and the table with it. Where the file cannot be read, the table
stays as it was (`SourceTable.load_error`). -/
def load (s : Sources) (fs : FileSystem) (f : Identity) : Except IoError (SourceId × Sources) :=
  s.change (SourceTable.load fs f) SourceTable.Agrees.load

/-- Loads the file that a path finds. -/
def loadPath (s : Sources) (fs : FileSystem) (p : Path) : Except IoError (SourceId × Sources) :=
  s.change (SourceTable.loadPath fs p) SourceTable.Agrees.loadPath

end Sources

end IncludeOnce
