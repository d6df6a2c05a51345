import IncludeOnce.Proofs.Actions

/-! Looking up what was entered.

The ledger and the sources are looked up by identity, and only the key counts. A
change of one record changes the look-up of that file and of no other; a file that
has been read stays where it is, whatever is read after it. Macros are looked up by
name, and a definition tells of its name only. -/
namespace IncludeOnce

namespace Macros

theorem body?_undefine (m : Macros) (name other : Name) :
    (m.undefine name).body? other = if other = name then none else m.body? other := by
  obtain ⟨entries⟩ := m
  simp only [undefine, body?]
  induction entries with
  | nil => simp
  | cons entry rest ih =>
    obtain ⟨key, body⟩ := entry
    by_cases hk : key = name
    · subst hk
      by_cases ho : other = key
      · simpa [ho] using ih
      · simpa [ho, beq_false_of_ne ho, List.lookup_cons] using ih
    · by_cases ho : other = key
      · subst ho
        simp [hk]
      · simpa [hk, beq_false_of_ne ho, List.lookup_cons] using ih

theorem body?_define (m : Macros) (name other : Name) (body : Text) :
    (m.define name body).body? other = if other = name then some body else m.body? other := by
  show ((name, body) :: (m.undefine name).entries).lookup other = _
  by_cases ho : other = name
  · simp [ho]
  · have hu := m.body?_undefine name other
    rw [body?, if_neg ho] at hu
    rw [List.lookup_cons, beq_false_of_ne ho, if_neg ho]
    exact hu

theorem isDefined_undefine (m : Macros) (name other : Name) :
    (m.undefine name).isDefined other = (other ≠ name && m.isDefined other) := by
  rw [isDefined, body?_undefine]
  by_cases ho : other = name <;> simp [ho, isDefined]

theorem isDefined_define (m : Macros) (name other : Name) (body : Text) :
    (m.define name body).isDefined other = (other = name || m.isDefined other) := by
  rw [isDefined, body?_define]
  by_cases ho : other = name <;> simp [ho, isDefined]

end Macros

namespace Record

@[simp] theorem processed_absorb (r : Record) (report : Report) :
    (r.absorb report).processed = r.processed := by
  unfold absorb
  split
  · rfl
  · rfl

@[simp] theorem onceGuarded_absorb (r : Record) (report : Report) :
    (r.absorb report).onceGuarded = (r.onceGuarded || report.declaredOnce) := by
  unfold absorb
  split
  · rename_i hd
    rw [hd, Bool.or_true]
    rfl
  · rename_i hd
    rw [Bool.not_eq_true] at hd
    rw [hd, Bool.or_false]
    rfl

@[simp] theorem count_absorb (r : Record) (report : Report) :
    (r.absorb report).count = r.count := by
  unfold absorb
  split
  · rfl
  · rfl

/-- Only what has been begun is dropped. -/
theorem processed_of_skip {r : Record} {isDefined : Name → Bool} {reason : SkipReason}
    (h : r.decide isDefined = .skip reason) : r.processed = true := by
  cases hp : r.processed with
  | true => rfl
  | false => simp [Record.decide, hp] at h

end Record

namespace Ledger

theorem find?_updateIn (f g : Identity) (change : Record → Record)
    (entries : List (Identity × Record)) :
    ((updateIn f change entries).find? (·.1.isSame g)).map (·.2) =
      if f.isSame g then
        some (change (((entries.find? (·.1.isSame g)).map (·.2)).getD {}))
      else (entries.find? (·.1.isSame g)).map (·.2) := by
  induction entries with
  | nil => cases h : f.isSame g <;> simp [updateIn, h]
  | cons entry rest ih =>
    obtain ⟨k, r⟩ := entry
    rw [updateIn]
    cases hk : k.isSame f with
    | true =>
      have hkg := Identity.isSame_congr hk g
      cases h : f.isSame g <;> simp [hkg, h]
    | false =>
      cases h : k.isSame g with
      | true =>
        have hfg : f.isSame g = false := by
          cases hf : f.isSame g with
          | false => rfl
          | true =>
            rw [Identity.isSame_comm, ← Identity.isSame_congr h, hk] at hf
            cases hf
        simp [h, hfg]
      | false => simpa [h] using ih

theorem get?_update (l : Ledger) (f g : Identity) (change : Record → Record) :
    (l.update f change).get? g = if f.isSame g then some (change (l.get g)) else l.get? g :=
  find?_updateIn f g change l.entries

theorem get_update (l : Ledger) (f g : Identity) (change : Record → Record) :
    (l.update f change).get g = if f.isSame g then change (l.get g) else l.get g := by
  rw [get, get?_update]
  split
  · rfl
  · rfl

theorem get_meet (l : Ledger) (f g : Identity) : (l.meet f).get g = l.get g := by
  rw [meet, get_update]
  exact ite_self _

theorem get_markOnce (l : Ledger) (f g : Identity) :
    (l.markOnce f).get g = if f.isSame g then (l.get g).markOnce else l.get g :=
  get_update l f g _

theorem get_begin (l : Ledger) (f g : Identity) :
    (l.begin f).get g = if f.isSame g then (l.get g).markProcessed else l.get g :=
  get_update l f g _

theorem get_complete (l : Ledger) (f g : Identity) (report : Report) :
    (l.complete f report).get g = if f.isSame g then (l.get g).absorb report else l.get g :=
  get_update l f g _

/-- A request leaves its mark only if it is an `#import`. -/
theorem get_resolve (l : Ledger) (f g : Identity) (kind : RequestKind)
    (isDefined : Name → Bool) :
    (l.resolve f kind isDefined).2.get g =
      if kind = .once ∧ f.isSame g = true then (l.get g).markOnce else l.get g := by
  cases kind with
  | plain => simpa [resolve] using get_meet l f g
  | once => simpa [resolve] using get_markOnce l f g

/-- Two changes of a record are one. -/
theorem update_update (l : Ledger) (f : Identity) (a b : Record → Record) :
    (l.update f a).update f b = l.update f (b ∘ a) := by
  suffices h : ∀ entries, updateIn f b (updateIn f a entries) = updateIn f (b ∘ a) entries from
    congrArg Ledger.mk (h l.entries)
  intro entries
  induction entries with
  | nil => simp [updateIn]
  | cons entry rest ih =>
    obtain ⟨g, r⟩ := entry
    cases hs : g.isSame f <;> simp [updateIn, hs, ih]

/-- A change of a record depends on that record only. -/
theorem update_congr (l : Ledger) (f : Identity) {a b : Record → Record}
    (h : a (l.get f) = b (l.get f)) : l.update f a = l.update f b := by
  obtain ⟨entries⟩ := l
  refine congrArg Ledger.mk ?_
  show updateIn f a entries = updateIn f b entries
  simp only [get, get?] at h
  induction entries with
  | nil => simpa [updateIn] using h
  | cons entry rest ih =>
    obtain ⟨g, r⟩ := entry
    cases hs : g.isSame f with
    | true => simpa [updateIn, hs] using h
    | false =>
      have hrest := ih (by simpa [hs] using h)
      simp only [updateIn, hs, hrest, Bool.false_eq_true, if_false]

/-- What holds of all records and of the changed one holds of all after the change. -/
theorem forall_update {P : Record → Prop} {l : Ledger} {f : Identity} {change : Record → Record}
    (h : ∀ entry ∈ l.entries, P entry.2) (hf : P (change (l.get f))) :
    ∀ entry ∈ (l.update f change).entries, P entry.2 := by
  obtain ⟨entries⟩ := l
  show ∀ entry ∈ updateIn f change entries, P entry.2
  simp only [get, get?] at hf
  induction entries with
  | nil => simpa [updateIn] using hf
  | cons entry rest ih =>
    obtain ⟨hentry, hrest⟩ := List.forall_mem_cons.mp h
    obtain ⟨g, r⟩ := entry
    cases hs : g.isSame f with
    | true =>
      simp only [updateIn, hs, if_true]
      exact List.forall_mem_cons.mpr ⟨by simpa [hs] using hf, hrest⟩
    | false =>
      simp only [updateIn, hs, Bool.false_eq_true, if_false]
      exact List.forall_mem_cons.mpr ⟨hentry, ih hrest (by simpa [hs] using hf)⟩

/-- The record of a file is blank or stands in the ledger. -/
theorem get_blank_or_mem (l : Ledger) (f : Identity) :
    l.get f = {} ∨ ∃ entry ∈ l.entries, entry.2 = l.get f := by
  cases hfind : l.entries.find? (·.1.isSame f) with
  | none => exact .inl (by rw [get, get?, hfind]; rfl)
  | some entry =>
    exact .inr ⟨entry, List.mem_of_find?_eq_some hfind, by rw [get, get?, hfind]; rfl⟩

theorem get_congr (l : Ledger) {f g : Identity} (h : f.isSame g = true) : l.get f = l.get g := by
  have hs : (fun entry : Identity × Record => entry.1.isSame f) =
      fun entry => entry.1.isSame g := by
    funext entry
    rw [Identity.isSame_comm, Identity.isSame_congr h, Identity.isSame_comm]
  simp only [get, get?, hs]

end Ledger

namespace Run

theorem get_begin (run : Run Scan) (f g : Identity) :
    (run.mapLedger (·.begin f)).ledger.get g =
      if f.isSame g then (run.ledger.get g).markProcessed else run.ledger.get g :=
  Ledger.get_begin _ f g

theorem get_dropped (run : Run Scan) (request : Request) (file f : Identity)
    (reason : SkipReason) :
    (run.dropped request file reason).ledger.get f =
      if request.kind = .once ∧ file.isSame f = true then (run.ledger.get f).markOnce
      else run.ledger.get f :=
  Ledger.get_resolve _ _ _ _ run.host.macros.isDefined

theorem get_started (run : Run Scan) (request : Request) (file f : Identity) :
    (run.started request file).ledger.get f =
      if file.isSame f then
        (if request.kind = .once then (run.ledger.get f).markOnce
          else run.ledger.get f).markProcessed
      else run.ledger.get f := by
  have hr := run.ledger.get_resolve file f request.kind run.host.macros.isDefined
  show (((run.ledger.resolve file request.kind run.host.macros.isDefined).2.begin file).get f) = _
  rw [Ledger.get_begin, hr]
  cases hs : file.isSame f with
  | true => simp
  | false => simp

theorem get_finished (run : Run Scan) (file f : Identity) (report : Report) :
    (run.finished file report).ledger.get f =
      if file.isSame f then (run.ledger.get f).absorb report else run.ledger.get f :=
  Ledger.get_complete _ _ _ _

end Run

namespace Sources
variable {s t : Sources} {fs : FileSystem} {f g : Identity} {id : SourceId} {file : SourceFile}
  {e : IoError}

/-! ### Loading -/

section
variable {x : EStateM IoError SourceTable SourceId} {table : SourceTable}
  {keeps : ∀ {t left id}, t.Agrees → x t = .ok id left → left.Agrees}

theorem change_ok (h : x s.toSourceTable = .ok id table) :
    s.change x keeps = .ok (id, ⟨table, keeps s.agrees h⟩) := by
  unfold change
  split
  · rename_i hx
    cases h.symm.trans hx
    rfl
  · rename_i hx
    cases h.symm.trans hx

theorem change_error (h : x s.toSourceTable = .error e table) : s.change x keeps = .error e := by
  unfold change
  split
  · rename_i hx
    cases h.symm.trans hx
  · rename_i hx
    cases h.symm.trans hx
    rfl

end

theorem load_known (h : s.find? f = some id) : s.load fs f = .ok (id, s) :=
  change_ok (SourceTable.load_known h)

theorem load_unread (h : s.find? f = none) (hread : fs.read f.path = .error e) :
    s.load fs f = .error e :=
  change_error (SourceTable.load_unread h hread)

theorem load_new {octets : List UInt8} (h : s.find? f = none)
    (hread : fs.read f.path = .ok octets) :
    s.load fs f = .ok (⟨s.files.size⟩, s.enter f (Utf8.decode octets) h) :=
  change_ok (SourceTable.load_new h hread)

/-- A file that is loaded has been in the table, or has been read and is entered at the
end. -/
theorem load_cases (h : s.load fs f = .ok (id, t)) :
    (s.find? f = some id ∧ t = s) ∨
      ∃ hnew octets, fs.read f.path = .ok octets ∧ id = ⟨s.files.size⟩ ∧
        t = s.enter f (Utf8.decode octets) hnew := by
  by_cases hnew : s.find? f = none
  · cases hread : fs.read f.path with
    | error e =>
      rw [load_unread hnew hread] at h
      cases h
    | ok octets =>
      rw [load_new hnew hread] at h
      cases h
      exact .inr ⟨hnew, octets, rfl, rfl, rfl⟩
  · obtain ⟨found, hfind⟩ := Option.ne_none_iff_exists'.mp hnew
    rw [load_known hfind] at h
    cases h
    exact .inl ⟨hfind, rfl⟩

theorem loadPath_absent {p : Path} (h : fs.identify p = .error e) :
    s.loadPath fs p = .error e :=
  change_error (SourceTable.loadPath_absent h)

theorem loadPath_found {p : Path} (h : fs.identify p = .ok f) :
    s.loadPath fs p = s.load fs f := by
  have heq : SourceTable.loadPath fs p s.toSourceTable = SourceTable.load fs f s.toSourceTable :=
    SourceTable.loadPath_found h
  unfold loadPath load
  cases hload : SourceTable.load fs f s.toSourceTable with
  | ok id table => rw [change_ok (heq.trans hload), change_ok hload]
  | error e table => rw [change_error (heq.trans hload), change_error hload]

/-! ### Looking up -/

/-- The file that has been read under an identity. -/
def known? (s : Sources) (f : Identity) : Option SourceFile := (s.find? f).bind s.file?

theorem known?_congr (s : Sources) (h : f.isSame g = true) : s.known? f = s.known? g := by
  rw [known?, known?, s.find?_congr h]

/-- What is found under an identity is the same file. -/
theorem find?_eq_some (h : s.find? f = some id) :
    ∃ file, s.file? id = some file ∧ f.isSame file.identity = true :=
  (s.agrees.inverse f id).mp h

/-- What has been read is found. -/
theorem find?_identity (h : s.file? id = some file) : s.find? file.identity = some id :=
  (s.agrees.inverse file.identity id).mpr ⟨file, h, file.identity.isSame_refl⟩

theorem known?_identity (h : s.file? id = some file) : s.known? file.identity = some file := by
  rw [known?, find?_identity h]
  exact h

/-- More files have been read, and the earlier ones stand where they stood. -/
def Grows (s t : Sources) : Prop := ∃ more, t.files = s.files ++ more

theorem Grows.refl (s : Sources) : s.Grows s := ⟨#[], by simp⟩

theorem Grows.trans {u : Sources} (h : s.Grows t) (k : t.Grows u) : s.Grows u := by
  obtain ⟨a, ha⟩ := h
  obtain ⟨b, hb⟩ := k
  exact ⟨a ++ b, by rw [hb, ha, Array.append_assoc]⟩

theorem Grows.enter (s : Sources) (f : Identity) (text : Text) (hnew : s.find? f = none) :
    s.Grows (s.enter f text hnew) :=
  ⟨#[.entered ⟨s.files.size⟩ f text], rfl⟩

theorem Grows.file? (h : s.Grows t) (hf : s.file? id = some file) : t.file? id = some file := by
  obtain ⟨more, hm⟩ := h
  unfold SourceTable.file? at hf ⊢
  obtain ⟨hi, _⟩ := Array.getElem?_eq_some_iff.mp hf
  rw [hm, Array.getElem?_append_left hi]
  exact hf

theorem Grows.find? (h : s.Grows t) (hf : s.find? f = some id) : t.find? f = some id := by
  obtain ⟨file, hfile, hsame⟩ := find?_eq_some hf
  exact (t.agrees.inverse f id).mpr ⟨file, h.file? hfile, hsame⟩

theorem Grows.known? (h : s.Grows t) (hf : s.known? f = some file) : t.known? f = some file := by
  obtain ⟨id, hid, hfile⟩ := Option.bind_eq_some_iff.mp hf
  exact Option.bind_eq_some_iff.mpr ⟨id, h.find? hid, h.file? hfile⟩

/-- Loading gives the place of the file, which by then has been read. -/
theorem load_ok (h : s.load fs f = .ok (id, t)) :
    s.Grows t ∧ t.find? f = some id ∧ ∃ file, t.file? id = some file := by
  have hloaded : s.Grows t ∧ t.find? f = some id := by
    rcases load_cases h with ⟨hfind, rfl⟩ | ⟨hnew, octets, _, rfl, rfl⟩
    · exact ⟨.refl t, hfind⟩
    · refine ⟨.enter s f _ hnew, ?_⟩
      exact (s.find?_enter f f _).trans (if_pos f.isSame_refl)
  obtain ⟨file, hfile, _⟩ := find?_eq_some hloaded.2
  exact ⟨hloaded.1, hloaded.2, file, hfile⟩

end Sources

end IncludeOnce
