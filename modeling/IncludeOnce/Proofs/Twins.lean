import IncludeOnce.Proofs.Records
import IncludeOnce.Proofs.Wrapping

/-! Two runs that tell the same story.

Some headers of a file system say that they are to be read once. In its twin each of them
has an include guard instead, with a name that is used for nothing else. A scan and its
twin go the same way line by line (`Twins`), though they decide differently: where the one
drops a request because its file is locked, the other drops it because the guard is
defined, or reads the file again and finds all of it skipped. -/
namespace IncludeOnce
open Scan

/-! ### Names -/

/-- The names that a condition asks about. -/
def Condition.names : Condition → List Name
  | .integer _ => []
  | .named name => [name]
  | .defined name => [name]
  | .not inner => inner.names

/-- The names that the condition written in a text asks about. -/
def Condition.namesIn (operand : Text) : List Name :=
  match Condition.read operand with
  | .ok c => c.names
  | .error _ => []

/-- A condition depends on the names that it asks about. -/
theorem Condition.eval_congr {m m' : Macros} (c : Condition)
    (h : ∀ name ∈ c.names, m'.body? name = m.body? name) : c.eval m' = c.eval m := by
  induction c with
  | integer value => rfl
  | named name => rw [eval, eval, h name (List.mem_singleton_self _)]
  | defined name =>
    rw [eval, eval, Macros.isDefined, Macros.isDefined, h name (List.mem_singleton_self _)]
  | not inner ih => rw [eval, eval, ih h]

theorem Condition.value_congr {m m' : Macros} {operand : Text}
    (h : ∀ name ∈ namesIn operand, m'.body? name = m.body? name) :
    value m' operand = value m operand := by
  unfold namesIn at h
  unfold value
  cases hr : read operand with
  | error piece => rfl
  | ok c =>
    rw [hr] at h
    exact c.eval_congr h

/-- The names that a line speaks of. -/
def Line.names : Line → List Name
  | .opening (.condition operand) | .elseIf operand => Condition.namesIn operand
  | .opening (.ifDefined operand) | .opening (.ifUndefined operand)
  | .command (.define operand) | .command (.undefine operand) =>
    (Identifier.first? operand).toList
  | _ => []

/-! ### Guards -/

/-- Which headers have a guard in the twin, by the numbers of their files, and which. -/
abbrev Guards := Nat → Option Name

namespace Guards

/-- The guard that a file has in the twin. -/
def of? (guards : Guards) (f : Identity) : Option Name :=
  match f.key with
  | .inode n => guards n
  | .path _ => none

/-- Whether a name is that of a guard. -/
def IsGuard (guards : Guards) (name : Name) : Prop := ∃ n, guards n = some name

theorem of?_congr (guards : Guards) {f g : Identity} (h : f.isSame g = true) :
    guards.of? f = guards.of? g := by
  rw [of?, of?, Identity.isSame_iff.mp h]

/-- Files with different guards are different. -/
theorem isSame_eq_false (guards : Guards) {f g : Identity} {a b : Option Name}
    (hf : guards.of? f = a) (hg : guards.of? g = b) (h : a ≠ b) : f.isSame g = false := by
  cases hs : f.isSame g with
  | false => rfl
  | true => exact absurd (hf.symm.trans ((guards.of?_congr hs).trans hg)) h

theorem isGuard_of (guards : Guards) {f : Identity} {name : Name} (h : guards.of? f = some name) :
    guards.IsGuard name := by
  unfold of? at h
  split at h
  · exact ⟨_, h⟩
  · cases h

/-- No line speaks of a guard. -/
def Unspoken (guards : Guards) (lines : List (Numbered Line)) : Prop :=
  ∀ l ∈ lines, ∀ name ∈ l.content.names, ¬ guards.IsGuard name

end Guards

/-! ### States that match -/

/-- The text of a file and its text in the twin. -/
def TwinText (guards : Guards) (text twin : Text) : Option Name → Prop
  | none => twin = text ∧ guards.Unspoken (Line.ofText text)
  | some name => ∃ (hn : Identifier.isWhole name = true) (g : Group) (closing : Nat),
      Line.ofText text = g.once.lines ∧ Line.ofText twin = (g.guarded hn closing).lines ∧
        guards.Unspoken g.lines

/-- The same files have been read, each with its text. -/
structure TwinSources (guards : Guards) (s t : Sources) : Prop where
  identity : t.files.map (·.identity) = s.files.map (·.identity)
  text : ∀ id file twin, s.file? id = some file → t.file? id = some twin →
    TwinText guards file.text twin.text (guards.of? file.identity)

/-- What shows of a scan is the same, but for the guards. -/
structure Alike (guards : Guards) (s t : Scan) : Prop where
  written : t.written = s.written
  body? : ∀ name, ¬ guards.IsGuard name → t.macros.body? name = s.macros.body? name

/-- The records of a file that is the same in both. -/
structure PlainRecord (guards : Guards) (r t : Record) : Prop where
  processed : t.processed = r.processed
  onceGuarded : t.onceGuarded = r.onceGuarded
  guardName : t.guardName = r.guardName
  other : ∀ name, r.guardName = some name → ¬ guards.IsGuard name

/-- The records of a header that says it is to be read once, and in the twin has the guard
`name`. Once it has been begun it is locked in the one, and its guard is defined in the
other. -/
structure OnceRecord (name : Name) (f : Identity) (t : Scan) (r u : Record) : Prop where
  processed : u.processed = r.processed
  defined : t.macros.isDefined name = r.processed
  locked : r.processed = true → r.onceGuarded = true
  known : r.processed = true → ∃ id, t.sources.find? f = some id
  guard : ∀ other, u.guardName = some other → other = name

/-- Two states match, but for the records of headers that are just being opened. -/
structure Matched (guards : Guards) (opening : Identity → Bool) (l : Ledger) (s : Scan)
    (m : Ledger) (t : Scan) : Prop where
  alike : Alike guards s t
  depth : t.stack.length = s.stack.length
  sources : TwinSources guards s.sources t.sources
  plain : ∀ f, guards.of? f = none → PlainRecord guards (l.get f) (m.get f)
  once : ∀ f name, guards.of? f = some name → opening f = false →
    OnceRecord name f t (l.get f) (m.get f)

/-- A run and its twin. -/
def Twins (guards : Guards) (run twin : Run Scan) : Prop :=
  Matched guards (fun _ => false) run.ledger run.host twin.ledger twin.host

namespace Sources
variable {s t : Sources} (h : t.files.map (·.identity) = s.files.map (·.identity))
include h

theorem size_eq_of_identity : t.files.size = s.files.size := by
  simpa using congrArg Array.size h

/-- The files at one place have one identity. -/
theorem file?_eq_of_identity (id : SourceId) :
    (t.file? id).map (·.identity) = (s.file? id).map (·.identity) := by
  have hmap : (t.files.map (·.identity))[id.index]? = (s.files.map (·.identity))[id.index]? := by
    rw [h]
  rw [Array.getElem?_map, Array.getElem?_map] at hmap
  exact hmap

/-- Where a file has been read, so has its twin. -/
theorem exists_file?_of_identity {id : SourceId} {file : SourceFile}
    (hf : s.file? id = some file) :
    ∃ twin, t.file? id = some twin ∧ twin.identity = file.identity := by
  have hmap := file?_eq_of_identity h id
  rw [hf] at hmap
  exact Option.map_eq_some_iff.mp hmap

theorem file?_none_of_identity {id : SourceId} (hf : s.file? id = none) : t.file? id = none := by
  have hmap := file?_eq_of_identity h id
  rw [hf] at hmap
  exact Option.map_eq_none_iff.mp hmap

theorem find?_eq_of_identity (f : Identity) : t.find? f = s.find? f := by
  refine Option.ext fun id => ?_
  rw [t.agrees.inverse, s.agrees.inverse]
  constructor
  · rintro ⟨twin, htwin, hsame⟩
    obtain ⟨file, hfile, hidentity⟩ := exists_file?_of_identity h.symm htwin
    exact ⟨file, hfile, hidentity ▸ hsame⟩
  · rintro ⟨file, hfile, hsame⟩
    obtain ⟨twin, htwin, hidentity⟩ := exists_file?_of_identity h hfile
    exact ⟨twin, htwin, hidentity ▸ hsame⟩

end Sources

namespace TwinSources
variable {guards : Guards} {s t : Sources}

theorem size_eq (h : TwinSources guards s t) : t.files.size = s.files.size :=
  Sources.size_eq_of_identity h.identity

theorem find?_eq (h : TwinSources guards s t) (f : Identity) : t.find? f = s.find? f :=
  Sources.find?_eq_of_identity h.identity f

/-- Where a file has been read, so has its twin. -/
theorem file? (h : TwinSources guards s t) {id : SourceId} {file : SourceFile}
    (hf : s.file? id = some file) :
    ∃ twin, t.file? id = some twin ∧ twin.identity = file.identity ∧
      TwinText guards file.text twin.text (guards.of? file.identity) := by
  obtain ⟨twin, htwin, hidentity⟩ := Sources.exists_file?_of_identity h.identity hf
  exact ⟨twin, htwin, hidentity, h.text id file twin hf htwin⟩

theorem file?_none (h : TwinSources guards s t) {id : SourceId} (hf : s.file? id = none) :
    t.file? id = none :=
  Sources.file?_none_of_identity h.identity hf

end TwinSources

/-- Where failures are noted does not show. -/
theorem Alike.fail {guards : Guards} {s t : Scan} (h : Alike guards s t) (a b : Location) :
    Alike guards (s.fail a) (t.fail b) := by
  have hfail : ∀ (s : Scan) (l : Location),
      (s.fail l).written = s.written ∧ (s.fail l).macros = s.macros := fun s l => by
    unfold Scan.fail
    split
    · exact ⟨rfl, rfl⟩
    · exact ⟨rfl, rfl⟩
  refine ⟨?_, fun name hn => ?_⟩
  · rw [(hfail s a).1, (hfail t b).1]
    exact h.written
  · rw [(hfail s a).2, (hfail t b).2]
    exact h.body? name hn

theorem OnceRecord.congr {name : Name} {f g : Identity} {t : Scan} {r u : Record}
    (h : OnceRecord name f t r u) (hs : f.isSame g = true) : OnceRecord name g t r u where
  processed := h.processed
  defined := h.defined
  locked := h.locked
  known hp := t.sources.find?_congr hs ▸ h.known hp
  guard := h.guard

namespace Matched
variable {guards : Guards} {opening : Identity → Bool} {l m : Ledger} {s t : Scan}

/-- What a scan keeps besides text, macros, sources and the number of open files does not
matter. -/
theorem hosts (h : Matched guards opening l s m t) {s' t' : Scan}
    (hw : t'.written = s'.written) (hd : t'.stack.length = s'.stack.length)
    (hm : s'.macros = s.macros) (hm' : t'.macros = t.macros) (hs : s'.sources = s.sources)
    (hs' : t'.sources = t.sources) : Matched guards opening l s' m t' where
  alike := ⟨hw, fun name hn => by rw [hm, hm']; exact h.alike.body? name hn⟩
  depth := hd
  sources := by rw [hs, hs']; exact h.sources
  plain := h.plain
  once f name hf ho :=
    have hr := h.once f name hf ho
    ⟨hr.processed, by rw [hm']; exact hr.defined, hr.locked, by rw [hs']; exact hr.known, hr.guard⟩

/-- More files have been read. -/
theorem load (h : Matched guards opening l s m t) {sources twins : Sources}
    (hs : TwinSources guards sources twins) (hg : t.sources.Grows twins) :
    Matched guards opening l { s with sources } m { t with sources := twins } where
  alike := ⟨h.alike.written, h.alike.body?⟩
  depth := h.depth
  sources := hs
  plain := h.plain
  once f name hf ho :=
    have hr := h.once f name hf ho
    ⟨hr.processed, hr.defined, hr.locked, fun hp => (hr.known hp).imp fun _ hid => hg.find? hid,
      hr.guard⟩

/-- The records of one file have changed, and match again if they have to. -/
theorem records (h : Matched guards opening l s m t) (f : Identity) {l' m' : Ledger}
    {opening' : Identity → Bool} (hl : ∀ g, f.isSame g = false → l'.get g = l.get g)
    (hm : ∀ g, f.isSame g = false → m'.get g = m.get g)
    (ho : ∀ g, f.isSame g = false → opening' g = false → opening g = false)
    (hf : ∀ g, f.isSame g = true → opening' g = opening' f)
    (hplain : guards.of? f = none → PlainRecord guards (l'.get f) (m'.get f))
    (honce : ∀ name, guards.of? f = some name → opening' f = false →
      OnceRecord name f t (l'.get f) (m'.get f)) : Matched guards opening' l' s m' t where
  alike := h.alike
  depth := h.depth
  sources := h.sources
  plain g hg := by
    cases hs : f.isSame g with
    | false => rw [hl g hs, hm g hs]; exact h.plain g hg
    | true =>
      rw [← l'.get_congr hs, ← m'.get_congr hs]
      exact hplain (guards.of?_congr hs ▸ hg)
  once g name hg hopen := by
    cases hs : f.isSame g with
    | false => rw [hl g hs, hm g hs]; exact h.once g name hg (ho g hs hopen)
    | true =>
      rw [← l'.get_congr hs, ← m'.get_congr hs]
      exact (honce name (guards.of?_congr hs ▸ hg) (hf g hs ▸ hopen)).congr hs

/-- The record of a file has changed on both sides, and matches as it did. -/
theorem update (h : Matched guards (fun _ => false) l s m t) (f : Identity)
    {a b : Record → Record}
    (hplain : guards.of? f = none → PlainRecord guards (l.get f) (m.get f) →
      PlainRecord guards (a (l.get f)) (b (m.get f)))
    (honce : ∀ name, guards.of? f = some name → OnceRecord name f t (l.get f) (m.get f) →
      OnceRecord name f t (a (l.get f)) (b (m.get f))) :
    Matched guards (fun _ => false) (l.update f a) s (m.update f b) t := by
  refine h.records f (fun g hs => ?_) (fun g hs => ?_) (fun _ _ _ => rfl) (fun _ _ => rfl)
    (fun hf => ?_) fun name hf _ => ?_
  · rw [Ledger.get_update, hs]; rfl
  · rw [Ledger.get_update, hs]; rfl
  · rw [Ledger.get_update, Ledger.get_update, if_pos f.isSame_refl, if_pos f.isSame_refl]
    exact hplain hf (h.plain f hf)
  · rw [Ledger.get_update, Ledger.get_update, if_pos f.isSame_refl, if_pos f.isSame_refl]
    exact honce name hf (h.once f name hf rfl)

theorem meet (h : Matched guards (fun _ => false) l s m t) (f : Identity) :
    Matched guards (fun _ => false) (l.meet f) s (m.meet f) t :=
  h.update f (fun _ => id) fun _ _ => id

theorem markOnce (h : Matched guards (fun _ => false) l s m t) (f : Identity) :
    Matched guards (fun _ => false) (l.markOnce f) s (m.markOnce f) t :=
  h.update f (fun _ hr => ⟨hr.processed, rfl, hr.guardName, hr.other⟩)
    fun _ _ hr => ⟨hr.processed, hr.defined, fun _ => rfl, hr.known, hr.guard⟩

/-- Macros change in the same way, and no guard is touched. -/
theorem macros (h : Matched guards opening l s m t) {s' t' : Scan} {name : Name}
    (hn : ¬ guards.IsGuard name) (hw : s'.written = s.written) (hw' : t'.written = t.written)
    (hd : s'.stack = s.stack) (hd' : t'.stack = t.stack) (hs : s'.sources = s.sources)
    (hs' : t'.sources = t.sources) (hsame : t'.macros.body? name = s'.macros.body? name)
    (ho : ∀ other, other ≠ name → s'.macros.body? other = s.macros.body? other)
    (ho' : ∀ other, other ≠ name → t'.macros.body? other = t.macros.body? other) :
    Matched guards opening l s' m t' where
  alike := by
    refine ⟨by rw [hw, hw']; exact h.alike.written, fun other hother => ?_⟩
    by_cases he : other = name
    · rw [he]; exact hsame
    · rw [ho other he, ho' other he]; exact h.alike.body? other hother
  depth := by rw [hd, hd']; exact h.depth
  sources := by rw [hs, hs']; exact h.sources
  plain := h.plain
  once f guard hf hopen := by
    have hr := h.once f guard hf hopen
    have hne : guard ≠ name := fun he => hn (he ▸ guards.isGuard_of hf)
    exact ⟨hr.processed, by rw [Macros.isDefined, ho' guard hne]; exact hr.defined, hr.locked,
      by rw [hs']; exact hr.known, hr.guard⟩

end Matched

/-! ### Results that agree -/

/-- Two actions have come out the same: both to their ends, with values in a relation and
in states that match, or both to the same failure, with nothing to tell them apart. -/
def Agree {α β : Type} (guards : Guards) (R : α → β → Prop) :
    EStateM.Result ScanError (Run Scan) α → EStateM.Result ScanError (Run Scan) β → Prop
  | .ok a run, .ok b twin => R a b ∧ Twins guards run twin
  | .error e run, .error d twin => d = e ∧ Alike guards run.host twin.host
  | _, _ => False

namespace Agree
variable {α β γ δ : Type} {guards : Guards} {R : α → β → Prop} {run twin : Run Scan}

theorem pure {a : α} {b : β} (hr : R a b) (h : Twins guards run twin) :
    Agree guards R ((pure a : ScanM α) run) ((pure b : ScanM β) twin) := ⟨hr, h⟩

theorem throw {e : ScanError} (h : Alike guards run.host twin.host) :
    Agree guards R ((throw e : ScanM α) run) ((throw e : ScanM β) twin) := ⟨rfl, h⟩

/-- Either both have come to their ends, or both have failed. -/
theorem either {r : EStateM.Result ScanError (Run Scan) α}
    {u : EStateM.Result ScanError (Run Scan) β} (h : Agree guards R r u) :
    (∃ a b s t, r = .ok a s ∧ u = .ok b t ∧ R a b ∧ Twins guards s t) ∨
      ∃ e s t, r = .error e s ∧ u = .error e t ∧ Alike guards s.host t.host := by
  cases r with
  | ok a s =>
    cases u with
    | ok b t => exact .inl ⟨a, b, s, t, rfl, rfl, h⟩
    | error e t => exact h.elim
  | error e s =>
    cases u with
    | ok b t => exact h.elim
    | error d t =>
      obtain ⟨rfl, ha⟩ := h
      exact .inr ⟨_, s, t, rfl, rfl, ha⟩

theorem bind {S : γ → δ → Prop} {x : ScanM α} {y : ScanM β} {f : α → ScanM γ} {g : β → ScanM δ}
    (h : Agree guards R (x run) (y twin))
    (hf : ∀ a b run twin, R a b → Twins guards run twin → Agree guards S (f a run) (g b twin)) :
    Agree guards S ((x >>= f) run) ((y >>= g) twin) := by
  rw [bind_apply, bind_apply]
  obtain ⟨a, b, s, t, hx, hy, hr, ht⟩ | ⟨e, s, t, hx, hy, ha⟩ := h.either
  · rw [hx, hy]
    exact hf a b s t hr ht
  · rw [hx, hy]
    exact ⟨rfl, ha⟩

/-- Where failures are noted does not matter. -/
theorem onFailure {x : ScanM α} {y : ScanM β} (h : Agree guards R (x run) (y twin))
    (a b : Location) :
    Agree guards R (Scan.onFailure x (·.fail a) run) (Scan.onFailure y (·.fail b) twin) := by
  unfold Scan.onFailure
  obtain ⟨a, b, s, t, hx, hy, hr, ht⟩ | ⟨e, s, t, hx, hy, ha⟩ := h.either
  · rw [hx, hy]
    exact ⟨hr, ht⟩
  · rw [hx, hy]
    exact ⟨rfl, ha.fail a b⟩

theorem weaken {S : α → β → Prop} {r : EStateM.Result ScanError (Run Scan) α}
    {u : EStateM.Result ScanError (Run Scan) β} (h : Agree guards R r u)
    (hs : ∀ a b, R a b → S a b) : Agree guards S r u := by
  obtain ⟨a, b, s, t, rfl, rfl, hr, ht⟩ | ⟨e, s, t, rfl, rfl, ha⟩ := h.either
  · exact ⟨hs a b hr, ht⟩
  · exact ⟨rfl, ha⟩

/-- A file is entered and left on both sides. -/
theorem within {x : ScanM α} {y : ScanM β} {file : Identity} {site other : Option Location}
    (h : Agree guards R (x (run.mapHost (·.push file site)))
      (y (twin.mapHost (·.push file other)))) :
    Agree guards R (Scan.within file site x run) (Scan.within file other y twin) := by
  simp only [Scan.within, bind_apply, change_apply, afterwards]
  obtain ⟨a, b, s, t, hx, hy, hr, ht⟩ | ⟨e, s, t, hx, hy, ha⟩ := h.either
  · rw [hx, hy]
    refine ⟨hr, ht.hosts ht.alike.written ?_ rfl rfl rfl rfl⟩
    show t.host.stack.tail.length = s.host.stack.tail.length
    rw [List.length_tail, List.length_tail, ht.depth]
  · rw [hx, hy]
    exact ⟨rfl, ha.written, ha.body?⟩

end Agree

end IncludeOnce
