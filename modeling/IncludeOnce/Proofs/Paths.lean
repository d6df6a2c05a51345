import IncludeOnce.Search
import IncludeOnce.Text.Utf8

/-! Where canonical paths lead.

A path that is followed to its end stands at an address, and the path of that address is
the canonical one, without links and silent pieces. Following the canonical path leads
back to the address, as far as it leads anywhere (`advance_reverse`). So what is read
under the path of an identity is the file that the identity is of
(`identify_inode`). -/
namespace IncludeOnce

namespace Text

theorem pieces_of_not_mem {mark : Char} {t : Text} (h : mark ∉ t) : pieces mark t = [t] := by
  induction t with
  | nil => rfl
  | cons c rest ih =>
    have hc : c ≠ mark := fun he => h (he ▸ List.mem_cons_self)
    rw [pieces, if_neg hc, ih fun hm => h (List.mem_cons_of_mem _ hm)]

theorem pieces_append {mark : Char} {t : Text} (h : mark ∉ t) (rest : Text) :
    pieces mark (t ++ mark :: rest) = t :: pieces mark rest := by
  induction t with
  | nil => rw [List.nil_append, pieces, if_pos rfl]
  | cons c more ih =>
    have hc : c ≠ mark := fun he => h (he ▸ List.mem_cons_self)
    rw [List.cons_append, pieces, if_neg hc, ih fun hm => h (List.mem_cons_of_mem _ hm)]

/-- What was put together comes apart again. -/
theorem pieces_intercalate {mark : Char} {names : List Text} (hne : names ≠ [])
    (h : ∀ name ∈ names, mark ∉ name) : pieces mark ([mark].intercalate names) = names := by
  induction names with
  | nil => exact absurd rfl hne
  | cons name rest ih =>
    have hname := h name List.mem_cons_self
    cases rest with
    | nil => simpa using pieces_of_not_mem hname
    | cons next more =>
      rw [List.intercalate_cons_cons, List.append_assoc, List.singleton_append,
        pieces_append hname,
        ih (List.cons_ne_nil _ _) fun other ho => h other (List.mem_cons_of_mem _ ho)]

/-- There is no mark in the pieces between marks. -/
theorem not_mem_of_mem_pieces {mark : Char} {t piece : Text} (h : piece ∈ pieces mark t) :
    mark ∉ piece := by
  induction t generalizing piece with
  | nil =>
    rw [List.mem_singleton.mp h]
    exact List.not_mem_nil
  | cons c rest ih =>
    rw [pieces] at h
    split at h
    · rcases List.mem_cons.mp h with rfl | h
      · exact List.not_mem_nil
      · exact ih h
    · rename_i hc
      split at h
      · rw [List.mem_singleton.mp h]
        exact fun hm => hc (List.mem_singleton.mp hm).symm
      · rename_i first more hp
        rcases List.mem_cons.mp h with rfl | h
        · have hfirst : mark ∉ first := ih (hp ▸ List.mem_cons_self)
          exact fun hm => (List.mem_cons.mp hm).elim (fun he => hc he.symm) hfirst
        · exact ih (hp ▸ List.mem_cons_of_mem _ h)

end Text

namespace FileSystem
variable {fs : FileSystem}

/-- An address to which its own path leads: the way to it goes through directories, and
by names. -/
def Stands (fs : FileSystem) : Address → Prop
  | [] => True
  | name :: a =>
    '/' ∉ name ∧ Path.isSilent name = false ∧ name ≠ ['.', '.'] ∧
      (∀ target, fs.entry? (name :: a) ≠ some (.link target)) ∧ fs.Stands a

theorem Stands.tail {a : Address} (h : fs.Stands a) : fs.Stands a.tail := by
  cases a with
  | nil => exact h
  | cons name a => exact h.2.2.2.2

theorem start_stands {a : Address} (ha : fs.Stands a) (p : Path) :
    fs.Stands (start a p).1 ∧ ∀ piece ∈ (start a p).2, '/' ∉ piece := by
  unfold start
  split
  · exact ⟨trivial, fun piece hm => Text.not_mem_of_mem_pieces hm⟩
  · exact ⟨ha, fun piece hm => Text.not_mem_of_mem_pieces hm⟩

/-- Following pieces keeps to addresses that stand, if the jumps do. -/
theorem advance_stands {purpose : Purpose} {jump : Address → List Text → Except IoError Spot}
    (hjump : ∀ a pieces b, fs.Stands a → (∀ piece ∈ pieces, '/' ∉ piece) →
      jump a pieces = .ok (.taken b) → fs.Stands b)
    (a : Address) (pieces : List Text) (b : Address) (ha : fs.Stands a)
    (hp : ∀ piece ∈ pieces, '/' ∉ piece)
    (h : fs.advance purpose jump a pieces = .ok (.taken b)) : fs.Stands b := by
  induction pieces generalizing a with
  | nil => cases h; exact ha
  | cons segment rest ih =>
    have hrest : ∀ piece ∈ rest, '/' ∉ piece := fun piece hm => hp piece (List.mem_cons_of_mem _ hm)
    rw [advance] at h
    split at h
    · split at h
      · exact ih a ha hrest h
      · cases h
    · rename_i hsilent
      split at h
      · split at h
        · exact ih a.tail ha.tail hrest h
        · cases h
      · rename_i hup
        split at h
        · cases h
        · split at h
          · cases h
          · cases h
        · rename_i target _ _
          obtain ⟨horigin, hway⟩ := start_stands ha target
          refine hjump _ _ b horigin (fun piece hm => ?_) h
          rcases List.mem_append.mp hm with hm | hm
          · exact hway piece hm
          · exact hrest piece hm
        · rename_i entry hlink _ he
          refine ih (segment :: a)
            ⟨hp segment List.mem_cons_self, by simpa using hsilent, hup, ?_, ha⟩ hrest h
          intro target ht
          rw [he] at ht
          cases ht
          exact hlink target rfl

theorem walk_stands {purpose : Purpose} (links : Nat) (a : Address) (pieces : List Text)
    (b : Address) (ha : fs.Stands a) (hp : ∀ piece ∈ pieces, '/' ∉ piece)
    (h : fs.walk purpose links a pieces = .ok (.taken b)) : fs.Stands b := by
  induction links generalizing a pieces b with
  | zero => exact advance_stands (fun _ _ _ _ _ hj => by cases hj) a pieces b ha hp h
  | succ links ih => exact advance_stands ih a pieces b ha hp h

/-- What a path leads to stands, if relative paths begin where something stands. -/
theorem spot_stands {purpose : Purpose} {p : Path} {b : Address} (hc : fs.Stands fs.current)
    (h : fs.spot purpose p = .ok (.taken b)) : fs.Stands b := by
  unfold spot at h
  split at h
  · cases h
  · split at h
    · cases h
    · split at h
      · cases h
      · obtain ⟨horigin, hway⟩ := start_stands hc p
        exact walk_stands _ _ _ b horigin hway h

/-- Followed from the root, the names of an address that stands lead to the address and
on from there, or nowhere. -/
theorem advance_reverse {jump : Address → List Text → Except IoError Spot} {a : Address}
    (ha : fs.Stands a) (rest : List Text) :
    (∃ e, fs.advance .find jump [] (a.reverse ++ rest) = .error e) ∨
      (∃ d name, fs.advance .find jump [] (a.reverse ++ rest) = .ok (.free d name)) ∨
      fs.advance .find jump [] (a.reverse ++ rest) = fs.advance .find jump a rest := by
  induction a generalizing rest with
  | nil => exact .inr (.inr rfl)
  | cons name a ih =>
    obtain ⟨_, hsilent, hup, hlink, ha⟩ := ha
    rw [List.reverse_cons, List.append_assoc, List.singleton_append]
    rcases ih ha (name :: rest) with h | h | h
    · exact .inl h
    · exact .inr (.inl h)
    · rw [h, advance, if_neg (by simp [hsilent]), if_neg hup]
      split
      · exact .inl ⟨_, rfl⟩
      · split
        · exact .inr (.inl ⟨_, _, rfl⟩)
        · exact .inl ⟨_, rfl⟩
      · rename_i target _ he
        exact absurd he (hlink target)
      · exact .inr (.inr rfl)

/-- The pieces of a canonical path are the names of its address. -/
theorem segments_path {name : Text} {a : Address} (h : fs.Stands (name :: a)) :
    start fs.current (Address.path (name :: a)) = ([], (name :: a).reverse) := by
  have hslash : ∀ b : Address, fs.Stands b → ∀ other ∈ b, '/' ∉ other := by
    intro b hb
    induction b with
    | nil => exact nofun
    | cons first more ih =>
      intro other hm
      rcases List.mem_cons.mp hm with rfl | hm
      · exact hb.1
      · exact ih hb.2.2.2.2 other hm
  show ([], Path.segments (['/'].intercalate (name :: a).reverse)) = _
  rw [Path.segments, Text.pieces_intercalate (by simp)
    fun other hm => hslash _ h other (List.mem_reverse.mp hm)]

/-- No other address has the path of the root. -/
theorem Stands.path_ne_root {name : Text} {a : Address} (h : fs.Stands (name :: a)) :
    Address.path (name :: a) ≠ Address.path [] := by
  intro hroot
  have hnames : ([], [[]]) = (([], (name :: a).reverse) : Address × List Text) :=
    (congrArg (start fs.current) hroot).symm.trans (segments_path h)
  have hreverse : name :: a = [[]] := List.reverse_eq_iff.mp (congrArg Prod.snd hnames).symm
  have hsilent := h.2.1
  rw [(List.cons.inj hreverse).1] at hsilent
  cases hsilent

/-- Addresses that stand have paths of their own. -/
theorem Stands.path_inj {a b : Address} (ha : fs.Stands a) (hb : fs.Stands b)
    (h : a.path = b.path) : a = b := by
  cases a with
  | nil =>
    cases b with
    | nil => rfl
    | cons name b => exact absurd h.symm hb.path_ne_root
  | cons name a =>
    cases b with
    | nil => exact absurd h ha.path_ne_root
    | cons other b =>
      have hstart := (segments_path ha).symm.trans ((congrArg (start fs.current) h).trans
        (segments_path hb))
      exact List.reverse_inj.mp (congrArg Prod.snd hstart)

/-- A canonical path leads to its address, if anywhere. -/
theorem locate_path {a b : Address} (ha : fs.Stands a) (h : fs.locate a.path = .ok b) : b = a := by
  unfold locate at h
  cases hs : fs.spot .find a.path with
  | error e => rw [hs] at h; cases h
  | ok spot =>
    rw [hs] at h
    cases spot with
    | free d name => cases h
    | taken c =>
      cases h
      unfold FileSystem.spot at hs
      split at hs
      · cases hs
      · split at hs
        · cases hs
        · split at hs
          · cases hs
          · cases a with
            | nil => cases hs; rfl
            | cons name a =>
              rw [segments_path ha] at hs
              rw [← List.append_nil (name :: a).reverse] at hs
              rcases advance_reverse ha [] with ⟨e, he⟩ | ⟨d, free, hf⟩ | hadvance
              · cases he.symm.trans hs
              · cases hf.symm.trans hs
              · cases hadvance.symm.trans hs
                rfl

/-- The number of the regular file that a path opens. -/
def inodeAt (fs : FileSystem) (p : Path) : Except IoError Nat := do
  match fs.entry? (← fs.locate p) with
  | some (.file n) => .ok n
  | some (.directory _) => .error .isDirectory
  | _ => .error .notFound

theorem read_eq (fs : FileSystem) (p : Path) : fs.read p = (fs.inodeAt p).bind fs.contentOf := by
  unfold FileSystem.read inodeAt
  cases fs.locate p with
  | error e => rfl
  | ok a =>
    simp only [bind, Except.bind]
    cases fs.entry? a with
    | none => rfl
    | some entry => cases entry <;> rfl

theorem inodeAt_ok {p : Path} {n : Nat} (h : fs.inodeAt p = .ok n) :
    ∃ a, fs.locate p = .ok a ∧ fs.entry? a = some (.file n) := by
  unfold inodeAt at h
  cases hl : fs.locate p with
  | error e => rw [hl] at h; cases h
  | ok a =>
    rw [hl] at h
    refine ⟨a, rfl, ?_⟩
    simp only [bind, Except.bind] at h
    cases he : fs.entry? a with
    | none => rw [he] at h; cases h
    | some entry =>
      rw [he] at h
      cases entry with
      | directory m => cases h
      | file m => cases h; rfl
      | link target => cases h

/-- An identity is that of an address that stands, under its canonical path. -/
theorem identify_ok {p : Path} {f : Identity} (hc : fs.Stands fs.current)
    (h : fs.identify p = .ok f) :
    ∃ a n, fs.Stands a ∧ f = ⟨.inode n, a.path⟩ ∧
      (fs.entry? a = some (.directory n) ∨ fs.entry? a = some (.file n)) := by
  unfold identify at h
  cases hs : fs.spot .name p with
  | error e => rw [hs] at h; cases h
  | ok spot =>
    rw [hs] at h
    cases spot with
    | free d name => cases h
    | taken a =>
      have hidentity : fs.identityAt a = .ok f := h
      unfold identityAt at hidentity
      cases he : fs.entry? a with
      | none => rw [he] at hidentity; cases hidentity
      | some entry =>
        rw [he] at hidentity
        cases entry with
        | directory n => cases hidentity; exact ⟨a, n, spot_stands hc hs, rfl, .inl he⟩
        | file n => cases hidentity; exact ⟨a, n, spot_stands hc hs, rfl, .inr he⟩
        | link target => cases hidentity

/-- One canonical path is that of one identity. -/
theorem identify_path {p q : Path} {f g : Identity} (hc : fs.Stands fs.current)
    (hf : fs.identify p = .ok f) (hg : fs.identify q = .ok g) (h : g.path = f.path) : g = f := by
  obtain ⟨a, n, ha, rfl, hentry⟩ := identify_ok hc hf
  obtain ⟨b, m, hb, rfl, hother⟩ := identify_ok hc hg
  cases hb.path_inj ha h
  rcases hentry with he | he <;> rcases hother with ho | ho <;> cases he.symm.trans ho <;> rfl

/-- **An identity reads its own file.** What is opened under its path has its number. -/
theorem identify_inode {p : Path} {f : Identity} (hc : fs.Stands fs.current)
    (h : fs.identify p = .ok f) :
    ∃ n, f.key = .inode n ∧ ∀ m, fs.inodeAt f.path = .ok m → m = n := by
  obtain ⟨a, n, ha, rfl, hentry⟩ := identify_ok hc h
  refine ⟨n, rfl, fun m hm => ?_⟩
  obtain ⟨b, hb, hfile⟩ := inodeAt_ok hm
  rw [locate_path ha hb] at hfile
  rcases hentry with he | he
  · rw [he] at hfile; cases hfile
  · rw [he] at hfile; cases hfile; rfl

/-! ### Contents do not matter for where paths lead -/

section
variable (fs : FileSystem) (contents : List (Nat × List UInt8))

theorem advance_contents (purpose : Purpose)
    (jump : Address → List Text → Except IoError Spot) :
    advance { fs with contents } purpose jump = fs.advance purpose jump := by
  funext a pieces
  induction pieces generalizing a with
  | nil => rfl
  | cons segment rest ih =>
    rw [advance, advance]
    simp only [ih]
    rfl

theorem walk_contents (purpose : Purpose) (links : Nat) :
    walk { fs with contents } purpose links = fs.walk purpose links := by
  induction links with
  | zero => exact advance_contents fs contents purpose _
  | succ links ih => rw [walk, walk, ih, advance_contents]

theorem spot_contents (purpose : Purpose) (p : Path) :
    spot { fs with contents } purpose p = fs.spot purpose p := by
  simp only [spot, walk_contents]

theorem locate_contents (p : Path) : locate { fs with contents } p = fs.locate p := by
  simp only [locate, spot_contents]

theorem inodeAt_contents (p : Path) : inodeAt { fs with contents } p = fs.inodeAt p := by
  simp only [inodeAt, locate_contents]
  rfl

theorem identify_contents (p : Path) : identify { fs with contents } p = fs.identify p := by
  simp only [identify, spot_contents]
  rfl

theorem resolve_contents (search : HeaderSearch) :
    search.resolve { fs with contents } = search.resolve fs := by
  have hfile : isFile { fs with contents } = fs.isFile := by
    funext p
    simp only [isFile, locate_contents]
    rfl
  funext header beside
  simp only [HeaderSearch.resolve, HeaderSearch.find?, HeaderSearch.findIn?, hfile,
    identify_contents]

end

/-- The text of the file with a number. -/
def textOf (fs : FileSystem) (n : Nat) : Text :=
  Utf8.decode ((fs.contents.lookup n).getD [])

/-- A path that is read opens a file that does not refuse, and its text is read. -/
theorem read_eq_ok_iff {p : Path} {octets : List UInt8} : fs.read p = .ok octets ↔
    ∃ n, fs.inodeAt p = .ok n ∧ fs.refusals.lookup n = none ∧
      octets = (fs.contents.lookup n).getD [] := by
  rw [read_eq]
  cases hn : fs.inodeAt p with
  | error e => simp [Except.bind]
  | ok n =>
    simp only [Except.bind, contentOf, Except.ok.injEq, exists_eq_left']
    cases fs.refusals.lookup n with
    | some e => simp
    | none => simp [eq_comm]

/-- Reading fails alike on disks with the same paths and the same refusals. -/
theorem read_error_of_refusals {gs : FileSystem} {p : Path} {e : IoError}
    (hinode : gs.inodeAt p = fs.inodeAt p) (hrefusals : gs.refusals = fs.refusals)
    (h : fs.read p = .error e) : gs.read p = .error e := by
  rw [read_eq] at h ⊢
  rw [hinode]
  cases hn : fs.inodeAt p with
  | error other =>
    rw [hn] at h
    cases h
    rfl
  | ok n =>
    rw [hn] at h
    simp only [Except.bind, contentOf, hrefusals] at h ⊢
    cases hlookup : fs.refusals.lookup n with
    | some other =>
      rw [hlookup] at h
      cases h
      rfl
    | none =>
      rw [hlookup] at h
      cases h

theorem read_eq_error_of_refusal {p : Path} {n : Nat} {e : IoError}
    (hn : fs.inodeAt p = .ok n) (hrefuses : fs.refusals.lookup n = some e) :
    fs.read p = .error e := by
  rw [read_eq, hn]
  simp [Except.bind, contentOf, hrefuses]

end FileSystem

/-- Under the path of an identity, if anything, its own file is read. -/
def Identity.IsOn (f : Identity) (fs : FileSystem) : Prop :=
  ∃ n, f.key = .inode n ∧ ∀ m, fs.inodeAt f.path = .ok m → m = n

namespace HeaderSearch
variable {fs : FileSystem} {search : HeaderSearch} {header : HeaderName} {beside : Path}
  {f : Identity}

/-- What a header means is what a path leads to. -/
theorem resolve_ok (hf : search.resolve fs header beside = .ok f) :
    ∃ path, fs.identify path = .ok f := by
  unfold HeaderSearch.resolve at hf
  split at hf
  · cases hf
  · rename_i path _
    cases hi : fs.identify path with
    | error e => rw [hi] at hf; cases hf
    | ok g =>
      rw [hi] at hf
      cases hf
      exact ⟨path, hi⟩

/-- What a header means is on the disk. -/
theorem resolve_isOn (hc : fs.Stands fs.current)
    (hf : search.resolve fs header beside = .ok f) : f.IsOn fs := by
  obtain ⟨path, hpath⟩ := resolve_ok hf
  exact FileSystem.identify_inode hc hpath

end HeaderSearch

end IncludeOnce
