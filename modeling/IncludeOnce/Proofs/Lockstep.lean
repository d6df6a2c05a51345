import IncludeOnce.Proofs.Twins

/-! Twins line by line.

As long as no line speaks of a guard, a line does the same to a run and to its twin:
conditions have the same value, commands change the same macros, and the same text is put
out. Only requests are left open here (`Answers`). `scanLines_agree` is about lines that
stand in both, `Group.run_agree` about a group that stands further down in the one than in
the other. -/
namespace IncludeOnce
open Scan

/-- Requests come out the same. -/
def Answers (guards : Guards) (fs gs : FileSystem) (search : HeaderSearch)
    (reader reader' : Reader) : Prop :=
  ∀ file a b kind operand run twin, Twins guards run twin →
    Agree guards (fun _ _ => True) (request fs search reader file a kind operand run)
      (request gs search reader' file b kind operand twin)

/-- The guard of a group is a name that it speaks of. -/
theorem Group.guard?_unspoken {guards : Guards} (g : Group) (hn : guards.Unspoken g.lines)
    {name : Name} (h : g.guard? = some name) : ¬ guards.IsGuard name := by
  cases g with
  | done => cases h
  | plain number line rest =>
    rw [Group.guard?] at h
    split at h
    · exact Group.guard?_unspoken rest (List.forall_mem_cons.mp hn).2 h
    · cases h
  | conditional number opening body tail rest =>
    obtain ⟨test, named⟩ := opening
    have hopening := (List.forall_mem_cons.mp hn).1
    cases test with
    | condition operand => cases h
    | ifDefined operand => cases h
    | ifUndefined operand =>
      cases tail with
      | elseIf number operand body more => cases h
      | otherwise number body closing => cases h
      | closing number =>
        rw [Group.guard?] at h
        split at h
        · exact hopening name (by rw [Line.names, h]; exact List.mem_singleton_self _)
        · cases h

section
variable {guards : Guards} {run twin : Run Scan}

/-! ### Tests -/

theorem condition_eq (h : Twins guards run twin) {operand : Text}
    (hn : ∀ name ∈ Condition.namesIn operand, ¬ guards.IsGuard name) :
    condition twin.host.macros operand = condition run.host.macros operand := by
  rw [condition, condition,
    Condition.value_congr fun name hname => h.alike.body? name (hn name hname)]

theorem test_eq (h : Twins guards run twin) {t : Test}
    (hn : ∀ name ∈ (Line.opening t).names, ¬ guards.IsGuard name) (skipping : Bool) :
    Scan.test twin.host.macros skipping t = Scan.test run.host.macros skipping t := by
  have hdefined : ∀ operand, (∀ name ∈ (Identifier.first? operand).toList, ¬ guards.IsGuard name) →
      (identifier operand).map twin.host.macros.isDefined =
        (identifier operand).map run.host.macros.isDefined := by
    intro operand hn
    unfold identifier
    cases hi : Identifier.first? operand with
    | none => rfl
    | some name =>
      have hsame := h.alike.body? name (hn name (by rw [hi]; exact List.mem_singleton_self _))
      simp only [Except.map, Macros.isDefined, hsame]
  cases t with
  | condition operand => rw [Scan.test, Scan.test, condition_eq h hn]
  | ifDefined operand => exact hdefined operand hn
  | ifUndefined operand =>
    have hnot : ∀ m : Macros, Scan.test m skipping (.ifUndefined operand) =
        ((identifier operand).map m.isDefined).map (!·) := fun m => by
      rw [Scan.test]
      cases identifier operand <;> rfl
    rw [hnot, hnot, hdefined operand hn]

theorem ofExcept_agree {α : Type} (h : Twins guards run twin) {x y : Except ScanError α}
    (he : y = x) : Agree guards (· = ·) (ofExcept x run) (ofExcept y twin) := by
  rw [he]
  cases x with
  | error e => exact .throw h.alike
  | ok a => exact .pure rfl h

/-! ### Commands -/

theorem define_agree (h : Twins guards run twin) (a b : Location) {operand : Text}
    (hn : ∀ name ∈ (Identifier.first? operand).toList, ¬ guards.IsGuard name) :
    Agree guards (fun _ _ => True) (define a operand run) (define b operand twin) := by
  rw [define_apply, define_apply]
  unfold Identifier.first? at hn
  cases hs : Identifier.split operand with
  | mk name rest =>
    rw [hs] at hn
    cases name with
    | nil => exact ⟨rfl, h.alike⟩
    | cons c more =>
      obtain ⟨d, hd⟩ := redefining_eq run a (c :: more) rest.trim
      obtain ⟨e, he⟩ := redefining_eq twin b (c :: more) rest.trim
      simp only [hd, he]
      refine ⟨trivial, h.macros (hn _ (List.mem_singleton_self _)) rfl rfl rfl rfl rfl rfl ?_
        (fun other ho => ?_) fun other ho => ?_⟩
      · exact ((Macros.body?_define _ _ _ _).trans (if_pos rfl)).trans
          ((Macros.body?_define _ _ _ _).trans (if_pos rfl)).symm
      · exact (Macros.body?_define _ _ _ _).trans (if_neg ho)
      · exact (Macros.body?_define _ _ _ _).trans (if_neg ho)

theorem Twins.undefine (h : Twins guards run twin) {name : Name} (hn : ¬ guards.IsGuard name) :
    Twins guards
      ((run.note (.undefined name)).mapHost fun s => { s with macros := s.macros.undefine name })
      ((twin.note (.undefined name)).mapHost fun s =>
        { s with macros := s.macros.undefine name }) := by
  refine h.macros hn rfl rfl rfl rfl rfl rfl ?_ (fun other ho => ?_) fun other ho => ?_
  · exact ((Macros.body?_undefine _ _ _).trans (if_pos rfl)).trans
      ((Macros.body?_undefine _ _ _).trans (if_pos rfl)).symm
  · exact (Macros.body?_undefine _ _ _).trans (if_neg ho)
  · exact (Macros.body?_undefine _ _ _).trans (if_neg ho)

variable {fs gs : FileSystem} {search : HeaderSearch} {reader reader' : Reader} {file : Identity}
  (hans : Answers guards fs gs search reader reader')
include hans

theorem command_agree (h : Twins guards run twin) (a b : Location) {c : Command}
    (hn : ∀ name ∈ (Line.command c).names, ¬ guards.IsGuard name) :
    Agree guards (· = ·) (command fs search reader file a c run)
      (command gs search reader' file b c twin) := by
  cases c with
  | request kind operand =>
    exact (hans file a b kind operand run twin h).bind fun _ _ _ _ _ ht => .pure rfl ht
  | define operand => exact (define_agree h a b hn).bind fun _ _ _ _ _ ht => .pure rfl ht
  | undefine operand =>
    cases hi : Identifier.first? operand with
    | none =>
      simp only [command, identifier, hi]
      exact .throw h.alike
    | some name =>
      simp only [command, identifier, hi]
      exact ⟨rfl, h.undefine (hn name (by rw [Line.names, hi]; exact List.mem_singleton_self _))⟩
  | pragma operand =>
    simp only [command]
    split
    · exact ⟨rfl, Matched.markOnce h file⟩
    · exact ⟨rfl, h⟩
  | error message => exact .throw h.alike
  | warning message => exact ⟨rfl, h.hosts h.alike.written h.depth rfl rfl rfl rfl⟩

/-! ### Lines -/

theorem Plain.run_agree (h : Twins guards run twin) (a b : Location) {p : Plain}
    (hn : ∀ name ∈ p.line.names, ¬ guards.IsGuard name) :
    Agree guards (· = ·) (p.run fs search reader file a run)
      (p.run gs search reader' file b twin) := by
  cases p with
  | text content =>
    refine ⟨rfl, h.hosts ?_ h.depth rfl rfl rfl rfl⟩
    exact congrArg (·.push content.trimEnd) h.alike.written
  | marker => exact .pure rfl h
  | unknown name => exact .throw h.alike
  | command c => exact command_agree hans h a b hn

theorem step_agree (h : Twins guards run twin) (location : Location) (st : FileState) {line : Line}
    (hn : ∀ name ∈ line.names, ¬ guards.IsGuard name) :
    Agree guards (· = ·) (step fs search reader file location st line run)
      (step gs search reader' file location st line twin) := by
  have hplain : ∀ p : Plain, (∀ name ∈ p.line.names, ¬ guards.IsGuard name) →
      Agree guards (· = ·) (step fs search reader file location st p.line run)
        (step gs search reader' file location st p.line twin) := by
    intro p hn
    cases hs : st.skipping with
    | true =>
      rw [step_dead fs search reader file hs _ p 0, step_dead gs search reader' file hs _ p 0]
      exact .pure rfl h
    | false =>
      rw [step_live fs search reader file hs _ p 0, step_live gs search reader' file hs _ p 0]
      exact (Plain.run_agree hans h _ _ hn).bind fun a b _ _ hr ht => .pure (by rw [hr]) ht
  cases line with
  | text content => exact hplain (.text content) hn
  | marker => exact hplain .marker hn
  | unknown name => exact hplain (.unknown name) hn
  | command c => exact hplain (.command c) hn
  | opening t =>
    have htest := ofExcept_agree h (test_eq h hn st.skipping)
    exact htest.bind fun a b _ _ hr ht => .pure (by rw [hr]) ht
  | elseIf operand =>
    refine ofExcept_agree h ?_
    rw [condition_eq h hn]
  | otherwise => exact ofExcept_agree h rfl
  | closing => exact ofExcept_agree h rfl

/-- The same lines do the same. -/
theorem scanLines_agree {source : SourceId} {lines : List (Numbered Line)}
    (h : Twins guards run twin) (st : FileState) (hn : guards.Unspoken lines) :
    Agree guards (· = ·) (scanLines fs search reader file source st lines run)
      (scanLines gs search reader' file source st lines twin) := by
  induction lines generalizing st run twin with
  | nil => exact .pure rfl h
  | cons line rest ih =>
    obtain ⟨hline, hrest⟩ := List.forall_mem_cons.mp hn
    refine ((step_agree hans h _ st hline).onFailure _ _).bind fun a b _ _ hr ht => ?_
    rw [← hr]
    exact ih ht a hrest

/-- A file that stands in both does the same, and has no guard of the others. -/
theorem scanFile_agree {source : SourceId} {loaded twinned : SourceFile}
    (h : Twins guards run twin) (hf : run.host.sources.file? source = some loaded)
    (hf' : twin.host.sources.file? source = some twinned)
    (ht : TwinText guards loaded.text twinned.text none) :
    Agree guards (fun r u => u = r ∧ ∀ name, r.guardName = some name → ¬ guards.IsGuard name)
      (scanFile fs search reader file source run)
      (scanFile gs search reader' file source twin) := by
  obtain ⟨htext, hn⟩ := ht
  have hsame : Agree guards (· = ·) (scanFile fs search reader file source run)
      (scanFile gs search reader' file source twin) := by
    rw [scanFile_apply fs search reader file source hf,
      scanFile_apply gs search reader' file source hf', htext]
    refine (scanLines_agree hans h {} hn).bind fun st _ _ _ hr ht => ?_
    rw [← hr, FileState.finish]
    cases st.sections with
    | nil => exact .pure rfl ht
    | cons s outer => exact ⟨rfl, ht.alike.fail _ _⟩
  obtain ⟨r, u, s, t, hx, hy, hr, ht⟩ | ⟨e, s, t, hx, hy, ha⟩ := hsame.either
  · obtain ⟨g, hg, _, hguard⟩ := scanFile_ok fs search reader file source hf hx
    rw [hg] at hn
    rw [hx, hy]
    exact ⟨⟨hr.symm, fun name hname => g.guard?_unspoken hn (hguard ▸ hname)⟩, ht⟩
  · rw [hx, hy]
    exact ⟨rfl, ha⟩

end

/-! ### Groups -/

section
variable {guards : Guards} {fs gs : FileSystem} {search : HeaderSearch} {reader reader' : Reader}
  {file : Identity}

mutual
/-- A group does the same, wherever it stands. -/
theorem Group.run_agree (hans : Answers guards fs gs search reader reader') (g : Group)
    {source : SourceId} (m n : Nat) {run twin : Run Scan} (h : Twins guards run twin)
    (hn : guards.Unspoken g.lines) :
    Agree guards (fun _ _ => True) ((g.later m).run fs search reader file source run)
      ((g.later n).run gs search reader' file source twin) := by
  cases g with
  | done => exact .pure trivial h
  | plain number line rest =>
    obtain ⟨hline, hrest⟩ := List.forall_mem_cons.mp hn
    refine ((Plain.run_agree hans h _ _ hline).onFailure _ _).bind fun _ _ _ _ _ ht => ?_
    exact (Group.run_agree hans rest m n ht hrest).bind fun _ _ _ _ _ ht => .pure trivial ht
  | conditional number opening body tail rest =>
    obtain ⟨hopening, hn⟩ := List.forall_mem_cons.mp hn
    obtain ⟨hbody, hmore⟩ := List.forall_mem_append.mp hn
    obtain ⟨htail, hrest⟩ := List.forall_mem_append.mp hmore
    have hholds := ofExcept_agree h (test_eq h hopening false)
    refine (hholds.onFailure _ _).bind fun a b s t hr ht => ?_
    rw [← hr]
    have hbranch : Agree guards (fun _ _ => True)
        ((if a then (body.later m).run fs search reader file source
          else (tail.later m).run fs search reader file source) s)
        ((if a then (body.later n).run gs search reader' file source
          else (tail.later n).run gs search reader' file source) t) := by
      cases a with
      | true => exact Group.run_agree hans body m n ht hbody
      | false => exact Tail.run_agree hans tail m n ht htail
    refine hbranch.bind fun _ _ _ _ _ ht => ?_
    exact (Group.run_agree hans rest m n ht hrest).bind fun _ _ _ _ _ ht => .pure trivial ht

theorem Tail.run_agree (hans : Answers guards fs gs search reader reader') (t : Tail)
    {source : SourceId} (m n : Nat) {run twin : Run Scan} (h : Twins guards run twin)
    (hn : guards.Unspoken t.lines) :
    Agree guards (fun _ _ => True) ((t.later m).run fs search reader file source run)
      ((t.later n).run gs search reader' file source twin) := by
  cases t with
  | closing number => exact .pure trivial h
  | elseIf number operand body more =>
    obtain ⟨hoperand, hn⟩ := List.forall_mem_cons.mp hn
    obtain ⟨hbody, hmore⟩ := List.forall_mem_append.mp hn
    have hholds := ofExcept_agree h (condition_eq h hoperand)
    refine (hholds.onFailure _ _).bind fun a b _ _ hr ht => ?_
    rw [← hr]
    cases a with
    | true => exact Group.run_agree hans body m n ht hbody
    | false => exact Tail.run_agree hans more m n ht hmore
  | otherwise number body closing =>
    obtain ⟨hbody, _⟩ := List.forall_mem_append.mp (List.forall_mem_cons.mp hn).2
    exact Group.run_agree hans body m n h hbody
end

end

end IncludeOnce
