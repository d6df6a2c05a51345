import IncludeOnce.Proofs.Failure
import Mathlib.Data.List.SplitBy

/-! Physical lines and the logical lines they make.

As they are written, physical lines are cut behind each one that does not end in a backslash,
and the lines of a group are put together without the backslashes at their ends (`asWritten`).
Splicing asks the text joined so far whether it goes on. An empty line takes the place of one
backslash, and where two of them ended the text before it, the other is taken for its own: the
empty line is joined to the next one although no backslash ends it (`goesOn`).

`splice_asWritten_iff` says when this shows: just if one of the logical lines as they are
written, and not the last, ends in a backslash. Either way each physical line is part of one
logical line, in order. -/
namespace IncludeOnce.Line

/-! ### Lines as they are written -/

/-- The text of lines that go on, each but the last without its backslash. -/
def joined : List Text → Text
  | [] => []
  | [line] => line
  | line :: next :: rest => line.dropLast ++ joined (next :: rest)

/-- The logical lines that groups of physical lines make, of which the first is line
`first`. -/
def numbered (text : List Text → Text) (first : Nat) : List (List Text) → List (Numbered Text)
  | [] => []
  | group :: rest => ⟨first, text group⟩ :: numbered text (first + group.length) rest

/-- Physical lines, cut behind each that does not end in a backslash. -/
def cut (lines : List Text) : List (List Text) := lines.splitBy fun line _ => continues line

/-- The logical lines as they are written. -/
def asWritten (lines : List Text) : List (Numbered Text) := numbered joined 1 (cut lines)

theorem ne_nil_of_continues {line : Text} (h : continues line = true) : line ≠ [] := by
  rintro rfl
  cases h

/-- Only an empty text leaves it to the text before it whether a line goes on. -/
theorem continues_append (front : Text) {line : Text} (h : line ≠ []) :
    continues (front ++ line) = continues line := by
  rw [continues, continues, List.getLast?_append, List.getLast?_eq_some_getLast h, Option.some_or]

/-- Lines that end in backslashes are joined with the line behind them, whatever stands in
front of them. -/
theorem spliceFrom_joined (first next : Nat) (front line : Text) (rest back : List Text)
    (h : (line :: rest).IsChain fun line _ => continues line = true) :
    spliceFrom first (front ++ line) next (rest ++ back) =
      spliceFrom first (front ++ joined (line :: rest)) (next + rest.length) back := by
  induction rest generalizing front line next with
  | nil => rfl
  | cons second rest ih =>
    obtain ⟨hline, hrest⟩ := List.isChain_cons_cons.mp h
    have hne := ne_nil_of_continues hline
    have hgoes : continues (front ++ line) = true := by rw [continues_append front hne, hline]
    rw [List.cons_append, spliceFrom, if_pos hgoes, List.dropLast_append_of_ne_nil hne,
      ih (next + 1) (front ++ line.dropLast) second hrest, joined, List.length_cons,
      List.append_assoc, Nat.add_right_comm, Nat.add_assoc]

/-- Splicing makes the lines as they are written just if it may end each group where it is
cut. -/
theorem spliceFrom_flatten_iff (first next : Nat) (hnext : first < next) (group : List Text)
    (groups : List (List Text)) (hne : [] ∉ groups)
    (hchain : ∀ g ∈ groups, g.IsChain fun line _ => continues line = true) :
    spliceFrom first (joined group) next groups.flatten =
        ⟨first, joined group⟩ :: numbered joined next groups ↔
      ∀ l ∈ (⟨first, joined group⟩ :: numbered joined next groups : List _).dropLast,
        continues l.content = false := by
  induction groups generalizing first next group with
  | nil =>
    refine iff_of_true rfl ?_
    intro l hl
    cases hl
  | cons g groups ih =>
    cases g with
    | nil => exact absurd List.mem_cons_self hne
    | cons line rest =>
      have hlater := ih next (next + (line :: rest).length) (by simp) (line :: rest)
        (fun h => hne (List.mem_cons_of_mem _ h)) fun g hg => hchain g (List.mem_cons_of_mem _ hg)
      have hsplice : spliceFrom next line (next + 1) (rest ++ groups.flatten) =
          spliceFrom next (joined (line :: rest)) (next + (line :: rest).length)
            groups.flatten := by
        have hjoined := spliceFrom_joined next (next + 1) [] line rest groups.flatten
          (hchain _ List.mem_cons_self)
        rw [List.nil_append, List.nil_append] at hjoined
        rw [hjoined, List.length_cons, Nat.add_right_comm, Nat.add_assoc]
      rw [List.flatten_cons, List.cons_append, numbered, List.dropLast_cons_of_ne_nil (by simp),
        List.forall_mem_cons, ← hlater, ← hsplice, spliceFrom]
      cases hgoes : continues (joined group) with
      | false =>
        rw [if_neg (by decide), List.cons.injEq]
        exact and_congr_left' (iff_of_true rfl rfl)
      | true =>
        -- the number of the next group has been passed over
        rw [if_pos rfl]
        refine iff_of_false ?_ ?_
        · intro heq
          have hmem : ⟨next, joined (line :: rest)⟩ ∈ spliceFrom first
              ((joined group).dropLast ++ line) (next + 1) (rest ++ groups.flatten) := by
            rw [heq]
            exact List.mem_cons_of_mem _ List.mem_cons_self
          rcases spliceFrom_line hmem with h | ⟨h, _⟩
          · exact absurd h (Nat.ne_of_gt hnext)
          · exact absurd h (Nat.not_succ_le_self next)
        · rintro ⟨h, _⟩
          cases h

theorem splice_eq_asWritten_iff (lines : List Text) :
    splice lines = asWritten lines ↔
      ∀ l ∈ (asWritten lines).dropLast, continues l.content = false := by
  have hflatten : (cut lines).flatten = lines := List.flatten_splitBy _ lines
  have hne : [] ∉ cut lines := List.nil_notMem_splitBy _ lines
  have hchain : ∀ g ∈ cut lines, g.IsChain fun line _ => continues line = true :=
    fun g hg => List.isChain_of_mem_splitBy hg
  rw [asWritten]
  generalize cut lines = groups at hflatten hne hchain
  subst hflatten
  cases groups with
  | nil =>
    refine iff_of_true rfl ?_
    intro l hl
    cases hl
  | cons g groups =>
    cases g with
    | nil => exact absurd List.mem_cons_self hne
    | cons line rest =>
      have hiff := spliceFrom_flatten_iff 1 (1 + (line :: rest).length) (by simp) (line :: rest)
        groups (fun h => hne (List.mem_cons_of_mem _ h))
        fun g hg => hchain g (List.mem_cons_of_mem _ hg)
      have hjoined := spliceFrom_joined 1 2 [] line rest groups.flatten
        (hchain _ List.mem_cons_self)
      rw [List.nil_append, List.nil_append] at hjoined
      rw [List.flatten_cons, List.cons_append, splice, hjoined, numbered, ← hiff,
        List.length_cons, ← Nat.add_assoc, Nat.add_right_comm]

/-! ### Lines as they are spliced -/

/-- The text of lines, each put in place of the last character before it. -/
def gathered : List Text → Text
  | [] => []
  | line :: rest => rest.foldl (fun text line => text.dropLast ++ line) line

/-- Whether a line behind these is joined to the next one: it ends in a backslash, or it is
empty and the text before it ends in two. -/
def goesOn (front : List Text) (line : Text) : Bool :=
  continues line || (line.isEmpty && continues (gathered front).dropLast)

theorem gathered_concat {front : List Text} (h : front ≠ []) (line : Text) :
    gathered (front ++ [line]) = (gathered front).dropLast ++ line := by
  cases front with
  | nil => exact absurd rfl h
  | cons first rest => exact List.foldl_append

/-- Splicing goes on where the text joined so far ends in a backslash. -/
theorem continues_gathered (front : List Text) (line : Text) :
    continues (gathered (front ++ [line])) = goesOn front line := by
  cases front with
  | nil =>
    have hnone : continues (gathered []).dropLast = false := rfl
    rw [goesOn, hnone, Bool.and_false, Bool.or_false]
    rfl
  | cons first rest =>
    rw [gathered_concat (List.cons_ne_nil _ _), goesOn]
    cases line with
    | nil =>
      rw [List.append_nil]
      rfl
    | cons c more => rw [continues_append _ (List.cons_ne_nil _ _), List.isEmpty_cons,
        Bool.false_and, Bool.or_false]

/-- Groups of lines in which each line but the last goes on, and the last one does not, unless
there are no more lines. -/
structure Joins (groups : List (List Text)) : Prop where
  nonempty : [] ∉ groups
  inside : ∀ group ∈ groups, ∀ front line back, group = front ++ line :: back → back ≠ [] →
    goesOn front line = true
  ends : ∀ group ∈ groups.dropLast, ∀ front line, group = front ++ [line] →
    goesOn front line = false

/-- A group in front of others, which it does not go on to. -/
theorem Joins.cons {front : List Text} {last : Text} {group : List Text}
    {groups : List (List Text)} (h : Joins (group :: groups))
    (hinside : ∀ a line b, front ++ [last] = a ++ line :: b → b ≠ [] → goesOn a line = true)
    (hends : goesOn front last = false) : Joins ((front ++ [last]) :: group :: groups) where
  nonempty := by
    rw [List.mem_cons, not_or]
    exact ⟨(List.concat_ne_nil _ _).symm, h.nonempty⟩
  inside := by
    intro g hg
    rcases List.mem_cons.mp hg with rfl | hg
    · exact hinside
    · exact h.inside g hg
  ends := by
    intro g hg
    rw [List.dropLast_cons_of_ne_nil (List.cons_ne_nil _ _)] at hg
    rcases List.mem_cons.mp hg with rfl | hg
    · intro a line hsplit
      obtain ⟨rfl, hline⟩ := List.append_inj' hsplit rfl
      cases hline
      exact hends
    · exact h.ends g hg

/-- A line by itself is not joined to another. -/
theorem goesOn_of_single (line : Text) (a : List Text) (l : Text) (b : List Text)
    (h : [] ++ [line] = a ++ l :: b) (hb : b ≠ []) : goesOn a l = true := by
  have hlength := congrArg List.length h
  have := List.length_pos_iff.mpr hb
  simp only [List.nil_append, List.length_append, List.length_cons, List.length_nil] at hlength
  omega

/-- The groups that splicing makes. The lines `front` and `last` have been joined so far. -/
theorem spliceFrom_groups (first : Nat) (front : List Text) (last : Text) (rest : List Text)
    (hinside : ∀ a line b, front ++ [last] = a ++ line :: b → b ≠ [] → goesOn a line = true) :
    ∃ group groups, (group :: groups).flatten = front ++ last :: rest ∧
      Joins (group :: groups) ∧
      spliceFrom first (gathered (front ++ [last])) (first + (front ++ [last]).length) rest =
        numbered gathered first (group :: groups) := by
  induction rest generalizing first front last with
  | nil =>
    refine ⟨front ++ [last], [], by simp, ⟨?_, ?_, ?_⟩, rfl⟩
    · rw [List.mem_singleton]
      exact (List.concat_ne_nil _ _).symm
    · intro g hg
      rw [List.mem_singleton.mp hg]
      exact hinside
    · intro g hg
      cases hg
  | cons line rest ih =>
    rw [spliceFrom, continues_gathered]
    cases hgoes : goesOn front last with
    | true =>
      have hlonger : ∀ a l b, (front ++ [last]) ++ [line] = a ++ l :: b → b ≠ [] →
          goesOn a l = true := by
        intro a l b hsplit hb
        obtain ⟨b, x, rfl⟩ := (List.eq_nil_or_concat' b).resolve_left hb
        rw [← List.cons_append, ← List.append_assoc] at hsplit
        obtain ⟨hsplit, _⟩ := List.append_inj' hsplit rfl
        by_cases hnil : b = []
        · subst hnil
          obtain ⟨rfl, hl⟩ := List.append_inj' hsplit rfl
          cases hl
          exact hgoes
        · exact hinside a l b hsplit hnil
      obtain ⟨group, groups, hflatten, hjoins, hsplice⟩ := ih first (front ++ [last]) line hlonger
      refine ⟨group, groups, by rw [hflatten, List.append_assoc, List.singleton_append], hjoins, ?_⟩
      rw [if_pos rfl, ← hsplice, gathered_concat (List.concat_ne_nil _ _)]
      congr 1
      simp only [List.length_append, List.length_cons, List.length_nil]
      omega
    | false =>
      obtain ⟨group, groups, hflatten, hjoins, hsplice⟩ :=
        ih (first + (front ++ [last]).length) [] line (goesOn_of_single line)
      refine ⟨front ++ [last], group :: groups, ?_, hjoins.cons hinside hgoes, ?_⟩
      · rw [List.flatten_cons, hflatten, List.nil_append, List.append_assoc,
          List.singleton_append]
      · rw [if_neg (by decide), numbered, ← hsplice]
        rfl

/-- **Splicing groups lines as they are written, unless it meets a backslash that is left.**
The logical lines are those as they are written just if none of these but the last ends in a
backslash. In any case they are made of all physical lines, in order, where a line is joined to
the next one just if it ends in a backslash, or is empty behind two of them. -/
theorem splice_asWritten_iff (t : Text) :
    (splice t.lines = asWritten t.lines ↔
      ∀ l ∈ (asWritten t.lines).dropLast, continues l.content = false) ∧
    ∃ groups, groups.flatten = t.lines ∧ Joins groups ∧
      splice t.lines = numbered gathered 1 groups := by
  refine ⟨splice_eq_asWritten_iff t.lines, ?_⟩
  cases t.lines with
  | nil =>
    refine ⟨[], rfl, ⟨List.not_mem_nil, ?_, ?_⟩, rfl⟩
    · intro g hg
      cases hg
    · intro g hg
      cases hg
  | cons line rest =>
    obtain ⟨group, groups, hflatten, hjoins, hsplice⟩ :=
      spliceFrom_groups 1 [] line rest (goesOn_of_single line)
    exact ⟨group :: groups, hflatten, hjoins, hsplice⟩

/-- An empty line that no backslash ends is joined to the line behind it. -/
theorem splice_past_empty_line :
    asWritten (Text.lines "a\\\\\n\nb\n".toList) = [⟨1, "a\\".toList⟩, ⟨3, "b".toList⟩] ∧
      splice (Text.lines "a\\\\\n\nb\n".toList) = [⟨1, "ab".toList⟩] ∧
      splice (Text.lines "a\\\\\n\nb\n".toList) ≠
        asWritten (Text.lines "a\\\\\n\nb\n".toList) := by
  decide

end IncludeOnce.Line
