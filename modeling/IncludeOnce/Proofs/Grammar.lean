import IncludeOnce.Proofs.Wrapping
import Mathlib.Data.List.DropRight

/-! What conditions are.

`Condition.Spelling` is the grammar of conditions: which texts spell which condition, by nesting
and with white space around every part. The reader does not follow it. It cuts off one
character at each end of a text and looks for no parenthesis that belongs to another. Still it
reads all that is spelt, as what it is spelt for, and nothing else (`Condition.read_eq_ok_iff`): a
text like `(A) (B)`, which begins and ends with parentheses of two pairs, is left with a piece
that nothing spells.

`Condition.HasValue` says what a condition means where certain macros are defined, and
`condition_by_grammar` puts the two together. -/
namespace IncludeOnce

/-! ### White space around a text -/

namespace Text

theorem allBlank_iff {t : Text} : t.allBlank = true ↔ ∀ c ∈ t, isBlank c = true :=
  List.all_eq_true

/-- The text is `inner` with white space around it. -/
def Padded (t inner : Text) : Prop :=
  ∃ left right : Text, left.allBlank = true ∧ right.allBlank = true ∧ t = left ++ (inner ++ right)

theorem Padded.refl (t : Text) : Padded t t := ⟨[], [], rfl, rfl, by simp⟩

theorem trimEnd_append_blank {right : Text} (h : right.allBlank = true) (t : Text) :
    trimEnd (t ++ right) = trimEnd t := by
  have hall : ∀ c ∈ right.reverse, isBlank c = true := fun c hc =>
    allBlank_iff.mp h c (List.mem_reverse.mp hc)
  rw [trimEnd, trimEnd, dropEndWhile, List.reverse_append, List.dropWhile_append_of_pos hall]
  rfl

theorem trim_append_blank {right : Text} (h : right.allBlank = true) (t : Text) :
    trim (t ++ right) = trim t := by
  rw [trim, trim, trimStart, List.dropWhile_append]
  split
  · rename_i hempty
    rw [trimStart, List.isEmpty_iff.mp hempty, List.dropWhile_eq_nil_iff.mpr (allBlank_iff.mp h)]
  · exact trimEnd_append_blank h _

theorem Padded.trim_eq {t inner : Text} (h : Padded t inner) : t.trim = inner.trim := by
  obtain ⟨left, right, hleft, hright, rfl⟩ := h
  rw [trim, trimStart, List.dropWhile_append_of_pos (allBlank_iff.mp hleft)]
  exact trim_append_blank hright inner

/-- Only white space is trimmed. -/
theorem exists_trimEnd_append (t : Text) :
    ∃ right : Text, right.allBlank = true ∧ t = t.trimEnd ++ right :=
  ⟨t.rtakeWhile isBlank, allBlank_iff.mpr fun _ hc => List.mem_rtakeWhile_imp hc,
    List.rdropWhile_append_rtakeWhile.symm⟩

theorem padded_trim (t : Text) : Padded t t.trim := by
  obtain ⟨right, hright, hend⟩ := exists_trimEnd_append t.trimStart
  refine ⟨t.takeWhile isBlank, right, ?_, hright, ?_⟩
  · exact allBlank_iff.mpr fun c hc => List.mem_takeWhile_imp hc
  · rw [trim, ← hend]
    exact List.takeWhile_append_dropWhile.symm

theorem trim_trim (t : Text) : t.trim.trim = t.trim := (padded_trim t).trim_eq.symm

theorem trim_trimEnd (t : Text) : t.trimEnd.trim = t.trim := by
  obtain ⟨right, hright, hend⟩ := exists_trimEnd_append t
  rw [← trim_append_blank hright t.trimEnd, ← hend]

/-- Trimming stops at a character that is seen. -/
theorem trimEnd_append_cons {c : Char} (h : isBlank c = false) (front t : Text) :
    trimEnd (front ++ c :: t) = front ++ c :: t.trimEnd := by
  have hc : ¬ isBlank c = true := by simp [h]
  rw [trimEnd, trimEnd, dropEndWhile, dropEndWhile, List.reverse_append, List.reverse_cons,
    List.append_assoc, List.dropWhile_append]
  split
  · rename_i hempty
    rw [List.isEmpty_iff.mp hempty, List.singleton_append, List.dropWhile_cons_of_neg hc]
    simp
  · simp

theorem trim_cons {c : Char} (h : isBlank c = false) (t : Text) :
    trim (c :: t) = c :: t.trimEnd := by
  rw [trim, trimStart, List.dropWhile_cons_of_neg (by simp [h])]
  exact trimEnd_append_cons h [] t

theorem isTight_trimEnd {c : Char} (h : isBlank c = false) (t : Text) :
    IsTight (trimEnd (c :: t)) := by
  have hcons : trimEnd (c :: t) = c :: t.trimEnd := trimEnd_append_cons h [] t
  have hne : trimEnd (c :: t) ≠ [] := by
    rw [hcons]
    exact List.cons_ne_nil _ _
  refine ⟨⟨c, by rw [hcons]; rfl, h⟩, _, List.getLast?_eq_some_getLast hne, ?_⟩
  exact Bool.eq_false_iff.mpr (List.rdropWhile_last_not isBlank (c :: t) hne)

theorem IsTight.append {s t : Text} (hs : s.IsTight) (ht : t.IsTight) (gap : Text) :
    IsTight (s ++ (gap ++ t)) := by
  obtain ⟨c, hc, hfirst⟩ := hs.first
  obtain ⟨d, hd, hlast⟩ := ht.last
  exact ⟨⟨c, by simp [hc], hfirst⟩, d, by simp [List.getLast?_append, hd], hlast⟩

theorem IsTight.trim_eq {t : Text} (h : t.IsTight) : t.trim = t := by
  rw [trim, h.trimStart_eq]
  exact h.trimEnd_append []

theorem padded_iff {t name : Text} (h : name.IsTight) : Padded t name ↔ t.trim = name := by
  constructor
  · intro hpadded
    exact hpadded.trim_eq.trans h.trim_eq
  · rintro rfl
    exact padded_trim t

theorem between?_eq_some_iff {o c : Char} {t inner : Text} :
    between? o c t = some inner ↔ t = o :: (inner ++ [c]) := by
  cases t with
  | nil => simp [between?]
  | cons d rest =>
    rw [between?]
    constructor
    · intro h
      split at h
      · rename_i hends
        cases h
        obtain ⟨more, rfl⟩ := List.getLast?_eq_some_iff.mp hends.2
        rw [hends.1, List.dropLast_concat]
      · cases h
    · intro h
      cases h
      rw [if_pos ⟨rfl, List.getLast?_concat⟩, List.dropLast_concat]

theorem isTight_enclosed {o c : Char} (ho : isBlank o = false) (hc : isBlank c = false)
    (t : Text) : IsTight (o :: (t ++ [c])) := by
  refine ⟨⟨o, rfl, ho⟩, c, ?_, hc⟩
  rw [← List.cons_append]
  exact List.getLast?_concat

end Text

/-! ### Words and literals at the front of a text -/

namespace Identifier

theorem not_isNext_of_isBlank {c : Char} (h : Text.isBlank c = true) : isNext c = false := by
  cases hc : isNext c with
  | false => rfl
  | true =>
    rw [not_isBlank hc] at h
    cases h

/-- No identifier goes on into the text. -/
def Stops (t : Text) : Prop := ∀ c ∈ t.head?, isNext c = false

theorem stops_dropWhile (t : Text) : Stops (t.dropWhile isNext) := by
  intro c hc
  have hhead := List.head?_dropWhile_not isNext t
  rwa [Option.mem_def.mp hc] at hhead

theorem Stops.takeWhile_eq {t : Text} (h : Stops t) : t.takeWhile isNext = [] := by
  cases t with
  | nil => rfl
  | cons c rest => rw [List.takeWhile_cons_of_neg (by simp [h c rfl])]

theorem Stops.dropWhile_eq {t : Text} (h : Stops t) : t.dropWhile isNext = t := by
  cases t with
  | nil => rfl
  | cons c rest => rw [List.dropWhile_cons_of_neg (by simp [h c rfl])]

theorem stops_blank_append {gap t : Text} (h : gap.allBlank = true) (ht : gap = [] → Stops t) :
    Stops (gap ++ t) := by
  cases gap with
  | nil => exact ht rfl
  | cons c more =>
    intro d hd
    cases hd
    exact not_isNext_of_isBlank (Text.allBlank_iff.mp h c List.mem_cons_self)

theorem Stops.left {s t : Text} (h : Stops (s ++ t)) : Stops s := by
  cases s with
  | nil => simp [Stops]
  | cons c more => exact h

/-- An identifier is split off that cannot go on, and the white space behind it. -/
theorem split_eq_iff {t word rest : Text} (hword : word ≠ []) :
    split t = (word, rest) ↔ isWhole word = true ∧ rest.trimStart = rest ∧
      ∃ gap : Text, gap.allBlank = true ∧ Stops (gap ++ rest) ∧ t = word ++ (gap ++ rest) := by
  constructor
  · intro h
    cases t with
    | nil =>
      cases h
      exact absurd rfl hword
    | cons c more =>
      rw [split] at h
      split at h
      · rename_i hc
        cases h
        have hrest : (more.dropWhile isNext).takeWhile Text.isBlank ++
            Text.trimStart (more.dropWhile isNext) = more.dropWhile isNext :=
          List.takeWhile_append_dropWhile
        refine ⟨?_, List.dropWhile_idempotent _ _,
          (more.dropWhile isNext).takeWhile Text.isBlank, ?_, ?_, ?_⟩
        · rw [isWhole, hc, Bool.true_and, List.all_eq_true]
          exact fun d hd => List.mem_takeWhile_imp hd
        · exact Text.allBlank_iff.mpr fun d hd => List.mem_takeWhile_imp hd
        · rw [hrest]
          exact stops_dropWhile more
        · rw [hrest, List.cons_append, List.takeWhile_append_dropWhile]
      · cases h
        exact absurd rfl hword
  · rintro ⟨hwhole, htrim, gap, hgap, hstops, rfl⟩
    cases word with
    | nil => exact absurd rfl hword
    | cons c more =>
      obtain ⟨hc, hmore⟩ := (Bool.and_eq_true _ _).mp hwhole
      have hall := List.all_eq_true.mp hmore
      have htake : (more ++ (gap ++ rest)).takeWhile isNext = more := by
        rw [List.takeWhile_append_of_pos hall, hstops.takeWhile_eq, List.append_nil]
      have hdrop : (more ++ (gap ++ rest)).dropWhile isNext = gap ++ rest := by
        rw [List.dropWhile_append_of_pos hall, hstops.dropWhile_eq]
      have hgone : Text.trimStart (gap ++ rest) = rest := by
        rw [Text.trimStart, List.dropWhile_append_of_pos (Text.allBlank_iff.mp hgap)]
        exact htrim
      rw [List.cons_append, split, if_pos hc, htake, hdrop, hgone]

/-- The identifier at the front of a text. -/
theorem split_fst_eq_iff {t word : Text} (hword : word ≠ []) :
    (split t).1 = word ↔ isWhole word = true ∧ ∃ more, Stops more ∧ t = word ++ more := by
  constructor
  · rintro rfl
    obtain ⟨hwhole, _, gap, _, hstops, ht⟩ := (split_eq_iff hword).mp (rfl : split t = _)
    exact ⟨hwhole, _, hstops, ht⟩
  · rintro ⟨hwhole, more, hstops, rfl⟩
    have hmore : more.takeWhile Text.isBlank ++ more.trimStart = more :=
      List.takeWhile_append_dropWhile
    have hsplit : split (word ++ more) = (word, more.trimStart) := by
      refine (split_eq_iff hword).mpr ⟨hwhole, List.dropWhile_idempotent _ _,
        more.takeWhile Text.isBlank, ?_, ?_, ?_⟩
      · exact Text.allBlank_iff.mpr fun c hc => List.mem_takeWhile_imp hc
      · rw [hmore]
        exact hstops
      · rw [hmore]
    rw [hsplit]

/-- What is left of a text without the white space around it is one identifier. -/
theorem split_trim_eq_iff {t name : Text} :
    name ≠ [] ∧ split t.trim = (name, []) ↔ isWhole name = true ∧ t.Padded name := by
  constructor
  · rintro ⟨hname, h⟩
    obtain ⟨hwhole, _, gap, hgap, _, htrim⟩ := (split_eq_iff hname).mp h
    have htight := Text.isTight_isWhole hwhole
    refine ⟨hwhole, (Text.padded_iff htight).mpr ?_⟩
    rw [List.append_nil] at htrim
    rw [← Text.trim_trim, htrim, Text.trim_append_blank hgap, htight.trim_eq]
  · rintro ⟨hwhole, hpadded⟩
    refine ⟨(by rintro rfl; cases hwhole), ?_⟩
    rw [(Text.padded_iff (Text.isTight_isWhole hwhole)).mp hpadded, split_isWhole hwhole]

end Identifier

namespace IntegerLiteral

theorem isDigit_of_digitOf? {c : Char} {d : Nat} (h : digitOf? 10 c = some d) :
    c.isDigit = true := by
  rw [digitOf?, digit?] at h
  by_cases hc : c.isDigit = true
  · exact hc
  · rw [if_neg hc] at h
    split at h
    · simp at h
      omega
    · split at h
      · simp at h
        omega
      · cases h

/-- What a literal begins with. -/
def isStart (c : Char) : Bool := c.isDigit || c = '+' || c = '-'

theorem isStart_of_signed? {t : Text} {n : Int} (h : signed? 10 t = some n) :
    ∃ c rest, t = c :: rest ∧ isStart c = true := by
  obtain ⟨hvalue, _⟩ := Option.filter_eq_some_iff.mp h
  split at hvalue
  · exact ⟨'-', _, rfl, rfl⟩
  · exact ⟨'+', _, rfl, rfl⟩
  · obtain ⟨value, hdigits, _⟩ := Option.map_eq_some_iff.mp hvalue
    cases t with
    | nil => cases hdigits
    | cons c rest =>
      rw [digits?, digitsFrom?] at hdigits
      · cases hc : digitOf? 10 c with
        | none =>
          rw [hc] at hdigits
          cases hdigits
        | some d => exact ⟨c, rest, rfl, by rw [isStart, isDigit_of_digitOf? hc]; rfl⟩
      · exact List.cons_ne_nil c rest

/-- An integer begins with a digit or a sign, so it is no word, and neither negated nor in
parentheses. -/
theorem isStart_of_read {t : Text} {n : Int} (h : read t = some n) :
    ∃ c rest, t.trim = c :: rest ∧ isStart c = true := by
  have hbegins : ∃ c rest, t.trim.dropEndWhile isSuffix = c :: rest ∧ isStart c = true := by
    rw [read] at h
    split at h
    · exact ⟨'0', _, by assumption, rfl⟩
    · exact ⟨'0', _, by assumption, rfl⟩
    · exact ⟨'0', _, by assumption, rfl⟩
    · exact isStart_of_signed? h
  obtain ⟨c, rest, hdigits, hc⟩ := hbegins
  obtain ⟨more, hmore⟩ : t.trim.dropEndWhile isSuffix <+: t.trim := List.rdropWhile_prefix _ _
  exact ⟨c, rest ++ more, by rw [← hmore, hdigits]; rfl, hc⟩

theorem read_trim (t : Text) : read t.trim = read t := by
  rw [read, read, Text.trim_trim]

theorem isFirst_of_isDigit {c : Char} (h : c.isDigit = true) : Identifier.isFirst c = false := by
  cases hfirst : Identifier.isFirst c with
  | false => rfl
  | true =>
    have hletter : (c = '_' || (decide ('A'.val ≤ c.val ∧ c.val ≤ 'Z'.val) ||
        ('a'.val ≤ c.val && c.val ≤ 'z'.val))) = true := hfirst
    have hdigit : ('0'.val ≤ c.val && c.val ≤ '9'.val) = true := h
    simp only [Bool.or_eq_true, Bool.and_eq_true, decide_eq_true_eq,
      UInt32.le_iff_toNat_le] at hletter hdigit
    rcases hletter with rfl | hupper | hlower
    · simp at hdigit
    · simp at hdigit hupper
      omega
    · simp at hdigit hlower
      omega

theorem isFirst_of_isStart {c : Char} (h : isStart c = true) : Identifier.isFirst c = false := by
  simp only [isStart, Bool.or_eq_true, decide_eq_true_eq] at h
  rcases h with (h | rfl) | rfl
  · exact isFirst_of_isDigit h
  · rfl
  · rfl

end IntegerLiteral

/-! ### How a condition is read -/

namespace Condition

theorem read_negated {t inner : Text} (h : t.trim = '!' :: inner) :
    read t = (read inner).map .not := by
  rw [read]
  split
  · rename_i inner' h'
    rw [h] at h'
    cases h'
    rfl
  · rename_i hne
    exact absurd h (hne inner)

theorem read_enclosed {t inner : Text} (h : t.trim = '(' :: (inner ++ [')'])) :
    read t = read inner := by
  have hinner := Text.between?_eq_some_iff.mpr h
  rw [read]
  split
  · rename_i inner' h'
    rw [h] at h'
    cases h'
  · split
    · rename_i h'
      rw [hinner] at h'
      cases h'
      rfl
    · rename_i h'
      rw [hinner] at h'
      cases h'

/-- What is neither negated nor in parentheses is read as it stands. -/
theorem read_plain {t : Text} (hneg : ∀ inner, t.trim ≠ '!' :: inner)
    (hopen : ∀ inner, t.trim ≠ '(' :: (inner ++ [')'])) :
    read t = (readAtom t.trim).elim (.error t.trim) .ok := by
  rw [read]
  split
  · rename_i h
    exact absurd h (hneg _)
  · split
    · rename_i h
      exact absurd (Text.between?_eq_some_iff.mp h) (hopen _)
    · cases readAtom t.trim <;> rfl

/-- White space around a condition is not read. -/
theorem read_congr {s t : Text} (h : s.trim = t.trim) : read s = read t := by
  by_cases hneg : ∃ inner, t.trim = '!' :: inner
  · obtain ⟨inner, hneg⟩ := hneg
    rw [read_negated hneg, read_negated (h.trans hneg)]
  · by_cases hopen : ∃ inner, t.trim = '(' :: (inner ++ [')'])
    · obtain ⟨inner, hopen⟩ := hopen
      rw [read_enclosed hopen, read_enclosed (h.trans hopen)]
    · rw [not_exists] at hneg hopen
      rw [read_plain hneg hopen, read_plain (h ▸ hneg) (h ▸ hopen), h]

theorem read_atom {t rest : Text} {c : Char} (h : t.trim = c :: rest) (hneg : c ≠ '!')
    (hopen : c ≠ '(') : read t = (readAtom t.trim).elim (.error t.trim) .ok := by
  refine read_plain ?_ ?_
  · intro inner hinner
    exact hneg (List.cons.inj (h.symm.trans hinner)).1
  · intro inner hinner
    exact hopen (List.cons.inj (h.symm.trans hinner)).1

theorem operand?_eq_some_iff_split {t : Text} {name : Name} :
    operand? t = some name ↔
      name ≠ [] ∧ Identifier.split ((t.trim.between? '(' ')').getD t.trim).trim = (name, []) := by
  simp only [operand?]
  split
  · rename_i hsplit
    rw [hsplit]
    refine iff_of_false (by simp) ?_
    rintro ⟨hne, h⟩
    cases h
    exact hne rfl
  · rename_i other hne hsplit
    rw [hsplit]
    constructor
    · intro h
      cases h
      exact ⟨hne, rfl⟩
    · rintro ⟨_, h⟩
      cases h
      rfl
  · rename_i hsplit
    rw [hsplit]
    refine iff_of_false (by simp) ?_
    rintro ⟨_, h⟩
    cases h

/-- The operand of `defined` is a name, or a name in parentheses. -/
theorem operand?_eq_some_iff {t : Text} {name : Name} :
    operand? t = some name ↔ Identifier.isWhole name = true ∧
      (t.Padded name ∨ ∃ inner : Text, t.Padded ('(' :: (inner ++ [')'])) ∧ inner.Padded name) := by
  rw [operand?_eq_some_iff_split, Identifier.split_trim_eq_iff]
  refine and_congr_right fun hwhole => ?_
  have htight := Text.isTight_isWhole hwhole
  have henclosed : ∀ inner : Text, t.Padded ('(' :: (inner ++ [')'])) ↔
      t.trim.between? '(' ')' = some inner := by
    intro inner
    rw [Text.padded_iff (Text.isTight_enclosed rfl rfl inner), Text.between?_eq_some_iff]
  simp only [henclosed]
  cases hinner : t.trim.between? '(' ')' with
  | some inner =>
    -- a name does not begin with a parenthesis
    have hno : ¬ t.Padded name := by
      rw [Text.padded_iff htight, Text.between?_eq_some_iff.mp hinner]
      rintro rfl
      cases hwhole
    simp [hno]
  | none => simp [Text.padded_iff htight, Text.trim_trim]

/-! ### Reading and the grammar -/

/-- The texts that spell a condition: a literal, a name, a test whether a name is defined, and
these behind negations and in parentheses. White space may stand around each part; between the
word `defined` and a name it must. -/
inductive Spelling : Condition → Text → Prop
  | integer {t : Text} {value : Int} (h : IntegerLiteral.read t = some value) :
    Spelling (.integer value) t
  | named {name : Name} (hname : Identifier.isWhole name = true) (h : name ≠ "defined".toList) :
    Spelling (.named name) name
  | defined {gap : Text} {name : Name} (hname : Identifier.isWhole name = true)
    (hgap : gap.allBlank = true) (hapart : gap ≠ []) :
    Spelling (.defined name) ("defined".toList ++ (gap ++ name))
  | definedIn {gap inner : Text} {name : Name} (hname : Identifier.isWhole name = true)
    (hgap : gap.allBlank = true) (hinner : inner.Padded name) :
    Spelling (.defined name) ("defined".toList ++ (gap ++ '(' :: (inner ++ [')'])))
  | not {c : Condition} {t : Text} (h : Spelling c t) : Spelling (.not c) ('!' :: t)
  | enclosed {c : Condition} {t : Text} (h : Spelling c t) : Spelling c ('(' :: (t ++ [')']))
  | padded {c : Condition} {t inner : Text} (h : Spelling c inner) (hpadded : t.Padded inner) :
    Spelling c t

/-- What is read behind the word `defined` spells a test. -/
theorem spelling_of_operand? {gap rest : Text} {name : Name} (hgap : gap.allBlank = true)
    (hstops : Identifier.Stops (gap ++ rest)) (h : operand? rest = some name) :
    Spelling (.defined name) ("defined".toList ++ (gap ++ rest)) := by
  have hblank : ∀ {left : Text}, left.allBlank = true → (gap ++ left).allBlank = true := by
    intro left hleft
    rw [Text.allBlank, List.all_append, Bool.and_eq_true]
    exact ⟨hgap, hleft⟩
  obtain ⟨hname, ⟨left, right, hleft, hright, rfl⟩ |
    ⟨inner, ⟨left, right, hleft, hright, rfl⟩, hinner⟩⟩ := operand?_eq_some_iff.mp h
  · refine .padded (.defined hname (hblank hleft) ?_) ⟨[], right, rfl, hright, ?_⟩
    · -- with nothing between them, the word would go on into the name
      intro hnone
      obtain ⟨rfl, rfl⟩ := List.append_eq_nil_iff.mp hnone
      cases name with
      | nil => cases hname
      | cons c more =>
        have hc := List.all_eq_true.mp (Identifier.all_isNext hname) c List.mem_cons_self
        rw [hstops c rfl] at hc
        cases hc
    · simp
  · exact .padded (.definedIn hname (hblank hleft) hinner) ⟨[], right, rfl, hright, by simp⟩

theorem spelling_of_readAtom {t : Text} {c : Condition} (h : readAtom t = some c) :
    Spelling c t := by
  rw [readAtom] at h
  split at h
  · obtain ⟨value, hvalue, rfl⟩ := Option.map_eq_some_iff.mp h
    exact .integer hvalue
  · rename_i word rest hword hsplit
    obtain ⟨hwhole, _, gap, hgap, hstops, rfl⟩ := (Identifier.split_eq_iff hword).mp hsplit
    split at h
    · rename_i hdefined
      subst hdefined
      obtain ⟨name, hoperand, rfl⟩ := Option.map_eq_some_iff.mp h
      exact spelling_of_operand? hgap hstops hoperand
    · split at h
      · rename_i hother hrest
        cases h
        exact .padded (.named hwhole hother) ⟨[], gap, rfl, hgap, by simp [hrest]⟩
      · cases h

/-- What is read is spelt. -/
theorem spelling_of_read {t : Text} {c : Condition} (h : read t = .ok c) : Spelling c t := by
  fun_induction read t generalizing c with
  | case1 t inner htrim ih =>
    cases hinner : Condition.read inner with
    | error piece =>
      rw [hinner] at h
      cases h
    | ok c' =>
      rw [hinner] at h
      cases h
      exact .padded (.not (ih hinner)) (htrim ▸ Text.padded_trim t)
  | case2 t inner _ hinner ih =>
    exact .padded (.enclosed (ih h)) (Text.between?_eq_some_iff.mp hinner ▸ Text.padded_trim t)
  | case3 t c' _ _ hatom =>
    cases h
    exact .padded (spelling_of_readAtom hatom) (Text.padded_trim t)
  | case4 t _ _ hatom => cases h

theorem readAtom_word {t word rest : Text} (hword : word ≠ [])
    (h : Identifier.split t = (word, rest)) :
    readAtom t = if word = "defined".toList then (operand? rest).map .defined
      else if rest = [] then some (.named word) else none := by
  cases word with
  | nil => exact absurd rfl hword
  | cons c more => rw [readAtom, h]

theorem readAtom_integer {t rest : Text} {c : Char} (h : t = c :: rest)
    (hc : Identifier.isFirst c = false) : readAtom t = (IntegerLiteral.read t).map .integer := by
  subst h
  rw [readAtom, Identifier.split, if_neg (by simp [hc])]

/-- A test of a name is read as one. -/
theorem read_defined {gap rest : Text} {name : Name} (hgap : gap.allBlank = true)
    (hstops : Identifier.Stops (gap ++ rest)) (hrest : rest.IsTight)
    (h : operand? rest = some name) :
    Condition.read ("defined".toList ++ (gap ++ rest)) = .ok (.defined name) := by
  have htight : Text.IsTight ("defined".toList ++ (gap ++ rest)) :=
    (Text.isTight_isWhole (by decide)).append hrest gap
  have hsplit : Identifier.split ("defined".toList ++ (gap ++ rest)) = ("defined".toList, rest) :=
    (Identifier.split_eq_iff (by decide)).mpr
      ⟨by decide, hrest.trimStart_eq, gap, hgap, hstops, rfl⟩
  rw [read_atom (c := 'd') htight.trim_eq (by decide) (by decide), htight.trim_eq,
    readAtom_word (by decide) hsplit, if_pos rfl, h]
  rfl

/-- What is spelt is read. -/
theorem read_of_spelling {t : Text} {c : Condition} (h : Spelling c t) :
    Condition.read t = .ok c := by
  -- By the derivation. White space is dealt with where it is put around, by `read_congr`.
  induction h with
  | integer h =>
    obtain ⟨c, rest, htrim, hc⟩ := IntegerLiteral.isStart_of_read h
    rw [read_atom htrim (by rintro rfl; cases hc) (by rintro rfl; cases hc),
      readAtom_integer htrim (IntegerLiteral.isFirst_of_isStart hc), IntegerLiteral.read_trim, h]
    rfl
  | @named name hname h =>
    have hne : name ≠ [] := by rintro rfl; cases hname
    have htrim := (Text.isTight_isWhole hname).trim_eq
    obtain ⟨c, rest, rfl⟩ := List.exists_cons_of_ne_nil hne
    rw [read_atom htrim (by rintro rfl; cases hname) (by rintro rfl; cases hname), htrim,
      readAtom_word hne (Identifier.split_isWhole hname), if_neg h, if_pos rfl]
    rfl
  | defined hname hgap hapart =>
    exact read_defined hgap (Identifier.stops_blank_append hgap fun h => absurd h hapart)
      (Text.isTight_isWhole hname) (operand?_eq_some_iff.mpr ⟨hname, .inl (.refl _)⟩)
  | @definedIn gap inner name hname hgap hinner =>
    refine read_defined hgap (Identifier.stops_blank_append hgap ?_)
      (Text.isTight_enclosed rfl rfl inner)
      (operand?_eq_some_iff.mpr ⟨hname, .inr ⟨inner, .refl _, hinner⟩⟩)
    intro _ c hc
    cases hc
    rfl
  | @not c t h ih =>
    rw [read_negated (Text.trim_cons rfl t), read_congr (Text.trim_trimEnd t), ih]
    rfl
  | @enclosed c t h ih =>
    rw [read_enclosed (Text.isTight_enclosed rfl rfl t).trim_eq, ih]
  | padded h hpadded ih => rw [read_congr hpadded.trim_eq, ih]

/-- **The reader accepts the grammar,** and reads each text as the one condition it spells. -/
theorem read_eq_ok_iff {t : Text} {c : Condition} : read t = .ok c ↔ Spelling c t :=
  ⟨spelling_of_read, read_of_spelling⟩

/-! ### What a condition means -/

/-- The value of a condition where these macros are defined. A name that is defined, and not as
an integer, has none. -/
inductive HasValue (m : Macros) : Condition → Bool → Prop
  | integer (value : Int) : HasValue m (.integer value) (value ≠ 0)
  | undefined {name : Name} (h : m.body? name = none) : HasValue m (.named name) false
  | body {name : Name} {body : Text} {value : Int} (hbody : m.body? name = some body)
    (hvalue : IntegerLiteral.read body = some value) : HasValue m (.named name) (value ≠ 0)
  | defined (name : Name) : HasValue m (.defined name) (m.body? name).isSome
  | not {c : Condition} {b : Bool} (h : HasValue m c b) : HasValue m (.not c) (!b)

/-- Conditions are evaluated to their values. -/
theorem eval_eq_ok_iff {m : Macros} {c : Condition} {b : Bool} :
    eval m c = .ok b ↔ HasValue m c b := by
  induction c generalizing b with
  | integer value =>
    constructor
    · intro h
      cases h
      exact .integer value
    · intro h
      cases h
      rfl
  | named name =>
    constructor
    · intro h
      rw [eval] at h
      cases hbody : m.body? name with
      | none =>
        rw [hbody] at h
        cases h
        exact .undefined hbody
      | some body =>
        rw [hbody] at h
        cases hvalue : IntegerLiteral.read body with
        | none =>
          simp only [hvalue] at h
          cases h
        | some value =>
          simp only [hvalue] at h
          cases h
          exact .body hbody hvalue
    · intro h
      cases h with
      | undefined hbody => rw [eval, hbody]
      | body hbody hvalue => simp only [eval, hbody, hvalue]
  | defined name =>
    constructor
    · intro h
      cases h
      exact .defined name
    · intro h
      cases h
      rfl
  | not inner ih =>
    constructor
    · intro h
      cases hinner : eval m inner with
      | error piece =>
        rw [eval, hinner] at h
        cases h
      | ok b' =>
        rw [eval, hinner] at h
        cases h
        exact .not (ih.mp hinner)
    · intro h
      cases h with
      | not h =>
        rw [eval, ih.mpr h]
        rfl

theorem value_eq_ok_iff {m : Macros} {t : Text} {b : Bool} :
    value m t = .ok b ↔ ∃ c, Spelling c t ∧ HasValue m c b := by
  constructor
  · intro h
    cases hread : read t with
    | error piece =>
      rw [value, hread] at h
      cases h
    | ok c =>
      rw [value, hread] at h
      exact ⟨c, read_eq_ok_iff.mp hread, eval_eq_ok_iff.mp h⟩
  · rintro ⟨c, hc, hb⟩
    rw [value, read_eq_ok_iff.mpr hc]
    exact eval_eq_ok_iff.mpr hb

end Condition

/-- **A condition is accepted by its grammar and given its meaning.** A text evaluates to `b` just
if it spells a condition whose value is `b`. Any other text, and one that spells a condition
without a value, is refused as an invalid condition. -/
theorem condition_by_grammar (macros : Macros) (t : Text) :
    (∀ b, Scan.condition macros t = .ok b ↔
      ∃ c, Condition.Spelling c t ∧ Condition.HasValue macros c b) ∧
    ((∃ piece, Scan.condition macros t = .error (.invalidCondition piece)) ↔
      ¬ ∃ b c, Condition.Spelling c t ∧ Condition.HasValue macros c b) := by
  simp only [← Condition.value_eq_ok_iff, Scan.condition]
  cases Condition.value macros t with
  | ok b =>
    refine ⟨fun b' => ?_, iff_of_false ?_ (not_not_intro ⟨b, rfl⟩)⟩
    · constructor
      · intro h
        cases h
        rfl
      · intro h
        cases h
        rfl
    · rintro ⟨piece, h⟩
      cases h
  | error piece =>
    refine ⟨fun b => iff_of_false ?_ ?_, iff_of_true ⟨piece, rfl⟩ ?_⟩
    · intro h
      cases h
    · intro h
      cases h
    · rintro ⟨b, h⟩
      cases h

end IncludeOnce
