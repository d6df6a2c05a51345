import IncludeOnce.Proofs.Grammar
import Mathlib.Data.Nat.Digits.Defs

/-! What integer literals write.

`Numeral` says which digits write which number in a base, by the place of each digit. On it rest
`Unsigned`, the literals of a number in the three bases, and `Literal`, which adds decimal digits
behind a sign.

Every unsigned literal is read as its number, if that is below `2 ^ 63`, and refused if it is not
(`unsigned_read`). The other way round there is an exception. The mark of a base is cut off, and
what is left is read by a reader of digits that takes a sign before them: so `0x-1` is read as an
integer and is no literal (`Misplaced`). `literal_unless_misplaced` says that there is no other
exception. -/
namespace IncludeOnce.IntegerLiteral

/-! ### Digits and their values -/

/-- The digits of bases up to sixteen, in the order of their values. -/
def lowerDigits : Text := "0123456789abcdef".toList

def upperDigits : Text := "0123456789ABCDEF".toList

/-- The character is the digit of this value in a base, in upper or lower case. -/
structure IsDigit (base : Nat) (c : Char) (d : Nat) : Prop where
  lt : d < base
  written : lowerDigits[d]? = some c ∨ upperDigits[d]? = some c

/-- What holds of all digits can be checked one by one. -/
theorem forall_written {P : Char → Nat → Prop} (hlower : ∀ p ∈ lowerDigits.zipIdx, P p.1 p.2)
    (hupper : ∀ p ∈ upperDigits.zipIdx, P p.1 p.2) {c : Char} {d : Nat}
    (h : lowerDigits[d]? = some c ∨ upperDigits[d]? = some c) : P c d := by
  rcases h with h | h
  · exact hlower (c, d) (List.mk_mem_zipIdx_iff_getElem?.mpr h)
  · exact hupper (c, d) (List.mk_mem_zipIdx_iff_getElem?.mpr h)

theorem digit?_of_written {c : Char} {d : Nat}
    (h : lowerDigits[d]? = some c ∨ upperDigits[d]? = some c) : digit? c = some d :=
  forall_written (P := fun c d => digit? c = some d) (by decide) (by decide) h

/-- Digits that stand in a row have code points in a row. -/
theorem getElem?_of_run {digits : Text} {first start count : Nat} {c : Char}
    (hrun : ∀ d < count, digits[d + start]? = some (Char.ofNat (first + d)))
    (hfirst : first ≤ c.toNat) (hlast : c.toNat < first + count) :
    digits[c.toNat - first + start]? = some c := by
  have h := hrun (c.toNat - first) (by omega)
  rwa [Nat.add_sub_of_le hfirst, Char.ofNat_toNat] at h

theorem written_of_digit? {c : Char} {d : Nat} (h : digit? c = some d) :
    lowerDigits[d]? = some c ∨ upperDigits[d]? = some c := by
  have hdecimal : ∀ d < 10, lowerDigits[d + 0]? = some (Char.ofNat (48 + d)) := by decide
  have hlower : ∀ d < 6, lowerDigits[d + 10]? = some (Char.ofNat (97 + d)) := by decide
  have hupper : ∀ d < 6, upperDigits[d + 10]? = some (Char.ofNat (65 + d)) := by decide
  rw [digit?] at h
  split at h
  · rename_i hc
    cases h
    have hrun : ('0'.val ≤ c.val && c.val ≤ '9'.val) = true := hc
    simp only [Bool.and_eq_true, decide_eq_true_eq, UInt32.le_iff_toNat_le] at hrun
    exact .inl (getElem?_of_run hdecimal hrun.1 (Nat.lt_succ_of_le hrun.2))
  · split at h
    · rename_i hc
      cases h
      exact .inl (getElem?_of_run hlower hc.1 (Nat.lt_succ_of_le hc.2))
    · split at h
      · rename_i hc
        cases h
        exact .inr (getElem?_of_run hupper hc.1 (Nat.lt_succ_of_le hc.2))
      · cases h

theorem digitOf?_eq_some_iff {base : Nat} {c : Char} {d : Nat} :
    digitOf? base c = some d ↔ IsDigit base c d := by
  rw [digitOf?, Option.filter_eq_some_iff, decide_eq_true_eq]
  constructor
  · rintro ⟨hdigit, hlt⟩
    exact ⟨hlt, written_of_digit? hdigit⟩
  · rintro ⟨hlt, hwritten⟩
    exact ⟨digit?_of_written hwritten, hlt⟩

/-! ### Numerals -/

/-- The text writes `n` in this base: it is made of one or more digits, and `n` is their value by
place. The last digit counts ones. -/
def Numeral (base : Nat) (t : Text) (n : Nat) : Prop :=
  t ≠ [] ∧ ∃ ds, List.Forall₂ (IsDigit base) t ds ∧ n = Nat.ofDigits base ds.reverse

/-- Digits are read from the front, so `value` stands for all digits before the text. -/
theorem digitsFrom?_eq_some_iff {base value n : Nat} {t : Text} :
    digitsFrom? base value t = some n ↔
      ∃ ds, List.Forall₂ (IsDigit base) t ds ∧ n = Nat.ofDigits base (ds.reverse ++ [value]) := by
  induction t generalizing value with
  | nil =>
    rw [digitsFrom?, Option.some.injEq]
    constructor
    · rintro rfl
      exact ⟨[], .nil, Nat.ofDigits_singleton.symm⟩
    · rintro ⟨ds, hds, rfl⟩
      cases hds
      exact Nat.ofDigits_singleton.symm
  | cons c rest ih =>
    -- the first digit of the text joins those before it
    have hshift : ∀ (d : Nat) (ds : List Nat),
        Nat.ofDigits base ((d :: ds).reverse ++ [value]) =
          Nat.ofDigits base (ds.reverse ++ [value * base + d]) := by
      intro d ds
      simp only [List.reverse_cons, List.append_assoc, List.singleton_append, Nat.ofDigits_append,
        Nat.ofDigits_cons, Nat.ofDigits_nil]
      ring
    rw [digitsFrom?]
    constructor
    · intro h
      cases hc : digitOf? base c with
      | none => simp [hc] at h
      | some d =>
        simp only [hc] at h
        obtain ⟨ds, hds, rfl⟩ := ih.mp h
        exact ⟨d :: ds, .cons (digitOf?_eq_some_iff.mp hc) hds, (hshift d ds).symm⟩
    · rintro ⟨ds, hds, rfl⟩
      cases hds with
      | @cons _ d _ ds hd hds =>
        simp only [digitOf?_eq_some_iff.mpr hd]
        exact ih.mpr ⟨ds, hds, hshift d ds⟩

/-- Numerals are what is read as digits. -/
theorem digits?_eq_some_iff {base n : Nat} {t : Text} :
    digits? base t = some n ↔ Numeral base t n := by
  cases t with
  | nil => simp [digits?, Numeral]
  | cons c rest =>
    rw [digits?, digitsFrom?_eq_some_iff, Numeral]
    · simp [Nat.ofDigits_append_zero]
    · exact List.cons_ne_nil c rest

/-- The digits of a text write one number. -/
theorem Numeral.unique {base m n : Nat} {t : Text} (hm : Numeral base t m)
    (hn : Numeral base t n) : m = n :=
  Option.some.inj ((digits?_eq_some_iff.mpr hm).symm.trans (digits?_eq_some_iff.mpr hn))

theorem Numeral.all_digits {base n : Nat} {t : Text} (h : Numeral base t n) :
    ∀ c ∈ t, ∃ d, digit? c = some d := by
  obtain ⟨-, ds, hds, -⟩ := h
  induction hds with
  | nil =>
    intro c hc
    cases hc
  | cons hd _ ih => exact List.forall_mem_cons.mpr ⟨⟨_, digit?_of_written hd.written⟩, ih⟩

theorem Numeral.not_cons {base n : Nat} {c : Char} {t : Text} (hc : digit? c = none) :
    ¬ Numeral base (c :: t) n := by
  intro h
  obtain ⟨d, hd⟩ := h.all_digits c List.mem_cons_self
  rw [hc] at hd
  cases hd

/-! ### Digits behind a sign -/

/-- A sign and digits behind it, with the integer they write. -/
inductive Signed (base : Nat) : Text → Int → Prop
  | plus {t : Text} {n : Nat} (h : Numeral base t n) : Signed base ('+' :: t) n
  | minus {t : Text} {n : Nat} (h : Numeral base t n) : Signed base ('-' :: t) (-n)

theorem Signed.not_numeral {base base' n : Nat} {t : Text} {v : Int} (h : Signed base t v) :
    ¬ Numeral base' t n := by
  cases h with
  | plus _ => exact Numeral.not_cons rfl
  | minus _ => exact Numeral.not_cons rfl

theorem map_digits?_eq_some_iff {base : Nat} {t : Text} {v : Int} {sign : Int → Int} :
    Option.map sign (digits? base t >>= fun n => pure (n : Int)) = some v ↔
      ∃ n : Nat, Numeral base t n ∧ v = sign n := by
  simp only [← digits?_eq_some_iff]
  cases digits? base t with
  | none => simp
  | some n => simp [eq_comm]

/-- What is read as digits behind at most one sign. -/
theorem signed?_eq_some_iff {base : Nat} {t : Text} {v : Int} :
    signed? base t = some v ↔
      inRange v = true ∧ ((∃ n : Nat, Numeral base t n ∧ v = n) ∨ Signed base t v) := by
  constructor
  · intro h
    obtain ⟨hvalue, hrange⟩ := Option.filter_eq_some_iff.mp h
    refine ⟨hrange, ?_⟩
    split at hvalue
    · obtain ⟨n, hn, rfl⟩ := map_digits?_eq_some_iff.mp hvalue
      exact .inr (.minus hn)
    · obtain ⟨n, hn, rfl⟩ := map_digits?_eq_some_iff.mp hvalue
      exact .inr (.plus hn)
    · exact .inl (map_digits?_eq_some_iff.mp hvalue)
  · rintro ⟨hrange, ⟨n, hn, rfl⟩ | hsigned⟩
    · -- digits are no sign, so they are read as they stand
      rw [signed?]
      · exact Option.filter_eq_some_iff.mpr ⟨map_digits?_eq_some_iff.mpr ⟨n, hn, rfl⟩, hrange⟩
      · rintro rest rfl
        exact Numeral.not_cons rfl hn
      · rintro rest rfl
        exact Numeral.not_cons rfl hn
    · refine Option.filter_eq_some_iff.mpr ⟨?_, hrange⟩
      cases hsigned with
      | plus hn => exact map_digits?_eq_some_iff.mpr ⟨_, hn, rfl⟩
      | minus hn => exact map_digits?_eq_some_iff.mpr ⟨_, hn, rfl⟩

theorem inRange_iff {v : Int} : inRange v = true ↔ -2 ^ 63 ≤ v ∧ v < 2 ^ 63 := by
  rw [inRange, Bool.and_eq_true, decide_eq_true_eq, decide_eq_true_eq, Int64.toInt_minValue,
    Int64.toInt_maxValue, Int.le_sub_one_iff]

/-- Digits without a sign are read as their number, or refused if that is too large. -/
theorem signed?_numeral {base n : Nat} {t : Text} (h : Numeral base t n) :
    signed? base t = if n < 2 ^ 63 then some (n : Int) else none := by
  split
  · rename_i hlt
    exact signed?_eq_some_iff.mpr ⟨inRange_iff.mpr (by omega), .inl ⟨n, h, rfl⟩⟩
  · rename_i hge
    refine Option.eq_none_iff_forall_ne_some.mpr fun v hv => ?_
    obtain ⟨hrange, ⟨m, hm, rfl⟩ | hsigned⟩ := signed?_eq_some_iff.mp hv
    · have hlt := (inRange_iff.mp hrange).2
      rw [hm.unique h] at hlt
      omega
    · exact hsigned.not_numeral h

/-! ### Literals -/

/-- The literals of a number: decimal digits of which none is a leading zero, octal digits behind
`0`, and hexadecimal digits behind `0x` or `0X`. -/
inductive Unsigned : Text → Nat → Prop
  | decimal {t : Text} {n : Nat} (h : Numeral 10 t n)
    (hlead : ∀ rest, t = '0' :: rest → rest = []) : Unsigned t n
  | octal {t : Text} {n : Nat} (h : Numeral 8 t n) : Unsigned ('0' :: t) n
  | hexadecimal {x : Char} {t : Text} {n : Nat} (hx : x = 'x' ∨ x = 'X') (h : Numeral 16 t n) :
    Unsigned ('0' :: x :: t) n

/-- The literals of an integer. Digits behind a sign are decimal, also if they begin with `0`. -/
inductive Literal : Text → Int → Prop
  | unsigned {t : Text} {n : Nat} (h : Unsigned t n) : Literal t n
  | signed {t : Text} {v : Int} (h : Signed 10 t v) : Literal t v

/-- A sign where none belongs, between the mark of a base and its digits: `0x-1` and `0+7`. -/
inductive Misplaced : Text → Int → Prop
  | octal {t : Text} {v : Int} (h : Signed 8 t v) : Misplaced ('0' :: t) v
  | hexadecimal {x : Char} {t : Text} {v : Int} (hx : x = 'x' ∨ x = 'X') (h : Signed 16 t v) :
    Misplaced ('0' :: x :: t) v

/-- What stands behind the mark of its base, which decimal digits do not have. -/
inductive Marked : Text → Nat → Text → Prop
  | decimal {t : Text} (h : ∀ rest, t = '0' :: rest → rest = []) : Marked t 10 t
  | octal {c : Char} {rest : Text} (hx : ¬ (c = 'x' ∨ c = 'X')) :
    Marked ('0' :: c :: rest) 8 (c :: rest)
  | hexadecimal {x : Char} {rest : Text} (hx : x = 'x' ∨ x = 'X') :
    Marked ('0' :: x :: rest) 16 rest

theorem exists_marked (t : Text) : ∃ base rest, Marked t base rest := by
  by_cases hzero : ∃ c rest, t = '0' :: c :: rest
  · obtain ⟨c, rest, rfl⟩ := hzero
    by_cases hx : c = 'x' ∨ c = 'X'
    · exact ⟨16, rest, .hexadecimal hx⟩
    · exact ⟨8, c :: rest, .octal hx⟩
  · refine ⟨10, t, .decimal ?_⟩
    rintro (_ | ⟨c, rest⟩) ht
    · rfl
    · exact absurd ⟨c, rest, ht⟩ hzero

theorem Unsigned.marked {t : Text} {n : Nat} (h : Unsigned t n) :
    ∃ base rest, Marked t base rest ∧ Numeral base rest n := by
  cases h with
  | decimal h hlead => exact ⟨10, t, .decimal hlead, h⟩
  | @octal rest _ h =>
    cases rest with
    | nil => exact absurd rfl h.1
    | cons c rest =>
      refine ⟨8, c :: rest, .octal ?_, h⟩
      rintro (rfl | rfl)
      · exact Numeral.not_cons rfl h
      · exact Numeral.not_cons rfl h
  | @hexadecimal _ rest _ hx h => exact ⟨16, rest, .hexadecimal hx, h⟩

theorem Marked.unsigned {t rest : Text} {base n : Nat} (hm : Marked t base rest)
    (h : Numeral base rest n) : Unsigned t n := by
  cases hm with
  | decimal hlead => exact .decimal h hlead
  | octal _ => exact .octal h
  | hexadecimal hx => exact .hexadecimal hx h

theorem Marked.signed {t rest : Text} {base : Nat} {v : Int} (hm : Marked t base rest)
    (h : Signed base rest v) : Literal t v ∨ Misplaced t v := by
  cases hm with
  | decimal _ => exact .inl (.signed h)
  | octal _ => exact .inr (.octal h)
  | hexadecimal hx => exact .inr (.hexadecimal hx h)

theorem Literal.marked {t : Text} {v : Int} (h : Literal t v) :
    ∃ base rest, Marked t base rest ∧
      ((∃ n : Nat, Numeral base rest n ∧ v = n) ∨ Signed base rest v) := by
  cases h with
  | unsigned h =>
    obtain ⟨base, rest, hm, hn⟩ := h.marked
    exact ⟨base, rest, hm, .inl ⟨_, hn, rfl⟩⟩
  | signed h =>
    refine ⟨10, t, .decimal ?_, .inr h⟩
    rintro rest rfl
    cases h

theorem Misplaced.marked {t : Text} {v : Int} (h : Misplaced t v) :
    ∃ base rest, Marked t base rest ∧ Signed base rest v := by
  cases h with
  | octal h =>
    cases h with
    | plus hn => exact ⟨8, _, .octal (by decide), .plus hn⟩
    | minus hn => exact ⟨8, _, .octal (by decide), .minus hn⟩
  | hexadecimal hx h => exact ⟨16, _, .hexadecimal hx, h⟩

/-- A text is one or the other, whatever it is said to write. -/
theorem Misplaced.not_literal {t : Text} {v w : Int} (h : Misplaced t v) : ¬ Literal t w := by
  intro hl
  cases h with
  | octal h =>
    cases hl with
    | signed hs => cases hs
    | unsigned hu =>
      cases hu with
      | decimal _ hlead =>
        cases hlead _ rfl
        cases h
      | octal hn => exact h.not_numeral hn
      | hexadecimal hx _ =>
        cases h with
        | plus _ => revert hx; decide
        | minus _ => revert hx; decide
  | hexadecimal hx h =>
    cases hl with
    | signed hs => cases hs
    | unsigned hu =>
      cases hu with
      | decimal _ hlead => cases hlead _ rfl
      | octal hn =>
        rcases hx with rfl | rfl
        · exact Numeral.not_cons rfl hn
        · exact Numeral.not_cons rfl hn
      | hexadecimal _ hn => exact h.not_numeral hn

/-! ### Reading -/

/-- A text without the white space around it and without its suffix. -/
def stem (t : Text) : Text := t.trim.dropEndWhile isSuffix

theorem read_marked {t rest : Text} {base : Nat} (h : Marked (stem t) base rest) :
    read t = signed? base rest := by
  rw [read, ← stem]
  generalize stem t = s at h
  cases h with
  | decimal hlead =>
    -- a text that goes on behind `0` has a mark
    split
    · cases hlead _ rfl
    · cases hlead _ rfl
    · cases hlead _ rfl
    · rfl
  | octal hx =>
    split
    · rename_i heq
      cases heq
      exact absurd (.inl rfl) hx
    · rename_i heq
      cases heq
      exact absurd (.inr rfl) hx
    · rename_i heq
      cases heq
      rfl
    · rename_i hother
      exact absurd rfl (hother _ _)
  | hexadecimal hx =>
    rcases hx with rfl | rfl
    · rfl
    · rfl

theorem seen_of_digit? {c : Char} {d : Nat} (h : digit? c = some d) :
    Text.isBlank c = false ∧ isSuffix c = false :=
  forall_written (P := fun c _ => Text.isBlank c = false ∧ isSuffix c = false) (by decide)
    (by decide) (written_of_digit? h)

theorem Numeral.seen {base n : Nat} {t : Text} (h : Numeral base t n) :
    ∀ c ∈ t, Text.isBlank c = false ∧ isSuffix c = false := by
  intro c hc
  obtain ⟨d, hd⟩ := h.all_digits c hc
  exact seen_of_digit? hd

theorem Unsigned.ne_nil {t : Text} {n : Nat} (h : Unsigned t n) : t ≠ [] := by
  cases h with
  | decimal h _ => exact h.1
  | octal _ => exact List.cons_ne_nil _ _
  | hexadecimal _ _ => exact List.cons_ne_nil _ _

/-- No character of a literal is trimmed. -/
theorem Unsigned.seen {t : Text} {n : Nat} (h : Unsigned t n) :
    ∀ c ∈ t, Text.isBlank c = false ∧ isSuffix c = false := by
  cases h with
  | decimal h _ => exact h.seen
  | octal h => exact List.forall_mem_cons.mpr ⟨by decide, h.seen⟩
  | hexadecimal hx h =>
    refine List.forall_mem_cons.mpr ⟨by decide, List.forall_mem_cons.mpr ⟨?_, h.seen⟩⟩
    rcases hx with rfl | rfl
    · decide
    · decide

theorem isSuffix_of_mem {c : Char} (h : c ∈ ['u', 'U', 'l', 'L']) :
    isSuffix c = true ∧ Text.isBlank c = false := by
  simp only [List.mem_cons, List.not_mem_nil, or_false] at h
  rcases h with rfl | rfl | rfl | rfl
  all_goals decide

/-- White space and suffix can be told from the literal they are put to. -/
theorem stem_of_padded {t s suffix : Text} (hne : s ≠ [])
    (hs : ∀ c ∈ s, Text.isBlank c = false ∧ isSuffix c = false)
    (hsuffix : suffix ⊆ ['u', 'U', 'l', 'L']) (hpadded : t.Padded (s ++ suffix)) : stem t = s := by
  have htight : Text.IsTight (s ++ suffix) := by
    refine Text.isTight_of_seen (List.append_ne_nil_of_left_ne_nil hne suffix) fun c hc => ?_
    rcases List.mem_append.mp hc with hc | hc
    · exact (hs c hc).1
    · exact (isSuffix_of_mem (hsuffix hc)).2
  have hlast : s.rdropWhile isSuffix = s := by
    refine List.rdropWhile_eq_self_iff.mpr fun hne' => ?_
    simp [(hs _ (List.getLast_mem hne')).2]
  have hall : ∀ c ∈ suffix.reverse, isSuffix c = true := fun c hc =>
    (isSuffix_of_mem (hsuffix (List.mem_reverse.mp hc))).1
  rw [stem, hpadded.trim_eq, htight.trim_eq, Text.dropEndWhile, List.reverse_append,
    List.dropWhile_append_of_pos hall]
  exact hlast

/-- **Literals are read as their numbers, and never wrapped.** Whatever white space stands around
a literal and its suffix, it is read as its number if that is below `2 ^ 63`, and refused
otherwise. -/
theorem unsigned_read {t s suffix : Text} {n : Nat} (h : Unsigned s n)
    (hsuffix : suffix ⊆ ['u', 'U', 'l', 'L']) (hpadded : t.Padded (s ++ suffix)) :
    read t = if n < 2 ^ 63 then some (n : Int) else none := by
  have hstem : stem t = s := stem_of_padded h.ne_nil h.seen hsuffix hpadded
  obtain ⟨base, rest, hm, hn⟩ := h.marked
  rw [read_marked (hstem ▸ hm), signed?_numeral hn]

/-- The largest integer and the number behind it, in mixed case and in octal. -/
theorem limit_read :
    read " 0X7fffFFFFffffFFFFuLl\t".toList = some 9223372036854775807 ∧
      read "01000000000000000000000".toList = none := by
  have hlargest : Numeral 16 "7fffFFFFffffFFFF".toList 9223372036854775807 :=
    digits?_eq_some_iff.mp (by decide)
  have hbehind : Numeral 8 "1000000000000000000000".toList 9223372036854775808 :=
    digits?_eq_some_iff.mp (by decide)
  have hpadded : Text.Padded " 0X7fffFFFFffffFFFFuLl\t".toList
      ("0X7fffFFFFffffFFFF".toList ++ "uLl".toList) :=
    ⟨[' '], ['\t'], by decide, by decide, rfl⟩
  have hbare : Text.Padded "01000000000000000000000".toList
      ("01000000000000000000000".toList ++ []) := .refl _
  exact ⟨unsigned_read (.hexadecimal (.inr rfl) hlargest) (by decide) hpadded,
    unsigned_read (.octal hbehind) (by decide) hbare⟩

/-- **Only literals are read as integers, unless a sign is misplaced.** A text is read as `v` just
if `v` has 64 signed bits and the text, without white space around it and suffix, is a literal of
`v`, or would be one but for a sign behind the mark of the base, where no literal has one. -/
theorem literal_unless_misplaced (t : Text) (v : Int) :
    (read t = some v ↔
      (-2 ^ 63 ≤ v ∧ v < 2 ^ 63) ∧ (Literal (stem t) v ∨ Misplaced (stem t) v)) ∧
    ¬ (Misplaced (stem t) v ∧ ∃ w, Literal (stem t) w) := by
  refine ⟨⟨?_, ?_⟩, ?_⟩
  · intro h
    obtain ⟨base, rest, hm⟩ := exists_marked (stem t)
    rw [read_marked hm] at h
    obtain ⟨hrange, ⟨n, hn, rfl⟩ | hsigned⟩ := signed?_eq_some_iff.mp h
    · exact ⟨inRange_iff.mp hrange, .inl (.unsigned (hm.unsigned hn))⟩
    · exact ⟨inRange_iff.mp hrange, hm.signed hsigned⟩
  · rintro ⟨hrange, hliteral | hmisplaced⟩
    · obtain ⟨base, rest, hm, h⟩ := hliteral.marked
      exact (read_marked hm).trans (signed?_eq_some_iff.mpr ⟨inRange_iff.mpr hrange, h⟩)
    · obtain ⟨base, rest, hm, h⟩ := hmisplaced.marked
      exact (read_marked hm).trans (signed?_eq_some_iff.mpr ⟨inRange_iff.mpr hrange, .inr h⟩)
  · rintro ⟨hmisplaced, w, hliteral⟩
    exact hmisplaced.not_literal hliteral

/-- A sign behind the mark of a base is read, and the text is no literal. -/
theorem misplaced_sign_read :
    read "0x-1".toList = some (-1) ∧ ¬ ∃ v, Literal (stem "0x-1".toList) v := by
  have hone : Numeral 16 "1".toList 1 := digits?_eq_some_iff.mp (by decide)
  have hmisplaced : Misplaced (stem "0x-1".toList) (-1) := .hexadecimal (.inl rfl) (.minus hone)
  refine ⟨by decide, ?_⟩
  rintro ⟨v, hliteral⟩
  exact hmisplaced.not_literal hliteral

end IncludeOnce.IntegerLiteral
