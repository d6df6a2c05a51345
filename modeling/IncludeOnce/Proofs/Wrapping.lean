import IncludeOnce.Proofs.Walk
import Mathlib.Data.List.TakeWhile

/-! Text with lines put around it.

Lines are closed if they leave no block comment open at their end and no line that goes on:
what is put behind them is read as it would be read alone, with other line numbers
(`ofLines_append`). A body of lines is whole if it leaves no section open either. What is put
in front of a whole body, or behind it, is then read by itself, and so is the body.
`ofLines_once` and `ofLines_guarded` say so for the two ways of making a header be read
once. -/
namespace IncludeOnce

/-! ### Identifiers -/

namespace Identifier

/-- A text that is an identifier and nothing else. -/
def isWhole : Text → Bool
  | [] => false
  | c :: rest => isFirst c && rest.all isNext

theorem isNext_of_isFirst {c : Char} (h : isFirst c = true) : isNext c = true := by
  simp only [isFirst, isNext, Char.isAlphanum, Bool.or_eq_true] at h ⊢
  exact h.imp id .inl

theorem isNext_range {c : Char} (h : isNext c = true) :
    c.toNat = 95 ∨ (48 ≤ c.toNat ∧ c.toNat ≤ 57) ∨ (65 ≤ c.toNat ∧ c.toNat ≤ 90) ∨
      (97 ≤ c.toNat ∧ c.toNat ≤ 122) := by
  have hclass : (c = '_' || ((decide ('A'.val ≤ c.val ∧ c.val ≤ 'Z'.val) ||
      ('a'.val ≤ c.val && c.val ≤ 'z'.val)) || ('0'.val ≤ c.val && c.val ≤ '9'.val))) = true := h
  simp only [Bool.or_eq_true, Bool.and_eq_true, decide_eq_true_eq, UInt32.le_iff_toNat_le] at hclass
  rcases hclass with rfl | ((h | h) | h)
  · exact .inl rfl
  · simp at h; omega
  · simp at h; omega
  · simp at h; omega

theorem not_isBlank {c : Char} (h : isNext c = true) : Text.isBlank c = false := by
  have hr := isNext_range h
  simp only [Text.isBlank, Bool.or_eq_false_iff, Bool.and_eq_false_iff, decide_eq_false_iff_not,
    beq_eq_false_iff_ne]
  omega

section
variable {name : Text} (h : isWhole name = true)
include h

theorem all_isNext : name.all isNext = true := by
  cases name with
  | nil => cases h
  | cons c rest =>
    obtain ⟨hc, hrest⟩ := (Bool.and_eq_true _ _).mp h
    rw [List.all_cons, isNext_of_isFirst hc, hrest]
    rfl

theorem split_isWhole : split name = (name, []) := by
  cases name with
  | nil => cases h
  | cons c rest =>
    obtain ⟨hc, hrest⟩ := (Bool.and_eq_true _ _).mp h
    have hall := List.all_eq_true.mp hrest
    rw [split, if_pos hc, List.takeWhile_eq_self_iff.mpr hall,
      List.dropWhile_eq_nil_iff.mpr hall]
    rfl

theorem first?_isWhole : first? name = some name := by
  cases name with
  | nil => cases h
  | cons c rest => rw [first?, split_isWhole h]

end

end Identifier

/-! ### A directive and its operand -/

namespace Text

/-- A text that begins and ends with something that is seen. -/
structure IsTight (t : Text) : Prop where
  first : ∃ c, t.head? = some c ∧ isBlank c = false
  last : ∃ c, t.getLast? = some c ∧ isBlank c = false

theorem isTight_of_seen {t : Text} (hne : t ≠ []) (h : ∀ c ∈ t, isBlank c = false) : IsTight t :=
  ⟨⟨_, List.head?_eq_some_head hne, h _ (List.head_mem hne)⟩,
    ⟨_, List.getLast?_eq_some_getLast hne, h _ (List.getLast_mem hne)⟩⟩

theorem isTight_isWhole {name : Text} (h : Identifier.isWhole name = true) : IsTight name := by
  have hne : name ≠ [] := by rintro rfl; cases h
  exact isTight_of_seen hne fun c hc =>
    Identifier.not_isBlank (List.all_eq_true.mp (Identifier.all_isNext h) c hc)

namespace IsTight

variable {t : Text} (h : IsTight t)
include h

theorem trimStart_append (rest : Text) : trimStart (t ++ rest) = t ++ rest := by
  obtain ⟨c, hc, hseen⟩ := h.first
  obtain ⟨more, rfl⟩ := List.head?_eq_some_iff.mp hc
  rw [trimStart, List.cons_append, List.dropWhile_cons_of_neg (by simp [hseen])]

theorem trimStart_eq : trimStart t = t := by
  have happend := h.trimStart_append []
  rwa [List.append_nil] at happend

theorem trimEnd_append (front : Text) : trimEnd (front ++ t) = front ++ t := by
  obtain ⟨c, hc, hseen⟩ := h.last
  obtain ⟨more, rfl⟩ := List.getLast?_eq_some_iff.mp hc
  rw [trimEnd, dropEndWhile, ← List.append_assoc, List.reverse_concat,
    List.dropWhile_cons_of_neg (by simp [hseen]), List.reverse_cons, List.reverse_reverse]

end IsTight

end Text

/-- The line of a directive with an operand behind it. -/
def Line.directive (word operand : Text) : Text := '#' :: word ++ ' ' :: operand

section
variable {word operand : Text} (hw : Identifier.isWhole word = true) (ho : operand.IsTight)
include hw ho

theorem Identifier.split_directive : split (word ++ ' ' :: operand) = (word, operand) := by
  cases word with
  | nil => cases hw
  | cons c rest =>
    obtain ⟨hc, hrest⟩ := (Bool.and_eq_true _ _).mp hw
    have hall := List.all_eq_true.mp hrest
    have htake : (rest ++ ' ' :: operand).takeWhile isNext = rest := by
      rw [List.takeWhile_append_of_pos hall, List.takeWhile_cons_of_neg (by decide),
        List.append_nil]
    have hdrop : (rest ++ ' ' :: operand).dropWhile isNext = ' ' :: operand := by
      rw [List.dropWhile_append_of_pos hall, List.dropWhile_cons_of_neg (by decide)]
    have htrim : Text.trimStart (' ' :: operand) = operand := by
      rw [Text.trimStart, List.dropWhile_cons_of_pos (by decide)]
      exact ho.trimStart_eq
    rw [List.cons_append, split, if_pos hc, htake, hdrop, htrim]

theorem Line.ofStripped_directive :
    ofStripped (directive word operand) = ofDirective word operand := by
  have htrim : Text.trim (directive word operand) = '#' :: (word ++ ' ' :: operand) := by
    rw [Text.trim, directive, Text.trimStart, List.cons_append,
      List.dropWhile_cons_of_neg (by decide)]
    have := ho.trimEnd_append ('#' :: word ++ [' '])
    simpa using this
  have hsplit : Identifier.split (Text.trimStart (word ++ ' ' :: operand)) = (word, operand) := by
    rw [(Text.isTight_isWhole hw).trimStart_append, Identifier.split_directive hw ho]
  rw [ofStripped, htrim]
  show ofHash (word ++ ' ' :: operand) = _
  rw [ofHash, hsplit]
  cases word with
  | nil => cases hw
  | cons c rest => rfl

end

/-! ### Lines by themselves -/

/-- The same, further down. -/
def Numbered.later {α : Type} (n : Nat) (l : Numbered α) : Numbered α := ⟨l.line + n, l.content⟩

namespace Line

/-- The logical lines that physical lines make, stripped and told apart. -/
def ofLines (lines : List Text) : List (Numbered Line) :=
  (Comment.stripAll false (splice lines)).1.map fun l => ⟨l.line, ofStripped l.content⟩

theorem ofText_eq (t : Text) : ofText t = ofLines t.lines := rfl

theorem spliceFrom_later (n first next : Nat) (joined : Text) (rest : List Text) :
    spliceFrom (first + n) joined (next + n) rest =
      (spliceFrom first joined next rest).map (·.later n) := by
  induction rest generalizing first joined next with
  | nil => rfl
  | cons line rest ih =>
    rw [spliceFrom, spliceFrom, Nat.add_right_comm]
    split
    · exact ih ..
    · rw [List.map_cons, ← ih]
      rfl

theorem spliceFrom_ne_nil (first next : Nat) (joined : Text) (rest : List Text) :
    spliceFrom first joined next rest ≠ [] := by
  induction rest generalizing first joined next with
  | nil => exact List.cons_ne_nil _ _
  | cons line rest ih =>
    rw [spliceFrom]
    split
    · exact ih first (next + 1) _
    · exact List.cons_ne_nil _ _

theorem spliceFrom_append (first k : Nat) (joined : Text) (rest back : List Text)
    (h : ∀ l ∈ (spliceFrom first joined (k + 1) rest).getLast?, continues l.content = false) :
    spliceFrom first joined (k + 1) (rest ++ back) =
      spliceFrom first joined (k + 1) rest ++ (splice back).map (·.later (k + rest.length)) := by
  induction rest generalizing first joined k with
  | nil =>
    have hj : continues joined = false := h ⟨first, joined⟩ rfl
    cases back with
    | nil => rfl
    | cons line back =>
      show (if continues joined = true then _ else _) = _
      rw [if_neg (by simp [hj]), splice, ← spliceFrom_later, Nat.add_comm 1, Nat.add_comm 2]
      rfl
  | cons line rest ih =>
    have hlength : k + (line :: rest).length = k + 1 + rest.length := by
      rw [List.length_cons]
      omega
    rw [List.cons_append, hlength]
    rw [spliceFrom] at h ⊢
    rw [spliceFrom]
    cases hc : continues joined with
    | true =>
      rw [hc, if_pos rfl] at h
      rw [if_pos rfl, if_pos rfl]
      exact ih _ _ _ h
    | false =>
      rw [hc, if_neg (by decide)] at h
      rw [if_neg (by decide), if_neg (by decide), List.cons_append]
      refine congrArg (_ :: ·) (ih _ _ _ fun l hl => h l ?_)
      rw [List.getLast?_cons_of_ne_nil (spliceFrom_ne_nil _ _ _ _)]
      exact hl

/-- What is put behind lines that do not go on is read by itself. -/
theorem splice_append {lines : List Text}
    (h : ∀ l ∈ (splice lines).getLast?, continues l.content = false) (back : List Text) :
    splice (lines ++ back) = splice lines ++ (splice back).map (·.later lines.length) := by
  cases lines with
  | nil => exact (List.map_id _).symm
  | cons line rest =>
    rw [List.cons_append, splice, splice, spliceFrom_append _ _ _ _ _ h, List.length_cons,
      Nat.add_comm rest.length]

end Line

namespace Comment

/-- A character at which no comment and no literal begins. -/
def isPlain (c : Char) : Bool := c ≠ '/' && !isQuote c

theorem isPlain_of_isNext {c : Char} (h : Identifier.isNext c = true) : isPlain c = true := by
  have hr := Identifier.isNext_range h
  have hne : ∀ d : Char, d = '/' ∨ d = '"' ∨ d = '\'' → c ≠ d := by
    rintro d (rfl | rfl | rfl) rfl
    · revert hr; decide
    · revert hr; decide
    · revert hr; decide
  simp [isPlain, isQuote, hne]

/-- Plain text in front of other text is left as it is. -/
theorem strip_append {front : Text} (h : front.all isPlain = true) (rest : Text) :
    strip false (front ++ rest) = (front ++ (strip false rest).1, (strip false rest).2) := by
  show stripFrom .code (front ++ rest) =
    (front ++ (stripFrom .code rest).1, (stripFrom .code rest).2)
  induction front with
  | nil => rfl
  | cons c front ih =>
    obtain ⟨hc, hfront⟩ := (Bool.and_eq_true _ _).mp (List.all_cons ▸ h)
    obtain ⟨hslash, hquote⟩ := (Bool.and_eq_true _ _).mp hc
    have hslash : c ≠ '/' := by simpa using hslash
    have hquote : isQuote c = false := by simpa using hquote
    rw [List.cons_append, stripFrom, hquote, if_neg (by decide), ih hfront]
    · rfl
    · exact fun _ hs => absurd hs hslash
    · exact fun _ hs => absurd hs hslash

theorem stripAll_later (n : Nat) (inBlock : Bool) (lines : List (Numbered Text)) :
    stripAll inBlock (lines.map (·.later n)) =
      ((stripAll inBlock lines).1.map (·.later n), (stripAll inBlock lines).2) := by
  induction lines generalizing inBlock with
  | nil => rfl
  | cons line rest ih =>
    obtain ⟨number, content⟩ := line
    rw [List.map_cons]
    show stripAll inBlock (⟨number + n, content⟩ :: _) = _
    simp only [stripAll, ih]
    rfl

theorem stripAll_append (inBlock : Bool) (a b : List (Numbered Text)) :
    stripAll inBlock (a ++ b) =
      ((stripAll inBlock a).1 ++ (stripAll (stripAll inBlock a).2 b).1,
        (stripAll (stripAll inBlock a).2 b).2) := by
  induction a generalizing inBlock with
  | nil => rfl
  | cons line rest ih =>
    obtain ⟨number, content⟩ := line
    simp only [List.cons_append, stripAll, ih]

end Comment

namespace Line

/-- A line that stands by itself: it does not go on, and there is no comment in it. -/
structure IsPlain (line : Text) : Prop where
  ends : continues line = false
  strips : Comment.strip false line = (line, false)

/-- Physical lines that leave no line and no comment open. -/
structure IsClosed (lines : List Text) : Prop where
  ends : ∀ l ∈ (splice lines).getLast?, continues l.content = false
  strips : (Comment.stripAll false (splice lines)).2 = false

/-- Physical lines that leave no section open either. -/
structure IsWhole (lines : List Text) : Prop extends IsClosed lines where
  nests : nestAll [] (ofLines lines) = some []

theorem IsPlain.isClosed {line : Text} (h : IsPlain line) : IsClosed [line] where
  ends := by
    rintro l ⟨⟩
    exact h.ends
  strips := by
    show (Comment.stripAll false [⟨1, line⟩]).2 = false
    rw [Comment.stripAll, h.strips]
    rfl

theorem IsPlain.ofLines_eq {line : Text} (h : IsPlain line) :
    ofLines [line] = [⟨1, ofStripped line⟩] := by
  show (Comment.stripAll false [⟨1, line⟩]).1.map _ = _
  rw [Comment.stripAll, h.strips]
  rfl

/-- What is put behind closed lines is read by itself. -/
theorem ofLines_append {lines : List Text} (h : IsClosed lines) (back : List Text) :
    ofLines (lines ++ back) = ofLines lines ++ (ofLines back).map (·.later lines.length) := by
  unfold ofLines
  rw [splice_append h.ends, Comment.stripAll_append, h.strips, Comment.stripAll_later,
    List.map_append, List.map_map, List.map_map]
  rfl

theorem ofLines_cons {line : Text} (h : IsPlain line) (rest : List Text) :
    ofLines (line :: rest) = ⟨1, ofStripped line⟩ :: (ofLines rest).map (·.later 1) := by
  rw [← List.singleton_append, ofLines_append h.isClosed, h.ofLines_eq]
  rfl

theorem ofLines_concat {lines : List Text} (h : IsClosed lines) {last : Text} (hl : IsPlain last) :
    ofLines (lines ++ [last]) = ofLines lines ++ [⟨lines.length + 1, ofStripped last⟩] := by
  rw [ofLines_append h, hl.ofLines_eq, Nat.add_comm]
  rfl

theorem isPlain_directive {word name : Text} (hw : Identifier.isWhole word = true)
    (hn : Identifier.isWhole name = true) : IsPlain (directive word name) where
  ends := by
    have hne : name ≠ [] := by rintro rfl; cases hn
    have hlast := List.all_eq_true.mp (Identifier.all_isNext hn) _ (List.getLast_mem hne)
    have hr := Identifier.isNext_range hlast
    rw [continues, directive, List.getLast?_append, List.getLast?_cons_of_ne_nil hne,
      List.getLast?_eq_some_getLast hne]
    simp only [Option.some_or, decide_eq_false_iff_not, Option.some.injEq]
    intro he
    rw [he] at hr
    revert hr
    decide
  strips := by
    have hplain : ∀ t : Text, Identifier.isWhole t = true → t.all Comment.isPlain = true :=
      fun t ht => List.all_eq_true.mpr fun c hc =>
        Comment.isPlain_of_isNext (List.all_eq_true.mp (Identifier.all_isNext ht) c hc)
    have hall : (directive word name).all Comment.isPlain = true := by
      rw [directive, List.all_append, List.all_cons, List.all_cons, hplain word hw,
        hplain name hn]
      decide
    have happend : Comment.strip false (directive word name ++ []) =
      (directive word name ++ [], false) := Comment.strip_append hall []
    rwa [List.append_nil] at happend

/-- The first line of a header that says it is to be read once. -/
def pragmaOnce : Text := directive "pragma".toList "once".toList

/-- The lines of a header that says it is to be read once. -/
theorem ofLines_once (body : List Text) :
    ofLines (pragmaOnce :: body) =
      ⟨1, .command (.pragma "once".toList)⟩ :: (ofLines body).map (·.later 1) :=
  ofLines_cons (isPlain_directive rfl rfl) body

/-- A body inside an include guard. -/
def guarded (name : Name) (body : List Text) : List Text :=
  directive "ifndef".toList name :: directive "define".toList name :: (body ++ ["#endif".toList])

/-- The lines of a header inside an include guard. -/
theorem ofLines_guarded {name : Name} (hn : Identifier.isWhole name = true) {body : List Text}
    (hb : IsWhole body) :
    ofLines (guarded name body) =
      ⟨1, .opening (.ifUndefined name)⟩ :: ⟨2, .command (.define name)⟩ ::
        ((ofLines body).map (·.later 2) ++ [⟨body.length + 3, .closing⟩]) := by
  have hend : IsPlain "#endif".toList := ⟨by decide, by decide⟩
  rw [guarded, ofLines_cons (isPlain_directive (by decide) hn),
    ofLines_cons (isPlain_directive (by decide) hn), ofLines_concat hb.toIsClosed hend,
    ofStripped_directive (by decide) (Text.isTight_isWhole hn),
    ofStripped_directive (by decide) (Text.isTight_isWhole hn), List.map_cons, List.map_map,
    List.map_append]
  rfl

end Line

/-! ### The same for groups -/

mutual
/-- The same group, further down. -/
def Group.later (n : Nat) : Group → Group
  | .done => .done
  | .plain number line rest => .plain (number + n) line (rest.later n)
  | .conditional number opening body tail rest =>
    .conditional (number + n) opening (body.later n) (tail.later n) (rest.later n)

def Tail.later (n : Nat) : Tail → Tail
  | .closing number => .closing (number + n)
  | .elseIf number operand body more => .elseIf (number + n) operand (body.later n) (more.later n)
  | .otherwise number body closing => .otherwise (number + n) (body.later n) (closing + n)
end

mutual
theorem Group.lines_later (n : Nat) (g : Group) :
    (g.later n).lines = g.lines.map (·.later n) := by
  cases g with
  | done => rfl
  | plain number line rest =>
    rw [Group.later, Group.lines, Group.lines, Group.lines_later n rest]
    rfl
  | conditional number opening body tail rest =>
    rw [Group.later, Group.lines, Group.lines, Group.lines_later n body, Tail.lines_later n tail,
      Group.lines_later n rest, List.map_cons, List.map_append, List.map_append]
    rfl

theorem Tail.lines_later (n : Nat) (t : Tail) : (t.later n).lines = t.lines.map (·.later n) := by
  cases t with
  | closing number => rfl
  | elseIf number operand body more =>
    rw [Tail.later, Tail.lines, Tail.lines, Group.lines_later n body, Tail.lines_later n more,
      List.map_cons, List.map_append]
    rfl
  | otherwise number body closing =>
    rw [Tail.later, Tail.lines, Tail.lines, Group.lines_later n body, List.map_cons,
      List.map_append]
    rfl
end

/-- A group behind a line that says that its file is to be read once. -/
def Group.once (g : Group) : Group := .plain 1 (.command (.pragma "once".toList)) (g.later 1)

theorem Test.isNamed_isWhole {name : Name} (hn : Identifier.isWhole name = true) :
    (Test.ifUndefined name).isNamed = true := by
  rw [Test.isNamed, Identifier.first?_isWhole hn]
  rfl

/-- A group inside an include guard that ends at a line. -/
def Group.guarded {name : Name} (hn : Identifier.isWhole name = true) (closing : Nat)
    (g : Group) : Group :=
  .conditional 1 ⟨.ifUndefined name, Test.isNamed_isWhole hn⟩
    (.plain 2 (.command (.define name)) (g.later 2)) (.closing closing) .done

/-- A whole body is a group, and so it is behind a line and inside a guard. -/
theorem Line.IsWhole.exists_group {body : List Text} (hb : Line.IsWhole body) {name : Name}
    (hn : Identifier.isWhole name = true) :
    ∃ g : Group, Line.ofLines body = g.lines ∧
      Line.ofLines (Line.pragmaOnce :: body) = g.once.lines ∧
      Line.ofLines (Line.guarded name body) = (g.guarded hn (body.length + 3)).lines := by
  obtain ⟨g, hg⟩ := Line.splits_of_nestAll [] _ hb.nests
  refine ⟨g, hg, ?_, ?_⟩
  · rw [Line.ofLines_once, hg, Group.once, Group.lines, Group.lines_later]
    rfl
  · rw [Line.ofLines_guarded hn hb, hg, ← Group.lines_later]
    simp only [Group.guarded, Group.lines, Tail.lines, Plain.line, List.append_nil,
      List.cons_append]

end IncludeOnce
