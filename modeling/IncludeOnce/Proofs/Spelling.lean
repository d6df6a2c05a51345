import IncludeOnce.Proofs.Wrapping
import Mathlib.Data.List.Forall2
import Mathlib.Data.List.TakeDrop

/-! Header names by other spellings.

A request that stands on a line of its own, with no line and no comment open before it, is
read by itself: what stands in front of it and what stands behind it are read as if the other
were not there (`Request.ofLines_text`). So a text may ask for headers under other names
(`Respelt`), and its lines are the same, one by one, but for the operands of those requests
(`Respelt.ofLines`). -/
namespace IncludeOnce

/-! ### Requests on lines of their own -/

namespace Comment

/-- There is a place in the text at which a comment would begin in code. -/
def opens : Text → Bool
  | [] => false
  | c :: rest => (c = '/' && (rest.head? = some '/' || rest.head? = some '*')) || opens rest

theorem opens_of_suffix (front : Text) {rest : Text} (h : opens (front ++ rest) = false) :
    opens rest = false := by
  induction front with
  | nil => exact h
  | cons c front ih => exact ih ((Bool.or_eq_false_iff.mp h).2)

/-- Text in which no comment can begin is left as it is, whatever literals are in it. -/
theorem stripFrom_closed {mode : Mode} {t : Text} (hmode : mode ≠ .block)
    (h : opens t = false) : stripFrom mode t = (t, false) := by
  -- The cases are those of the modes: three in a block comment, two in a literal, three in code.
  fun_induction stripFrom mode t with
  | case1 | case2 | case3 => exact absurd rfl hmode
  | case4 quote c rest out still heq ih =>
    have hrest := ih hmode (opens_of_suffix ['\\', c] h)
    rw [heq] at hrest
    cases hrest
    rfl
  | case5 quote c rest hnot out still heq ih =>
    have hrest := ih (by split <;> rintro ⟨⟩) (opens_of_suffix [c] h)
    rw [heq] at hrest
    cases hrest
    rfl
  | case6 | case7 => cases h
  | case8 c rest hline hblock out still heq ih =>
    have hrest := ih (by split <;> rintro ⟨⟩) (opens_of_suffix [c] h)
    rw [heq] at hrest
    cases hrest
    rfl
  | case9 => rfl

/-- A literal that closes only at the end of the text is left as it is. -/
theorem stripFrom_literal {quote : Char} :
    ∀ {t : Text}, quote ∉ t → stripFrom (.literal quote) (t ++ [quote]) = (t ++ [quote], false)
  | [], _ => by
    rw [List.nil_append, stripFrom, if_pos rfl, stripFrom]
    · rintro ⟨⟩
    · rintro c rest _ ⟨⟩
  | c :: rest, h => by
    obtain ⟨hc, hrest⟩ := not_or.mp (List.mem_cons.not.mp h)
    -- A backslash takes the next character along, be it the closing quote.
    by_cases hback : c = '\\'
    · subst hback
      cases rest with
      | nil =>
        rw [List.cons_append, List.nil_append, stripFrom, stripFrom]
        rintro ⟨⟩
      | cons d rest =>
        have hrest : quote ∉ rest := fun hq => hrest (.tail _ hq)
        rw [List.cons_append, List.cons_append, stripFrom, stripFrom_literal hrest]
    · rw [List.cons_append, stripFrom, if_neg (Ne.symm hc), stripFrom_literal hrest]
      exact fun _ _ he => absurd he hback

/-- A character that is no part of an opening does not make one at the end. -/
theorem opens_concat {c : Char} (hline : c ≠ '/') (hblock : c ≠ '*') (t : Text) :
    opens (t ++ [c]) = opens t := by
  induction t with
  | nil => simp [opens, hline]
  | cons d rest ih =>
    rw [List.cons_append, opens, opens, ih]
    cases rest with
    | nil => simp [hline, hblock]
    | cons => rfl

end Comment

namespace HeaderName

/-- A header name that is read back as it is written: it is not empty, it does not close
early, and nothing in it is taken for a comment. -/
structure IsSpelling (h : HeaderName) : Prop where
  nonempty : h.name ≠ []
  closes : h.delimiter.closing ∉ h.name
  strips : h.delimiter = .angled → Comment.opens h.name = false

namespace IsSpelling

variable {h : HeaderName} (hs : h.IsSpelling)
include hs

theorem read_text : read h.text = some (h, []) := by
  obtain ⟨name, d⟩ := h
  have hopening : Delimiter.ofOpening? d.opening = some d := by cases d <;> rfl
  have hall : ∀ c ∈ name, decide (c ≠ d.closing) = true := by
    intro c hc
    exact decide_eq_true fun he => hs.closes (he ▸ hc)
  have hspan : (name ++ [d.closing]).span (· ≠ d.closing) = (name, [d.closing]) := by
    rw [List.span_eq_takeWhile_dropWhile, List.takeWhile_append_of_pos hall,
      List.dropWhile_append_of_pos hall, List.takeWhile_cons_of_neg (by simp),
      List.dropWhile_cons_of_neg (by simp), List.append_nil]
  obtain ⟨c, rest, rfl⟩ := List.exists_cons_of_ne_nil hs.nonempty
  simp only [text, List.cons_append, read, hopening]
  rw [← List.cons_append, hspan]

/-- Nothing is stripped from the name. -/
theorem strip_text : Comment.strip false h.text = (h.text, false) := by
  obtain ⟨name, d⟩ := h
  show Comment.stripFrom .code (d.opening :: (name ++ [d.closing])) =
    (d.opening :: (name ++ [d.closing]), false)
  cases d with
  | quoted =>
    have hname : Comment.stripFrom (.literal '"') (name ++ ['"']) = (name ++ ['"'], false) :=
      Comment.stripFrom_literal hs.closes
    show Comment.stripFrom .code ('"' :: (name ++ ['"'])) = _
    rw [Comment.stripFrom, if_pos (by decide), hname]
    · rfl
    · rintro _ ⟨⟩
    · rintro _ ⟨⟩
  | angled =>
    have hname : Comment.opens (name ++ ['>']) = false :=
      (Comment.opens_concat (by decide) (by decide) name).trans (hs.strips rfl)
    exact Comment.stripFrom_closed (by rintro ⟨⟩) hname

theorem isTight_text : h.text.IsTight := by
  obtain ⟨name, d⟩ := h
  refine ⟨⟨d.opening, rfl, by cases d <;> rfl⟩, ⟨d.closing, ?_, by cases d <;> rfl⟩⟩
  exact List.getLast?_concat

end IsSpelling

end HeaderName

theorem Numbered.later_comp {α : Type} (m n : Nat) :
    (Numbered.later n ∘ Numbered.later m : Numbered α → Numbered α) = Numbered.later (m + n) := by
  funext l
  exact congrArg (Numbered.mk · l.content) (Nat.add_assoc l.line m n)

namespace Request

variable {r : Request} (h : r.header.IsSpelling)
include h

theorem isPlain_text : Line.IsPlain r.text where
  ends := by
    have hlast : r.text.getLast? = some r.header.delimiter.closing := by
      rw [text, HeaderName.text, List.cons_append, ← List.cons_append, ← List.cons_append,
        ← List.append_assoc]
      exact List.getLast?_concat
    rw [Line.continues, hlast]
    cases r.header.delimiter <;> decide
  strips := by
    have hplain : ('#' :: r.kind.word.toList ++ [' ']).all Comment.isPlain = true := by
      cases r.kind <;> decide
    have hstrip := Comment.strip_append hplain r.header.text
    rw [h.strip_text, List.append_assoc] at hstrip
    exact hstrip

theorem ofStripped_text :
    Line.ofStripped r.text = .command (.request r.kind r.header.text) := by
  obtain ⟨kind, header⟩ := r
  have hdirective : text ⟨kind, header⟩ = Line.directive kind.word.toList header.text := rfl
  rw [hdirective, Line.ofStripped_directive (by cases kind <;> decide) h.isTight_text]
  cases kind <;> rfl

/-- A request that stands by itself is read as it is, between what stands in front of it and
what stands behind it. -/
theorem ofLines_text {front : List Text} (hfront : Line.IsClosed front) (back : List Text) :
    Line.ofLines (front ++ r.text :: back) =
      Line.ofLines front ++ ⟨front.length + 1, .command (.request r.kind r.header.text)⟩ ::
        (Line.ofLines back).map (·.later (front.length + 1)) := by
  rw [Line.ofLines_append hfront, Line.ofLines_cons (isPlain_text h), ofStripped_text h,
    List.map_cons, List.map_map, Numbered.later_comp, Nat.add_comm front.length]
  rfl

end Request

/-! ### Other names for the same headers -/

/-- Physical lines that ask for some headers under other names. Each request in question
stands by itself: nothing is left open in front of it. -/
inductive Respelt (same : HeaderName → HeaderName → Prop) : List Text → List Text → Prop
  | refl (lines : List Text) : Respelt same lines lines
  | request {front back back' : List Text} {h h' : HeaderName} (kind : RequestKind)
    (hfront : Line.IsClosed front) (hs : h.IsSpelling) (hs' : h'.IsSpelling) (hsame : same h h')
    (hback : Respelt same back back') :
    Respelt same (front ++ Request.text ⟨kind, h⟩ :: back)
      (front ++ Request.text ⟨kind, h'⟩ :: back')

/-- A line, and a line that may ask for its header under another name. -/
inductive Line.Respelt (same : HeaderName → HeaderName → Prop) : Line → Line → Prop
  | refl (line : Line) : Respelt same line line
  | request {h h' : HeaderName} (kind : RequestKind) (hs : h.IsSpelling) (hs' : h'.IsSpelling)
    (hsame : same h h') :
    Respelt same (.command (.request kind h.text)) (.command (.request kind h'.text))

/-- The same for lines with numbers, which stay. -/
inductive Numbered.Respelt (same : HeaderName → HeaderName → Prop) :
    Numbered Line → Numbered Line → Prop
  | at {line line' : Line} (number : Nat) (h : line.Respelt same line') :
    Respelt same ⟨number, line⟩ ⟨number, line'⟩

theorem Numbered.Respelt.refl (same : HeaderName → HeaderName → Prop)
    (lines : List (Numbered Line)) : List.Forall₂ (Numbered.Respelt same) lines lines :=
  List.forall₂_same.mpr fun l _ => .at l.line (.refl l.content)

/-- **Other names change nothing but the operands of the requests** that are made under
them. -/
theorem Respelt.ofLines {same : HeaderName → HeaderName → Prop} {lines lines' : List Text}
    (h : Respelt same lines lines') :
    List.Forall₂ (Numbered.Respelt same) (Line.ofLines lines) (Line.ofLines lines') := by
  induction h with
  | refl lines => exact Numbered.Respelt.refl same (Line.ofLines lines)
  | @request front back back' h h' kind hfront hs hs' hsame hback ih =>
    have hbehind : List.Forall₂ (Numbered.Respelt same)
        ((Line.ofLines back).map (·.later (front.length + 1)))
        ((Line.ofLines back').map (·.later (front.length + 1))) := by
      rw [List.forall₂_map_left_iff, List.forall₂_map_right_iff]
      refine ih.imp ?_
      rintro _ _ ⟨number, hl⟩
      exact .at _ hl
    rw [Request.ofLines_text hs hfront, Request.ofLines_text hs' hfront]
    exact List.rel_append (Numbered.Respelt.refl same _)
      (.cons (.at _ (.request kind hs hs' hsame)) hbehind)

end IncludeOnce
