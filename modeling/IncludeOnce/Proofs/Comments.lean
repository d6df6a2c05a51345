import IncludeOnce.Proofs.Failure
import IncludeOnce.Proofs.Paths
import IncludeOnce.Proofs.Spelling

/-! Comments in a text as a whole.

Comments are removed one line after the other, and all that is carried from a line to the next is
whether a block comment is open. `Uncommented` reads a text as a whole instead: from left to right
it is cut into literals, comments and single characters, where a literal and a line comment end
with their line at the latest and a block comment goes on over any number of lines.

`stripAll_uncommented_iff` says that both come to the same, line by line. What is left of a line has
no comment in it (`strip_idempotent`): nothing that was apart is brought together so that a comment
or a literal begins that was not there. -/
namespace IncludeOnce

/-! ### Logical lines -/

/-- There is no line end in a line. -/
theorem Text.not_mem_of_mem_lines {t line : Text} (h : line ∈ t.lines) : '\n' ∉ line := by
  fun_induction Text.lines t generalizing line with
  | case1 => cases h
  | case2 rest ih => grind
  | case3 rest ih => grind
  | case4 c rest hline hreturn heq ih => grind
  | case5 c rest hline hreturn first more heq ih => grind

theorem Line.spliceFrom_not_mem {first next : Nat} {joined : Text} {rest : List Text}
    (hjoined : '\n' ∉ joined) (hrest : ∀ line ∈ rest, '\n' ∉ line) :
    ∀ line ∈ spliceFrom first joined next rest, '\n' ∉ line.content := by
  induction rest generalizing first next joined with
  | nil => simpa [spliceFrom] using hjoined
  | cons line rest ih =>
    obtain ⟨hline, hlater⟩ := List.forall_mem_cons.mp hrest
    rw [spliceFrom]
    split
    · refine ih ?_ hlater
      intro hmem
      rcases List.mem_append.mp hmem with h | h
      · exact hjoined (List.dropLast_subset joined h)
      · exact hline h
    · rw [List.forall_mem_cons]
      exact ⟨hjoined, ih hline hlater⟩

/-- Nor is there one in a logical line. -/
theorem Line.splice_not_mem (t : Text) : ∀ line ∈ splice t.lines, '\n' ∉ line.content := by
  have hlines : ∀ line ∈ t.lines, '\n' ∉ line := fun _ h => Text.not_mem_of_mem_lines h
  cases hsplit : t.lines with
  | nil => simp [splice]
  | cons line rest =>
    rw [hsplit, List.forall_mem_cons] at hlines
    exact spliceFrom_not_mem hlines.1 hlines.2

namespace Comment

/-! ### A text as a whole -/

/-- What may stand in a literal before it closes. A backslash takes the next character along. -/
inductive Inside (quote : Char) : Text → Prop
  | nil : Inside quote []
  | plain {c : Char} {rest : Text} (hquote : c ≠ quote) (hback : c ≠ '\\') (hline : c ≠ '\n')
    (h : Inside quote rest) : Inside quote (c :: rest)
  | escaped {c : Char} {rest : Text} (hline : c ≠ '\n') (h : Inside quote rest) :
    Inside quote ('\\' :: c :: rest)

/-- The line ends in front of this text. -/
def AtLineEnd (rest : Text) : Prop := ∀ c ∈ rest.head?, c = '\n'

/-- The line ends in a text. -/
def lineEnds (t : Text) : Text := t.filter (· = '\n')

/-- What is left of a text without its comments, and whether a block comment is open at its
end. -/
inductive Uncommented : Text → Text → Bool → Prop
  | nil : Uncommented [] [] false
  | copied {c : Char} {rest out : Text} {still : Bool} (hquote : isQuote c = false)
    (hline : ¬ ['/', '/'] <+: c :: rest) (hblock : ¬ ['/', '*'] <+: c :: rest)
    (h : Uncommented rest out still) : Uncommented (c :: rest) (c :: out) still
  | literal {quote : Char} {body rest out : Text} {still : Bool} (hquote : isQuote quote = true)
    (hbody : Inside quote body) (h : Uncommented rest out still) :
    Uncommented (quote :: body ++ quote :: rest) (quote :: body ++ quote :: out) still
  /-- A literal that is not closed. Its last character may be a backslash that has nothing to
  take along. -/
  | cutLiteral {quote : Char} {body tail rest out : Text} {still : Bool}
    (hquote : isQuote quote = true) (hbody : Inside quote body) (htail : tail = [] ∨ tail = ['\\'])
    (hrest : AtLineEnd rest) (h : Uncommented rest out still) :
    Uncommented (quote :: body ++ tail ++ rest) (quote :: body ++ tail ++ out) still
  | lineComment {content rest out : Text} {still : Bool} (hcontent : '\n' ∉ content)
    (hrest : AtLineEnd rest) (h : Uncommented rest out still) :
    Uncommented ('/' :: '/' :: content ++ rest) out still
  /-- A block comment leaves the line ends in it, and a space behind them. -/
  | block {content rest out : Text} {still : Bool} (hcontent : ¬ ['*', '/'] <:+: content)
    (h : Uncommented rest out still) :
    Uncommented ('/' :: '*' :: content ++ '*' :: '/' :: rest) (lineEnds content ++ ' ' :: out) still
  | openBlock {content : Text} (hcontent : ¬ ['*', '/'] <:+: content) :
    Uncommented ('/' :: '*' :: content) (lineEnds content) true

/-- No line goes on where one ends. -/
theorem AtLineEnd.eq_nil {rest line : Text} (h : AtLineEnd rest) (hbegins : line <+: rest)
    (hline : '\n' ∉ line) : line = [] := by
  cases line with
  | nil => rfl
  | cons c line =>
    obtain ⟨more, rfl⟩ := hbegins
    exact absurd (h c rfl) (fun hc => hline (hc ▸ List.mem_cons_self))

/-- A line comment comes to the end of its line. -/
theorem exists_lineEnd (t : Text) :
    ∃ content rest, t = content ++ rest ∧ '\n' ∉ content ∧ AtLineEnd rest := by
  induction t with
  | nil => exact ⟨[], [], rfl, by simp, by simp [AtLineEnd]⟩
  | cons c t ih =>
    by_cases hline : c = '\n'
    · exact ⟨[], c :: t, rfl, by simp, by simp [AtLineEnd, hline]⟩
    · obtain ⟨content, rest, rfl, hcontent, hrest⟩ := ih
      exact ⟨c :: content, rest, rfl, by simp [Ne.symm hline, hcontent], hrest⟩

/-- A literal closes, or it comes to the end of its line. -/
theorem exists_inside (quote : Char) : ∀ t : Text, ∃ body rest, Inside quote body ∧
    t = body ++ rest ∧ (rest.head? = some quote ∨
      ∃ tail more, rest = tail ++ more ∧ (tail = [] ∨ tail = ['\\']) ∧ AtLineEnd more)
  | [] => ⟨[], [], .nil, rfl, .inr ⟨[], [], rfl, .inl rfl, by simp [AtLineEnd]⟩⟩
  | c :: t => by
    by_cases hquote : c = quote
    · exact ⟨[], c :: t, .nil, rfl, .inl (by rw [hquote]; rfl)⟩
    by_cases hline : c = '\n'
    · exact ⟨[], c :: t, .nil, rfl, .inr ⟨[], c :: t, rfl, .inl rfl, by simp [AtLineEnd, hline]⟩⟩
    by_cases hback : c = '\\'
    · subst hback
      cases t with
      | nil => exact ⟨[], ['\\'], .nil, rfl, .inr ⟨['\\'], [], rfl, .inr rfl, by simp [AtLineEnd]⟩⟩
      | cons d t =>
        by_cases hnext : d = '\n'
        · exact ⟨[], _, .nil, rfl, .inr ⟨['\\'], d :: t, rfl, .inr rfl, by simp [AtLineEnd, hnext]⟩⟩
        · obtain ⟨body, rest, hbody, rfl, hrest⟩ := exists_inside quote t
          exact ⟨'\\' :: d :: body, rest, .escaped hnext hbody, rfl, hrest⟩
    · obtain ⟨body, rest, hbody, rfl, hrest⟩ := exists_inside quote t
      exact ⟨c :: body, rest, .plain hquote hback hline hbody, rfl, hrest⟩

/-- A block comment closes, or it is open at the end of the text. -/
theorem exists_closing (t : Text) :
    (∃ content rest, t = content ++ '*' :: '/' :: rest ∧ ¬ ['*', '/'] <:+: content) ∨
      ¬ ['*', '/'] <:+: t := by
  induction t with
  | nil => exact .inr (by simp)
  | cons c t ih =>
    by_cases hhere : ['*', '/'] <+: c :: t
    · obtain ⟨rest, hrest⟩ := hhere
      exact .inl ⟨[], rest, hrest.symm, by simp⟩
    · rcases ih with ⟨content, rest, rfl, hcontent⟩ | hopen
      · refine .inl ⟨c :: content, rest, rfl, ?_⟩
        rw [List.infix_cons_iff, not_or]
        exact ⟨fun h => hhere (h.trans ⟨'*' :: '/' :: rest, rfl⟩), hcontent⟩
      · refine .inr ?_
        rw [List.infix_cons_iff, not_or]
        exact ⟨hhere, hopen⟩

/-- Every text can be read as a whole. -/
theorem exists_uncommented (t : Text) : ∃ out still, Uncommented t out still := by
  induction hlength : t.length using Nat.strongRecOn generalizing t with
  | ind n ih =>
    have shorter : ∀ rest : Text, rest.length < t.length →
        ∃ out still, Uncommented rest out still :=
      fun rest hrest => ih rest.length (hlength ▸ hrest) rest rfl
    cases t with
    | nil => exact ⟨[], false, .nil⟩
    | cons c t =>
      by_cases hline : ['/', '/'] <+: c :: t
      · obtain ⟨t', ht⟩ := hline
        rw [← ht] at shorter ⊢
        obtain ⟨content, rest, rfl, hcontent, hrest⟩ := exists_lineEnd t'
        obtain ⟨out, still, h⟩ := shorter rest (by simp; omega)
        refine ⟨out, still, ?_⟩
        show Uncommented ('/' :: '/' :: content ++ rest) out still
        exact .lineComment hcontent hrest h
      by_cases hblock : ['/', '*'] <+: c :: t
      · obtain ⟨t', ht⟩ := hblock
        rw [← ht] at shorter ⊢
        rcases exists_closing t' with ⟨content, rest, rfl, hcontent⟩ | hopen
        · obtain ⟨out, still, h⟩ := shorter rest (by simp; omega)
          exact ⟨_, still, .block hcontent h⟩
        · exact ⟨_, true, .openBlock hopen⟩
      cases hquote : isQuote c with
      | false =>
        obtain ⟨out, still, h⟩ := shorter t (by simp)
        exact ⟨c :: out, still, .copied hquote hline hblock h⟩
      | true =>
        obtain ⟨body, rest, hbody, rfl, hrest⟩ := exists_inside c t
        rcases hrest with hclosing | ⟨tail, more, rfl, htail, hmore⟩
        · obtain ⟨more, rfl⟩ := List.head?_eq_some_iff.mp hclosing
          obtain ⟨out, still, h⟩ := shorter more (by simp; omega)
          exact ⟨_, still, .literal hquote hbody h⟩
        · obtain ⟨out, still, h⟩ := shorter more (by simp; omega)
          refine ⟨c :: body ++ tail ++ out, still, ?_⟩
          rw [← List.append_assoc]
          exact .cutLiteral hquote hbody htail hmore h

/-! ### Line by line -/

/-- The mode in which a line is begun. -/
def modeAt (inBlock : Bool) : Mode := if inBlock then .block else .code

/-- A line that is read in a mode, and the lines behind it, with the line ends between them. -/
def stripJoined (mode : Mode) (line : Text) : List Text → Text × Bool
  | [] => stripFrom mode line
  | next :: more =>
    ((stripFrom mode line).1 ++ '\n' :: (stripJoined (modeAt (stripFrom mode line).2) next more).1,
      (stripJoined (modeAt (stripFrom mode line).2) next more).2)

/-- A text that is read line by line. -/
def scan (mode : Mode) (t : Text) : Text × Bool :=
  stripJoined mode ((t.pieces '\n').headD []) (t.pieces '\n').tail

theorem exists_pieces (t : Text) :
    ∃ line more, t.pieces '\n' = line :: more ∧ line <+: t ∧ '\n' ∉ line := by
  induction t with
  | nil => exact ⟨[], [], rfl, List.prefix_rfl, List.not_mem_nil⟩
  | cons c t ih =>
    by_cases hline : c = '\n'
    · refine ⟨[], Text.pieces '\n' t, ?_, List.nil_prefix, List.not_mem_nil⟩
      rw [Text.pieces, if_pos hline]
    · obtain ⟨line, more, hpieces, hbegins, hnot⟩ := ih
      refine ⟨c :: line, more, ?_, (List.prefix_cons_inj c).mpr hbegins, ?_⟩
      · rw [Text.pieces, if_neg hline, hpieces]
      · simp [Ne.symm hline, hnot]

/-- The first line of a text has its front. -/
theorem pieces_front {front t line : Text} {more : List Text} (hfront : '\n' ∉ front)
    (h : t.pieces '\n' = line :: more) : (front ++ t).pieces '\n' = (front ++ line) :: more := by
  induction front with
  | nil => exact h
  | cons c front ih =>
    have hc : c ≠ '\n' := fun hc => hfront (hc ▸ List.mem_cons_self)
    have hrest := ih fun hmem => hfront (List.mem_cons_of_mem c hmem)
    rw [List.cons_append, Text.pieces, if_neg hc, hrest]
    rfl

/-- What reading a line does to its front, it does to the front of a text. -/
theorem scan_append {mode : Mode} (front : Text) (next : Mode) (out t : Text)
    (hfront : '\n' ∉ front)
    (h : ∀ line, line <+: t → '\n' ∉ line → stripFrom mode (front ++ line) =
      (out ++ (stripFrom next line).1, (stripFrom next line).2)) :
    scan mode (front ++ t) = (out ++ (scan next t).1, (scan next t).2) := by
  obtain ⟨line, more, hpieces, hbegins, hnot⟩ := exists_pieces t
  rw [scan, scan, pieces_front hfront hpieces, hpieces]
  cases more with
  | nil => exact h line hbegins hnot
  | cons second more => simp [stripJoined, h line hbegins hnot]

/-- Behind a line end only a block comment goes on. -/
theorem scan_lineEnd (mode : Mode) (t : Text) :
    scan mode ('\n' :: t) =
      ('\n' :: (scan (modeAt (mode = .block)) t).1, (scan (modeAt (mode = .block)) t).2) := by
  have hempty : stripFrom mode [] = ([], decide (mode = .block)) := by
    cases mode <;> simp [stripFrom]
  obtain ⟨line, more, hpieces, _⟩ := exists_pieces t
  rw [scan, scan, Text.pieces, if_pos rfl, hpieces]
  simp [stripJoined, hempty]

/-! ### The parts of a line -/

theorem stripFrom_copied {c : Char} {line : Text} (hquote : isQuote c = false)
    (hline : ¬ ['/', '/'] <+: c :: line) (hblock : ¬ ['/', '*'] <+: c :: line) :
    stripFrom .code (c :: line) = (c :: (stripFrom .code line).1, (stripFrom .code line).2) := by
  rw [stripFrom, hquote]
  · rfl
  · intro rest hc hrest
    exact hline ⟨rest, by rw [hc, hrest]; rfl⟩
  · intro rest hc hrest
    exact hblock ⟨rest, by rw [hc, hrest]; rfl⟩

theorem ne_of_isQuote {quote c : Char} (hquote : isQuote quote = true) (hc : isQuote c = false) :
    quote ≠ c := by
  intro h
  rw [h, hc] at hquote
  cases hquote

theorem stripFrom_inside {quote : Char} {body : Text} (hbody : Inside quote body) (line : Text) :
    stripFrom (.literal quote) (body ++ line) =
      (body ++ (stripFrom (.literal quote) line).1, (stripFrom (.literal quote) line).2) := by
  induction hbody with
  | nil => rfl
  | plain hquote hback hline h ih =>
    rw [List.cons_append, stripFrom, if_neg hquote, ih]
    · rfl
    · intro c rest hc
      exact absurd hc hback
  | escaped hline h ih =>
    rw [List.cons_append, List.cons_append, stripFrom, ih]
    rfl

section
variable {quote : Char} (hquote : isQuote quote = true)
include hquote

theorem stripFrom_opening {body : Text} (hbody : Inside quote body) (line : Text) :
    stripFrom .code (quote :: body ++ line) =
      (quote :: body ++ (stripFrom (.literal quote) line).1,
        (stripFrom (.literal quote) line).2) := by
  have hslash : quote ≠ '/' := ne_of_isQuote hquote (by decide)
  rw [List.cons_append, stripFrom, if_pos hquote, stripFrom_inside hbody]
  · rfl
  · intro rest hc
    exact absurd hc hslash
  · intro rest hc
    exact absurd hc hslash

theorem stripFrom_closing (line : Text) :
    stripFrom (.literal quote) (quote :: line) =
      (quote :: (stripFrom .code line).1, (stripFrom .code line).2) := by
  have hback : quote ≠ '\\' := ne_of_isQuote hquote (by decide)
  rw [stripFrom, if_pos rfl]
  intro c rest hc
  exact absurd hc hback

theorem stripFrom_cut {tail : Text} (htail : tail = [] ∨ tail = ['\\']) :
    stripFrom (.literal quote) tail = (tail, false) := by
  have hback : '\\' ≠ quote := (ne_of_isQuote hquote (by decide)).symm
  rcases htail with rfl | rfl
  · rfl
  · simp [stripFrom, hback]

end

theorem stripFrom_commented {c : Char} {line : Text} (h : ¬ ['*', '/'] <+: c :: line) :
    stripFrom .block (c :: line) = stripFrom .block line := by
  rw [stripFrom]
  intro rest hc hrest
  exact h ⟨rest, by rw [hc, hrest]; rfl⟩

/-- A literal stands on one line. -/
theorem Inside.not_mem {quote : Char} {body : Text} (h : Inside quote body) : '\n' ∉ body := by
  induction h with
  | nil => exact List.not_mem_nil
  | plain _ _ hline _ ih => simp [Ne.symm hline, ih]
  | escaped hline _ ih => simp [Ne.symm hline, ih]

/-- Nothing but spaces is put into a line. -/
theorem mem_of_mem_stripFrom {mode : Mode} {line : Text} {c : Char}
    (h : c ∈ (stripFrom mode line).1) : c ∈ line ∨ c = ' ' := by
  fun_induction stripFrom mode line with
  | case1 rest out still heq ih => grind
  | case2 d rest hnot ih => grind
  | case3 => cases h
  | case4 quote d rest out still heq ih => grind
  | case5 quote d rest hnot out still heq ih => grind
  | case6 => cases h
  | case7 rest ih => grind
  | case8 d rest hline hblock out still heq ih => grind
  | case9 => cases h

/-! ### The whole text and its lines -/

/-- Of a block comment, up to where it closes, only the line ends are left. -/
theorem scan_commented {content rest : Text} (hcontent : ¬ ['*', '/'] <:+: content)
    (hrest : rest.head? ≠ some '/') :
    scan .block (content ++ rest) =
      (lineEnds content ++ (scan .block rest).1, (scan .block rest).2) := by
  induction content with
  | nil => rfl
  | cons c content ih =>
    rw [List.infix_cons_iff, not_or] at hcontent
    obtain ⟨hhere, hlater⟩ := hcontent
    by_cases hline : c = '\n'
    · rw [hline, List.cons_append, scan_lineEnd]
      simp [modeAt, ih hlater, lineEnds]
    · have hstep : scan .block ([c] ++ (content ++ rest)) =
          ([] ++ (scan .block (content ++ rest)).1, (scan .block (content ++ rest)).2) := by
        apply scan_append
        · simpa using Ne.symm hline
        · intro line hbegins _
          have hnot : ¬ ['*', '/'] <+: c :: line := by
            intro h
            obtain ⟨more, hmore⟩ := h.trans ((List.prefix_cons_inj c).mpr hbegins)
            obtain ⟨rfl, hnext⟩ := List.cons.inj hmore
            cases content with
            | nil => exact hrest (by rw [← List.nil_append rest, ← hnext]; rfl)
            | cons d content =>
              obtain ⟨rfl, _⟩ := List.cons.inj hnext
              exact hhere ⟨content, rfl⟩
          simp [stripFrom_commented hnot]
      rw [List.cons_append, ← List.singleton_append, hstep, ih hlater]
      simp [lineEnds, hline]

theorem scan_slashStar (t : Text) : scan .code ('/' :: '*' :: t) = scan .block t :=
  scan_append ['/', '*'] .block [] t (by decide) fun _ _ _ => rfl

theorem scan_starSlash (t : Text) :
    scan .block ('*' :: '/' :: t) = (' ' :: (scan .code t).1, (scan .code t).2) :=
  scan_append ['*', '/'] .code [' '] t (by decide) fun _ _ _ => rfl

theorem scan_copied {c : Char} {rest : Text} (hquote : isQuote c = false)
    (hline : ¬ ['/', '/'] <+: c :: rest) (hblock : ¬ ['/', '*'] <+: c :: rest) :
    scan .code (c :: rest) = (c :: (scan .code rest).1, (scan .code rest).2) := by
  by_cases hend : c = '\n'
  · rw [hend, scan_lineEnd]
    rfl
  · refine scan_append [c] .code [c] rest (by simpa using Ne.symm hend) ?_
    intro line hbegins _
    have hlonger := (List.prefix_cons_inj c).mpr hbegins
    exact stripFrom_copied hquote (fun h => hline (h.trans hlonger))
      fun h => hblock (h.trans hlonger)

section
variable {quote : Char} {body : Text} (hquote : isQuote quote = true) (hbody : Inside quote body)
include hquote hbody

theorem scan_literal (rest : Text) :
    scan .code (quote :: body ++ quote :: rest) =
      (quote :: body ++ quote :: (scan .code rest).1, (scan .code rest).2) := by
  have hend : '\n' ≠ quote := (ne_of_isQuote hquote (by decide)).symm
  have hstep : scan .code ((quote :: body ++ [quote]) ++ rest) =
      ((quote :: body ++ [quote]) ++ (scan .code rest).1, (scan .code rest).2) := by
    apply scan_append
    · simp [hbody.not_mem, hend]
    · intro line _ _
      rw [List.append_assoc, stripFrom_opening hquote hbody, List.singleton_append,
        stripFrom_closing hquote]
      simp
  rwa [List.append_assoc, List.append_assoc] at hstep

theorem scan_cutLiteral {tail rest : Text} (htail : tail = [] ∨ tail = ['\\'])
    (hrest : AtLineEnd rest) :
    scan .code (quote :: body ++ tail ++ rest) =
      (quote :: body ++ tail ++ (scan .code rest).1, (scan .code rest).2) := by
  have hend : '\n' ≠ quote := (ne_of_isQuote hquote (by decide)).symm
  apply scan_append
  · rcases htail with rfl | rfl
    · simp [hbody.not_mem, hend]
    · simp [hbody.not_mem, hend]
  · intro line hbegins hnot
    rw [hrest.eq_nil hbegins hnot, List.append_nil, stripFrom_opening hquote hbody,
      stripFrom_cut hquote htail]
    simp [stripFrom]

end

theorem scan_lineComment {content rest : Text} (hcontent : '\n' ∉ content)
    (hrest : AtLineEnd rest) : scan .code ('/' :: '/' :: content ++ rest) = scan .code rest := by
  refine scan_append ('/' :: '/' :: content) .code [] rest (by simpa using hcontent) ?_
  intro line hbegins hnot
  rw [hrest.eq_nil hbegins hnot, List.append_nil]
  rfl

/-- The reading of a text as a whole is that line by line. -/
theorem Uncommented.scan_eq {t out : Text} {still : Bool} (h : Uncommented t out still) :
    scan .code t = (out, still) := by
  induction h with
  | nil => rfl
  | copied hquote hline hblock _ ih => rw [scan_copied hquote hline hblock, ih]
  | literal hquote hbody _ ih => rw [scan_literal hquote hbody, ih]
  | cutLiteral hquote hbody htail hrest _ ih => rw [scan_cutLiteral hquote hbody htail hrest, ih]
  | lineComment hcontent hrest _ ih => rw [scan_lineComment hcontent hrest, ih]
  | block hcontent _ ih =>
    rw [List.cons_append, List.cons_append, scan_slashStar, scan_commented hcontent (by simp),
      scan_starSlash, ih]
  | @openBlock content hcontent =>
    have hcomment : scan .block (content ++ []) = (lineEnds content ++ [], true) :=
      scan_commented hcontent (by simp)
    rw [scan_slashStar, ← List.append_nil content, hcomment, List.append_nil, List.append_nil]

/-- **A text is read as a whole in one way, and line by line that comes to the same.** -/
theorem uncommented_iff {t out : Text} {still : Bool} :
    Uncommented t out still ↔ scan .code t = (out, still) := by
  constructor
  · exact Uncommented.scan_eq
  · intro h
    obtain ⟨out', still', hread⟩ := exists_uncommented t
    have hsame := hread.scan_eq
    rw [h] at hsame
    cases hsame
    exact hread

/-- Numbered lines as one text. -/
def joined (lines : List (Numbered Text)) : Text := ['\n'].intercalate (lines.map (·.content))

theorem joined_cons (first second : Numbered Text) (rest : List (Numbered Text)) :
    joined (first :: second :: rest) = first.content ++ '\n' :: joined (second :: rest) := by
  simp [joined]

theorem stripAll_joined (inBlock : Bool) (line : Numbered Text) (rest : List (Numbered Text)) :
    stripJoined (modeAt inBlock) line.content (rest.map (·.content)) =
      (joined (stripAll inBlock (line :: rest)).1, (stripAll inBlock (line :: rest)).2) := by
  induction rest generalizing inBlock line with
  | nil => simp [stripJoined, stripAll, joined, strip, modeAt]
  | cons next rest ih =>
    rw [List.map_cons, stripJoined, ih]
    exact Prod.ext (joined_cons ⟨line.line, _⟩ ⟨next.line, _⟩ _).symm rfl

/-- No line is torn apart. -/
theorem stripAll_not_mem {inBlock : Bool} {lines : List (Numbered Text)}
    (hlines : ∀ line ∈ lines, '\n' ∉ line.content) :
    ∀ line ∈ (stripAll inBlock lines).1, '\n' ∉ line.content := by
  induction lines generalizing inBlock with
  | nil => simp [stripAll]
  | cons line rest ih =>
    obtain ⟨hline, hrest⟩ := List.forall_mem_cons.mp hlines
    simp only [stripAll, List.forall_mem_cons]
    refine ⟨?_, ih hrest⟩
    intro hmem
    rcases mem_of_mem_stripFrom hmem with h | h
    · exact hline h
    · cases h

/-- **Removing comments line by line is removing them from the whole text.** Take lines, with line
ends between them, as one text. Its reading as a whole leaves just the lines that are left of them
one by one, and a block comment is open at its end just if one is open behind the last line. -/
theorem stripAll_uncommented_iff (lines : List (Numbered Text))
    (hlines : ∀ line ∈ lines, '\n' ∉ line.content) :
    (stripAll false lines).1.map (·.line) = lines.map (·.line) ∧
    (∀ line ∈ (stripAll false lines).1, '\n' ∉ line.content) ∧
    ∀ out still, Uncommented (joined lines) out still ↔
      out = joined (stripAll false lines).1 ∧ still = (stripAll false lines).2 := by
  refine ⟨Line.stripAll_lines false lines, stripAll_not_mem hlines, ?_⟩
  intro out still
  have hscan : scan .code (joined lines) =
      (joined (stripAll false lines).1, (stripAll false lines).2) := by
    cases lines with
    | nil => rfl
    | cons line rest =>
      have hpieces : (joined (line :: rest)).pieces '\n' =
          line.content :: rest.map (·.content) := by
        apply Text.pieces_intercalate
        · simp
        · simpa using hlines
      rw [scan, hpieces]
      exact stripAll_joined false line rest
  rw [uncommented_iff, hscan, Prod.mk.injEq, eq_comm, eq_comm (a := still)]

/-- A text in which a literal, comments and line ends overlap. -/
def overlapping : Text := "a /* \"x\ny */ b // \"\n\"/* \\\" */\" 'c\n/*/ d".toList

theorem overlapping_uncommented :
    (∀ line ∈ Line.splice overlapping.lines, '\n' ∉ line.content) ∧
      Uncommented (joined (Line.splice overlapping.lines))
        "a \n  b \n\"/* \\\" */\" 'c\n".toList true := by
  have hlines := Line.splice_not_mem overlapping
  exact ⟨hlines, ((stripAll_uncommented_iff _ hlines).2.2 _ _).mpr (by decide)⟩

/-! ### What is left of a line -/

/-- The mode in which what is left is read again: of a block comment nothing is left. -/
def Mode.again : Mode → Mode
  | .block => .code
  | mode => mode

/-- The first character of a line is left unless a comment begins with it. -/
theorem head?_stripFrom {line : Text} (h : line.head? ≠ some '/') :
    (stripFrom .code line).1.head? = line.head? := by
  cases line with
  | nil => rfl
  | cons c line =>
    have hc : c ≠ '/' := fun hc => h (by rw [hc]; rfl)
    rw [stripFrom]
    · rfl
    · intro rest hslash
      exact absurd hslash hc
    · intro rest hslash
      exact absurd hslash hc

theorem pair_begins_iff {a b c : Char} {t : Text} :
    [a, b] <+: c :: t ↔ a = c ∧ t.head? = some b := by
  rw [List.cons_prefix_cons]
  cases t <;> simp [eq_comm]

/-- Where no comment begins with a character, none begins with it before what is left. -/
theorem stripFrom_not_opening {c : Char} {rest : Text} (hline : ¬ ['/', '/'] <+: c :: rest)
    (hblock : ¬ ['/', '*'] <+: c :: rest) :
    ¬ ['/', '/'] <+: c :: (stripFrom .code rest).1 ∧
      ¬ ['/', '*'] <+: c :: (stripFrom .code rest).1 := by
  simp only [pair_begins_iff, not_and] at hline hblock ⊢
  by_cases hc : '/' = c
  · -- What is behind the slash is no slash, so it is still there.
    rw [head?_stripFrom (hline hc)]
    exact ⟨hline, hblock⟩
  · exact ⟨fun h => absurd h hc, fun h => absurd h hc⟩

/-- What is left of a line stays as it is when it is read again. -/
theorem stripFrom_stripFrom (mode : Mode) (line : Text) :
    stripFrom mode.again (stripFrom mode line).1 = ((stripFrom mode line).1, false) := by
  -- The cases are those of the modes: three in a block comment, two in a literal, three in code.
  fun_induction stripFrom mode line with
  | case1 rest out still heq ih =>
    have hout : stripFrom .code out = (out, false) := by rwa [heq] at ih
    show stripFrom .code (' ' :: out) = (' ' :: out, false)
    rw [stripFrom_copied rfl (by simp) (by simp), hout]
  | case2 c rest hnot ih => exact ih
  | case3 => rfl
  | case4 quote c rest out still heq ih =>
    have hout : stripFrom (.literal quote) out = (out, false) := by rwa [heq] at ih
    show stripFrom (.literal quote) ('\\' :: c :: out) = ('\\' :: c :: out, false)
    rw [stripFrom, hout]
  | case5 quote c rest hnot out still heq ih =>
    have hmode : (if c = quote then Mode.code else .literal quote).again =
        if c = quote then .code else .literal quote := by split <;> rfl
    have hout : stripFrom (if c = quote then .code else .literal quote) out = (out, false) := by
      rwa [heq, hmode] at ih
    show stripFrom (.literal quote) (c :: out) = (c :: out, false)
    rw [stripFrom, hout]
    -- A backslash stands here only at the end of the line, and then nothing is left behind it.
    intro d more hback hmore
    cases rest with
    | nil =>
      have hempty : (stripFrom (if c = quote then .code else .literal quote) []).1 = [] := by
        split <;> rfl
      rw [heq, hmore] at hempty
      cases hempty
    | cons e rest => exact hnot e rest hback rfl
  | case6 => rfl
  | case7 rest ih => exact ih
  | case8 c rest hline hblock out still heq ih =>
    show stripFrom .code (c :: out) = (c :: out, false)
    cases hquote : isQuote c with
    | true =>
      rw [if_pos hquote] at heq ih
      have hout : stripFrom (.literal c) out = (out, false) := by rwa [heq] at ih
      have hopening := stripFrom_opening hquote .nil out
      rwa [hout] at hopening
    | false =>
      rw [if_neg (by simp [hquote])] at heq ih
      have hout : stripFrom .code out = (out, false) := by rwa [heq] at ih
      have hline' : ¬ ['/', '/'] <+: c :: rest := by
        intro h
        obtain ⟨more, hmore⟩ := h
        exact hline more (List.cons.inj hmore).1.symm (List.cons.inj hmore).2.symm
      have hblock' : ¬ ['/', '*'] <+: c :: rest := by
        intro h
        obtain ⟨more, hmore⟩ := h
        exact hblock more (List.cons.inj hmore).1.symm (List.cons.inj hmore).2.symm
      have hopening := stripFrom_not_opening hline' hblock'
      rw [heq] at hopening
      rw [stripFrom_copied hquote hopening.1 hopening.2, hout]
  | case9 mode hmode => cases mode <;> rfl

/-- **There is no comment in what is left of a line**, whether or not one was open before the line
and whether or not one is open behind it. -/
theorem strip_idempotent (inBlock : Bool) (line : Text) :
    strip false (strip inBlock line).1 = ((strip inBlock line).1, false) := by
  cases inBlock with
  | false => exact stripFrom_stripFrom .code line
  | true => exact stripFrom_stripFrom .block line

end Comment

end IncludeOnce
