import IncludeOnce.Proofs.Outline

/-! Conditional sections as blocks.

A file whose sections are well nested is a `Group`: lines, and sections with a group
in each branch. The lines of a group are what stands in the file (`Group.lines`), and
two facts tie them to `Line.nest` and `Outline`: lines that leave no section open are
a group (`splits_of_nestAll`), and the guard that following them finds can be read
off the group (`guard?_lines`). -/
namespace IncludeOnce

/-- A line that opens, splits or closes no section. -/
inductive Plain
  | text (content : Text)
  | marker
  | unknown (name : Text)
  | command (c : Command)
deriving DecidableEq

namespace Plain

def line : Plain → Line
  | .text content => .text content
  | .marker => .marker
  | .unknown name => .unknown name
  | .command c => .command c

/-- A blank line or a marker. -/
def isSilent : Plain → Bool
  | .text content => content.allBlank
  | .marker => true
  | .unknown _ | .command _ => false

def isUnknown : Plain → Bool
  | .unknown _ => true
  | .text _ | .marker | .command _ => false

end Plain

/-- What an opening line asks, which is something. -/
structure Opening where
  test : Test
  named : test.isNamed = true

mutual
/-- Lines and sections in order, each line with its number. -/
inductive Group
  | done
  | plain (number : Nat) (line : Plain) (rest : Group)
  | conditional (number : Nat) (opening : Opening) (body : Group) (tail : Tail) (rest : Group)

/-- What follows the first group of a section, up to its `#endif`. -/
inductive Tail
  | closing (number : Nat)
  | elseIf (number : Nat) (operand : Text) (body : Group) (more : Tail)
  | otherwise (number : Nat) (body : Group) (closing : Nat)
end

mutual
/-- The lines of a group as they stand in the file. -/
def Group.lines : Group → List (Numbered Line)
  | .done => []
  | .plain number line rest => ⟨number, line.line⟩ :: rest.lines
  | .conditional number opening body tail rest =>
    ⟨number, .opening opening.test⟩ :: (body.lines ++ (tail.lines ++ rest.lines))

def Tail.lines : Tail → List (Numbered Line)
  | .closing number => [⟨number, .closing⟩]
  | .elseIf number operand body more => ⟨number, .elseIf operand⟩ :: (body.lines ++ more.lines)
  | .otherwise number body closing =>
    ⟨number, .otherwise⟩ :: (body.lines ++ [⟨closing, .closing⟩])
end

namespace Group

/-- Whether nothing stands in a group but blank lines and markers. -/
def isSilent : Group → Bool
  | .done => true
  | .plain _ line rest => line.isSilent && rest.isSilent
  | .conditional _ _ _ _ _ => false

/-- Whether an unknown directive stands outside all sections, where it is live whenever
the group is. -/
def hasUnknown : Group → Bool
  | .done => false
  | .plain _ line rest => line.isUnknown || rest.hasUnknown
  | .conditional _ _ _ _ rest => rest.hasUnknown

/-- The name of the guard around a group: all of it but blank lines and markers is one
`#ifndef` section of a single branch. -/
def guard? : Group → Option Name
  | .done => none
  | .plain _ line rest => if line.isSilent then rest.guard? else none
  | .conditional _ ⟨.ifUndefined operand, _⟩ _ (.closing _) rest =>
    if rest.isSilent then Identifier.first? operand else none
  | .conditional _ _ _ _ _ => none

end Group

attribute [ext] Outline

/-! ### The depth of sections -/

mutual
theorem Group.after_depth (g : Group) (o : Outline) : (o.after g.lines).depth = o.depth := by
  cases g with
  | done => rfl
  | plain number line rest =>
    have hd : (o.next line.line).depth = o.depth := by
      cases line with
      | text content => simp only [Plain.line, Outline.next]; split <;> rfl
      | marker => rfl
      | unknown name => rfl
      | command c => rfl
    simp only [Group.lines, Outline.after_cons]
    rw [Group.after_depth rest, hd]
  | conditional number opening body tail rest =>
    simp only [Group.lines, Outline.after_cons, Outline.after_append]
    rw [Group.after_depth rest, Tail.after_depth tail, Group.after_depth body]
    rfl

theorem Tail.after_depth (t : Tail) (o : Outline) : (o.after t.lines).depth = o.depth - 1 := by
  cases t with
  | closing number => rfl
  | elseIf number operand body more =>
    simp only [Tail.lines, Outline.after_cons, Outline.after_append]
    rw [Tail.after_depth more, Group.after_depth body]
    rfl
  | otherwise number body closing =>
    simp only [Tail.lines, Outline.after_cons, Outline.after_append]
    show ((Outline.after _ body.lines)).depth - 1 = _
    rw [Group.after_depth body]
    rfl
end


/-- A section as a whole keeps the depth. -/
theorem Outline.after_section (o : Outline) (number : Nat) (test : Test) (body : Group)
    (tail : Tail) :
    (o.after (⟨number, .opening test⟩ :: (body.lines ++ tail.lines))).depth = o.depth := by
  rw [after_cons, after_append, tail.after_depth, body.after_depth]
  rfl

/-! ### The guard of a group -/

/-- The shapes that only a branch or the end of the outermost section changes. -/
def GuardShape.isSettled : GuardShape → Bool
  | .inside _ | .broken => true
  | .unseen | .closed _ => false

theorem GuardShape.onDirective_settled {shape : GuardShape} (h : shape.isSettled = true)
    (line : Line) : shape.onDirective line = shape := by
  cases shape with
  | unseen => cases h
  | inside name => rfl
  | closed name => cases h
  | broken => rfl

namespace Outline

theorem next_silent (o : Outline) {p : Plain} (h : p.isSilent = true) : o.next p.line = o := by
  cases p with
  | text content => exact if_pos h
  | marker => rfl
  | unknown name => cases h
  | command c => cases h

/-- Outside the guard any other known line breaks it. -/
theorem next_loud {o : Outline} (hs : o.shape.isSettled = false) {p : Plain}
    (h : p.isSilent = false) (hk : p.isUnknown = false) : o.next p.line = ⟨o.depth, .broken⟩ := by
  obtain ⟨depth, shape⟩ := o
  cases p with
  | text content =>
    rw [Plain.line, next, if_neg (by rw [show content.allBlank = false from h]; decide)]
    cases shape with
    | unseen => rfl
    | closed name => rfl
    | inside name => cases hs
    | broken => cases hs
  | marker => cases h
  | unknown name => cases hk
  | command c =>
    cases shape with
    | unseen => rfl
    | closed name => rfl
    | inside name => cases hs
    | broken => cases hs

theorem next_plain_settled {o : Outline} (h : o.shape.isSettled = true) (p : Plain) :
    o.next p.line = o := by
  cases p with
  | text content =>
    have ht : o.shape.onText = o.shape := by
      cases hshape : o.shape with
      | unseen => rw [hshape] at h; cases h
      | inside name => rfl
      | closed name => rw [hshape] at h; cases h
      | broken => rfl
    rw [Plain.line, next, ht]
    exact ite_self _
  | marker => rfl
  | unknown name => rfl
  | command c => rw [Plain.line, next, GuardShape.onDirective_settled h]

mutual
/-- Inside a section no group changes the outline. -/
theorem after_group (g : Group) {depth : Nat} {shape : GuardShape} (h : shape.isSettled = true) :
    (⟨depth + 1, shape⟩ : Outline).after g.lines = ⟨depth + 1, shape⟩ := by
  cases g with
  | done => rfl
  | plain number line rest =>
    rw [Group.lines, after_cons, next_plain_settled h, after_group rest h]
  | conditional number opening body tail rest =>
    rw [Group.lines, after_cons, next, GuardShape.onDirective_settled h, after_append,
      after_append, after_group body h, after_tail tail h, after_group rest h]

theorem after_tail (t : Tail) {depth : Nat} {shape : GuardShape} (h : shape.isSettled = true) :
    (⟨depth + 2, shape⟩ : Outline).after t.lines = ⟨depth + 1, shape⟩ := by
  cases t with
  | closing number =>
    rw [Tail.lines, after_cons, after_nil, next, if_neg (by simp),
      GuardShape.onDirective_settled h]
    rfl
  | elseIf number operand body more =>
    rw [Tail.lines, after_cons, next, branched, if_neg (by simp),
      GuardShape.onDirective_settled h, after_append, after_group body h, after_tail more h]
  | otherwise number body closing =>
    rw [Tail.lines, after_cons, next, branched, if_neg (by simp),
      GuardShape.onDirective_settled h, after_append, after_group body h, after_cons, after_nil,
      next, if_neg (by simp), GuardShape.onDirective_settled h]
    rfl
end

/-- What is no guard stays none. -/
theorem after_broken (depth : Nat) (lines : List (Numbered Line)) :
    ((⟨depth, .broken⟩ : Outline).after lines).shape = .broken := by
  induction lines generalizing depth with
  | nil => rfl
  | cons line rest ih =>
    obtain ⟨d, hd⟩ : ∃ d, (⟨depth, .broken⟩ : Outline).next line.content = ⟨d, .broken⟩ := by
      cases line.content <;> simp only [next, branched, GuardShape.onText, GuardShape.onDirective,
        GuardShape.onBranch, GuardShape.onClosing, ite_self, Outline.mk.injEq, and_true,
        exists_eq']
    rw [after_cons, hd]
    exact ih d

/-- The rest of the outermost section: a guard needs it to be its end at once. -/
theorem after_outermost_tail (t : Tail) {shape : GuardShape} (h : shape.isSettled = true) :
    ((⟨1, shape⟩ : Outline).after t.lines).shape =
      match t with
      | .closing _ => shape.onClosing
      | _ => .broken := by
  have hb : shape.onBranch = .broken := by
    cases shape with
    | unseen => cases h
    | inside name => rfl
    | closed name => cases h
    | broken => rfl
  cases t with
  | closing number =>
    rw [Tail.lines, after_cons, after_nil, next, if_pos rfl, GuardShape.onDirective_settled h]
  | elseIf number operand body more =>
    rw [Tail.lines, after_cons, next, branched, if_pos rfl, GuardShape.onDirective_settled h, hb]
    exact after_broken 1 _
  | otherwise number body closing =>
    rw [Tail.lines, after_cons, next, branched, if_pos rfl, GuardShape.onDirective_settled h, hb]
    exact after_broken 1 _

end Outline

namespace Group

theorem name?_after_closed (g : Group) (hu : g.hasUnknown = false) (name : Name) :
    ((⟨0, .closed name⟩ : Outline).after g.lines).shape.name? =
      if g.isSilent then some name else none := by
  cases g with
  | done => rfl
  | plain number line rest =>
    obtain ⟨hk, hu⟩ := Bool.or_eq_false_iff.mp hu
    rw [Group.lines, Outline.after_cons, Group.isSilent]
    cases hs : line.isSilent with
    | true => rw [Outline.next_silent _ hs, name?_after_closed rest hu, Bool.true_and]
    | false =>
      rw [Outline.next_loud rfl hs hk, Outline.after_broken]
      rfl
  | conditional number opening body tail rest =>
    rw [Group.lines, Outline.after_cons, Outline.next]
    rw [show GuardShape.onDirective (.opening opening.test) (.closed name) = .broken from rfl,
      Outline.after_broken]
    rfl

/-- The guard that following the lines finds is the guard of the group. -/
theorem guard?_lines (g : Group) (hu : g.hasUnknown = false) : Line.guard? g.lines = g.guard? := by
  cases g with
  | done => rfl
  | plain number line rest =>
    obtain ⟨hk, hu⟩ := Bool.or_eq_false_iff.mp hu
    have ih := guard?_lines rest hu
    simp only [Line.guard?, Group.lines, Outline.after_cons] at ih ⊢
    rw [Group.guard?]
    cases hs : line.isSilent with
    | true => rw [Outline.next_silent _ hs, ih, if_pos rfl]
    | false =>
      rw [Outline.next_loud rfl hs hk, Outline.after_broken, if_neg (by decide)]
      rfl
  | conditional number opening body tail rest =>
    obtain ⟨test, named⟩ := opening
    have hafter : ∀ shape : GuardShape, shape.isSettled = true →
        GuardShape.onDirective (.opening test) .unseen = shape →
        (({} : Outline).after (Group.conditional number ⟨test, named⟩ body tail rest).lines) =
          (⟨0, ((⟨1, shape⟩ : Outline).after tail.lines).shape⟩ : Outline).after rest.lines := by
      intro shape hs ht
      rw [Group.lines, Outline.after_cons, Outline.next, ht, Outline.after_append,
        Outline.after_append, Outline.after_group body hs]
      congr 1
      exact Outline.ext (tail.after_depth _) rfl
    rw [Line.guard?]
    cases test with
    | condition operand =>
      rw [hafter .broken rfl rfl, Outline.after_broken, Outline.after_broken]
      rfl
    | ifDefined operand =>
      rw [hafter .broken rfl rfl, Outline.after_broken, Outline.after_broken]
      rfl
    | ifUndefined operand =>
      obtain ⟨name, hname⟩ := Option.isSome_iff_exists.mp named
      rw [hafter (.inside name) rfl (by simp only [GuardShape.onDirective, hname]),
        Outline.after_outermost_tail tail rfl]
      cases tail with
      | closing closed =>
        rw [Group.guard?, hname]
        exact name?_after_closed rest hu name
      | elseIf number operand body more =>
        rw [Outline.after_broken]
        rfl
      | otherwise number body closing =>
        rw [Outline.after_broken]
        rfl

end Group

/-! ### Which files are groups -/

namespace Line

/-- Lines as the rest of a file that has these sections open: a group, and for the
innermost section its end and the rest after that. -/
def Splits : List Bool → List (Numbered Line) → Prop
  | [], lines => ∃ g : Group, lines = g.lines
  | sawElse :: outer, lines =>
    ∃ (g : Group) (t : Tail) (rest : List (Numbered Line)),
      lines = g.lines ++ (t.lines ++ rest) ∧ (sawElse = true → ∃ number, t = .closing number) ∧
        nestAll outer rest = some [] ∧ rest.length < lines.length

/-- More of a group in front. -/
theorem Splits.grow {stack : List Bool} {rest : List (Numbered Line)} (h : Splits stack rest)
    (f : Group → Group) (front : List (Numbered Line))
    (hf : ∀ g, (f g).lines = front ++ g.lines) : Splits stack (front ++ rest) := by
  cases stack with
  | nil =>
    obtain ⟨g, rfl⟩ := h
    exact ⟨f g, (hf g).symm⟩
  | cons sawElse outer =>
    obtain ⟨g, t, after, rfl, ht, hn, hl⟩ := h
    refine ⟨f g, t, after, by rw [hf, List.append_assoc], ht, hn, ?_⟩
    rw [List.length_append]
    omega

/-- Lines after which no section is open split at the end of the innermost one that is open
before them. The induction is on their number, for what follows a section is shorter. -/
theorem splits_of_nestAll (stack : List Bool) (lines : List (Numbered Line))
    (h : nestAll stack lines = some []) : Splits stack lines := by
  induction hlength : lines.length using Nat.strongRecOn generalizing stack lines with
  | ind length ih =>
    replace ih : ∀ stack (rest : List (Numbered Line)), rest.length < lines.length →
        nestAll stack rest = some [] → Splits stack rest := fun stack rest hless hrest =>
      ih rest.length (hlength ▸ hless) stack rest hrest rfl
    cases lines with
    | nil =>
      cases h
      exact ⟨.done, rfl⟩
    | cons first rest =>
      obtain ⟨number, line⟩ := first
      rw [nestAll_cons] at h
      rw [List.length_cons] at ih
      obtain ⟨next, hnext, hrest⟩ := Option.bind_eq_some_iff.mp h
      have hsplits := ih next rest (Nat.lt_succ_self _) hrest
      have hplain : ∀ p : Plain, line = p.line → Splits stack (⟨number, line⟩ :: rest) := by
        rintro p rfl
        have hs : next = stack := by cases p <;> cases hnext <;> rfl
        subst hs
        exact hsplits.grow (.plain number p) [⟨number, p.line⟩] (fun g => rfl)
      cases line with
      | text content => exact hplain (.text content) rfl
      | marker => exact hplain .marker rfl
      | unknown name => exact hplain (.unknown name) rfl
      | command c => exact hplain (.command c) rfl
      | opening t =>
        have hnamed : t.isNamed = true := by
          cases hn : t.isNamed with
          | true => rfl
          | false => simp [nest, hn] at hnext
        have hs : next = false :: stack := by
          simp only [nest, hnamed, if_true, Option.some.injEq] at hnext
          exact hnext.symm
        subst hs
        obtain ⟨body, tail, after, rfl, _, hn, hl⟩ := hsplits
        have hmore := (ih stack after (Nat.lt_succ_of_lt hl) hn).grow
          (.conditional number ⟨t, hnamed⟩ body tail)
          (⟨number, .opening t⟩ :: (body.lines ++ tail.lines))
          (fun g => by rw [Group.lines, List.cons_append, List.append_assoc])
        rwa [List.cons_append, List.append_assoc] at hmore
      | elseIf operand =>
        obtain _ | ⟨_ | _, outer⟩ := stack
        · cases hnext
        · cases hnext
          obtain ⟨body, tail, after, rfl, _, hn, hl⟩ := hsplits
          refine ⟨.done, .elseIf number operand body tail, after, ?_,
            fun he => absurd he (by decide), hn, Nat.lt_succ_of_lt hl⟩
          simp [Group.lines, Tail.lines]
        · cases hnext
      | otherwise =>
        obtain _ | ⟨_ | _, outer⟩ := stack
        · cases hnext
        · cases hnext
          obtain ⟨body, tail, after, rfl, hclosing, hn, hl⟩ := hsplits
          obtain ⟨closing, rfl⟩ := hclosing rfl
          refine ⟨.done, .otherwise number body closing, after, ?_,
            fun he => absurd he (by decide), hn, Nat.lt_succ_of_lt hl⟩
          simp [Group.lines, Tail.lines]
        · cases hnext
      | closing =>
        obtain _ | ⟨sawElse, outer⟩ := stack
        · cases hnext
        · cases hnext
          exact ⟨.done, .closing number, rest, rfl, fun _ => ⟨number, rfl⟩, hrest,
            Nat.lt_succ_self _⟩

end Line

end IncludeOnce
