import IncludeOnce.Text

/-! Logical lines.

A line that ends in a backslash continues on the next one: the backslash is
dropped and the next line is put in its place. Whether to go on is asked of the
text joined so far. A logical line is numbered by its first physical line. -/
namespace IncludeOnce

/-- Something on a line of a file, with the number of that line. -/
structure Numbered (α : Type) where
  line : Nat
  content : α
deriving DecidableEq

namespace Line

def continues (t : Text) : Bool := t.getLast? = some '\\'

/-- Joins the lines that follow a line begun as `joined` at `first`; the next
physical line is number `next`. -/
def spliceFrom (first : Nat) (joined : Text) (next : Nat) : List Text → List (Numbered Text)
  | [] => [⟨first, joined⟩]
  | line :: rest =>
    if continues joined then spliceFrom first (joined.dropLast ++ line) (next + 1) rest
    else ⟨first, joined⟩ :: spliceFrom next line (next + 1) rest

def splice : List Text → List (Numbered Text)
  | [] => []
  | line :: rest => spliceFrom 1 line 2 rest

end Line

end IncludeOnce
