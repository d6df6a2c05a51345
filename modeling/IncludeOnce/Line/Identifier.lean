import IncludeOnce.Text

/-! Identifiers: a letter or underscore of ASCII, then letters, digits and
underscores. -/
namespace IncludeOnce.Identifier

def isFirst (c : Char) : Bool := c = '_' || c.isAlpha

def isNext (c : Char) : Bool := c = '_' || c.isAlphanum

/-- The identifier at the front of a text, empty if there is none, and the rest
from its first character that is not blank. -/
def split : Text → Text × Text
  | [] => ([], [])
  | c :: rest =>
    if isFirst c then (c :: rest.takeWhile isNext, Text.trimStart (rest.dropWhile isNext))
    else ([], Text.trimStart (c :: rest))

/-- The identifier at the front of a text. -/
def first? (t : Text) : Option Text :=
  match split t with
  | ([], _) => none
  | (name, _) => some name

end IncludeOnce.Identifier
