import IncludeOnce.Text

/-! Paths as they are written.

A path is a text whose pieces are divided by slashes. Nothing is normalised:
`join` only glues, and what a path denotes is the file system's matter
(`FileSystem.lean`).

`Path.parts` is the reading under which two spellings are the same path: empty
pieces and pieces `.` do not count, except that a path may stand under the root
or begin at `.`. `Path.parent?` drops the last piece that counts. -/
namespace IncludeOnce

structure Path where
  text : Text
deriving DecidableEq

namespace Path

def ofString (s : String) : Path := ⟨s.toList⟩

def display (p : Path) : String := p.text.display

def isAbsolute (p : Path) : Bool := p.text.head? = some '/'

/-- `name` seen from `dir`. An absolute name stands for itself. -/
def join (dir name : Path) : Path :=
  if name.isAbsolute then name
  else if dir.text = [] ∨ dir.text.getLast? = some '/' then ⟨dir.text ++ name.text⟩
  else ⟨dir.text ++ '/' :: name.text⟩

/-- All pieces between slashes, the empty ones included. -/
def segments (t : Text) : List Text := t.pieces '/'

/-- A piece that names nothing: an empty one or `.`. -/
def isSilent (segment : Text) : Bool := segment = [] || segment = ['.']

/-- Where a path begins: at the root, at `.`, or at its first piece. -/
inductive Anchor
  | root
  | current
  | bare
deriving DecidableEq

/-- How an anchor is written. -/
def Anchor.text : Anchor → Text
  | .root => ['/']
  | .current => ['.']
  | .bare => []

/-- The anchor and what is written after it. -/
def anchored (p : Path) : Anchor × Text :=
  match p.text with
  | '/' :: rest => (.root, rest)
  | ['.'] => (.current, [])
  | '.' :: '/' :: rest => (.current, '/' :: rest)
  | rest => (.bare, rest)

/-- A path up to spelling. -/
structure Parts where
  anchor : Anchor
  names : List Text
deriving DecidableEq

def parts (p : Path) : Parts :=
  let (anchor, rest) := p.anchored
  ⟨anchor, (segments rest).filter (!isSilent ·)⟩

/-- The paths above reversed pieces, nearest first: one for each piece that counts,
and the empty path above `.`. -/
def above (anchor : Anchor) : List Text → List Path
  | [] => if anchor = .current then [⟨[]⟩] else []
  | segment :: more =>
    if isSilent segment then above anchor more
    else
      ⟨anchor.text ++ ['/'].intercalate (more.dropWhile isSilent).reverse⟩ :: above anchor more

/-- The paths above a path, nearest first. -/
def parents (p : Path) : List Path :=
  let (anchor, rest) := p.anchored
  above anchor (segments rest).reverse

/-- The path without its last piece that counts. The root and the empty path have
no parent, and the parent of `.` is the empty path. -/
def parent? (p : Path) : Option Path := p.parents.head?

/-- The directory that holds the path, `.` when the path has no parent. -/
def directory (p : Path) : Path := p.parent?.getD ⟨['.']⟩

end Path

end IncludeOnce
