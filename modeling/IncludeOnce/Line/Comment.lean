import IncludeOnce.Line.Splice

/-! Removing comments from logical lines.

A line is read in one of three modes. In code, `//` ends the line, `/*` opens a
block comment, and a quote opens a literal. A literal is copied as it stands up
to its closing quote, whatever it contains; a backslash in it takes the next
character along. A block comment is dropped up to `*/` and leaves one space where
it closes. A literal ends with its line; a block comment does not. -/
namespace IncludeOnce.Comment

inductive Mode
  | code
  | literal (quote : Char)
  | block
deriving DecidableEq

def isQuote (c : Char) : Bool := c = '"' || c = '\''

/-- The line without comments, and whether a block comment is open at its end. -/
def stripFrom : Mode → Text → Text × Bool
  | .block, '*' :: '/' :: rest =>
    let (out, still) := stripFrom .code rest
    (' ' :: out, still)
  | .block, _ :: rest => stripFrom .block rest
  | .block, [] => ([], true)
  | .literal quote, '\\' :: c :: rest =>
    let (out, still) := stripFrom (.literal quote) rest
    ('\\' :: c :: out, still)
  | .literal quote, c :: rest =>
    let (out, still) := stripFrom (if c = quote then .code else .literal quote) rest
    (c :: out, still)
  | .code, '/' :: '/' :: _ => ([], false)
  | .code, '/' :: '*' :: rest => stripFrom .block rest
  | .code, c :: rest =>
    let (out, still) := stripFrom (if isQuote c then .literal c else .code) rest
    (c :: out, still)
  | _, [] => ([], false)

/-- Strips one line; `inBlock` says whether a block comment is open before it. -/
def strip (inBlock : Bool) (line : Text) : Text × Bool :=
  stripFrom (if inBlock then .block else .code) line

/-- Strips lines in order, carrying an open block comment along and past the last
line. -/
def stripAll (inBlock : Bool) : List (Numbered Text) → List (Numbered Text) × Bool
  | [] => ([], inBlock)
  | ⟨n, line⟩ :: rest =>
    let (out, still) := strip inBlock line
    let (outs, last) := stripAll still rest
    (⟨n, out⟩ :: outs, last)

end IncludeOnce.Comment
