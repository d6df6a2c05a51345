import IncludeOnce.Line.Comment
import IncludeOnce.Line.Identifier
import IncludeOnce.Request

/-! Lines by what they are.

A stripped logical line is text, or a directive if its first character that is
not blank is `#`. `Line.ofStripped` tells which one, from the line alone; operands
are kept as they are written, because what is wrong with them matters only where
the line is live. `Line.ofText` reads a whole file. -/
namespace IncludeOnce

/-- What an opening line of a conditional section tests. -/
inductive Test
  | condition (operand : Text)
  | ifDefined (operand : Text)
  | ifUndefined (operand : Text)
deriving DecidableEq

/-- A directive that does something where it is live and nothing elsewhere. -/
inductive Command
  | request (kind : RequestKind) (operand : Text)
  | define (operand : Text)
  | undefine (operand : Text)
  | pragma (operand : Text)
  | error (message : Text)
  | warning (message : Text)
deriving DecidableEq

inductive Line
  | text (content : Text)
  /-- A directive without a name, or a line number left by another program. -/
  | marker
  /-- A directive of no known name. -/
  | unknown (name : Text)
  | command (c : Command)
  | opening (test : Test)
  | elseIf (operand : Text)
  | otherwise
  | closing
deriving DecidableEq

namespace Line

/-- The directive of a name with its operand. -/
def ofDirective (name operand : Text) : Line :=
  if name = "define".toList then .command (.define operand)
  else if name = "undef".toList then .command (.undefine operand)
  else if name = "include".toList then .command (.request .plain operand)
  else if name = "import".toList then .command (.request .once operand)
  else if name = "if".toList then .opening (.condition operand)
  else if name = "ifdef".toList then .opening (.ifDefined operand)
  else if name = "ifndef".toList then .opening (.ifUndefined operand)
  else if name = "elif".toList then .elseIf operand
  else if name = "else".toList then .otherwise
  else if name = "endif".toList then .closing
  else if name = "pragma".toList then .command (.pragma operand)
  else if name = "error".toList then .command (.error operand)
  else if name = "warning".toList then .command (.warning operand)
  else .unknown name

/-- The line that `#` and then `rest` make. -/
def ofHash (rest : Text) : Line :=
  match Identifier.split rest.trimStart with
  | ([], []) => .marker
  | ([], c :: more) => if c.isDigit then .marker else .unknown (c :: more)
  | (name, operand) => ofDirective name operand

def ofStripped (stripped : Text) : Line :=
  match stripped.trim with
  | '#' :: rest => ofHash rest
  | _ => .text stripped

/-- The logical lines of a file, stripped and told apart. -/
def ofText (t : Text) : List (Numbered Line) :=
  (Comment.stripAll false (splice t.lines)).1.map fun l => ⟨l.line, ofStripped l.content⟩

end Line

end IncludeOnce
