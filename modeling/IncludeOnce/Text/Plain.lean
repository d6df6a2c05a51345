import IncludeOnce.Text.Utf8

/-! Text for a stream that shows no colours.

Terminal sequences are left out, and so are control characters, except those that
move to the next column, line or page. A sequence begins with the escape
character. What follows says how it ends: a control sequence with a character from
`@` to `~`, a command with a bell, a message with a string terminator, and
everything with a cancelling character or the beginning of another sequence.

A character of layout inside a short or a control sequence shows, and so does the
text after it, up to the next control character; there the sequence is taken up
again, unless the text had a character beyond ASCII, which ends it. -/
namespace IncludeOnce

namespace Plain

/-- The sequence that is being read. -/
inductive Mode
  | ground
  /-- After the escape character. -/
  | escape
  /-- A short sequence with more than one character. -/
  | short
  | control
  | command
  /-- The head of a device message: before its numbers, in them, and after. -/
  | headStart
  | headNumbers
  | headEnd
  | message
deriving DecidableEq

/-- The control characters that are kept. -/
def isLayout (c : Char) : Bool := c = '\t' || c = '\n' || c = '\x0c' || c = '\r'

def isControl (c : Char) : Bool := c < ' ' || c = '\x7f'

def isAscii (c : Char) : Bool := c < '\x80'

/-- The octet that ends a message, also in the middle of a character. -/
def terminator : UInt8 := 0x9C

/-- What the character after an escape begins. -/
def opened (c : Char) : Mode :=
  if ' ' ≤ c ∧ c ≤ '/' then .short
  else if c = '[' then .control
  else if c = ']' then .command
  else if c = 'P' then .headStart
  else if c = 'X' || c = '^' || c = '_' then .message
  else if '0' ≤ c ∧ c ≤ '~' then .ground
  else .escape

namespace Mode

/-- Whether a character of layout shows in the middle of the sequence. -/
def showsLayout : Mode → Bool
  | .ground | .escape | .short | .control => true
  | _ => false

/-- The mode after a character that does not show. -/
def next (mode : Mode) (c : Char) : Mode :=
  if c = '\x1b' then .escape
  else if c = '\x18' || c = '\x1a' then .ground
  else
    match mode with
    | .ground => .ground
    | .escape => opened c
    | .short => if '0' ≤ c ∧ c ≤ '~' then .ground else .short
    | .control => if '@' ≤ c ∧ c ≤ '~' then .ground else .control
    | .command => if c = '\x07' then .ground else .command
    | .headStart =>
      if ' ' ≤ c ∧ c ≤ '/' then .headEnd
      else if '0' ≤ c ∧ c ≤ '?' then .headNumbers
      else if '@' ≤ c ∧ c ≤ '~' then .message
      else .headStart
    | .headNumbers =>
      if ' ' ≤ c ∧ c ≤ '/' then .headEnd
      else if '<' ≤ c ∧ c ≤ '~' then .message
      else .headNumbers
    | .headEnd => if '0' ≤ c ∧ c ≤ '~' then .message else .headEnd
    | .message => if (Utf8.encode [c]).contains terminator then .ground else .message

end Mode

/-- The text that shows. `copying` says that text shows although a sequence is
still to be taken up. -/
def plainFrom (mode : Mode) (copying : Bool) : Text → Text
  | [] => []
  | c :: rest =>
    if isLayout c then
      if mode.showsLayout then c :: plainFrom mode true rest
      else plainFrom mode copying rest
    else if isControl c then plainFrom (mode.next c) false rest
    else if copying || mode = .ground then
      c :: plainFrom (if isAscii c then mode else .ground) true rest
    else plainFrom (mode.next c) false rest

end Plain

/-- The part of a text that shows on a stream without colours. -/
def Text.plain (t : Text) : Text := Plain.plainFrom .ground true t

end IncludeOnce
