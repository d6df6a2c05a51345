import IncludeOnce.Text.Unseen

/-! Text between double quotes.

Quotes and backslashes are escaped, and so is everything that would not show: the
usual controls by a letter, the rest by its number. -/
namespace IncludeOnce

namespace Quoted

/-- A character by its number. -/
def numbered (c : Char) : Text := '\\' :: 'u' :: '\x7b' :: Nat.toDigits 16 c.toNat ++ ['\x7d']

def escape (c : Char) : Text :=
  if c = '"' ∨ c = '\\' then ['\\', c]
  else if c = '\n' then ['\\', 'n']
  else if c = '\r' then ['\\', 'r']
  else if c = '\t' then ['\\', 't']
  else if c = '\x00' then ['\\', '0']
  else if Text.isUnseen c then numbered c
  else [c]

end Quoted

def Text.quoted (t : Text) : Text := '"' :: t.flatMap Quoted.escape ++ ['"']

end IncludeOnce
