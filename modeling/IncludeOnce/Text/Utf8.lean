import IncludeOnce.Text

/-! UTF-8, read forgivingly.

`decode` reads octets as text. Octets that cannot be part of a character become
replacement characters, one for each longest run that is the beginning of some
character, so that no input is refused and what follows a damaged character is
read as usual. `encode` is the usual encoding, and `decode?` reads nothing else. -/
namespace IncludeOnce.Utf8

/-- A character of which some octets are still owed: how many, the range of the
next one, and the bits read so far. -/
structure Pending where
  owed : Nat
  low : UInt8
  high : UInt8
  bits : Nat
deriving DecidableEq

/-- What stands for octets that are no character. -/
def replacement : Char := '\uFFFD'

/-- An octet where a character may begin: the text it gives at once, and the
character it begins. -/
def first (b : UInt8) : Text × Option Pending :=
  if b ≤ 0x7F then ([Char.ofNat b.toNat], none)
  else if 0xC2 ≤ b ∧ b ≤ 0xDF then ([], some ⟨1, 0x80, 0xBF, b.toNat - 0xC0⟩)
  else if b = 0xE0 then ([], some ⟨2, 0xA0, 0xBF, 0⟩)
  else if b = 0xED then ([], some ⟨2, 0x80, 0x9F, 0xD⟩)
  else if 0xE1 ≤ b ∧ b ≤ 0xEF then ([], some ⟨2, 0x80, 0xBF, b.toNat - 0xE0⟩)
  else if b = 0xF0 then ([], some ⟨3, 0x90, 0xBF, 0⟩)
  else if b = 0xF4 then ([], some ⟨3, 0x80, 0x8F, 4⟩)
  else if 0xF1 ≤ b ∧ b ≤ 0xF3 then ([], some ⟨3, 0x80, 0xBF, b.toNat - 0xF0⟩)
  else ([replacement], none)

/-- One octet. An octet outside the range ends the begun character as damaged and
is read as a first octet. -/
def step : Option Pending → UInt8 → Text × Option Pending
  | none, b => first b
  | some p, b =>
    if p.low ≤ b ∧ b ≤ p.high then
      let bits := p.bits * 64 + (b.toNat - 0x80)
      if p.owed ≤ 1 then ([Char.ofNat bits], none)
      else ([], some ⟨p.owed - 1, 0x80, 0xBF, bits⟩)
    else
      let (text, next) := first b
      (replacement :: text, next)

def decodeFrom : Option Pending → List UInt8 → Text
  | none, [] => []
  | some _, [] => [replacement]
  | pending, b :: rest =>
    let (text, next) := step pending b
    text ++ decodeFrom next rest

/-- The text of a sequence of octets. -/
def decode (octets : List UInt8) : Text := decodeFrom none octets

def encode (t : Text) : List UInt8 := t.flatMap String.utf8EncodeChar

/-- The text whose encoding the octets are, if there is one. -/
def decode? (octets : List UInt8) : Option Text :=
  let t := decode octets
  if encode t = octets then some t else none

end IncludeOnce.Utf8
