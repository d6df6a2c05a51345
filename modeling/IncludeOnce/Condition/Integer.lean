import IncludeOnce.Text

/-! Integer literals as conditions read them.

A literal is decimal, octal after `0`, or hexadecimal after `0x` or `0X`, with any
run of `u`, `U`, `l` and `L` at its end. One sign may stand before the digits.
Only values of 64 signed bits are integers; larger ones are refused, not wrapped. -/
namespace IncludeOnce.IntegerLiteral

/-- The value of a digit in any base up to sixteen. -/
def digit? (c : Char) : Option Nat :=
  if c.isDigit then some (c.toNat - '0'.toNat)
  else if 'a' ≤ c ∧ c ≤ 'f' then some (c.toNat - 'a'.toNat + 10)
  else if 'A' ≤ c ∧ c ≤ 'F' then some (c.toNat - 'A'.toNat + 10)
  else none

/-- The value of a digit of this base. -/
def digitOf? (base : Nat) (c : Char) : Option Nat := (digit? c).filter (· < base)

/-- The value of digits that follow digits of value `value`. -/
def digitsFrom? (base value : Nat) : Text → Option Nat
  | [] => some value
  | c :: rest =>
    match digitOf? base c with
    | some d => digitsFrom? base (value * base + d) rest
    | none => none

/-- The value of one or more digits. -/
def digits? (base : Nat) : Text → Option Nat
  | [] => none
  | t => digitsFrom? base 0 t

/-- The integers of 64 signed bits. -/
def inRange (n : Int) : Bool := Int64.minValue.toInt ≤ n && n ≤ Int64.maxValue.toInt

/-- Digits after at most one sign. -/
def signed? (base : Nat) (t : Text) : Option Int :=
  let value? : Option Int :=
    match t with
    | '-' :: rest => (digits? base rest).map fun n => -(n : Int)
    | '+' :: rest => (digits? base rest).map fun n => (n : Int)
    | _ => (digits? base t).map fun n => (n : Int)
  value?.filter inRange

def isSuffix (c : Char) : Bool := c = 'u' || c = 'U' || c = 'l' || c = 'L'

/-- Reads a literal, with white space around it. -/
def read (t : Text) : Option Int :=
  match t.trim.dropEndWhile isSuffix with
  | '0' :: 'x' :: rest => signed? 16 rest
  | '0' :: 'X' :: rest => signed? 16 rest
  | '0' :: c :: rest => signed? 8 (c :: rest)
  | digits => signed? 10 digits

end IncludeOnce.IntegerLiteral
