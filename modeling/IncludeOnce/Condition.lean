import IncludeOnce.Condition.Integer
import IncludeOnce.Line.Identifier
import IncludeOnce.Macros

/-! Conditions of `#if` and `#elif`.

A condition is an integer, a name, a test whether a name is defined, or one of
these behind any number of negations and pairs of parentheses. `Condition.read`
reads one and `Condition.eval` gives its value in a macro table. What cannot be
read or has no value is reported as the innermost piece that is at fault. -/
namespace IncludeOnce

inductive Condition
  | integer (value : Int)
  | named (name : Name)
  | defined (name : Name)
  | not (inner : Condition)
deriving DecidableEq

namespace Condition

/-- The name in the operand of `defined`, which may stand in parentheses. -/
def operand? (t : Text) : Option Name :=
  let t := t.trim
  match Identifier.split ((t.between? '(' ')').getD t).trim with
  | ([], _) => none
  | (name, []) => some name
  | (_, _ :: _) => none

/-- Reads a condition without negation and parentheses from a trimmed text. -/
def readAtom (t : Text) : Option Condition :=
  match Identifier.split t with
  | ([], _) => (IntegerLiteral.read t).map .integer
  | (word, rest) =>
    if word = "defined".toList then (operand? rest).map .defined
    else if rest = [] then some (.named word)
    else none

/-- Reads a condition, or gives the piece that is none. -/
def read (t : Text) : Except Text Condition :=
  match _trimmed : t.trim with
  | '!' :: inner => (read inner).map .not
  | trimmed =>
    match _inside : Text.between? '(' ')' trimmed with
    | some inner => read inner
    | none =>
      match readAtom trimmed with
      | some c => .ok c
      | none => .error trimmed
termination_by t.length
decreasing_by
  · have := Text.length_trim_le t
    rw [_trimmed, List.length_cons] at this
    omega
  · have := Text.length_trim_le t
    have := Text.length_of_between? _inside
    rw [_trimmed] at *
    omega

/-- The value of a condition: an integer is true unless it is zero, a name that is
not defined is false, and a defined name stands for the integer that is its body.
A name whose body is no integer has no value. -/
def eval (m : Macros) : Condition → Except Text Bool
  | .integer value => .ok (value ≠ 0)
  | .named name =>
    match m.body? name with
    | none => .ok false
    | some body =>
      match IntegerLiteral.read body with
      | some value => .ok (value ≠ 0)
      | none => .error name
  | .defined name => .ok (m.isDefined name)
  | .not inner => (eval m inner).map (!·)

/-- Reads and evaluates a condition. -/
def value (m : Macros) (t : Text) : Except Text Bool := read t >>= eval m

end Condition

end IncludeOnce
