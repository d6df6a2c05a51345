import IncludeOnce.Text

/-! Requests: which header a line asks for, and how.

`#include` asks for the file each time, `#import` asks for it once. The header is
named between quotes or between angle brackets. `HeaderName.read` reads a header
name off the front of a text and `HeaderName.text` writes it. -/
namespace IncludeOnce

/-- How a header name is written. -/
inductive Delimiter
  | quoted
  | angled
deriving DecidableEq

namespace Delimiter

def opening : Delimiter → Char
  | .quoted => '"'
  | .angled => '<'

def closing : Delimiter → Char
  | .quoted => '"'
  | .angled => '>'

/-- The delimiter that a character opens. -/
def ofOpening? (c : Char) : Option Delimiter :=
  if c = '"' then some .quoted else if c = '<' then some .angled else none

end Delimiter

structure HeaderName where
  name : Text
  delimiter : Delimiter
deriving DecidableEq

namespace HeaderName

def text (h : HeaderName) : Text := h.delimiter.opening :: h.name ++ [h.delimiter.closing]

def display (h : HeaderName) : String := h.text.display

/-- Reads a header name and gives the text after it. The name ends at the first
closing delimiter and is not empty. -/
def read : Text → Option (HeaderName × Text)
  | [] => none
  | c :: body =>
    match Delimiter.ofOpening? c with
    | none => none
    | some d =>
      match body.span (· ≠ d.closing) with
      | ([], _) => none
      | (_, []) => none
      | (name, _ :: trailing) => some (⟨name, d⟩, trailing)

end HeaderName

inductive RequestKind
  /-- Asks for the file each time. -/
  | plain
  /-- Asks for the file at most once. -/
  | once
deriving DecidableEq

/-- The word that makes the request. -/
def RequestKind.word : RequestKind → String
  | .plain => "include"
  | .once => "import"

structure Request where
  kind : RequestKind
  header : HeaderName
deriving DecidableEq

namespace Request

/-- The request as a line. -/
def text (r : Request) : Text := '#' :: r.kind.word.toList ++ ' ' :: r.header.text

def display (r : Request) : String := r.text.display

end Request

end IncludeOnce
