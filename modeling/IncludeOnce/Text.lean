/-! Text as the scanner sees it: a list of characters.

Everything that is read (source text, header names, paths, arguments) is a
`Text`, so that each reader is a recursion over characters; `String` is kept for
what is only shown.

`Text.lines` cuts text into lines: a line ends at a line feed, one carriage
return right before that line feed belongs to the line end, and a last line
without a line feed is a line if it has any character. Trimming removes
characters of the Unicode property `White_Space`. -/
namespace IncludeOnce

/-- A text is the list of its characters. -/
abbrev Text := List Char

namespace Text

/-- The characters of the Unicode property `White_Space`. -/
def isBlank (c : Char) : Bool :=
  let n := c.toNat
  (0x09 ≤ n && n ≤ 0x0D) || n == 0x20 || n == 0x85 || n == 0xA0 || n == 0x1680 ||
    (0x2000 ≤ n && n ≤ 0x200A) || n == 0x2028 || n == 0x2029 || n == 0x202F || n == 0x205F ||
    n == 0x3000

/-- Nothing but white space, or nothing at all. -/
def allBlank (t : Text) : Bool := t.all isBlank

def trimStart (t : Text) : Text := t.dropWhile isBlank

/-- Drops the longest run of characters in `p` at the end. -/
def dropEndWhile (p : Char → Bool) (t : Text) : Text := (t.reverse.dropWhile p).reverse

def trimEnd (t : Text) : Text := dropEndWhile isBlank t

def trim (t : Text) : Text := trimEnd (trimStart t)

/-- What stands between an opening and a closing character at the two ends. -/
def between? (opening closing : Char) : Text → Option Text
  | [] => none
  | c :: rest =>
    if c = opening ∧ rest.getLast? = some closing then some rest.dropLast else none

def lines : Text → List Text
  | [] => []
  | '\n' :: rest => [] :: lines rest
  | '\r' :: '\n' :: rest => [] :: lines rest
  | c :: rest =>
    match lines rest with
    | [] => [[c]]
    | line :: more => (c :: line) :: more

/-- The pieces between occurrences of `mark`, of which there is always one more
than there are marks. -/
def pieces (mark : Char) : Text → List Text
  | [] => [[]]
  | c :: rest =>
    if c = mark then [] :: pieces mark rest
    else
      match pieces mark rest with
      | [] => [[c]]
      | piece :: more => (c :: piece) :: more

/-- How many bytes the text takes in UTF-8. -/
def byteLength (t : Text) : Nat := t.foldr (fun c n => c.utf8Size + n) 0

def ofNat (n : Nat) : Text := Nat.toDigits 10 n

/-- The text as it is shown. -/
def display (t : Text) : String := String.ofList t

theorem length_dropWhile_le (p : Char → Bool) (t : Text) : (t.dropWhile p).length ≤ t.length :=
  (List.dropWhile_suffix p).length_le

theorem length_trim_le (t : Text) : (trim t).length ≤ t.length := by
  have inner := length_dropWhile_le isBlank t
  have outer := length_dropWhile_le isBlank (trimStart t).reverse
  simp only [trim, trimEnd, dropEndWhile, trimStart, List.length_reverse] at *
  omega

theorem length_of_between? {o c : Char} {t inner : Text} (h : between? o c t = some inner) :
    inner.length < t.length := by
  cases t with
  | nil => simp [between?] at h
  | cons d rest =>
    simp only [between?] at h
    split at h
    · cases h
      simp only [List.length_dropLast, List.length_cons]
      omega
    · cases h

end Text

end IncludeOnce
