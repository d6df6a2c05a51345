import IncludeOnce.Identity

/-! Files, directories and links, and what a path finds among them.

A directory is known by its address: the names that lead to it from the root,
innermost first. An entry stands at an address. A regular file is a number and
its content is kept under that number, so two addresses with one number are two
names of one file. A file may be there and yet refuse to be read.

A path is followed piece by piece. Each piece needs a directory to stand in, a
link is replaced by the path it holds, and at most `linkLimit` links are followed
on one way. `walk` follows a path to its end; the end may be a name not yet taken
in an existing directory. -/
namespace IncludeOnce

/-- Why the file system refuses. -/
inductive IoError
  | notPermitted
  | notFound
  | accessDenied
  | alreadyExists
  | notDirectory
  | isDirectory
  | nameTooLong
  | tooManyLinks
  | nulInName
deriving DecidableEq

def IoError.message : IoError → String
  | .notPermitted => "Operation not permitted (os error 1)"
  | .notFound => "No such file or directory (os error 2)"
  | .accessDenied => "Permission denied (os error 13)"
  | .alreadyExists => "File exists (os error 17)"
  | .notDirectory => "Not a directory (os error 20)"
  | .isDirectory => "Is a directory (os error 21)"
  | .nameTooLong => "File name too long (os error 36)"
  | .tooManyLinks => "Too many levels of symbolic links (os error 40)"
  | .nulInName => "file name contained an unexpected NUL byte"

/-- The names from the innermost out; the root is `[]`. -/
abbrev Address := List Text

namespace Address

/-- The absolute path without links and without silent pieces. -/
def path (a : Address) : Path :=
  ⟨'/' :: ['/'].intercalate a.reverse⟩

end Address

inductive Entry
  | directory (inode : Nat)
  | file (inode : Nat)
  | link (target : Path)
deriving DecidableEq

structure FileSystem where
  entries : List (Address × Entry) := []
  contents : List (Nat × List UInt8) := []
  /-- Regular files that refuse to be read, and why. They are found and known like any
  other. -/
  refusals : List (Nat × IoError) := []
  /-- Where relative paths begin. -/
  current : Address := []
  /-- The next number for a file or directory; the root has number 0. -/
  fresh : Nat := 1

namespace FileSystem

/-- How many links are followed on the way of one path. -/
def linkLimit : Nat := 40

/-- How many bytes a name may have. -/
def nameLimit : Nat := 255

/-- A path to be opened has fewer bytes than this, and so has an absolute path to be
learnt. -/
def pathLimit : Nat := 4096

def entry? (fs : FileSystem) (a : Address) : Option Entry :=
  if a = [] then some (.directory 0) else fs.entries.lookup a

def isDirectory (fs : FileSystem) (a : Address) : Bool :=
  match fs.entry? a with
  | some (.directory _) => true
  | _ => false

/-- The end of a path: an entry, or a free name in a directory. -/
inductive Spot
  | taken (address : Address)
  | free (directory : Address) (name : Text)

/-- Where a path begins and the pieces to follow from there. -/
def start (relativeTo : Address) (p : Path) : Address × List Text :=
  match p.text with
  | '/' :: rest => ([], Path.segments rest)
  | rest => (relativeTo, Path.segments rest)

/-- What a path is followed for. -/
inductive Purpose
  /-- To open what is there. -/
  | find
  /-- To open a regular file, which is made if it is not there. A slash after its
  name asks for a directory. -/
  | create
  /-- To learn its absolute path, which has to be short enough all the way. -/
  | name
deriving DecidableEq

/-- Whether the pieces after a name ask for a directory before any other name. -/
def asksDirectory : List Text → Bool
  | [] => false
  | segment :: rest =>
    if Path.isSilent segment then rest = [] || asksDirectory rest else segment = ['.', '.']

/-- The bytes of the absolute path that is looked at for a name. A slash is added to
ask for a directory, but never to a link. -/
def lookedAt (a : Address) (name : Text) (rest : List Text) : Option Entry → Nat
  | some (.link _) => (Address.path (name :: a)).text.byteLength
  | _ => (Address.path (name :: a)).text.byteLength + if asksDirectory rest then 1 else 0

/-- What is wrong with a name, whatever it finds. To learn an absolute path is to
look at it as a whole, so its length is seen before anything else. -/
def objection? (fs : FileSystem) (purpose : Purpose) (a : Address) (name : Text)
    (rest : List Text) : Option IoError :=
  if purpose = .name && pathLimit ≤ lookedAt a name rest (fs.entry? (name :: a)) then
    some .nameTooLong
  else if !fs.isDirectory a then some .notDirectory
  else if purpose = .create && rest ≠ [] && rest.all (· = []) then some .isDirectory
  else if nameLimit < name.byteLength then some .nameTooLong
  else none

/-- Whether a piece that names nothing may stand after an address. It asks for a
directory, except that an absolute path is learnt name by name. -/
def allowsSilent (fs : FileSystem) (purpose : Purpose) (a : Address) (pieces : List Text) :
    Bool :=
  fs.isDirectory a || (purpose = .name && !asksDirectory pieces)

/-- Follows pieces until they end or a link is met, which is left to `jump`. -/
def advance (fs : FileSystem) (purpose : Purpose)
    (jump : Address → List Text → Except IoError Spot) :
    Address → List Text → Except IoError Spot
  | a, [] => .ok (.taken a)
  | a, segment :: rest =>
    if Path.isSilent segment then
      if fs.allowsSilent purpose a (segment :: rest) then advance fs purpose jump a rest
      else .error .notDirectory
    else if segment = ['.', '.'] then
      if fs.isDirectory a then advance fs purpose jump a.tail rest else .error .notDirectory
    else
      match fs.objection? purpose a segment rest, fs.entry? (segment :: a) with
      | some e, _ => .error e
      | none, none => if rest = [] then .ok (.free a segment) else .error .notFound
      | none, some (.link target) =>
        let (origin, way) := start a target
        jump origin (way ++ rest)
      | none, some _ => advance fs purpose jump (segment :: a) rest

/-- Follows pieces and at most the given number of links. -/
def walk (fs : FileSystem) (purpose : Purpose) :
    Nat → Address → List Text → Except IoError Spot
  | 0 => fs.advance purpose fun _ _ => .error .tooManyLinks
  | links + 1 => fs.advance purpose (fs.walk purpose links)

/-- The spot at the end of a path. -/
def spot (fs : FileSystem) (purpose : Purpose) (p : Path) : Except IoError Spot :=
  if p.text.contains '\x00' then .error .nulInName
  else if p.text = [] then .error .notFound
  else if purpose ≠ .name && pathLimit ≤ p.text.byteLength then .error .nameTooLong
  else
    let (origin, way) := start fs.current p
    fs.walk purpose linkLimit origin way

def Spot.address : Spot → Except IoError Address
  | .taken a => .ok a
  | .free _ _ => .error .notFound

/-- The address of the file or directory that a path opens. -/
def locate (fs : FileSystem) (p : Path) : Except IoError Address := do
  (← fs.spot .find p).address

/-- The identity of what stands at an address. -/
def identityAt (fs : FileSystem) (a : Address) : Except IoError Identity :=
  match fs.entry? a with
  | some (.directory n) | some (.file n) => .ok ⟨.inode n, a.path⟩
  | _ => .error .notFound

/-- The identity of what a path leads to. -/
def identify (fs : FileSystem) (p : Path) : Except IoError Identity := do
  fs.identityAt (← (← fs.spot .name p).address)

/-- Whether a path opens a regular file. -/
def isFile (fs : FileSystem) (p : Path) : Bool :=
  match fs.locate p with
  | .error _ => false
  | .ok a =>
    match fs.entry? a with
    | some (.file _) => true
    | _ => false

/-- What reading the regular file with a number gives. -/
def contentOf (fs : FileSystem) (n : Nat) : Except IoError (List UInt8) :=
  match fs.refusals.lookup n with
  | some e => .error e
  | none => .ok ((fs.contents.lookup n).getD [])

/-- The content of the regular file that a path opens. -/
def read (fs : FileSystem) (p : Path) : Except IoError (List UInt8) := do
  match fs.entry? (← fs.locate p) with
  | some (.file n) => fs.contentOf n
  | some (.directory _) => .error .isDirectory
  | _ => .error .notFound

end FileSystem

end IncludeOnce
