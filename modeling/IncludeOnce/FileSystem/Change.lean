import IncludeOnce.FileSystem

/-! Making files, directories and links.

Writing to a path that finds a file replaces the content and keeps the file's
number, so every other name of it shows the new content; writing through a link
whose target is missing makes the target. -/
namespace IncludeOnce.FileSystem

def putEntry (fs : FileSystem) (a : Address) (e : Entry) : FileSystem :=
  { fs with entries := (a, e) :: fs.entries }

def addDirectory (fs : FileSystem) (a : Address) : FileSystem :=
  { fs.putEntry a (.directory fs.fresh) with fresh := fs.fresh + 1 }

def putContent (fs : FileSystem) (n : Nat) (content : List UInt8) : FileSystem :=
  { fs with contents := (n, content) :: fs.contents.filter (·.1 ≠ n) }

def addFile (fs : FileSystem) (a : Address) (content : List UInt8) : FileSystem :=
  { (fs.putEntry a (.file fs.fresh)).putContent fs.fresh content with fresh := fs.fresh + 1 }

/-- The last piece of a path and where it stands. -/
structure Standing where
  directory : Address
  name : Text
  /-- A slash follows the piece. -/
  slash : Bool

namespace Standing

/-- Whether the piece is a name, which can be given to something. -/
def isName (s : Standing) : Bool := !Path.isSilent s.name && s.name ≠ ['.', '.']

def address (s : Standing) : Address := s.name :: s.directory

end Standing

def standing (fs : FileSystem) (p : Path) : Except IoError Standing :=
  if p.text.contains '\x00' then .error .nulInName
  else if p.text = [] then .error .notFound
  else if pathLimit ≤ p.text.byteLength then .error .nameTooLong
  else
    let (origin, way) := start fs.current p
    let slash : Bool := way.getLast? = some []
    match way.reverse.dropWhile (· = []) with
    | [] => .ok ⟨origin, [], slash⟩
    | name :: above =>
      match fs.walk .find linkLimit origin (above.reverse ++ [[]]) with
      | .ok (.taken a) => .ok ⟨a, name, slash⟩
      | .ok (.free _ _) => .error .notFound
      | .error e => .error e

/-- Makes the path a regular file with this content. -/
def write (fs : FileSystem) (p : Path) (content : List UInt8) : Except IoError FileSystem :=
  match fs.spot .create p with
  | .error e => .error e
  | .ok (.free a name) => .ok (fs.addFile (name :: a) content)
  | .ok (.taken a) =>
    match fs.entry? a with
    | some (.file n) => .ok (fs.putContent n content)
    | some (.directory _) => .error .isDirectory
    | _ => .error .notFound

/-- Where a path makes a new name. Only a directory may be made with a slash after
its name. -/
def vacancy (fs : FileSystem) (p : Path) (forDirectory : Bool) : Except IoError Address := do
  let s ← fs.standing p
  if !s.isName then .error .alreadyExists
  else if nameLimit < s.name.byteLength then .error .nameTooLong
  else if (fs.entry? s.address).isSome then .error .alreadyExists
  else if s.slash && !forDirectory then .error .notFound
  else .ok s.address

/-- Makes the path a directory, or finds that it is one. -/
def ensureDirectory (fs : FileSystem) (p : Path) : Except IoError FileSystem :=
  match fs.vacancy p true with
  | .ok a => .ok (fs.addDirectory a)
  | .error .alreadyExists =>
    if ((fs.locate p).map fs.isDirectory).toOption = some true then .ok fs
    else .error .alreadyExists
  | .error e => .error e

/-- Makes the first path a directory; the others are the paths above it, which are
made where they are missing. -/
def ensureAll (fs : FileSystem) : List Path → Except IoError FileSystem
  | [] => .ok fs
  | p :: above =>
    if p.text = [] then .ok fs
    else
      match fs.ensureDirectory p with
      | .error .notFound => do (← ensureAll fs above).ensureDirectory p
      | result => result

/-- Makes the path a directory, with every directory on the way to it. -/
def makeDirectory (fs : FileSystem) (p : Path) : Except IoError FileSystem :=
  fs.ensureAll (p :: p.parents)

/-- Makes the path a link that holds `target`. -/
def addLink (fs : FileSystem) (p target : Path) : Except IoError FileSystem :=
  if target.text.contains '\x00' || p.text.contains '\x00' then .error .nulInName
  else if target.text = [] then .error .notFound
  else if pathLimit ≤ target.text.byteLength then .error .nameTooLong
  else do return fs.putEntry (← fs.vacancy p false) (.link target)

/-- The entry at the end of a path. A link there is not followed, unless a directory
is asked for. -/
def entryAt (fs : FileSystem) (p : Path) : Except IoError Entry := do
  let s ← fs.standing p
  let address ←
    if s.slash || !s.isName then fs.locate p
    else if nameLimit < s.name.byteLength then .error .nameTooLong
    else .ok s.address
  match fs.entry? address with
  | some e => .ok e
  | none => .error .notFound

/-- Makes the path another name of an existing entry. A directory has one name only,
which is refused after everything else. -/
def addAlias (fs : FileSystem) (p existing : Path) : Except IoError FileSystem := do
  if existing.text.contains '\x00' || p.text.contains '\x00' then .error .nulInName
  else
    let e ← fs.entryAt existing
    let a ← fs.vacancy p false
    match e with
    | .directory _ => .error .notPermitted
    | e => .ok (fs.putEntry a e)

/-- What to make at a path. -/
inductive Making
  | directory
  | file (content : List UInt8)
  | link (target : Path)
  | alias (existing : Path)

/-- Makes every directory above a path. -/
def makeParent (fs : FileSystem) (p : Path) : Except IoError FileSystem :=
  fs.ensureAll p.parents

/-- Makes something at a path, and first the directories above it. -/
def make (fs : FileSystem) (p : Path) (making : Making) : Except IoError FileSystem := do
  let fs ← fs.makeParent p
  match making with
  | .directory => fs.makeDirectory p
  | .file content => fs.write p content
  | .link target => fs.addLink p target
  | .alias existing => fs.addAlias p existing

end IncludeOnce.FileSystem
