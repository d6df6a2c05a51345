import IncludeOnce.FileSystem
import IncludeOnce.Request

/-! Where headers are sought.

An absolute name is looked at and nothing else. A quoted name is sought in the
directory of the file that names it and then along the quoted, the common and the
system directories; an angled name along the common and the system directories
only. Each list of directories is asked where those before it hold nothing. The
first regular file is the header, and `resolve` gives its identity.

`candidates` lists all the paths that may be looked at, in their order. -/
namespace IncludeOnce

/-- Why a header name means no file. -/
inductive ResolutionError
  | notFound (header : HeaderName)
  /-- The header is there, but not its identity. -/
  | unreadable (path : Path) (cause : IoError)
deriving DecidableEq

def ResolutionError.message : ResolutionError → String
  | .notFound header => s!"cannot find header file: {header.display}"
  | .unreadable path cause => s!"cannot read header file {path.display}: {cause.message}"

structure HeaderSearch where
  /-- Directories for quoted names only. -/
  quoted : List Path := []
  /-- Directories for all names. -/
  common : List Path := []
  /-- Directories for all names, asked last. -/
  system : List Path := []
deriving DecidableEq

namespace HeaderSearch

/-- The directories asked for a relative name, in order. -/
def directories (s : HeaderSearch) (beside : Path) : Delimiter → List Path
  | .quoted => beside :: s.quoted ++ s.common ++ s.system
  | .angled => s.common ++ s.system

def candidates (s : HeaderSearch) (h : HeaderName) (beside : Path) : List Path :=
  let name : Path := ⟨h.name⟩
  if name.isAbsolute then [name]
  else (s.directories beside h.delimiter).map (·.join name)

/-- The first regular file by a name in some directories. -/
def findIn? (fs : FileSystem) (name : Path) (directories : List Path) : Option Path :=
  (directories.map (·.join name)).find? fs.isFile

/-- The path of a header, sought in one place after the other. -/
def find? (s : HeaderSearch) (fs : FileSystem) (h : HeaderName) (beside : Path) : Option Path :=
  let name : Path := ⟨h.name⟩
  if name.isAbsolute then
    if fs.isFile name then some name else none
  else
    match h.delimiter with
    | .angled => (findIn? fs name s.common).orElse fun _ => findIn? fs name s.system
    | .quoted =>
      let candidate := beside.join name
      if fs.isFile candidate then some candidate
      else
        ((findIn? fs name s.quoted).orElse fun _ => findIn? fs name s.common).orElse fun _ =>
          findIn? fs name s.system

/-- The file that a header name means. -/
def resolve (s : HeaderSearch) (fs : FileSystem) (h : HeaderName) (beside : Path) :
    Except ResolutionError Identity :=
  match s.find? fs h beside with
  | none => .error (.notFound h)
  | some path => (fs.identify path).mapError (.unreadable path)

end HeaderSearch

end IncludeOnce
