import IncludeOnce.CommandLine

/-! The program on the real disk.

The run itself is a function of the files it can see. It is run on what is known
of the disk, which at first is nothing; the journal then tells which paths it
asked about, these are looked up, and the run is made again, until it asks about
nothing new. Only then is anything printed or written. Each real path is taken for
a file of its own, since file numbers cannot be asked for here. -/
namespace IncludeOnce.Program

def usage : String :=
  "Usage: cinclude [OPTIONS] <INPUT_FILES>...\n\n" ++
  "  -o, --output <FILE>              write the text to FILE\n" ++
  "  -v, --verbose                    show the log\n" ++
  "  -H                               print each header that is read\n" ++
  "  -I, --include-path <DIR>         search DIR for all headers\n" ++
  "      --iquote <DIR>               search DIR for quoted headers\n" ++
  "      --isystem <DIR>              search DIR last\n" ++
  "  -D, --define <NAME[=VALUE]>      define a macro\n" ++
  "  -W <OPTION>                      error or no-warnings\n" ++
  "      --max-include-depth <DEPTH>  limit on nested files (200)\n" ++
  "  -h, --help                       print this text\n"

def complaint : UsageError → String
  | .missingInput => "no input files"
  | .unknownArgument => "unknown argument"
  | .missingValue => "a value is required"
  | .badNumber => "not a number"
  | .repeated => "an option is given twice"
  | .unexpectedValue => "an option takes no value"
  | .helpWanted => ""

/-- The paths that a run asked about. -/
def asked (config : Config) (journal : Journal) : List Path :=
  config.inputs ++ config.output.toList ++
    journal.toList.flatMap fun entry =>
      match entry with
      | .sought request beside => config.settings.search.candidates request.header beside
      | _ => []

/-- Enters what stands at an absolute path without links. -/
def enter (fs : FileSystem) (place : String) (isDirectory : Bool) : IO FileSystem := do
  let path := Path.ofString place
  if (fs.locate path).toOption.isSome then return fs
  let making ←
    if isDirectory then pure FileSystem.Making.directory
    else pure (.file (← IO.FS.readBinFile place).toList)
  return (fs.make path making).toOption.getD fs

/-- Follows pieces from an absolute directory and enters what is met. -/
def explore (fs : FileSystem) (place : String) : List Text → IO FileSystem
  | [] => return fs
  | piece :: rest => do
    if Path.isSilent piece then explore fs place rest
    else if piece = ['.', '.'] then
      explore fs (((Path.ofString place).parent?.getD (.ofString "/")).display) rest
    else
      let next := ((Path.ofString place).join ⟨piece⟩).display
      match ← (IO.FS.realPath next).toBaseIO with
      | .error _ => return fs
      | .ok real =>
        let fs ← enter fs real.toString (← real.isDir)
        let fs :=
          if real.toString = next then fs
          else (fs.make (.ofString next) (.link (.ofString real.toString))).toOption.getD fs
        explore fs real.toString rest

/-- Enters what a path meets on its way. -/
def lookUp (fs : FileSystem) (path : Path) : IO FileSystem :=
  if path.text.contains '\x00' then return fs
  else
    let (origin, pieces) := FileSystem.start fs.current path
    explore fs origin.path.display pieces

/-- Runs until nothing new is asked about. -/
partial def settle (config : Config) (known : List Path) (fs : FileSystem) : IO Ending := do
  let ending := CommandLine.run config fs
  match (asked config ending.journal).filter (!known.contains ·) with
  | [] => return ending
  | unknown => settle config (known ++ unknown) (← unknown.foldlM lookUp fs)

/-- Writes the output file of a run that succeeded. -/
def deliver (config : Config) (ending : Ending) : IO Ending := do
  match config.output, ending.result with
  | some path, .ok () =>
    let octets := ((ending.files.read path).toOption.getD []).toByteArray
    match ← (IO.FS.writeBinFile path.display octets).toBaseIO with
    | .ok () => return ending
    | .error e =>
      return { ending with result := .error (.io s!"Failed to write {path.display}: {e}") }
  | _, _ => return ending

/-- The working directory, with nothing in it yet. -/
def workingDirectory : IO FileSystem := do
  let home := Path.ofString (← IO.currentDir).toString
  let fs := (({} : FileSystem).makeDirectory home).toOption.getD {}
  return { fs with current := (fs.locate home).toOption.getD [] }

end IncludeOnce.Program

open IncludeOnce in
def main (arguments : List String) : IO UInt32 := do
  match Options.read (arguments.map String.toList) with
  | .error .helpWanted =>
    IO.print Program.usage
    return 0
  | .error e =>
    IO.eprint s!"error: {Program.complaint e}\n\n{Program.usage}"
    return e.exitCode.toUInt32
  | .ok config =>
    let ending ← Program.settle config [] (← Program.workingDirectory)
    let exit := CommandLine.exit config (← Program.deliver config ending)
    IO.eprint exit.stderr
    IO.print exit.stdout
    return exit.code.toUInt32
