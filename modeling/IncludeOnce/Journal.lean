import IncludeOnce.Ledger
import IncludeOnce.Source
import IncludeOnce.Text.Quoted

/-! The journal of a run: what happened, in order.

The log is a reading of the journal. Some entries are one log record each; the
others are silent and kept for the history, which tells at every moment which
files have been asked for and read, what they have shown, and which names are
defined. -/
namespace IncludeOnce

/-- How important a log record is. -/
inductive LogLevel
  | trace
  | debug
deriving DecidableEq

def LogLevel.word : LogLevel → String
  | .trace => "TRACE"
  | .debug => "DEBUG"

structure LogRecord where
  level : LogLevel
  target : String
  message : String

inductive Journal.Entry
  /-- A main file is about to be read. -/
  | mainBegun (file : Identity)
  /-- The content of a main file has been read. -/
  | mainEnded (file : Identity) (report : Report)
  | defined (name : Name)
  | undefined (name : Name)
  /-- A header is about to be sought from a directory. -/
  | sought (request : Request) (beside : Path)
  | resolved (request : Request) (file : Identity)
  | skipped (request : Request) (file : Identity) (reason : SkipReason)
  | processing (request : Request) (file : Identity)
  /-- The content of a requested file has been read. -/
  | finished (file : Identity) (report : Report)
  | lockedByPragma (file : Identity)
  | ignoredPragma (word : Text)
  /-- The limit of nested files was met; the files open then, outermost first. -/
  | tooDeep (files : List Identity)
  | unitFinished (source : SourceId) (requests files : Nat)

abbrev Journal := Array Journal.Entry

namespace Journal

/-- The parts of the program that write to the log. -/
inductive Part
  | inclusion
  | scanner
  | pipeline

def Part.target : Part → String
  | .inclusion => "cinclude::pp::orchestrator"
  | .scanner => "cinclude::pp::preprocessor"
  | .pipeline => "cinclude::driver::compiler"

def describe : SkipReason → String
  | .onceGuarded => "OnceGuarded"
  | .includeGuard name => s!"IncludeGuard({name.quoted.display})"

namespace Entry

/-- The log record of an entry, if it has one. -/
def record? : Entry → Option LogRecord
  | .mainBegun _ | .mainEnded _ _ | .defined _ | .undefined _ | .sought _ _ => none
  | .resolved r f =>
    some ⟨.trace, Part.inclusion.target, s!"{r.display} resolved to {f.display}"⟩
  | .skipped r f reason =>
    some ⟨.debug, Part.inclusion.target, s!"{r.display}: skipping {f.display} ({describe reason})"⟩
  | .processing r f =>
    some ⟨.debug, Part.inclusion.target, s!"{r.display}: processing {f.display}"⟩
  | .finished f report =>
    if report.declaredOnce then
      some ⟨.trace, Part.inclusion.target, s!"{f.display} declared #pragma once"⟩
    else none
  | .lockedByPragma f => some ⟨.trace, Part.scanner.target, s!"#pragma once in {f.display}"⟩
  | .ignoredPragma word => some ⟨.debug, Part.scanner.target, s!"ignoring #pragma {word.display}"⟩
  | .tooDeep files =>
    let chain := " -> ".intercalate (files.map (·.display))
    some ⟨.debug, Part.scanner.target, s!"include stack: {chain}"⟩
  | .unitFinished id requests files =>
    some ⟨.debug, Part.pipeline.target,
      s!"{id.display}: {requests} include directives, {files} files in ledger"⟩

end Entry

/-- The log, in order. -/
def records (j : Journal) : List LogRecord := j.toList.filterMap Entry.record?

end Journal

end IncludeOnce
