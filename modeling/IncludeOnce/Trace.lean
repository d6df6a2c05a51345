import IncludeOnce.Inclusion

/-! The include trace: each request that is handled, in the order of the scan, a
request before the requests inside the file it asked for. What became of a request
is filled in once it is known. -/
namespace IncludeOnce

/-- What became of a request. -/
inductive EventResult
  /-- It is still being handled. -/
  | pending
  | processed (file : Identity)
  | skipped (reason : SkipReason) (file : Identity)
  | failed
deriving DecidableEq

namespace EventResult

def ofOutcome (o : Outcome) : EventResult :=
  match o.action with
  | .processed => .processed o.file
  | .skipped reason => .skipped reason o.file

def label : EventResult → String
  | .pending => "pending"
  | .processed _ => "processed"
  | .skipped .onceGuarded _ => "skipped-once"
  | .skipped (.includeGuard _) _ => "skipped-guard"
  | .failed => "failed"

/-- The file that was meant, where one has been found. -/
def file? : EventResult → Option Identity
  | .processed file => some file
  | .skipped _ file => some file
  | .pending | .failed => none

/-- The path that is shown, empty where no file has been found. -/
def path (r : EventResult) : Path :=
  match r.file? with
  | some file => file.path
  | none => ⟨[]⟩

end EventResult

structure IncludeEvent where
  /-- How many files were open, 1 in a main file. -/
  depth : Nat
  kind : RequestKind
  header : Text
  result : EventResult
deriving DecidableEq

namespace Trace

/-- The line of an event in the printed trace, where only read files show. -/
def line? (e : IncludeEvent) : Option String :=
  match e.result with
  | .processed file => some (Text.display (List.replicate e.depth '.') ++ " " ++ file.display)
  | _ => none

def format (events : List IncludeEvent) : String := "\n".intercalate (events.filterMap line?)

end Trace

end IncludeOnce
