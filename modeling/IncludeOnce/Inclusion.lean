import IncludeOnce.Journal
import IncludeOnce.Search

/-! Handling one request: resolve the header, decide on the ledger, and read the
file or drop the request.

The handler knows nothing of how a file is read. A `Host` reads files for it: the
scanner, or any other. The host works on the same ledger, so that requests inside
a file are decided in the same unit; whatever it keeps for itself is its own
state. State survives failure: what a failing request did to the ledger before it
failed stays done. -/
namespace IncludeOnce

/-- The state of a run: ledger and journal, and the host's own state. -/
structure Run (σ : Type) where
  ledger : Ledger := {}
  journal : Journal := #[]
  host : σ

namespace Run

variable {σ : Type}

def note (run : Run σ) (entry : Journal.Entry) : Run σ :=
  { run with journal := run.journal.push entry }

def mapLedger (run : Run σ) (f : Ledger → Ledger) : Run σ := { run with ledger := f run.ledger }

def mapHost (run : Run σ) (f : σ → σ) : Run σ := { run with host := f run.host }

end Run

/-- Who reads files on behalf of the handler. -/
structure Host (ε σ : Type) where
  isDefined : σ → Name → Bool
  /-- The failure of a request whose header means no file. -/
  unresolved : ResolutionError → ε
  /-- Reads the content of a file in place. -/
  process : Identity → EStateM ε (Run σ) Report

/-- Which file a header name means, seen from a directory. -/
abbrev Resolver := HeaderName → Path → Except ResolutionError Identity

inductive Action
  | processed
  | skipped (reason : SkipReason)
deriving DecidableEq

/-- The file a request meant and what became of it. -/
structure Outcome where
  file : Identity
  action : Action

namespace Request

variable {ε σ : Type}

/-- Reads a file for a request that has been decided to process it. -/
def fulfil (host : Host ε σ) (file : Identity) : EStateM ε (Run σ) Outcome := do
  modify (·.mapLedger (·.begin file))
  let report ← host.process file
  modify (·.note (.finished file report))
  modify (·.mapLedger (·.complete file report))
  return ⟨file, .processed⟩

def handle (request : Request) (resolver : Resolver) (beside : Path) (host : Host ε σ) :
    EStateM ε (Run σ) Outcome := do
  modify (·.note (.sought request beside))
  match resolver request.header beside with
  | .error e => throw (host.unresolved e)
  | .ok file =>
    modify (·.note (.resolved request file))
    let run ← get
    let (decision, ledger) := run.ledger.resolve file request.kind (host.isDefined run.host)
    set { run with ledger }
    match decision with
    | .skip reason =>
      modify (·.note (.skipped request file reason))
      return ⟨file, .skipped reason⟩
    | .process =>
      modify (·.note (.processing request file))
      fulfil host file

end Request

end IncludeOnce
