import IncludeOnce.Identity
import IncludeOnce.Macros
import IncludeOnce.Request

/-! The ledger of a unit and the decisions taken on it.

A file has a record: whether its content has been handed on, whether it is
locked against being read again, the macro of its include guard, and how often
its content was handed on. A request is decided on the record as it was before
the request; an `#import` then locks the file, even if this very request still
reads it. -/
namespace IncludeOnce

structure Record where
  processed : Bool := false
  onceGuarded : Bool := false
  /-- The macro of the guard around the whole file, as last seen. -/
  guardName : Option Name := none
  count : Nat := 0
deriving DecidableEq

/-- Why a request is dropped. -/
inductive SkipReason
  | onceGuarded
  | includeGuard (name : Name)
deriving DecidableEq

inductive Decision
  | process
  | skip (reason : SkipReason)
deriving DecidableEq

/-- What reading a file shows about it. -/
structure Report where
  /-- A live line said that the file is to be read once. -/
  declaredOnce : Bool := false
  /-- The macro of the guard around the whole file. -/
  guardName : Option Name := none
deriving DecidableEq

namespace Record

def markProcessed (r : Record) : Record := { r with processed := true, count := r.count + 1 }

def markOnce (r : Record) : Record := { r with onceGuarded := true }

def setGuard (r : Record) (guardName : Option Name) : Record := { r with guardName }

/-- Takes over what reading the file has shown. -/
def absorb (r : Record) (report : Report) : Record :=
  (if report.declaredOnce then r.markOnce else r).setGuard report.guardName

def decide (r : Record) (isDefined : Name → Bool) : Decision :=
  if !r.processed then .process
  else if r.onceGuarded then .skip .onceGuarded
  else
    match r.guardName with
    | some name => if isDefined name then .skip (.includeGuard name) else .process
    | none => .process

end Record

/-- Records by identity, each under the path with which its file was first met. -/
structure Ledger where
  entries : List (Identity × Record) := []

namespace Ledger

def get? (l : Ledger) (f : Identity) : Option Record :=
  (l.entries.find? (·.1.isSame f)).map (·.2)

/-- The record of a file, a blank one if the file is not known. -/
def get (l : Ledger) (f : Identity) : Record := (l.get? f).getD {}

/-- Changes the record of a file in a list of entries; an unknown file is entered
with the changed blank record. -/
def updateIn (f : Identity) (change : Record → Record) :
    List (Identity × Record) → List (Identity × Record)
  | [] => [(f, change {})]
  | (g, r) :: rest =>
    if g.isSame f then (g, change r) :: rest else (g, r) :: updateIn f change rest

def update (l : Ledger) (f : Identity) (change : Record → Record) : Ledger :=
  ⟨updateIn f change l.entries⟩

/-- Makes sure that the file has a record. -/
def meet (l : Ledger) (f : Identity) : Ledger := l.update f id

def markProcessed (l : Ledger) (f : Identity) : Ledger := l.update f Record.markProcessed

def markOnce (l : Ledger) (f : Identity) : Ledger := l.update f Record.markOnce

def setGuard (l : Ledger) (f : Identity) (guardName : Option Name) : Ledger :=
  l.update f (·.setGuard guardName)

/-- Decides one request for a file and applies the request's own effect. -/
def resolve (l : Ledger) (f : Identity) (kind : RequestKind) (isDefined : Name → Bool) :
    Decision × Ledger :=
  ((l.get f).decide isDefined,
    match kind with
    | .plain => l.meet f
    | .once => l.markOnce f)

/-- The content of the file is about to be read, so that requests inside it
already see it as processed. -/
def begin (l : Ledger) (f : Identity) : Ledger := l.markProcessed f

/-- The content of the file has been read. -/
def complete (l : Ledger) (f : Identity) (report : Report) : Ledger := l.update f (·.absorb report)

def size (l : Ledger) : Nat := l.entries.length

end Ledger

end IncludeOnce
