import IncludeOnce.Proofs.Actions

/-! What a line does by itself.

A line that asks for nothing looks at the macros and at nothing else in the state of a
scan. So what it comes to is told by the line, the state of its file and the macros: how it
ends (`Line.ending`), and what it changes (`Line.effect`): it makes at most one entry, locks
its file or not, leaves certain macros, puts out at most one line and gives at most one
warning. `step_eq` says this once. Two scans that come to such a line with the same macros go
on or fail alike, and what no effect reaches stays as it was. -/
namespace IncludeOnce
open Scan

/-- What a line asks for where it is live. -/
def Line.asked? (st : FileState) : Line → Option (RequestKind × Text)
  | .command (.request kind operand) => if st.skipping then none else some (kind, operand)
  | _ => none

/-- An entry that a line makes which asks for nothing. -/
def Journal.Entry.isOwn : Journal.Entry → Bool
  | .defined _ | .undefined _ | .lockedByPragma _ | .ignoredPragma _ => true
  | _ => false

/-- What handling a line changes. -/
structure Effect where
  macros : Macros
  entry : Option Journal.Entry := none
  isOwn : entry.all Journal.Entry.isOwn = true := by rfl
  /-- The file is locked. -/
  locks : Bool := false
  written : Option Text := none
  warning : Option String := none

/-- The state after an effect of a line. -/
def Effect.on (x : Effect) (file : Identity) (location : Location) (run : Run Scan) :
    Run Scan where
  ledger := if x.locks then run.ledger.markOnce file else run.ledger
  journal := x.entry.elim run.journal run.journal.push
  host :=
    { run.host with
      macros := x.macros
      written := x.written.elim run.host.written run.host.written.push
      diagnostics := x.warning.elim run.host.diagnostics
        (run.host.diagnostics.warn · (some location)) }

theorem Effect.on_journal (x : Effect) (file : Identity) (location : Location)
    (run : Run Scan) :
    (x.on file location run).journal.toList = run.journal.toList ++ x.entry.toList := by
  unfold Effect.on
  cases x.entry with
  | none => exact (List.append_nil _).symm
  | some entry => exact Array.toList_push

/-! ### Commands -/

/-- What is told where a name gets a body and has another one. -/
def Macros.redefinition? (macros : Macros) (name : Name) (body : Text) : Option String :=
  match macros.body? name with
  | some previous =>
    if previous = body then none else some s!"'{name.display}' macro redefined"
  | none => none

/-- The command says that its file is to be read once. -/
def Command.saysOnce : Command → Bool
  | .pragma operand => (Identifier.split operand).1 = "once".toList
  | _ => false

/-- What a live command changes that is no request. -/
def Command.effect (file : Identity) (macros : Macros) : Command → Effect
  | .request _ _ => { macros }
  | .define operand =>
    match Identifier.split operand with
    | ([], _) => { macros }
    | (name, rest) =>
      { macros := macros.define name rest.trim
        entry := some (.defined name)
        warning := macros.redefinition? name rest.trim }
  | .undefine operand =>
    match identifier operand with
    | .error _ => { macros }
    | .ok name => { macros := macros.undefine name, entry := some (.undefined name) }
  | .pragma operand =>
    if (Command.pragma operand).saysOnce then
      { macros, entry := some (.lockedByPragma file), locks := true }
    else { macros, entry := some (.ignoredPragma (Identifier.split operand).1) }
  | .error _ => { macros }
  | .warning message => { macros, warning := some s!"#warning {message.display}" }

/-- How it ends: it fails, or says whether its file is to be read once. -/
def Command.ending (c : Command) : Except ScanError Bool :=
  match c with
  | .define operand =>
    match Identifier.split operand with
    | ([], _) => .error .expectedIdentifier
    | _ => .ok false
  | .undefine operand => (identifier operand).map fun _ => false
  | .error message => .error (.errorDirective message)
  | _ => .ok c.saysOnce

theorem redefining_eq_warning (run : Run Scan) (location : Location) (name : Name) (body : Text) :
    redefining run location name body = run.mapHost fun s =>
      { s with
        diagnostics := (run.host.macros.redefinition? name body).elim s.diagnostics
          (s.diagnostics.warn · (some location)) } := by
  unfold redefining Macros.redefinition?
  cases run.host.macros.body? name with
  | none => rfl
  | some previous =>
    by_cases hsame : previous = body
    · simp only [if_pos hsame]
      rfl
    · simp only [if_neg hsame]
      rfl

section
variable (fs : FileSystem) (search : HeaderSearch) (reader : Reader) (file : Identity)
  (location : Location)

theorem command_eq {c : Command} (h : ∀ kind operand, c ≠ .request kind operand)
    (run : Run Scan) :
    command fs search reader file location c run =
      ofExcept c.ending ((c.effect file run.host.macros).on file location run) := by
  cases c with
  | request kind operand => exact absurd rfl (h kind operand)
  | define operand =>
    simp only [command, bind_apply, define_apply, Command.ending, Command.effect]
    cases Identifier.split operand with
    | mk name rest =>
      cases name with
      | nil => rfl
      | cons c more =>
        simp only [redefining_eq_warning]
        rfl
  | undefine operand =>
    simp only [command, Command.ending, Command.effect]
    cases identifier operand with
    | error e => rfl
    | ok name => rfl
  | pragma operand =>
    simp only [command, Command.ending, Command.effect, Command.saysOnce, decide_eq_true_eq]
    split
    · rename_i honce
      rw [decide_eq_true honce]
      rfl
    · rename_i hother
      rw [decide_eq_false hother]
      rfl
  | error message => rfl
  | warning message => rfl

end

/-- A live command locks its file just if it says that the file is to be read once. -/
theorem Command.effect_entry_eq_locked {file g : Identity} {macros : Macros} {c : Command} :
    (c.effect file macros).entry = some (.lockedByPragma g) ↔ c.saysOnce = true ∧ g = file := by
  cases c with
  | define operand =>
    simp only [effect, saysOnce]
    split <;> simp
  | undefine operand =>
    simp only [effect, saysOnce]
    split <;> simp
  | pragma operand =>
    simp only [effect]
    split
    · rename_i honce
      simp [honce, eq_comm]
    · rename_i hother
      simp [hother]
  | _ => simp [effect, saysOnce]

/-! ### Lines -/

/-- The line says that its file is to be read once. -/
def Line.saysOnce : Line → Bool
  | .command c => c.saysOnce
  | _ => false

/-- What a line changes that asks for nothing, in text that is skipped or live. -/
def Line.effect (file : Identity) (macros : Macros) (skipping : Bool) : Line → Effect
  | .text content => if skipping then { macros } else { macros, written := some content.trimEnd }
  | .command c => if skipping then { macros } else c.effect file macros
  | _ => { macros }

/-- A line locks its file just if it is live and says that the file is to be read once. -/
theorem Line.effect_entry_eq_locked {file g : Identity} {macros : Macros} {skipping : Bool}
    {line : Line} :
    (line.effect file macros skipping).entry = some (.lockedByPragma g) ↔
      skipping = false ∧ line.saysOnce = true ∧ g = file := by
  cases line with
  | text content => cases skipping <;> simp [effect, saysOnce]
  | command c =>
    cases skipping with
    | true => simp [effect]
    | false => simpa [effect, saysOnce] using Command.effect_entry_eq_locked
  | _ => simp [effect, saysOnce]

/-- How a line ends that asks for nothing: it fails, or leaves the file in a state. -/
def Line.ending (macros : Macros) (location : Location) (st : FileState) :
    Line → Except ScanError FileState
  | .text content => .ok (if content.allBlank then st else { st with shape := st.shape.onText })
  | .marker => .ok st
  | .unknown name => if st.skipping then .ok st else .error (.invalidDirective name)
  | .command c =>
    let st := { st with shape := st.shape.onDirective (.command c) }
    if st.skipping then .ok st
    else c.ending.map fun declares => { st with declaredOnce := st.declaredOnce || declares }
  | .opening t => (test macros st.skipping t).map fun holds =>
    { st with shape := st.shape.onDirective (.opening t) }.openSection holds location
  | .elseIf operand =>
    { st with shape := st.shape.onDirective (.elseIf operand) }.elseIf
      fun _ => condition macros operand
  | .otherwise => { st with shape := st.shape.onDirective .otherwise }.otherwise
  | .closing => { st with shape := st.shape.onDirective .closing }.closeSection

section
variable (fs : FileSystem) (search : HeaderSearch) (reader : Reader) (file : Identity)
  (location : Location) {st : FileState} {line : Line}

/-- **What a line does by itself is a matter of the line and the macros.** -/
theorem step_eq (h : line.asked? st = none) (run : Run Scan) :
    step fs search reader file location st line run =
      ofExcept (line.ending run.host.macros location st)
        ((line.effect file run.host.macros st.skipping).on file location run) := by
  cases line with
  | text content =>
    simp only [step, Line.ending, Line.effect]
    cases st.skipping with
    | true => rfl
    | false => rfl
  | marker => rfl
  | unknown name =>
    simp only [step, Line.ending, Line.effect]
    cases st.skipping with
    | true => rfl
    | false => rfl
  | command c =>
    simp only [step, Line.ending, Line.effect]
    split
    · rfl
    · rename_i hlive
      have hc : ∀ kind operand, c ≠ .request kind operand := by
        rintro kind operand rfl
        simp only [Line.asked?, if_neg hlive] at h
        cases h
      rw [bind_apply, command_eq fs search reader file location hc]
      cases c.ending with
      | error e => rfl
      | ok declares => rfl
  | opening t =>
    simp only [step, bind_apply, get_apply, Line.ending]
    cases test run.host.macros st.skipping t with
    | error e => rfl
    | ok holds => rfl
  | elseIf operand => rfl
  | otherwise => rfl
  | closing => rfl

theorem leftBy_ofExcept {α : Type} (x : Except ScanError α) (run : Run Scan) :
    leftBy (ofExcept x run) = run := by
  cases x with
  | error e => rfl
  | ok a => rfl

theorem leftBy_step (h : line.asked? st = none) (run : Run Scan) :
    leftBy (step fs search reader file location st line run) =
      (line.effect file run.host.macros st.skipping).on file location run := by
  rw [step_eq fs search reader file location h, leftBy_ofExcept]

/-- Such a line is handled without any reader. -/
theorem step_unasked (h : line.asked? st = none) :
    step fs search reader file location st line = step fs search none file location st line := by
  funext run
  rw [step_eq fs search reader file location h, step_eq fs search none file location h]

end

end IncludeOnce
