import Mathlib.Control.Monad.Basic
import IncludeOnce.Proofs.Course

/-! The limit on open files.

Files may ask for one another without any guard and without end. A scan comes to its end
all the same, because a request fails where more than `maxDepth` files are open.
`scan_ends_within_limit` says how: every scan has a course, at no moment of it are more
than `maxDepth + 1` files open, every event stands at a depth from 1 to `maxDepth`, a scan
that meets the limit does so with one file too many and without an event, and on every way
out all files are closed again. -/
namespace IncludeOnce
open Scan

/-! ### What can go wrong with a line that asks for nothing -/

/-- A failure, if any, that is not the limit on open files. -/
def Shallow {α : Type} (x : Except ScanError α) : Prop := ∀ d, x ≠ .error (.depthExceeded d)

namespace Shallow
variable {α β : Type}

theorem ok (a : α) : Shallow (.ok a) := by
  intro d h
  cases h

theorem bind {x : Except ScanError α} {f : α → Except ScanError β} (hx : Shallow x)
    (hf : ∀ a, Shallow (f a)) : Shallow (x >>= f) := by
  intro d h
  cases x with
  | error e =>
    cases h
    exact hx d rfl
  | ok a => exact hf a d h

theorem ofExcept {x : Except ScanError α} (hx : Shallow x) {run left : Run Scan} {d : Nat} :
    ofExcept x run ≠ .error (.depthExceeded d) left := by
  intro h
  cases x with
  | error e =>
    cases h
    exact hx d rfl
  | ok a => cases h

end Shallow

theorem identifier_shallow (operand : Text) : Shallow (identifier operand) := by
  intro d h
  unfold identifier at h
  split at h
  · cases h
  · cases h

theorem condition_shallow (macros : Macros) (operand : Text) :
    Shallow (Scan.condition macros operand) := by
  intro d h
  unfold Scan.condition at h
  cases hv : Condition.value macros operand with
  | error piece => rw [hv] at h; cases h
  | ok value => rw [hv] at h; cases h

theorem test_shallow (macros : Macros) (skipping : Bool) (t : Test) :
    Shallow (Scan.test macros skipping t) := by
  cases t with
  | condition operand =>
    simp only [Scan.test]
    split
    · exact .ok _
    · exact condition_shallow macros operand
  | ifDefined operand => exact (identifier_shallow operand).bind fun _ => .ok _
  | ifUndefined operand => exact (identifier_shallow operand).bind fun _ => .ok _

namespace FileState

theorem branchable_shallow (st : FileState) {none? after : ScanError}
    (hn : ∀ d, none? ≠ .depthExceeded d) (ha : ∀ d, after ≠ .depthExceeded d) :
    Shallow (st.branchable none? after) := by
  intro d h
  unfold branchable at h
  split at h
  · cases h
    exact hn d rfl
  · split at h
    · cases h
      exact ha d rfl
    · cases h

theorem elseIf_shallow (st : FileState) {condition : Unit → Except ScanError Bool}
    (hc : Shallow (condition ())) : Shallow (st.elseIf condition) := by
  refine (st.branchable_shallow (by intro d h; cases h) (by intro d h; cases h)).bind ?_
  rintro ⟨s, outer⟩
  cases hs : s.taken with
  | true =>
    simp only [hs, if_true]
    exact .ok _
  | false =>
    simp only [hs, Bool.false_eq_true, if_false]
    exact hc.bind fun _ => .ok _

theorem otherwise_shallow (st : FileState) : Shallow st.otherwise :=
  (st.branchable_shallow (by intro d h; cases h) (by intro d h; cases h)).bind fun _ => .ok _

theorem closeSection_shallow (st : FileState) : Shallow st.closeSection := by
  intro d h
  unfold closeSection at h
  split at h
  · cases h
  · cases h

end FileState

section
variable (fs : FileSystem) (search : HeaderSearch) (reader : Reader) (file : Identity)
  (location : Location)

theorem command_shallow {c : Command} (hc : ∀ kind operand, c ≠ .request kind operand)
    {run left : Run Scan} {d : Nat} :
    command fs search reader file location c run ≠ .error (.depthExceeded d) left := by
  intro h
  cases c with
  | request kind operand => exact hc kind operand rfl
  | define operand =>
    simp only [command, bind_apply, define_apply] at h
    cases hs : Identifier.split operand with
    | mk name rest =>
      rw [hs] at h
      cases name with
      | nil => cases h
      | cons c more => cases h
  | undefine operand =>
    simp only [command, bind_apply] at h
    cases hi : identifier operand with
    | error e =>
      rw [hi] at h
      cases h
      exact identifier_shallow operand d hi
    | ok name => rw [hi] at h; cases h
  | pragma operand =>
    simp only [command] at h
    split at h
    · cases h
    · cases h
  | error message => cases h
  | warning message => cases h

/-- A line that asks for nothing does not meet the limit. -/
theorem step_shallow {st : FileState} {line : Line} (hasked : line.asked? st = none)
    {run left : Run Scan} {d : Nat} :
    step fs search reader file location st line run ≠ .error (.depthExceeded d) left := by
  intro h
  cases line with
  | text content =>
    simp only [step] at h
    split at h
    · cases h
    · cases h
  | marker => cases h
  | unknown name =>
    simp only [step] at h
    split at h
    · cases h
    · cases h
  | command c =>
    simp only [step] at h
    split at h
    · cases h
    · rename_i hlive
      have hc : ∀ kind operand, c ≠ .request kind operand := by
        rintro kind operand rfl
        simp only [Line.asked?, if_neg hlive] at hasked
        cases hasked
      rw [bind_apply] at h
      cases hr : command fs search reader file location c run with
      | ok declares middle => rw [hr] at h; cases h
      | error e middle =>
        rw [hr] at h
        cases h
        exact command_shallow fs search reader file location hc hr
  | opening t =>
    simp only [step, bind_apply, get_apply] at h
    cases ht : ofExcept (Scan.test run.host.macros st.skipping t) run with
    | ok holds middle => rw [ht] at h; cases h
    | error e middle =>
      rw [ht] at h
      cases h
      exact (test_shallow _ _ _).ofExcept ht
  | elseIf operand =>
    exact (FileState.elseIf_shallow _ (condition_shallow run.host.macros operand)).ofExcept h
  | otherwise => exact (FileState.otherwise_shallow _).ofExcept h
  | closing => exact (FileState.closeSection_shallow _).ofExcept h

end

/-! ### Courses and the limit -/

/-- The trace has grown by events at depths within these bounds. -/
def Deepens (low high : Nat) (run after : Run Scan) : Prop :=
  ∃ events, after.host.events.toList = run.host.events.toList ++ events ∧
    ∀ e ∈ events, low ≤ e.depth ∧ e.depth ≤ high

namespace Deepens
variable {low high : Nat} {run middle after : Run Scan}

theorem same (h : after.host.events = run.host.events) : Deepens low high run after :=
  ⟨[], by rw [h, List.append_nil], nofun⟩

theorem trans (h : Deepens low high run middle) (k : Deepens low high middle after) :
    Deepens low high run after := by
  obtain ⟨a, ha, hda⟩ := h
  obtain ⟨b, hb, hdb⟩ := k
  refine ⟨a ++ b, by rw [hb, ha, List.append_assoc], ?_⟩
  intro e he
  rcases List.mem_append.mp he with he | he
  · exact hda e he
  · exact hdb e he

/-- A request with what came up inside it, one file deeper. -/
theorem filled {event : IncludeEvent} {result : EventResult}
    (hbegun : middle.host.events = run.host.events.push event) (hlow : event.depth = low)
    (hhigh : low ≤ high) (hinner : Deepens (low + 1) high middle after) :
    Deepens low high run (traceFilled run.host.events.size result after) := by
  obtain ⟨events, hafter, hdepth⟩ := hinner
  rw [hbegun] at hafter
  refine ⟨{ event with result } :: events, traceFilled_events hafter result, ?_⟩
  intro e he
  rcases List.mem_cons.mp he with rfl | he
  · exact ⟨Nat.le_of_eq hlow.symm, hlow ▸ hhigh⟩
  · have := hdepth e he
    omega

end Deepens

/-- A trail comes past a request that meets the limit with `d` files open. The request fails
and leaves no event. -/
def MeetsLimit (fs : FileSystem) (settings : Settings) (d : Nat) (trail : List (Run Scan)) :
    Prop :=
  ∃ moment left file location kind operand,
    [moment, left.mapHost (·.fail location)] <:+: trail ∧
      moment.host.stack.length = d ∧ settings.maxDepth < d ∧
      request fs settings.search (readerIn fs settings moment) file location kind operand moment =
        .error (.depthExceeded d) left ∧
      left.host.events = moment.host.events

theorem MeetsLimit.widen {fs : FileSystem} {settings : Settings} {d : Nat}
    {trail wider : List (Run Scan)} (h : MeetsLimit fs settings d trail)
    (hwider : trail <:+: wider) : MeetsLimit fs settings d wider := by
  obtain ⟨moment, left, file, location, kind, operand, hpast, hmeets⟩ := h
  exact ⟨moment, left, file, location, kind, operand, hpast.trans hwider, hmeets⟩

section
variable {fs : FileSystem} {settings : Settings} {file f : Identity} {location : Location}
  {source inner : SourceId} {kind : RequestKind} {operand trailing : Text} {header : HeaderName}
  {st : FileState} {lines : List (Numbered Line)} {run left : Run Scan} {e : ScanError}
  {sources : Sources} {trail : List (Run Scan)}
  {r : EStateM.Result ScanError (Run Scan) FileState}

theorem fail_events (run : Run Scan) (location : Location) :
    (run.mapHost (·.fail location)).host.events = run.host.events :=
  (quiet_fail location run.host).2.2

theorem leave_events (r : EStateM.Result ScanError (Run Scan) FileState) :
    (leftBy (leave r)).host.events = (leftBy r).host.events := by
  obtain ⟨failure, hf⟩ := leftBy_leave r
  rw [hf]
  rfl

/-- At no moment are more files open than the limit and one. -/
theorem Course.length_le (h : Course fs settings file source st lines run trail r)
    (hlimit : run.host.stack.length ≤ settings.maxDepth + 1) :
    ∀ moment ∈ trail, moment.host.stack.length ≤ settings.maxDepth + 1 := by
  induction h with
  | done => exact List.forall_mem_singleton.mpr hlimit
  | line hasked hstep hrest ih =>
    have hstack := (step_aside_ok _ _ _ _ _ hasked hstep).stack
    exact List.forall_mem_cons.mpr ⟨hlimit, ih (hstack ▸ hlimit)⟩
  | fails hasked hstep =>
    have hstack := (step_aside_error _ _ _ _ _ hasked hstep).stack
    rw [List.forall_mem_cons, List.forall_mem_singleton, fail_stack, hstack]
    exact ⟨hlimit, hlimit⟩
  | refused hasked hrefused =>
    rw [List.forall_mem_cons, List.forall_mem_singleton, fail_stack, hrefused.stack]
    exact ⟨hlimit, hlimit⟩
  | dropped hasked hmeans hdecide hrest ih =>
    exact List.forall_mem_cons.mpr ⟨hlimit, ih ((droppedInside_stack _).symm ▸ hlimit)⟩
  | entered hasked hopens hinner hleave hrest ihinner ihrest =>
    have hinside := ihinner (by
      rw [openedInside_stack]
      exact Nat.succ_le_succ hopens.means.room)
    have hleft := leave_stack (hinner.stack.trans openedInside_stack)
    rw [hleave] at hleft
    have hbehind := ihrest (hleft ▸ hlimit)
    rw [List.forall_mem_cons, List.forall_mem_cons, begunInside_stack, List.forall_mem_append]
    exact ⟨hlimit, hlimit, hinside, hbehind⟩
  | stopped hasked hopens hinner hleave ihinner =>
    have hinside := ihinner (by
      rw [openedInside_stack]
      exact Nat.succ_le_succ hopens.means.room)
    have hleft := leave_stack (hinner.stack.trans openedInside_stack)
    rw [hleave] at hleft
    rw [List.forall_mem_cons, List.forall_mem_cons, begunInside_stack, List.forall_mem_append,
      List.forall_mem_singleton, fail_stack]
    exact ⟨hlimit, hlimit, hinside, hleft ▸ hlimit⟩

theorem droppedInside_depths (reason : SkipReason)
    (h : Means fs settings file operand run header trailing f) :
    Deepens run.host.stack.length settings.maxDepth run
      (droppedInside run file location kind header trailing f reason) := by
  exact .filled (handing_events run location kind header trailing) rfl h.room (.same rfl)

theorem Refused.depths (h : Refused fs settings file location kind operand run e left) :
    Deepens run.host.stack.length settings.maxDepth run left := by
  cases h with
  | malformed hread => exact .same rfl
  | @tooDeep header trailing hread hdeep =>
    obtain ⟨d, hd⟩ := warned_eq run location kind trailing
    exact .same (by rw [stoppedInside, hd]; rfl)
  | unresolved hread hroom hresolve =>
    exact .filled (handing_events _ _ _ _ _) rfl hroom (.same rfl)
  | unreadable hmeans hdecide hload =>
    exact .filled (handing_events _ _ _ _ _) rfl hmeans.room (.same rfl)

/-- What comes up while a file is read in place. -/
theorem Deepens.inside
    (h : Deepens (openedInside run file location kind header trailing f sources).host.stack.length
      settings.maxDepth (openedInside run file location kind header trailing f sources)
      (leftBy r)) :
    Deepens (run.host.stack.length + 1) settings.maxDepth
      (handing run location kind header trailing) (leftBy (leave r)) := by
  rw [openedInside_stack] at h
  exact .trans (.same rfl) (h.trans (.same (leave_events r)))

/-- Every event stands as deep as files are open at its request. -/
theorem Course.depths (h : Course fs settings file source st lines run trail r) :
    Deepens run.host.stack.length settings.maxDepth run (leftBy r) := by
  induction h with
  | done => exact .same rfl
  | line hasked hstep hrest ih =>
    have haside := step_aside_ok _ _ _ _ _ hasked hstep
    rw [haside.stack] at ih
    exact (Deepens.same haside.events).trans ih
  | fails hasked hstep =>
    exact .same ((fail_events _ _).trans (step_aside_error _ _ _ _ _ hasked hstep).events)
  | refused hasked hrefused => exact hrefused.depths.trans (.same (fail_events _ _))
  | dropped hasked hmeans hdecide hrest ih =>
    rw [droppedInside_stack] at ih
    exact (droppedInside_depths _ hmeans).trans ih
  | @entered _ _ _ _ _ _ _ kind _ _ header _ _ report _ left _ _ _ _ hasked hopens hinner hleave
      hrest ihinner ihrest =>
    have hleft := leave_stack (hinner.stack.trans openedInside_stack)
    have hinside := ihinner.inside
    rw [hleave] at hleft hinside
    rw [show (finishedInside _ _ report left).host.stack = _ from hleft] at ihrest
    exact Deepens.trans (.filled (handing_events _ _ _ _ _) rfl hopens.means.room hinside) ihrest
  | stopped hasked hopens hinner hleave ihinner =>
    have hinside := ihinner.inside
    rw [hleave] at hinside
    exact Deepens.trans (.filled (handing_events _ _ _ _ _) rfl hopens.means.room hinside)
      (.same (fail_events _ _))

/-- A file is not left for the limit on open files, unless its lines have met it. -/
theorem leave_exceeded {d : Nat} (h : leave r = .error (.depthExceeded d) left) :
    ∃ last, r = .error (.depthExceeded d) last := by
  cases r with
  | error e last =>
    cases h
    exact ⟨last, rfl⟩
  | ok st last =>
    simp only [leave, FileState.finish] at h
    cases hs : st.sections with
    | nil => rw [hs] at h; cases h
    | cons s outer => rw [hs] at h; cases h

theorem Refused.meetsLimit {d : Nat} (h : Refused fs settings file location kind operand run e left)
    (he : e = .depthExceeded d) :
    MeetsLimit fs settings d [run, left.mapHost (·.fail location)] := by
  have hrequest := h.request_eq
  cases h with
  | malformed hread => cases he
  | unresolved hread hroom hresolve => cases he
  | unreadable hmeans hdecide hload => cases he
  | @tooDeep header trailing hread hdeep =>
    cases he
    refine ⟨run, _, file, location, kind, operand, List.infix_rfl, rfl, hdeep, hrequest, ?_⟩
    obtain ⟨d, hd⟩ := warned_eq run location kind trailing
    rw [stoppedInside, hd]
    rfl

/-- A course that fails for the limit comes past the request that met it. -/
theorem Course.exceeded (h : Course fs settings file source st lines run trail r) {d : Nat}
    (hr : r = .error (.depthExceeded d) left) : MeetsLimit fs settings d trail := by
  induction h generalizing left with
  | done => cases hr
  | line hasked hstep hrest ih => exact (ih hr).widen (List.suffix_cons _ _).isInfix
  | fails hasked hstep =>
    cases hr
    exact absurd hstep (step_shallow _ _ _ _ _ hasked)
  | refused hasked hrefused =>
    cases hr
    exact hrefused.meetsLimit rfl
  | dropped hasked hmeans hdecide hrest ih => exact (ih hr).widen (List.suffix_cons _ _).isInfix
  | entered hasked hopens hinner hleave hrest ihinner ihrest =>
    apply (ihrest hr).widen
    exact List.infix_cons (List.infix_cons (List.suffix_append _ _).isInfix)
  | stopped hasked hopens hinner hleave ihinner =>
    cases hr
    obtain ⟨last, hlast⟩ := leave_exceeded hleave
    apply (ihinner hlast).widen
    exact List.infix_cons (List.infix_cons (List.prefix_append _ _).isInfix)

end

/-! ### Scans from outside -/

/-- A scan that started with no file open has kept to the limit: at every moment, in all its
events, and where it failed. -/
structure EndsWithin {α : Type} (fs : FileSystem) (settings : Settings) (run : Run Scan)
    (trail : List (Run Scan)) (r : EStateM.Result ScanError (Run Scan) α) : Prop where
  open_le : ∀ moment ∈ trail, moment.host.stack.length ≤ settings.maxDepth + 1
  depths : Deepens 1 settings.maxDepth run (leftBy r)
  /-- A scan fails for the limit where one file too many is open. -/
  exceeded : ∀ d left, r = .error (.depthExceeded d) left →
    d = settings.maxDepth + 1 ∧ MeetsLimit fs settings d trail
  closed : (leftBy r).host.stack = []

section
variable {fs : FileSystem} {settings : Settings} {source : SourceId} {file : Identity}
  {st : FileState} {lines : List (Numbered Line)} {run opened : Run Scan}
  {trail : List (Run Scan)} {r : EStateM.Result ScanError (Run Scan) FileState}

namespace EndsWithin
variable {α : Type} {wider : List (Run Scan)}

/-- A trail may be seen from further outside, where no file is open. -/
theorem widen {r : EStateM.Result ScanError (Run Scan) α} (h : EndsWithin fs settings run trail r)
    (hwider : trail <:+: wider)
    (houter : ∀ moment ∈ wider, moment ∈ trail ∨ moment.host.stack = []) :
    EndsWithin fs settings run wider r where
  open_le := by
    intro moment hmem
    rcases houter moment hmem with hinner | houter
    · exact h.open_le moment hinner
    · rw [houter]
      exact Nat.zero_le _
  depths := h.depths
  exceeded := by
    intro d left hr
    obtain ⟨hd, hmeets⟩ := h.exceeded d left hr
    exact ⟨hd, hmeets.widen hwider⟩
  closed := h.closed

theorem endMain {r : EStateM.Result ScanError (Run Scan) Report}
    (h : EndsWithin fs settings run trail r) (main : Identity) :
    EndsWithin fs settings run trail (endMain main r) := by
  cases r with
  | ok report left => exact ⟨h.open_le, h.depths, nofun, h.closed⟩
  | error e left =>
    refine ⟨h.open_le, h.depths, ?_, h.closed⟩
    intro d last hr
    cases hr
    exact h.exceeded d left rfl

end EndsWithin

/-- The outermost file is read and left. -/
theorem Course.endsWithin {o : OpenFile}
    (h : Course fs settings file source st lines opened trail r)
    (hstack : opened.host.stack = [o]) (hevents : opened.host.events = run.host.events) :
    EndsWithin fs settings run trail (leave r) := by
  have hle := h.length_le (by rw [hstack]; exact Nat.le_add_left _ _)
  have hdepths := h.depths
  rw [hstack] at hdepths
  refine ⟨hle, ?_, ?_, leave_stack (h.stack.trans hstack)⟩
  · exact Deepens.trans (.trans (.same hevents) hdepths) (.same (leave_events r))
  · intro d left hr
    obtain ⟨last, hlast⟩ := leave_exceeded hr
    have hmeets := h.exceeded hlast
    obtain ⟨moment, _, _, _, _, _, hpast, hlength, hdeep, _⟩ := hmeets
    have hopen := hle moment (hpast.subset List.mem_cons_self)
    exact ⟨by omega, h.exceeded hlast⟩

theorem MainCourse.endsWithin {r : EStateM.Result ScanError (Run Scan) Unit}
    (h : MainCourse fs settings source run trail r) (hempty : run.host.stack = []) :
    EndsWithin fs settings run trail r := by
  cases h with
  | absent hmain =>
    refine ⟨?_, .same rfl, nofun, hempty⟩
    simp [hempty]
  | @scanned main trail r hmain hcourse =>
    have hopened : (run.mainOpened main.identity).host.stack = [⟨main.identity, none⟩] :=
      congrArg (OpenFile.mk main.identity none :: ·) hempty
    have hbegun : (run.mainBegun main.identity).host.stack = [] := hempty
    have hleft : EndsWithin fs settings run trail (leave r) := hcourse.endsWithin hopened rfl
    have hends := hleft.endMain main.identity
    refine hends.widen (List.infix_cons (List.infix_cons (List.prefix_append _ _).isInfix)) ?_
    intro moment hmem
    simp only [List.mem_cons, List.mem_append, List.not_mem_nil, or_false] at hmem
    rcases hmem with rfl | rfl | hmem | rfl
    · exact .inr hempty
    · exact .inr hbegun
    · exact .inl hmem
    · exact .inr hends.closed

theorem PlaceCourse.endsWithin {r : EStateM.Result ScanError (Run Scan) Report}
    (h : PlaceCourse fs settings file run trail r) (hempty : run.host.stack = []) :
    EndsWithin fs settings run trail r := by
  cases h with
  | unreadable hload =>
    refine ⟨?_, .same rfl, nofun, hempty⟩
    simp [hempty]
  | @scanned source sources loaded trail r hload hfound hcourse =>
    have hopened : (run.placeOpened file sources).host.stack = [⟨file, run.host.requestSite⟩] :=
      congrArg (OpenFile.mk file run.host.requestSite :: ·) hempty
    have hends : EndsWithin fs settings run trail (leave r) := hcourse.endsWithin hopened rfl
    refine hends.widen (List.infix_cons (List.prefix_append _ _).isInfix) ?_
    intro moment hmem
    simp only [List.mem_cons, List.mem_append, List.not_mem_nil, or_false] at hmem
    rcases hmem with rfl | hmem | rfl
    · exact .inr hempty
    · exact .inl hmem
    · exact .inr hends.closed

end

/-- **Every scan ends within the limit on open files**, whatever files there are and
whatever has been scanned before. -/
theorem scan_ends_within_limit (fs : FileSystem) (settings : Settings) (run : Run Scan)
    (hempty : run.host.stack = []) :
    (∀ source, (∃ trail, MainCourse fs settings source run trail
        (process fs settings source run)) ∧
      ∀ trail r, MainCourse fs settings source run trail r →
        EndsWithin fs settings run trail r) ∧
    ∀ file, (∃ trail, PlaceCourse fs settings file run trail
        (includeFile fs settings file run)) ∧
      ∀ trail r, PlaceCourse fs settings file run trail r →
        EndsWithin fs settings run trail r :=
  ⟨fun source => ⟨exists_mainCourse fs settings run source, fun _ _ h => h.endsWithin hempty⟩,
    fun file => ⟨exists_placeCourse fs settings run file, fun _ _ h => h.endsWithin hempty⟩⟩

/-- A file that asks for itself without end. -/
def endless : SourceFile :=
  .entered ⟨0⟩ ⟨.inode 1, .ofString "/a.h"⟩ "#include \"a.h\"\n".toList

def endlessDisk : FileSystem where
  entries := [(["a.h".toList], .file 1)]
  contents := [(1, endless.text.map (·.toNat.toUInt8))]

/-- With two files allowed inside one another, the third request is one too many. -/
theorem endless_ends_within_limit :
    (runOn endless).host.stack = [] ∧
      outcome (process endlessDisk { maxDepth := 2 } ⟨0⟩ (runOn endless)) =
        .error (.depthExceeded 3) ∧
      (leftBy (process endlessDisk { maxDepth := 2 } ⟨0⟩ (runOn endless))).host.events.toList.map
        (·.depth) = [1, 2] ∧
      ∃ trail, MainCourse endlessDisk { maxDepth := 2 } ⟨0⟩ (runOn endless) trail
          (process endlessDisk { maxDepth := 2 } ⟨0⟩ (runOn endless)) ∧
        EndsWithin endlessDisk { maxDepth := 2 } (runOn endless) trail
          (process endlessDisk { maxDepth := 2 } ⟨0⟩ (runOn endless)) := by
  obtain ⟨⟨trail, hcourse⟩, hends⟩ :=
    (scan_ends_within_limit endlessDisk { maxDepth := 2 } (runOn endless) rfl).1 ⟨0⟩
  exact ⟨rfl, by decide +kernel, by decide +kernel, trail, hcourse, hends trail _ hcourse⟩

end IncludeOnce
