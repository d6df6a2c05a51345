import IncludeOnce.Proofs.Beside
import IncludeOnce.Proofs.Comments
import IncludeOnce.Proofs.Effects
import IncludeOnce.Proofs.Grammar

/-! Requests between a line and the handler.

A request is written as a line (`Request.text`), and lines are read for requests. What is written is
read back as it was, whatever characters the header name has: what could be taken for a literal, an
escape or the end of the name goes through untouched. And a line that makes a request is, without
its comments, the request as it is written, up to white space and to what stands behind it
(`Request.WrittenIn`).

That a request is made is seen in the journal: the first that is noted while the line is handled is
that its header is sought. `HandsOver` adds in which state the handler gets it, so that the warning
of what stands behind the header name is seen there. -/
namespace IncludeOnce
open Scan

/-! ### Header names and lines -/

namespace Comment

theorem opens_eq_false_iff (t : Text) :
    opens t = false ↔ ¬ ['/', '/'] <:+: t ∧ ¬ ['/', '*'] <:+: t := by
  induction t with
  | nil => simp [opens]
  | cons c rest ih =>
    rw [opens, Bool.or_eq_false_iff, ih, List.infix_cons_iff, List.infix_cons_iff, pair_begins_iff,
      pair_begins_iff]
    simp
    grind

end Comment

namespace HeaderName

/-- What is read is a header name as it is written, and what stands behind it. -/
theorem eq_of_read {t trailing : Text} {h : HeaderName} (hread : read t = some (h, trailing)) :
    h.name ≠ [] ∧ h.delimiter.closing ∉ h.name ∧ t = h.text ++ trailing := by
  cases t with
  | nil => cases hread
  | cons c body =>
    rw [read] at hread
    cases hd : Delimiter.ofOpening? c with
    | none =>
      rw [hd] at hread
      cases hread
    | some d =>
      have hopening : c = d.opening := by
        rw [Delimiter.ofOpening?] at hd
        split at hd
        · cases hd
          assumption
        · split at hd
          · cases hd
            assumption
          · cases hd
      simp only [hd] at hread
      split at hread
      · cases hread
      · cases hread
      · rename_i name mark rest hname hspan
        cases hread
        rw [List.span_eq_takeWhile_dropWhile] at hspan
        obtain ⟨htake, hdrop⟩ := Prod.mk.inj hspan
        have hmark : mark = d.closing := by
          have hhead := List.head?_dropWhile_not (fun x => decide (x ≠ d.closing)) body
          rw [hdrop] at hhead
          simpa using hhead
        have hbody : body = name ++ d.closing :: trailing := by
          rw [← hmark, ← htake, ← hdrop, List.takeWhile_append_dropWhile]
        refine ⟨hname, ?_, ?_⟩
        · intro hclosing
          rw [← htake] at hclosing
          simpa using List.mem_takeWhile_imp hclosing
        · simp [text, hopening, hbody]

end HeaderName

/-- The request is written in a stripped line, with white space around the mark and around the
word, and `trailing` behind it. -/
def Request.WrittenIn (r : Request) (stripped trailing : Text) : Prop :=
  ∃ before mark word : Text, before.allBlank = true ∧ mark.allBlank = true ∧
    word.allBlank = true ∧
    stripped =
      before ++ '#' :: (mark ++ (r.kind.word.toList ++ (word ++ (r.header.text ++ trailing))))

namespace Line

theorem ofDirective_eq_request {name operand asked : Text} {kind : RequestKind}
    (h : ofDirective name operand = .command (.request kind asked)) :
    name = kind.word.toList ∧ operand = asked := by
  by_cases hplain : name = "include".toList
  · subst hplain
    cases h
    exact ⟨rfl, rfl⟩
  by_cases honce : name = "import".toList
  · subst honce
    cases h
    exact ⟨rfl, rfl⟩
  -- No other directive makes a request.
  have hnone : (ofDirective name operand).asked? {} = none := by
    simp only [ofDirective, if_neg hplain, if_neg honce, apply_ite (asked? {})]
    simp only [asked?, ite_self]
  rw [h] at hnone
  cases hnone

/-- The stripped line is the mark, a name and an operand, with white space around each of them. -/
def Names (stripped name operand : Text) : Prop :=
  ∃ before mark gap after : Text, before.allBlank = true ∧ mark.allBlank = true ∧
    gap.allBlank = true ∧ after.allBlank = true ∧ Identifier.Stops (gap ++ operand) ∧
    stripped = before ++ '#' :: (mark ++ (name ++ (gap ++ (operand ++ after))))

/-- What is white space behind an operand is none of it. -/
theorem Names.trimEnd {stripped name operand : Text} (h : Names stripped name operand) :
    Names stripped name operand.trimEnd := by
  obtain ⟨before, mark, gap, after, hbefore, hmark, hgap, hafter, hstops, hstripped⟩ := h
  obtain ⟨right, hright, hoperand⟩ := Text.exists_trimEnd_append operand
  refine ⟨before, mark, gap, right ++ after, hbefore, hmark, hgap, ?_, ?_, ?_⟩
  · exact Text.allBlank_iff.mpr (List.forall_mem_append.mpr
      ⟨Text.allBlank_iff.mp hright, Text.allBlank_iff.mp hafter⟩)
  · rw [hoperand, ← List.append_assoc] at hstops
    exact hstops.left
  · rw [hstripped, ← List.append_assoc operand.trimEnd, ← hoperand]

/-- A line that names a directive is that directive. -/
theorem Names.ofStripped_eq {stripped name operand : Text} (h : Names stripped name operand)
    (hname : Identifier.isWhole name = true) (hoperand : operand.IsTight) :
    ofStripped stripped = ofDirective name operand := by
  obtain ⟨before, mark, gap, after, hbefore, hmark, hgap, hafter, hstops, rfl⟩ := h
  have htight : Text.IsTight ('#' :: (mark ++ (name ++ (gap ++ operand)))) := by
    have hmarked : Text.IsTight ['#'] := ⟨⟨'#', rfl, by decide⟩, '#', rfl, by decide⟩
    simpa using hmarked.append hoperand (mark ++ (name ++ gap))
  have htrim : Text.trim (before ++ '#' :: (mark ++ (name ++ (gap ++ (operand ++ after))))) =
      '#' :: (mark ++ (name ++ (gap ++ operand))) :=
    (Text.padded_iff htight).mp ⟨before, after, hbefore, hafter, by simp⟩
  have hstart : Text.trimStart (mark ++ (name ++ (gap ++ operand))) = name ++ (gap ++ operand) := by
    rw [Text.trimStart, List.dropWhile_append_of_pos (Text.allBlank_iff.mp hmark)]
    exact (Text.isTight_isWhole hname).trimStart_append _
  have hnonempty : name ≠ [] := by
    rintro rfl
    cases hname
  have hsplit : Identifier.split (name ++ (gap ++ operand)) = (name, operand) :=
    (Identifier.split_eq_iff hnonempty).mpr ⟨hname, hoperand.trimStart_eq, gap, hgap, hstops, rfl⟩
  rw [ofStripped, htrim]
  show ofHash (mark ++ (name ++ (gap ++ operand))) = _
  rw [ofHash, hstart, hsplit]
  cases name with
  | nil => cases hname
  | cons c rest => rfl

/-- A line that is a command is the directive of a name. -/
theorem ofStripped_eq_command {stripped : Text} {c : Command}
    (h : ofStripped stripped = .command c) :
    ∃ name operand, ofDirective name operand = .command c ∧ Names stripped name operand := by
  rw [ofStripped] at h
  split at h
  · rename_i rest htrim
    rw [ofHash] at h
    split at h
    · cases h
    · split at h <;> cases h
    · rename_i name operand hmarker hunknown hsplit
      have hname : name ≠ [] := by
        rintro rfl
        cases operand with
        | nil => exact hmarker rfl rfl
        | cons c more => exact hunknown c more rfl rfl
      obtain ⟨_, _, gap, hblank, hstops, hrest⟩ := (Identifier.split_eq_iff hname).mp hsplit
      obtain ⟨before, after, hbefore, hafter, hstripped⟩ := Text.padded_trim stripped
      obtain ⟨mark, hmark, hfront⟩ : ∃ mark : Text, mark.allBlank = true ∧
          rest = mark ++ Text.trimStart rest :=
        ⟨rest.takeWhile Text.isBlank, Text.allBlank_iff.mpr fun c hc => List.mem_takeWhile_imp hc,
          List.takeWhile_append_dropWhile.symm⟩
      refine ⟨name, operand, h, before, mark, gap, after, hbefore, hmark, hblank, hafter, hstops,
        ?_⟩
      rw [hstripped, htrim, hfront, hrest]
      simp
  · cases h

end Line

/-- A request that a stripped line makes is written in it. -/
theorem Request.writtenIn_of_read {stripped operand trailing : Text} {r : Request}
    (hline : Line.ofStripped stripped = .command (.request r.kind operand))
    (hread : HeaderName.read operand = some (r.header, trailing)) :
    ∃ more, r.WrittenIn stripped more ∧ more.allBlank = trailing.allBlank := by
  obtain ⟨name, asked, hdirective, hnames⟩ := Line.ofStripped_eq_command hline
  obtain ⟨rfl, rfl⟩ := Line.ofDirective_eq_request hdirective
  obtain ⟨before, mark, word, after, hbefore, hmark, hword, hafter, _, hstripped⟩ := hnames
  obtain ⟨_, _, hoperand⟩ := HeaderName.eq_of_read hread
  refine ⟨trailing ++ after, ⟨before, mark, word, hbefore, hmark, hword, ?_⟩, ?_⟩
  · rw [hstripped, hoperand, List.append_assoc]
  · have hblank : List.all after Text.isBlank = true := hafter
    rw [Text.allBlank, List.all_append, hblank, Bool.and_true]
    rfl

/-! ### Handing requests over -/

/-- One logical line of a file: it is stripped, told apart from others and handled. -/
def Scan.handleLine (fs : FileSystem) (settings : Settings) (file : Identity) (location : Location)
    (st : FileState) (inBlock : Bool) (line : Text) : ScanM FileState := fun run =>
  step fs settings.search (readerIn fs settings run) file location st
    (Line.ofStripped (Comment.strip inBlock line).1) run

/-- The lines of a file are handled so, one behind the other. -/
theorem scanLines_handleLine (fs : FileSystem) (settings : Settings) (file : Identity)
    (source : SourceId) (st : FileState) (inBlock : Bool) (line : Numbered Text)
    (rest : List (Numbered Text)) (run : Run Scan) :
    scanLines fs settings.search (readerIn fs settings run) file source st
        ((Comment.stripAll inBlock (line :: rest)).1.map fun l =>
          ⟨l.line, Line.ofStripped l.content⟩) run =
      (onFailure (handleLine fs settings file ⟨source, line.line⟩ st inBlock line.content)
          (·.fail ⟨source, line.line⟩) >>= fun st =>
        scanLines fs settings.search (readerIn fs settings run) file source st
          ((Comment.stripAll (Comment.strip inBlock line.content).2 rest).1.map fun l =>
            ⟨l.line, Line.ofStripped l.content⟩)) run := by
  rfl

/-- Handling a line in the state `run` comes to handing a request to the handler in the state
`given`, and that is the first that is noted. -/
structure HandsOver (fs : FileSystem) (settings : Settings) (file : Identity) (r : Request)
    (run given : Run Scan) (result : EStateM.Result ScanError (Run Scan) FileState) : Prop where
  sought : run.journal.toList ++ [.sought r file.directory] <+: (leftBy result).journal.toList
  handled : ∃ read after, readerIn fs settings run = some read ∧
    result = (traced run.host.stack.length r
      (r.handle (settings.search.resolve fs) file.directory (host read)) >>= fun _ => pure after)
        given

section
variable {fs : FileSystem} {settings : Settings} {file : Identity} {location : Location}
  {st : FileState} {run : Run Scan}

theorem request_traced {operand trailing : Text} {r : Request} {read : Identity → ScanM Report}
    (hread : HeaderName.read operand = some (r.header, trailing)) :
    request fs settings.search (some read) file location r.kind operand run =
      traced run.host.stack.length r
        (r.handle (settings.search.resolve fs) file.directory (host read))
        ((warned run location r.kind trailing).mapHost
          ({ · with requestSite := some location })) := by
  obtain ⟨d, hd⟩ := warned_eq run location r.kind trailing
  rw [request_apply, hread]
  simp only [traced, handing, hd]
  rfl

theorem leftBy_bind_pure {α β : Type} (x : ScanM α) (b : β) :
    leftBy ((x >>= fun _ => pure b) run) = leftBy (x run) := by
  rw [bind_apply]
  cases x run <;> rfl

/-- A live request that can be read and does not meet the limit is handed over. -/
theorem step_handsOver (fs : FileSystem) (file : Identity) (location : Location) {line : Line}
    {operand trailing : Text} {r : Request}
    (hasked : line.asked? st = some (r.kind, operand))
    (hread : HeaderName.read operand = some (r.header, trailing))
    (hroom : run.host.stack.length ≤ settings.maxDepth) :
    HandsOver fs settings file r run
      ((warned run location r.kind trailing).mapHost ({ · with requestSite := some location }))
      (step fs settings.search (readerIn fs settings run) file location st line run) := by
  rw [step_asked fs settings.search (readerIn fs settings run) file location hasked]
  constructor
  · have hsought : SoughtFrom fs settings file location r.kind operand run file.directory :=
      request_soughtFrom hread hroom
    obtain ⟨header, _, hheader, hentries⟩ := hsought
    cases hread.symm.trans hheader
    rw [leftBy_bind_pure]
    refine List.IsPrefix.trans ?_ hentries
    rw [HeaderSearch.entries, List.prefix_append_right_inj]
    exact ⟨_, rfl⟩
  · refine ⟨_, st.asked r.kind operand, readerIn_within hroom, ?_⟩
    rw [readerIn_within hroom, bind_apply, bind_apply, request_traced hread]

/-- A line that asks for nothing makes no request. -/
theorem not_sought_of_unasked {line : Line} (hasked : line.asked? st = none) (r : Request)
    (beside : Path) :
    ¬ run.journal.toList ++ [.sought r beside] <+:
      (leftBy (step fs settings.search (readerIn fs settings run) file location st line
        run)).journal.toList := by
  intro hsought
  have hown := (line.effect file run.host.macros st.skipping).isOwn
  rw [leftBy_step _ _ _ _ _ hasked, Effect.on_journal] at hsought
  cases hentry : (line.effect file run.host.macros st.skipping).entry with
  | none =>
    rw [hentry, Option.toList_none, List.append_nil] at hsought
    exact not_next hsought
  | some entry =>
    rw [hentry, Option.toList_some] at hsought
    have hnext := next_unique hsought List.prefix_rfl
    rw [hentry, ← hnext] at hown
    cases hown

/-- Whatever makes a request is a live line that can be read for it, within the limit. -/
theorem exists_read_of_sought {line : Line} {r : Request} {beside : Path}
    (hsought : run.journal.toList ++ [.sought r beside] <+:
      (leftBy (step fs settings.search (readerIn fs settings run) file location st line
        run)).journal.toList) :
    ∃ operand trailing, line.asked? st = some (r.kind, operand) ∧
      HeaderName.read operand = some (r.header, trailing) ∧
      run.host.stack.length ≤ settings.maxDepth := by
  cases hasked : line.asked? st with
  | none => exact absurd hsought (not_sought_of_unasked hasked r beside)
  | some asked =>
    obtain ⟨kind, operand⟩ := asked
    have hrequest := hsought
    rw [step_asked fs settings.search (readerIn fs settings run) file location hasked,
      leftBy_bind_pure] at hrequest
    cases hread : HeaderName.read operand with
    | none =>
      rw [request_malformed _ hread] at hrequest
      exact absurd hrequest not_next
    | some pair =>
      obtain ⟨header, trailing⟩ := pair
      by_cases hroom : run.host.stack.length ≤ settings.maxDepth
      · have hover := step_handsOver (r := ⟨kind, header⟩) fs file location hasked hread hroom
        cases next_unique hsought hover.sought
        exact ⟨operand, trailing, rfl, hread, hroom⟩
      · obtain ⟨d, hd⟩ := warned_eq run location kind trailing
        rw [request_beyond hread (Nat.lt_of_not_le hroom), leftBy, stoppedInside, hd, Run.note,
          Array.toList_push] at hrequest
        cases next_unique hrequest List.prefix_rfl

/-- **Requests go from a line to the handler and back.** A request whose header name is not empty
and does not close early, nor, in angle brackets, has a comment in it, is handed over from the line
that it is written as, where that is live and the limit is not met, and no warning is given before.

Conversely, where a line makes a request, whatever line in whatever state, the request is written
in it, its header name is not empty and does not close early, and there is a warning just if
something is seen behind it. -/
theorem requests_round_trip (fs : FileSystem) (settings : Settings) (file : Identity)
    (location : Location) (st : FileState) (run : Run Scan) :
    (∀ r : Request, r.header.name ≠ [] → r.header.delimiter.closing ∉ r.header.name →
      (r.header.delimiter = .angled →
        ¬ ['/', '/'] <:+: r.header.name ∧ ¬ ['/', '*'] <:+: r.header.name) →
      st.skipping = false → run.host.stack.length ≤ settings.maxDepth →
      HandsOver fs settings file r run
        (run.mapHost ({ · with requestSite := some location }))
        (handleLine fs settings file location st false r.text run)) ∧
    ∀ inBlock line r beside,
      run.journal.toList ++ [.sought r beside] <+:
        (leftBy (handleLine fs settings file location st inBlock line run)).journal.toList →
      r.header.name ≠ [] ∧ r.header.delimiter.closing ∉ r.header.name ∧
      ∃ trailing, r.WrittenIn (Comment.strip inBlock line).1 trailing ∧
        HandsOver fs settings file r run
          ((if trailing.allBlank then run
            else run.mapHost
              (·.warn s!"extra tokens at end of #{r.kind.word} directive" location)).mapHost
            ({ · with requestSite := some location }))
          (handleLine fs settings file location st inBlock line run) := by
  constructor
  · intro r hname hcloses hcomment hlive hroom
    have hs : r.header.IsSpelling :=
      ⟨hname, hcloses, fun hd => (Comment.opens_eq_false_iff _).mpr (hcomment hd)⟩
    have hline : Line.ofStripped (Comment.strip false r.text).1 =
        .command (.request r.kind r.header.text) := by
      rw [(Request.isPlain_text hs).strips, Request.ofStripped_text hs]
    have hasked : (Line.ofStripped (Comment.strip false r.text).1).asked? st =
        some (r.kind, r.header.text) := by
      rw [hline]
      simp [Line.asked?, hlive]
    exact step_handsOver fs file location hasked hs.read_text hroom
  · intro inBlock line r beside hsought
    obtain ⟨operand, trailing, hasked, hread, hroom⟩ := exists_read_of_sought hsought
    obtain ⟨_, hline⟩ := Line.asked?_eq_some hasked
    obtain ⟨hname, hcloses, _⟩ := HeaderName.eq_of_read hread
    obtain ⟨more, hwritten, hblank⟩ := Request.writtenIn_of_read hline hread
    have hover := step_handsOver fs file location hasked hread hroom
    refine ⟨hname, hcloses, more, hwritten, ?_⟩
    rw [hblank]
    exact hover

end

/-- A name with an apostrophe, the beginning of a comment and a backslash at its end. -/
def oddRequest : Request := ⟨.plain, ⟨"a'/*\\".toList, .quoted⟩⟩

/-- A name with a quote, asked for on a line that begins in a comment and has something behind the
name. -/
def quoteRequest : Request := ⟨.once, ⟨"b\"c".toList, .angled⟩⟩

theorem oddRequest_round_trip :
    HandsOver {} {} (.ofCanonical (.ofString "/m.c")) oddRequest { host := {} }
        { host := { requestSite := some ⟨⟨0⟩, 1⟩ } }
        (handleLine {} {} (.ofCanonical (.ofString "/m.c")) ⟨⟨0⟩, 1⟩ {} false oddRequest.text
          { host := {} }) ∧
      ∃ trailing, quoteRequest.WrittenIn " # import<b\"c> d".toList trailing := by
  obtain ⟨hthere, hback⟩ := requests_round_trip {} {} (.ofCanonical (.ofString "/m.c")) ⟨⟨0⟩, 1⟩ {}
    { host := {} }
  have hsought := hback true "*/# import<b\"c> d".toList quoteRequest (.ofString "/") ⟨[], rfl⟩
  refine ⟨hthere oddRequest (by decide) (by decide) (by decide) rfl (by decide), ?_⟩
  obtain ⟨_, _, trailing, hwritten, _⟩ := hsought
  exact ⟨trailing, hwritten⟩

end IncludeOnce
