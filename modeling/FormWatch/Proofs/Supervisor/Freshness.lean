import FormWatch.Proofs.Supervisor.Delivery
import FormWatch.Proofs.Supervisor.Snapshot

/-!
Whether the current jobs were made of their documents as these are now. An edit makes the current
job of its document stale, and a request for the document right after it makes a new current job of
the document as it was edited. So as long as each edit comes with such a request, what a current job
delivers is said of its document as it is.
-/

namespace FormWatch.Supervisor

/-! ### Documents over one event -/

theorem workspace_launch (supervisor : Supervisor) (sequence pid : Nat) :
    (supervisor.launch sequence pid).1.workspace = supervisor.workspace := by
  unfold launch
  split
  · rfl
  · split <;> rfl

theorem workspace_failLaunch (supervisor : Supervisor) (sequence : Nat) (failure : Failure)
    (kept : Option SystemFault) :
    (supervisor.failLaunch sequence failure kept).1.workspace = supervisor.workspace := by
  unfold failLaunch
  split
  · rfl
  · split
    · split <;> rfl
    · rfl

theorem workspace_updateHandle (supervisor : Supervisor) (sequence : Nat)
    (change : ProcessHandle → ProcessHandle) :
    (supervisor.updateHandle sequence change).workspace = supervisor.workspace := by
  unfold updateHandle
  split
  · rfl
  · split <;> rfl

theorem workspace_finish (supervisor : Supervisor) (sequence : Nat) (ending : Ending)
    (refusals : Refusals) (kept : Option SystemFault) :
    (supervisor.finish sequence ending refusals kept).1.workspace = supervisor.workspace := by
  unfold finish
  split
  · rfl
  · split
    · rfl
    · split
      · rfl
      · dsimp only
        split
        · rfl
        · rw [complete_eq]
          rfl

theorem workspace_failWrite (supervisor : Supervisor) (uri : Text) (failure : Failure)
    (remnant : Option Remnant) :
    (supervisor.failWrite uri failure remnant).1.workspace = supervisor.workspace := by
  rw [failWrite_eq]
  rfl

theorem workspace_request (supervisor : Supervisor) (document : Nat) :
    (supervisor.request document).1.workspace = supervisor.workspace := by
  unfold request
  split <;> rfl

/-- A document changes by being edited only. -/
theorem document?_step (supervisor : Supervisor) (event : Event) (index : Nat)
    (document : Document) (present : supervisor.workspace.document? index = some document)
    (unedited : ∀ version text, event ≠ .edited index version text) :
    (supervisor.step event).1.workspace.document? index = some document := by
  obtain ⟨bound, _⟩ := List.getElem?_eq_some_iff.mp present
  cases event with
  | opened | loaded =>
    simp only [step, Workspace.put, Workspace.add, Workspace.document?]
    rw [List.getElem?_append_left bound]
    exact present
  | edited other version text =>
    have different : other ≠ index := by
      rintro rfl
      exact unedited version text rfl
    simpa [step, Workspace.edit, Workspace.document?, List.getElem?_modify, different] using present
  | requested => rw [step, workspace_request, present]
  | launched => rw [step, workspace_launch, present]
  | launchFailed => rw [step, workspace_failLaunch, present]
  | ended => rw [step, workspace_finish, present]
  | exited | vanished =>
    simp only [step, workspace_updateHandle]
    exact present
  | unwritten => rw [step, workspace_failWrite, present]
  | closed | forgotten | shutdown => exact present

/-- An edited document keeps its URI. -/
theorem document?_edited (supervisor : Supervisor) (index : Nat) (document : Document)
    (present : supervisor.workspace.document? index = some document) (version : Option Int)
    (text : Text) :
    (supervisor.step (.edited index version text)).1.workspace.document? index =
      some ⟨document.uri, version, text⟩ := by
  have listed : supervisor.workspace.documents[index]? = some document := present
  simp [step, Workspace.edit, Workspace.document?, listed]

/-- The end of a process touches neither the documents nor what its job was made for. -/
theorem document?_ended (supervisor : Supervisor) (sound : supervisor.WellFormed) (sequence : Nat)
    (job last : Job) (found : supervisor.job? sequence = some job) (ending : Ending)
    (refusals : Refusals) (kept : Option SystemFault)
    (later : (supervisor.step (.ended sequence ending refusals kept)).1.job? sequence =
      some last) :
    (supervisor.step (.ended sequence ending refusals kept)).1.workspace.document?
      last.document = supervisor.workspace.document? job.document := by
  obtain ⟨next, there, turns⟩ := becomes_step supervisor sound
    (.ended sequence ending refusals kept) sequence job found
  cases later.symm.trans there
  rw [turns.document, step, workspace_finish]

/-! ### Fresh jobs -/

/-- Whether a job was made of its document as the document is now. -/
structure Faithful (folder : UnitFolder) (events : List Event) (job : Job)
    (document : Document) : Prop where
  registered : (after folder events).job? job.sequence = some job
  present : (after folder events).workspace.document? job.document = some document
  asked : asked? folder events job.sequence = some document

/-- Whether all current jobs were made of their documents as these are now. -/
def Fresh (folder : UnitFolder) (events : List Event) : Prop :=
  ∀ uri sequence, (after folder events).current? uri = some sequence →
    ∃ job document, job.sequence = sequence ∧ document.uri = uri ∧
      Faithful folder events job document

theorem fresh_nil (folder : UnitFolder) : Fresh folder [] := by
  intro uri sequence current
  cases current

/-- A job stays faithful until its document is edited. -/
theorem Faithful.concat {folder : UnitFolder} {events : List Event} {job : Job}
    {document : Document} (faithful : Faithful folder events job document) (event : Event)
    (unedited : ∀ version text, event ≠ .edited job.document version text) :
    ∃ next, next.sequence = job.sequence ∧ next.document = job.document ∧
      Faithful folder (events ++ [event]) next document := by
  obtain ⟨next, later, turns⟩ := becomes_step _ (wellFormed_after folder events) event
    job.sequence job faithful.registered
  rw [← after_concat] at later
  refine ⟨next, turns.sequence, turns.document, ?_, ?_, ?_⟩
  · rw [turns.sequence, later]
  · rw [turns.document, after_concat]
    exact document?_step _ event job.document document faithful.present unedited
  · rw [turns.sequence]
    exact asked?_append folder events [event] job.sequence document faithful.asked

/-- A job is faithful when it is registered. -/
theorem faithful_of_registered (folder : UnitFolder) (events : List Event) (index : Nat)
    (document : Document)
    (present : (after folder events).workspace.document? index = some document) :
    ∃ job, job.sequence = (after folder events).jobs.length + 1 ∧
      Faithful folder (events ++ [.requested index]) job document := by
  obtain ⟨_, job, registered, _, made⟩ :=
    step_requested _ (wellFormed_after folder events) index document present
  rw [← after_concat] at registered
  have named := sequence_of_job? _ _ job registered
  refine ⟨job, named, named ▸ registered, ?_, ?_⟩
  · rw [made, after_concat, step, workspace_request]
    exact present
  · rw [named]
    exact asked?_concat folder events (.requested index) document present

/-- A current job was so before, or a request has just made it. -/
theorem current_of_concat (folder : UnitFolder) (events : List Event) (event : Event) (uri : Text)
    (sequence : Nat) (current : (after folder (events ++ [event])).current? uri = some sequence) :
    (after folder events).current? uri = some sequence ∧
        (∀ document, (after folder events).snapshot? event = some document → document.uri ≠ uri) ∨
      ∃ index document, event = .requested index ∧
        (after folder events).workspace.document? index = some document ∧ document.uri = uri ∧
        sequence = (after folder events).jobs.length + 1 := by
  have sound := wellFormed_after folder events
  have moved := transition _ sound event
  rw [after_concat] at current
  by_cases old : sequence ≤ (after folder events).jobs.length
  · obtain ⟨before, unasked, _⟩ := moved.current_before uri sequence old current
    exact Or.inl ⟨before, unasked⟩
  · right
    obtain ⟨job, found, named, _⟩ := (sound.step event).tracked uri sequence current
    rcases moved.origin sound sequence job found with
      ⟨before, present, _⟩ | ⟨index, asked, rfl, present, registered, first⟩
    · exact absurd (sound.job?_le present) old
    · rw [registered, sound.job?_register, if_pos first] at found
      cases found
      exact ⟨index, asked, rfl, present, named, first⟩

/-- Without an edit, current jobs stay fresh. -/
theorem Fresh.concat {folder : UnitFolder} {events : List Event} (fresh : Fresh folder events)
    (event : Event) (unedited : ∀ index version text, event ≠ .edited index version text) :
    Fresh folder (events ++ [event]) := by
  intro uri sequence current
  rcases current_of_concat folder events event uri sequence current with
    ⟨before, _⟩ | ⟨index, document, rfl, present, named, rfl⟩
  · obtain ⟨job, document, same, named, faithful⟩ := fresh uri sequence before
    obtain ⟨next, later, _, stays⟩ := faithful.concat event (unedited job.document)
    exact ⟨next, document, later.trans same, named, stays⟩
  · obtain ⟨job, first, faithful⟩ := faithful_of_registered folder events index document present
    exact ⟨job, document, first, named, faithful⟩

/-- With an edit that a request for the document follows, current jobs stay fresh. -/
theorem Fresh.edit {folder : UnitFolder} {events : List Event} (fresh : Fresh folder events)
    (index : Nat) (version : Option Int) (text : Text) :
    Fresh folder (events ++ [.edited index version text, .requested index]) := by
  rw [List.append_cons]
  intro uri sequence current
  rcases current_of_concat folder _ _ uri sequence current with
    ⟨between, unasked⟩ | ⟨_, document, same, present, named, rfl⟩
  · rw [after_concat] at between
    obtain ⟨job, document, same, named, faithful⟩ := fresh uri sequence between
    -- The request replaces the current job of the edited document, so this is another one.
    have apart : job.document ≠ index := by
      intro mine
      have edited := document?_edited _ job.document document faithful.present version text
      rw [mine, ← after_concat] at edited
      exact unasked _ edited named
    obtain ⟨middle, first, made, stays⟩ := faithful.concat (.edited index version text)
      (by intro _ _ equal; cases equal; exact apart rfl)
    obtain ⟨next, second, _, still⟩ := stays.concat (.requested index) (by simp)
    exact ⟨next, document, second.trans (first.trans same), named, still⟩
  · cases same
    obtain ⟨job, first, faithful⟩ := faithful_of_registered folder _ index document present
    exact ⟨job, document, first, named, faithful⟩

/-- Other events than edits keep current jobs fresh. -/
theorem Fresh.append {folder : UnitFolder} {events : List Event} (fresh : Fresh folder events)
    (more : List Event)
    (unedited : ∀ event ∈ more, ∀ index version text, event ≠ .edited index version text) :
    Fresh folder (events ++ more) := by
  induction more generalizing events with
  | nil => rwa [List.append_nil]
  | cons event rest ih =>
    rw [List.append_cons]
    exact ih (fresh.concat event (unedited event List.mem_cons_self))
      fun other later => unedited other (List.mem_cons_of_mem event later)

/-! ### What fresh jobs deliver -/

/-- An outcome is handed over when the process of a supervised job ends, by the verdict on it. -/
theorem Transition.reported {before next : Supervisor} {event : Event} {done : List Effect}
    (moved : Transition before event next done) (sequence : Nat) (outcome : Outcome)
    (refusal : Option Failure) (member : .report sequence outcome refusal ∈ done) :
    ∃ ending refusals kept job handle result,
      event = .ended sequence ending refusals kept ∧ before.job? sequence = some job ∧
        job.handle = some handle ∧ handle.ending = none ∧
        (handle.finish ending).result = some result ∧
        (before.verdict job (handle.finish ending).pid result).outcome = some outcome := by
  have called : reportCount sequence done ≠ 0 := by
    rw [← Nat.pos_iff_ne_zero, reportCount, List.countP_pos_iff]
    exact ⟨_, member, by simp [Effect.reports]⟩
  obtain ⟨_, _, ending, refusals, kept, rfl⟩ :=
    (moved.reports_once sequence).resolve_left called
  cases moved with
  | idle _ _ _ _ _ quiet =>
    have note := quiet _ member
    simp [Effect.isNote] at note
  | informed _ _ _ _ _ about => cases member
  | settled _ _ _ _ job handle result found started running gave =>
    rcases mem_complete _ _ _ _ _ _ _ member with note | ⟨_, _, same, delivered⟩
    · simp [Effect.isNote] at note
    · cases same
      exact ⟨ending, refusals, kept, job, handle, result, rfl, found, started, running, gave,
        delivered⟩

/-- Diagnostics are those of the records of a report, placed in the text of the job's document, and
the job is the latest. -/
theorem verdict_diagnostics (supervisor : Supervisor) (job : Job) (pid : Nat)
    (result : Except Failure ProcessResult) (resolved : List Resolved)
    (delivered : (supervisor.verdict job pid result).outcome = some (.diagnostics resolved)) :
    supervisor.dropReason? job = none ∧ ∃ given records, result = .ok given ∧
      Report.parse given.stdout = .ok records ∧
      resolved = records.map (Record.resolve job.uri (supervisor.textOf job)) := by
  cases reason : supervisor.dropReason? job with
  | some cause =>
    have dropped := (verdict_of_dropped supervisor job pid result cause reason).2
    simp [dropped] at delivered
  | none =>
    cases result with
    | error failure => simp [verdict, crashVerdict, reason] at delivered
    | ok given =>
      simp only [verdict, resultVerdict, reason] at delivered
      split at delivered
      · simp at delivered
      · split at delivered
        · simp at delivered
        · simp [crashVerdict, reason] at delivered
        next records parsed =>
          simp only [Option.some.injEq, Outcome.diagnostics.injEq] at delivered
          exact ⟨rfl, given, records, rfl, parsed, delivered.symm⟩

/-- A result is what the process wrote until it ended. -/
theorem stdout_of_result {ending : Ending} {given : ProcessResult}
    (gave : ending.result = .ok given) :
    ∃ status stdout stderr, ending = .finished status stdout stderr ∧
      given.stdout = Utf8.decodeLenient stdout := by
  cases ending with
  | unreadable failure => cases gave
  | finished status stdout stderr =>
    cases gave
    exact ⟨status, stdout, stderr, rfl, rfl⟩

/-- While current jobs are fresh, the diagnostics that are handed over are those of a job made of
its document as it is, placed in the document's text. -/
theorem Fresh.reported {folder : UnitFolder} {events : List Event} (fresh : Fresh folder events)
    (event : Event) (sequence : Nat) (resolved : List Resolved) (refusal : Option Failure)
    (member : .report sequence (.diagnostics resolved) refusal ∈
      ((after folder events).step event).2) :
    ∃ status stdout stderr refusals kept job document records,
      event = .ended sequence (.finished status stdout stderr) refusals kept ∧
        job.sequence = sequence ∧ job.isSupervised = true ∧
        (after folder events).workspace.isLive job.document = true ∧
        Faithful folder events job document ∧
        Report.parse (Utf8.decodeLenient stdout) = .ok records ∧
        resolved = records.map (Record.resolve document.uri document.text) := by
  have sound := wellFormed_after folder events
  obtain ⟨ending, refusals, kept, job, handle, result, rfl, found, started, running, gave,
    delivered⟩ := (transition _ sound event).reported sequence _ refusal member
  obtain ⟨latest, given, records, rfl, parsed, placed⟩ :=
    verdict_diagnostics _ job _ result resolved delivered
  have named := sequence_of_job? _ sequence job found
  have gives := result_of_finish (sound.stage found) handle started running ending
  obtain ⟨status, stdout, stderr, rfl, read⟩ :=
    stdout_of_result (Option.some.inj (gives.symm.trans gave))
  obtain ⟨live, current⟩ := (dropReason?_eq_none_iff _ job).mp latest
  obtain ⟨other, document, same, uri, faithful⟩ :=
    fresh job.uri job.sequence ((isCurrent_iff _ job).mp current)
  have equal : other = job := by
    have there := faithful.registered
    rw [same, named, found] at there
    exact (Option.some.inj there).symm
  subst equal
  refine ⟨status, stdout, stderr, refusals, kept, other, document, records, rfl, named,
    other.isSupervised_iff.mpr ⟨handle, started, running⟩, live, faithful, read ▸ parsed, ?_⟩
  rw [placed, uri, textOf, faithful.present]
  rfl

end FormWatch.Supervisor
