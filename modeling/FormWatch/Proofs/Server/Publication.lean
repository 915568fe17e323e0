import FormWatch.Proofs.Server.Session
import FormWatch.Proofs.Supervisor.Freshness

/-!
What an editor is shown. Every notification that edits a document asks for it in the same step, so
between steps each current job was made of its document as it is; and a list of diagnostics comes
from a current job only, or clears those of a closed document.
-/

namespace FormWatch.Server

/-- Whether a launch or a process got on. -/
def isProgress : Supervisor.Event → Bool
  | .launched _ _ | .launchFailed _ _ _ | .exited _ _ | .vanished _ | .ended _ _ _ _ => true
  | _ => false

/-- Whether an event belongs to a session in which snapshots can be written: a notification whose
snapshot can be, or some progress of a launch or a process. -/
def isSteady (around : Surroundings) : Event → Bool
  | .notified _ => around.snapshotFailure.isNone
  | .world event => isProgress event

/-- Whether an event reads a document or asks for it. -/
def isRequest : Supervisor.Event → Bool
  | .loaded _ | .requested _ | .unwritten _ _ _ => true
  | _ => false

open Supervisor (after Faithful Fresh)

/-! ### Between steps current jobs are fresh -/

theorem isRequest_requestOf (around : Surroundings) (uri : Text) (index : Nat) :
    isRequest (requestOf around uri index) = true := by
  unfold requestOf
  split <;> rfl

theorem isRequest_of_mem (around : Surroundings) (uri : Text) (supervisor : Supervisor)
    (event : Supervisor.Event) (member : event ∈ requestHeld around uri supervisor) :
    isRequest event = true := by
  unfold requestHeld requestUnopened at member
  split at member
  · rw [List.mem_singleton.mp member]
    exact isRequest_requestOf around uri _
  · split at member
    · rw [List.mem_singleton.mp member]
      rfl
    · simp only [List.mem_cons, List.not_mem_nil, or_false] at member
      rcases member with rfl | rfl
      · rfl
      · exact isRequest_requestOf around uri _

/-- A request is no edit. -/
theorem unedited_of_isRequest (event : Supervisor.Event) (request : isRequest event = true)
    (index : Nat) (version : Option Int) (text : Text) : event ≠ .edited index version text := by
  rintro rfl
  simp [isRequest] at request

/-- A request is no end of a process. -/
theorem unended_of_isRequest (event : Supervisor.Event) (request : isRequest event = true)
    (sequence : Nat) (ending : Ending) (refusals : Supervisor.Refusals)
    (kept : Option SystemFault) : event ≠ .ended sequence ending refusals kept := by
  rintro rfl
  simp [isRequest] at request

/-- A notification keeps current jobs fresh. -/
theorem fresh_eventsOf (folder : UnitFolder) (events : List Supervisor.Event)
    (fresh : Fresh folder events) (around : Surroundings) (written : around.snapshotFailure = none)
    (notification : Notification) :
    Fresh folder (events ++ eventsOf around (after folder events) notification) := by
  have asked (uri : Text) : ∀ event ∈ requestHeld around uri (after folder events),
      ∀ index version text, event ≠ .edited index version text :=
    fun event member => unedited_of_isRequest event (isRequest_of_mem around uri _ event member)
  cases notification with
  | opened document =>
    refine fresh.append _ ?_
    intro event member index version text
    simp only [eventsOf, List.mem_cons, List.not_mem_nil, or_false] at member
    rcases member with rfl | rfl
    · simp
    · exact unedited_of_isRequest _ (isRequest_requestOf around document.uri _) index version text
  | changed uri version changes =>
    simp only [eventsOf]
    -- Only changes of an open document edit it, and the request follows.
    split
    · rw [requestOf, written]
      exact fresh.edit _ version _
    · exact fresh.append _ (asked uri)
  | saved uri => exact fresh.append _ (asked uri)
  | closed uri => exact fresh.append _ (by simp [eventsOf])
  | shutdown => exact fresh.append _ (by simp [eventsOf])

theorem fresh_told (folder : UnitFolder) (events : List Supervisor.Event)
    (fresh : Fresh folder events) (around : Surroundings) (event : Event)
    (steady : isSteady around event = true) :
    Fresh folder (events ++ told around (after folder events) event) := by
  cases event with
  | world event =>
    refine fresh.append _ ?_
    intro other member index version text
    rw [List.mem_singleton.mp member]
    rintro rfl
    simp [isSteady, isProgress] at steady
  | notified notification =>
    have written : around.snapshotFailure = none := by simpa [isSteady] using steady
    unfold told
    dsimp only
    split
    · exact fresh.append [] (by simp)
    · exact fresh_eventsOf folder events fresh around written notification

theorem run_start (folder : UnitFolder) (session : List (Surroundings × Event)) :
    (run (Supervisor.start folder) session).1 =
      after folder (history (Supervisor.start folder) session) :=
  run_state _ session

theorem fresh_session (folder : UnitFolder) (session : List (Surroundings × Event))
    (steady : ∀ entry ∈ session, isSteady entry.1 entry.2 = true) :
    Fresh folder (history (Supervisor.start folder) session) := by
  induction session using List.reverseRecOn with
  | nil => exact Supervisor.fresh_nil folder
  | append_singleton session entry ih =>
    have fresh := ih fun other early => steady other (List.mem_append_left [entry] early)
    rw [history_append, run_start, history, history, List.append_nil]
    exact fresh_told folder _ fresh entry.1 entry.2 (steady entry List.mem_concat_self)

/-! ### Publications -/

/-- Notifications hand over no outcomes. -/
theorem no_report_run (supervisor : Supervisor) (sound : supervisor.WellFormed)
    (events : List Supervisor.Event)
    (unended : ∀ event ∈ events, ∀ sequence ending refusals kept,
      event ≠ .ended sequence ending refusals kept)
    (sequence : Nat) (outcome : Outcome) (refusal : Option Failure) :
    .report sequence outcome refusal ∉ (supervisor.run events).2 := by
  induction events generalizing supervisor with
  | nil => simp [Supervisor.run]
  | cons event rest ih =>
    rw [Supervisor.run, List.mem_append, not_or]
    constructor
    · intro member
      obtain ⟨ending, refusals, kept, _, _, _, same, _⟩ :=
        (Supervisor.transition supervisor sound event).reported sequence outcome refusal member
      exact unended event List.mem_cons_self sequence ending refusals kept same
    · exact ih _ (sound.step event) fun other later =>
        unended other (List.mem_cons_of_mem event later)

theorem unended_told (around : Surroundings) (supervisor : Supervisor)
    (notification : Notification) :
    ∀ event ∈ told around supervisor (.notified notification),
      ∀ sequence ending refusals kept, event ≠ .ended sequence ending refusals kept := by
  have request (uri : Text) (index : Nat) :=
    unended_of_isRequest _ (isRequest_requestOf around uri index)
  have held (uri : Text) (event : Supervisor.Event)
      (member : event ∈ requestHeld around uri supervisor) :=
    unended_of_isRequest event (isRequest_of_mem around uri supervisor event member)
  unfold told
  dsimp only
  split
  · simp
  · cases notification with
    | opened document => simp [eventsOf, request]
    | changed uri version changes =>
      simp only [eventsOf]
      split
      · simp [request]
      · exact held uri
    | saved uri => exact held uri
    | closed uri => simp [eventsOf]
    | shutdown => simp [eventsOf]

/-- A message is sent for an outcome that a job delivers, or clears the diagnostics of a closed
document. -/
theorem sent (folder : UnitFolder) (events : List Supervisor.Event) (around : Surroundings)
    (event : Event) (message : Message)
    (shown : .send message ∈ (step around (after folder events) event).2) :
    (∃ uri, event = .notified (.closed uri) ∧ message = .publish uri none []) ∨
      ∃ happened sequence outcome job document, event = .world happened ∧
        .report sequence outcome none ∈ ((after folder events).step happened).2 ∧
        ((after folder events).step happened).1.job? sequence = some job ∧
        ((after folder events).step happened).1.workspace.document? job.document =
          some document ∧
        .send message ∈ present document outcome := by
  obtain ⟨rest, effects, tail⟩ := step_effects around (after folder events) event
  rw [effects, List.mem_append, List.mem_flatMap] at shown
  rcases shown with ⟨effect, done, sent⟩ | later
  · right
    -- Nothing but an outcome that is handed over becomes a message.
    cases effect with
    | start | launch | launchFailed | kill | log | answer => simp [relay] at sent
    | report sequence outcome refusal =>
      cases event with
      | notified notification =>
        exact absurd done (no_report_run _ (Supervisor.wellFormed_after folder events) _
          (unended_told around _ notification) sequence outcome refusal)
      | world happened =>
        have reported : .report sequence outcome refusal ∈
            ((after folder events).step happened).2 := by
          simpa [told, Supervisor.run] using done
        cases refusal with
        | some failure => simp [relay] at sent
        | none =>
          simp only [relay] at sent
          split at sent
          next document held =>
            obtain ⟨job, found, present⟩ := Option.bind_eq_some_iff.mp held
            exact ⟨happened, sequence, outcome, job, document, rfl, reported, found, present, sent⟩
          · cases sent
  · left
    rcases tail _ later with ⟨failure, same⟩ | ⟨closed, rfl, same⟩
    · cases same
    · cases same
      exact ⟨closed, rfl, rfl⟩

/-- A list of diagnostics is published for an outcome that a job delivers, or clears those of a
closed document. -/
theorem published (folder : UnitFolder) (events : List Supervisor.Event) (around : Surroundings)
    (event : Event) (uri : Text) (version : Option Int) (diagnostics : List Diagnostic)
    (shown : .send (.publish uri version diagnostics) ∈
      (step around (after folder events) event).2) :
    (event = .notified (.closed uri) ∧ version = none ∧ diagnostics = []) ∨
      ∃ happened sequence resolved job document, event = .world happened ∧
        .report sequence (.diagnostics resolved) none ∈ ((after folder events).step happened).2 ∧
        ((after folder events).step happened).1.job? sequence = some job ∧
        ((after folder events).step happened).1.workspace.document? job.document =
          some document ∧
        uri = document.uri ∧ version = document.version ∧
        diagnostics = resolved.map (Resolved.diagnostic document.text) := by
  rcases sent folder events around event _ shown with ⟨closed, rfl, same⟩ |
    ⟨happened, sequence, outcome, job, document, rfl, reported, found, present, told⟩
  · cases same
    exact Or.inl ⟨rfl, rfl, rfl⟩
  · right
    cases outcome with
    | panic cause => simp [Server.present] at told
    | diagnostics resolved =>
      simp only [Server.present, List.mem_singleton, Effect.send.injEq,
        Message.publish.injEq] at told
      obtain ⟨rfl, rfl, rfl⟩ := told
      exact ⟨happened, sequence, resolved, job, document, rfl, reported, found, present, rfl, rfl,
        rfl⟩

/-- The process of a job ran on the text that the job's document had at the request. -/
theorem launched_on_text (folder : UnitFolder) (session : List (Surroundings × Event)) (job : Job)
    (document : Document)
    (faithful : Faithful folder (history (Supervisor.start folder) session) job document)
    (supervised : job.isSupervised = true) :
    (∃ pid, .act (.launch job.sequence pid (Utf8.encode document.text)) ∈
        (run (Supervisor.start folder) session).2) ∧
      ∀ pid unit, .act (.launch job.sequence pid unit) ∈
        (run (Supervisor.start folder) session).2 → unit = Utf8.encode document.text := by
  have compiled (pid : Nat) (unit : Bytes)
      (ran : .act (.launch job.sequence pid unit) ∈ (run (Supervisor.start folder) session).2) :
      unit = Utf8.encode document.text := by
    obtain ⟨asked, known, same⟩ := Supervisor.launched_on_asked folder _ job.sequence pid unit
      ((act_mem_run_iff _ session job.sequence pid unit).mp ran)
    cases known.symm.trans faithful.asked
    exact same
  refine ⟨?_, compiled⟩
  obtain ⟨pid, unit, ran⟩ := Supervisor.launched_of_supervised folder _ job.sequence job
    faithful.registered supervised
  have launched := (act_mem_run_iff _ session job.sequence pid unit).mpr ran
  rw [compiled pid unit launched] at launched
  exact ⟨pid, launched⟩

/-- Nothing stale is published. In a session whose snapshots can all be written, a list of
diagnostics clears those of a closed document, or a process has just ended whose job was made of the
document that the URI holds, as the document is now: at the request it had the version and the text
that it has, the process ran on that text and no other, and its records are placed in that text,
both as spans and as ranges. -/
theorem publication_of_snapshot (folder : UnitFolder) (session : List (Surroundings × Event))
    (steady : ∀ entry ∈ session, isSteady entry.1 entry.2 = true) (around : Surroundings)
    (event : Event) (uri : Text) (version : Option Int) (diagnostics : List Diagnostic)
    (shown : .send (.publish uri version diagnostics) ∈
      (step around (run (Supervisor.start folder) session).1 event).2) :
    let state := (run (Supervisor.start folder) session).1
    let done := (run (Supervisor.start folder) session).2
    (event = .notified (.closed uri) ∧ version = none ∧ diagnostics = []) ∨
      ∃ job ∈ state.jobs, ∃ document status stdout stderr refusals kept records,
        event = .world (.ended job.sequence (.finished status stdout stderr) refusals kept) ∧
        state.workspace.held? uri = some job.document ∧
        state.workspace.document? job.document = some document ∧
        uri = document.uri ∧ version = document.version ∧
        (∃ early late,
          history (Supervisor.start folder) session = early ++ .requested job.document :: late ∧
          job.sequence = (after folder early).jobs.length + 1 ∧
          (after folder early).workspace.document? job.document = some document) ∧
        (∃ pid, .act (.launch job.sequence pid (Utf8.encode document.text)) ∈ done) ∧
        (∀ pid unit, .act (.launch job.sequence pid unit) ∈ done →
          unit = Utf8.encode document.text) ∧
        Report.parse (Utf8.decodeLenient stdout) = .ok records ∧
        diagnostics = records.map fun record =>
          Resolved.diagnostic document.text (record.resolve uri document.text) := by
  intro state done
  have told : state = after folder (history (Supervisor.start folder) session) :=
    run_start folder session
  have fresh := fresh_session folder session steady
  rw [run_start] at shown
  rcases published folder _ around event uri version diagnostics shown with cleared |
    ⟨happened, sequence, resolved, last, document, rfl, reported, found, present, rfl, rfl, rfl⟩
  · exact Or.inl cleared
  · right
    obtain ⟨status, stdout, stderr, refusals, kept, job, asked, records, rfl, rfl, supervised, live,
      faithful, parsed, rfl⟩ := fresh.reported happened sequence resolved none reported
    rw [Supervisor.document?_ended _ (Supervisor.wellFormed_after folder _) job.sequence job last
      faithful.registered _ refusals kept found, faithful.present] at present
    cases present
    obtain ⟨launched, compiled⟩ := launched_on_text folder session job document faithful supervised
    rw [told]
    refine ⟨job, Supervisor.mem_of_job? _ _ job faithful.registered, document, status, stdout,
      stderr, refusals, kept, records, rfl, ?_, faithful.present, rfl, rfl, ?_, launched,
      compiled, parsed, ?_⟩
    · simpa [Workspace.isLive, faithful.present] using live
    · exact Supervisor.requested_of_asked folder _ job.sequence job document faithful.registered
        faithful.asked
    · rw [List.map_map]
      rfl

/-- Whether an effect publishes a list. -/
def Effect.publishes (uri : Text) (version : Option Int) (diagnostics : List Diagnostic) :
    Effect → Bool
  | .send (.publish other number list) =>
    other = uri ∧ number = version ∧ list = diagnostics
  | _ => false

theorem mem_of_publishes (uri : Text) (version : Option Int) (diagnostics : List Diagnostic)
    (effects : List Effect)
    (some_publishes : effects.any (·.publishes uri version diagnostics) = true) :
    .send (.publish uri version diagnostics) ∈ effects := by
  obtain ⟨effect, member, publishes⟩ := List.any_eq_true.mp some_publishes
  unfold Effect.publishes at publishes
  split at publishes
  · obtain ⟨rfl, rfl, rfl⟩ := of_decide_eq_true publishes
    exact member
  · cases publishes

/-- A list for the second version of a document comes from a process that ran on its text. -/
theorem publication_of_second_version :
    let folder : UnitFolder := { path := ['t'] }
    let around : Surroundings := ⟨{ start := [], files := [] }, none, none⟩
    let uri := "file:///a".toList
    let session : List (Surroundings × Event) :=
      [(around, .notified (.opened ⟨uri, some 1, ['(']⟩)), (around, .world (.launched 1 7)),
        (around, .notified (.changed uri (some 2) [.whole ['(', ')']])),
        (around, .world (.launched 2 8))]
    let stdout := Utf8.encode (":lisp-compile-output-start\n[]".toList)
    let event : Event := .world (.ended 2 (.finished (some 0) stdout []) ⟨none, none⟩ none)
    let state := (run (Supervisor.start folder) session).1
    (∀ entry ∈ session, isSteady entry.1 entry.2 = true) ∧
      .send (.publish uri (some 2) []) ∈ (step around state event).2 ∧
      ∃ document : Document, document.version = some 2 ∧
        ∃ pid, .act (.launch 2 pid (Utf8.encode document.text)) ∈
          (run (Supervisor.start folder) session).2 := by
  intro folder around uri session stdout event state
  have steady : ∀ entry ∈ session, isSteady entry.1 entry.2 = true := by decide
  have shown : .send (.publish uri (some 2) []) ∈ (step around state event).2 :=
    mem_of_publishes uri (some 2) [] _ (by decide +kernel)
  refine ⟨steady, shown, ?_⟩
  rcases publication_of_snapshot folder session steady around event uri (some 2) [] shown with
    ⟨same, _⟩ | ⟨job, _, document, _, _, _, _, _, _, same, _, _, _, version, _, launched, _⟩
  · simp [event] at same
  · have first : 2 = job.sequence := by
      simp only [event, Event.world.injEq, Supervisor.Event.ended.injEq] at same
      exact same.1
    exact ⟨document, version.symm, first ▸ launched⟩

end FormWatch.Server
