import FormWatch.Proofs.Server.Publication
import FormWatch.Proofs.Supervisor.Obsolescence

/-!
What an editor is shown of a closed document. From the moment a URI is closed until it is opened
again, the editor gets nothing for it but the empty lists that closing it publishes; and a job that
was made of it until then stays silent for ever, even once the URI is open again.
-/

namespace FormWatch.Server

/-- Whether an event opens a URI. -/
def opens (uri : Text) : Event → Bool
  | .notified (.opened document) => document.uri = uri
  | .world event => event.opens uri
  | _ => false

open Supervisor (after)

/-! ### The time between closing and opening -/

theorem unopened_requestHeld (around : Surroundings) (uri other : Text) (supervisor : Supervisor)
    (event : Supervisor.Event) (member : event ∈ requestHeld around other supervisor) :
    event.opens uri = false := by
  have request := isRequest_of_mem around other supervisor event member
  cases event <;> simp [isRequest] at request <;> rfl

theorem unopened_requestOf (around : Surroundings) (uri other : Text) (index : Nat) :
    (requestOf around other index).opens uri = false := by
  unfold requestOf
  split <;> rfl

/-- An event that does not open a URI tells the supervisor of no opening. -/
theorem unopened_told (around : Surroundings) (supervisor : Supervisor) (uri : Text)
    (event : Event) (unopened : opens uri event = false) :
    ∀ happened ∈ told around supervisor event, happened.opens uri = false := by
  cases event with
  | world happened =>
    intro other member
    rw [List.mem_singleton.mp member]
    exact unopened
  | notified notification =>
    unfold told
    dsimp only
    split
    · simp
    · cases notification with
      | opened document =>
        have elsewhere : Supervisor.Event.opens uri (.opened document) = false := unopened
        simp [eventsOf, unopened_requestOf, elsewhere]
      | changed other version changes =>
        simp only [eventsOf]
        split
        · simp only [List.forall_mem_cons, List.not_mem_nil, false_implies, implies_true, and_true]
          exact ⟨rfl, unopened_requestOf around uri other _⟩
        · exact unopened_requestHeld around uri other supervisor
      | saved other => exact unopened_requestHeld around uri other supervisor
      | closed other => simp [eventsOf, Supervisor.Event.opens]
      | shutdown => simp [eventsOf, Supervisor.Event.opens]

theorem unopened_history (supervisor : Supervisor) (uri : Text)
    (session : List (Surroundings × Event))
    (unopened : ∀ entry ∈ session, opens uri entry.2 = false) :
    ∀ happened ∈ history supervisor session, happened.opens uri = false := by
  induction session generalizing supervisor with
  | nil => simp [history]
  | cons entry rest ih =>
    intro happened member
    rcases List.mem_append.mp member with now | later
    · exact unopened_told entry.1 supervisor uri entry.2 (unopened entry List.mem_cons_self)
        happened now
    · exact ih _ (fun other more => unopened other (List.mem_cons_of_mem entry more))
        happened later

/-- A closed URI holds no document until it is opened. -/
theorem unheld_of_closed (supervisor : Supervisor) (around : Surroundings) (uri : Text)
    (session : List (Surroundings × Event))
    (unopened : ∀ entry ∈ session, opens uri entry.2 = false) :
    (run supervisor ((around, .notified (.closed uri)) :: session)).1.workspace.held? uri =
      none := by
  have shut : (step around supervisor (.notified (.closed uri))).1.workspace.held? uri = none := by
    simp [step_state, told, rejection?, eventsOf, Supervisor.run, Supervisor.step,
      Supervisor.forget]
  simp only [run]
  rw [run_state]
  exact Supervisor.unheld_run _ uri shut _ (unopened_history _ uri session unopened)

/-! ### Silent jobs -/

/-- While a URI holds no document, its jobs are dropped. -/
theorem dropped_of_unheld (supervisor : Supervisor) (titled : supervisor.Titled)
    (sequence : Nat) (job : Job) (found : supervisor.job? sequence = some job)
    (unheld : supervisor.workspace.held? job.uri = none) : supervisor.dropReason? job ≠ none := by
  intro latest
  obtain ⟨live, _⟩ := (Supervisor.dropReason?_eq_none_iff supervisor job).mp latest
  obtain ⟨document, present, named⟩ := titled sequence job found
  rw [Workspace.isLive_iff _ _ document present, named, unheld] at live
  cases live

/-- Nothing is sent when the process of a job ends that was dropped before. -/
theorem unsent_of_dropped (folder : UnitFolder) (events more : List Supervisor.Event) (job : Job)
    (found : (after folder events).job? job.sequence = some job)
    (dropped : (after folder events).dropReason? job ≠ none) (around : Surroundings)
    (ending : Ending) (refusals : Supervisor.Refusals) (kept : Option SystemFault)
    (message : Message) :
    .send message ∉ (step around (after folder (events ++ more))
      (.world (.ended job.sequence ending refusals kept))).2 := by
  intro shown
  rcases sent folder _ around _ message shown with ⟨_, same, _⟩ |
    ⟨happened, sequence, outcome, _, _, same, reported, _⟩
  · cases same
  · cases same
    obtain ⟨⟨_, _, _, same⟩, _⟩ := Supervisor.undropped_of_reported _
      (Supervisor.wellFormed_after folder _) _ sequence outcome none reported
    cases same
    rw [Supervisor.after_append] at reported
    have silent := Supervisor.unreported_of_dropped _ (Supervisor.wellFormed_after folder events)
      (Supervisor.titled_after folder events) job.sequence job found dropped
      (more ++ [.ended job.sequence ending refusals kept]) outcome none
    simp [Supervisor.run_append, Supervisor.run, reported] at silent

/-- A closed document stays clean. Once a URI is closed, and as long as it is not opened, whatever
is sent clears the diagnostics of a URI being closed, or tells of the outcome of a job of another
URI. And the jobs that were made of the URI by then send nothing when their processes end, whatever
happens before, be it that the URI is opened again. -/
theorem silence_of_closed (folder : UnitFolder) (early late : List (Surroundings × Event))
    (closing : Surroundings) (uri : Text)
    (unopened : ∀ entry ∈ late, opens uri entry.2 = false) :
    let shut := (run (Supervisor.start folder)
      (early ++ (closing, .notified (.closed uri)) :: late)).1
    (∀ around event message, .send message ∈ (step around shut event).2 →
      (∃ other, event = .notified (.closed other) ∧ message = .publish other none []) ∨
        ∃ job ∈ shut.jobs, ∃ document outcome ending refusals kept,
          event = .world (.ended job.sequence ending refusals kept) ∧
          shut.workspace.document? job.document = some document ∧ document.uri = job.uri ∧
          job.uri ≠ uri ∧ .send message ∈ present document outcome) ∧
    (∀ job ∈ shut.jobs, job.uri = uri → ∀ more around ending refusals kept message,
      .send message ∉ (step around (run shut more).1
        (.world (.ended job.sequence ending refusals kept))).2) := by
  intro shut
  have unheld : shut.workspace.held? uri = none := by
    simp only [shut, run_append]
    exact unheld_of_closed _ closing uri late unopened
  obtain ⟨events, told⟩ : ∃ events, shut = after folder events := ⟨_, run_start folder _⟩
  have sound := Supervisor.wellFormed_after folder events
  have titled := Supervisor.titled_after folder events
  rw [told] at unheld ⊢
  refine ⟨?_, ?_⟩
  · intro around event message shown
    rcases sent folder events around event message shown with cleared |
      ⟨happened, sequence, outcome, last, document, rfl, reported, found, present, shows⟩
    · exact Or.inl cleared
    · right
      obtain ⟨⟨ending, refusals, kept, rfl⟩, job, before, latest⟩ :=
        Supervisor.undropped_of_reported _ sound happened sequence outcome none reported
      have named := Supervisor.sequence_of_job? _ sequence job before
      rw [Supervisor.document?_ended _ sound sequence job last before _ _ _ found] at present
      obtain ⟨other, same, titles⟩ := titled sequence job before
      cases present.symm.trans same
      refine ⟨job, Supervisor.mem_of_job? _ _ job before, document, outcome, ending, refusals,
        kept, by rw [named], present, titles, ?_, shows⟩
      rintro rfl
      exact dropped_of_unheld _ titled sequence job before unheld latest
  · intro job member of_uri more around ending refusals kept message
    have found := sound.job?_of_mem member
    have dropped := dropped_of_unheld _ titled job.sequence job found (of_uri ▸ unheld)
    rw [run_state, ← Supervisor.after_append]
    exact unsent_of_dropped folder events _ job found dropped around ending refusals kept message

/-- A document is closed while its first job is launching; saving it then makes a second job of the
file. Neither of their processes tells the editor anything, the second one's while the document is
closed, and the first one's once it is open again. -/
theorem silence_of_two_jobs :
    let folder : UnitFolder := { path := ['t'] }
    let around : Surroundings := ⟨{ start := [], files := [(["a".toList], [40])] }, none, none⟩
    let uri := "file:///a".toList
    let opening : Surroundings × Event := (around, .notified (.opened ⟨uri, some 1, ['(']⟩))
    let late : List (Surroundings × Event) :=
      [(around, .notified (.saved uri)), (around, .world (.launched 2 7)),
        (around, .world (.launched 1 8))]
    let shut := (run (Supervisor.start folder)
      ([opening] ++ (around, .notified (.closed uri)) :: late)).1
    let ended (sequence : Nat) : Event :=
      .world (.ended sequence (.finished (some 1) [] []) ⟨none, none⟩ none)
    (∀ entry ∈ late, opens uri entry.2 = false) ∧
      (∀ sequence ∈ [1, 2], ∃ job ∈ shut.jobs, job.sequence = sequence ∧ job.uri = uri ∧
        job.isSupervised = true) ∧
      (∀ message, .send message ∉ (step around shut (ended 2)).2) ∧
      ∀ message, .send message ∉ (step around (run shut [opening]).1 (ended 1)).2 := by
  intro folder around uri opening late shut ended
  have unopened : ∀ entry ∈ late, opens uri entry.2 = false := by decide
  have running : ∀ sequence ∈ [1, 2], ∃ job ∈ shut.jobs, job.sequence = sequence ∧
      job.uri = uri ∧ job.isSupervised = true := by decide +kernel
  have silent (sequence : Nat) (listed : sequence ∈ [1, 2]) (more : List (Surroundings × Event))
      (message : Message) : .send message ∉ (step around (run shut more).1 (ended sequence)).2 := by
    obtain ⟨job, member, rfl, of_uri, _⟩ := running sequence listed
    obtain ⟨_, dropped⟩ := silence_of_closed folder [opening] late around uri unopened
    exact dropped job member of_uri more around _ _ none message
  clear_value shut
  exact ⟨unopened, running, silent 2 (by simp) [], silent 1 (by simp) [opening]⟩

end FormWatch.Server
