import FormWatch.Proofs.Supervisor.Freshness

/-!
Jobs that count for nothing any more. A job is dropped when its document is not live, or when it is
not the current job of its URI; both last for ever, since a document that lost its URI never gets it
back and neither does a job. So nothing that a dropped job's process comes to is ever delivered.
-/

namespace FormWatch

/-! ### Documents over one event -/

namespace Workspace

theorem isLive_iff (workspace : Workspace) (index : Nat) (document : Document)
    (present : workspace.document? index = some document) :
    workspace.isLive index = true ↔ workspace.held? document.uri = some index := by
  simp [isLive, present]

@[simp] theorem held?_close (workspace : Workspace) (uri other : Text) :
    (workspace.close uri).held? other = if other = uri then none else workspace.held? other := by
  simp only [held?, close, List.find?_filter]
  by_cases same : other = uri
  · simp [same]
  · rw [if_neg same]
    congr 2
    funext entry
    by_cases here : entry.1 = other <;> simp [here, same]

@[simp] theorem held?_put (workspace : Workspace) (document : Document) (uri : Text) :
    (workspace.put document).held? uri =
      if uri = document.uri then some workspace.documents.length else workspace.held? uri := by
  have before := held?_close workspace document.uri uri
  simp only [held?, put, List.find?_append] at before ⊢
  by_cases same : uri = document.uri
  · subst same
    simp only [if_true, Option.map_eq_none_iff] at before
    simp [before]
  · have other : ¬ document.uri = uri := fun equal => same equal.symm
    rw [if_neg same] at before ⊢
    simpa [other] using before

end Workspace

namespace Supervisor

/-- Whether an event opens a document under a URI. -/
def Event.opens (uri : Text) : Event → Bool
  | .opened document => document.uri = uri
  | _ => false

theorem held?_step_of_unchanged (supervisor : Supervisor) (event : Event)
    (unopened : ∀ document, event ≠ .opened document) (unclosed : ∀ uri, event ≠ .closed uri) :
    (supervisor.step event).1.workspace.held = supervisor.workspace.held := by
  cases event with
  | opened document => exact absurd rfl (unopened document)
  | closed uri => exact absurd rfl (unclosed uri)
  | requested => rw [step, workspace_request]
  | launched => rw [step, workspace_launch]
  | launchFailed => rw [step, workspace_failLaunch]
  | ended => rw [step, workspace_finish]
  | exited | vanished => simp only [step, workspace_updateHandle]
  | unwritten => rw [step, workspace_failWrite]
  | loaded | edited | forgotten | shutdown => rfl

/-- A URI holds a document after an event if it held it before, or was opened with it. -/
theorem held?_before (supervisor : Supervisor) (event : Event) (uri : Text) (index : Nat)
    (held : (supervisor.step event).1.workspace.held? uri = some index) :
    supervisor.workspace.held? uri = some index ∨
      event.opens uri = true ∧ index = supervisor.workspace.documents.length := by
  have unchanged (same : (supervisor.step event).1.workspace.held = supervisor.workspace.held) :
      supervisor.workspace.held? uri = some index := by
    rwa [Workspace.held?, same] at held
  by_cases opened : ∃ document, event = .opened document
  · obtain ⟨document, rfl⟩ := opened
    simp only [step, Workspace.held?_put] at held
    split at held
    next same =>
      cases held
      exact Or.inr ⟨by simp [Event.opens, same], rfl⟩
    · exact Or.inl held
  · by_cases closed : ∃ other, event = .closed other
    · obtain ⟨other, rfl⟩ := closed
      simp only [step, Workspace.held?_close] at held
      split at held
      · cases held
      · exact Or.inl held
    · exact Or.inl (unchanged (held?_step_of_unchanged supervisor event
        (fun document same => opened ⟨document, same⟩) (fun other same => closed ⟨other, same⟩)))

/-- A document once made stays, under its URI. -/
theorem document?_becomes (supervisor : Supervisor) (event : Event) (index : Nat)
    (document : Document) (present : supervisor.workspace.document? index = some document) :
    ∃ next, (supervisor.step event).1.workspace.document? index = some next ∧
      next.uri = document.uri := by
  by_cases edited : ∃ version text, event = .edited index version text
  · obtain ⟨version, text, rfl⟩ := edited
    exact ⟨_, document?_edited supervisor index document present version text, rfl⟩
  · exact ⟨document, document?_step supervisor event index document present
      (fun version text same => edited ⟨version, text, same⟩), rfl⟩

/-- A document that is live was so before, unless it has just been made. -/
theorem isLive_before (supervisor : Supervisor) (event : Event) (index : Nat) (document : Document)
    (present : supervisor.workspace.document? index = some document)
    (live : (supervisor.step event).1.workspace.isLive index = true) :
    supervisor.workspace.isLive index = true := by
  obtain ⟨next, later, uri⟩ := document?_becomes supervisor event index document present
  rw [Workspace.isLive_iff _ index next later, uri] at live
  rw [Workspace.isLive_iff _ index document present]
  obtain ⟨bound, _⟩ := List.getElem?_eq_some_iff.mp present
  refine (held?_before supervisor event document.uri index live).resolve_right ?_
  rintro ⟨_, rfl⟩
  exact Nat.lt_irrefl _ bound

/-- A URI that holds no document holds none until it is opened. -/
theorem unheld_run (supervisor : Supervisor) (uri : Text)
    (unheld : supervisor.workspace.held? uri = none) (events : List Event)
    (unopened : ∀ event ∈ events, event.opens uri = false) :
    (supervisor.run events).1.workspace.held? uri = none := by
  induction events generalizing supervisor with
  | nil => exact unheld
  | cons event rest ih =>
    refine ih _ ?_ fun other later => unopened other (List.mem_cons_of_mem event later)
    rw [Option.eq_none_iff_forall_not_mem]
    intro index held
    rcases held?_before supervisor event uri index held with before | ⟨opened, _⟩
    · simp [unheld] at before
    · simp [unopened event List.mem_cons_self] at opened

/-! ### The documents of jobs -/

/-- Whether every job was made of a document that is there, and goes by its URI. -/
def Titled (supervisor : Supervisor) : Prop :=
  ∀ sequence job, supervisor.job? sequence = some job →
    ∃ document, supervisor.workspace.document? job.document = some document ∧
      document.uri = job.uri

theorem Titled.step {supervisor : Supervisor} (titled : supervisor.Titled)
    (sound : supervisor.WellFormed) (event : Event) : (supervisor.step event).1.Titled := by
  intro sequence job found
  rcases (transition supervisor sound event).origin sound sequence job found with
    ⟨old, before, turns⟩ | ⟨index, document, rfl, present, registered, first⟩
  · obtain ⟨document, present, named⟩ := titled sequence old before
    obtain ⟨next, later, uri⟩ := document?_becomes supervisor event old.document document present
    exact ⟨next, by rw [turns.document, later], by rw [uri, named, turns.uri]⟩
  · rw [registered, sound.job?_register, if_pos first] at found
    cases found
    refine ⟨document, ?_, rfl⟩
    rw [Supervisor.step, workspace_request]
    exact present

theorem titled_after (folder : UnitFolder) (events : List Event) : (after folder events).Titled := by
  induction events using List.reverseRecOn with
  | nil => intro sequence job found; cases found
  | append_singleton events event ih =>
    rw [after_concat]
    exact ih.step (wellFormed_after folder events) event

/-! ### Dropped jobs -/

/-- A dropped job stays dropped. -/
theorem dropped_step (supervisor : Supervisor) (sound : supervisor.WellFormed)
    (titled : supervisor.Titled) (sequence : Nat) (job : Job)
    (found : supervisor.job? sequence = some job) (dropped : supervisor.dropReason? job ≠ none)
    (event : Event) :
    ∃ next, (supervisor.step event).1.job? sequence = some next ∧
      (supervisor.step event).1.dropReason? next ≠ none := by
  have moved := transition supervisor sound event
  obtain ⟨next, later, turns⟩ := moved.becomes sound sequence job found
  refine ⟨next, later, fun latest => dropped ?_⟩
  obtain ⟨live, current⟩ := (dropReason?_eq_none_iff _ next).mp latest
  obtain ⟨document, present, _⟩ := titled sequence job found
  have named := sequence_of_job? supervisor sequence job found
  refine (dropReason?_eq_none_iff supervisor job).mpr ⟨?_, ?_⟩
  · exact isLive_before supervisor event job.document document present (turns.document ▸ live)
  · rw [isCurrent_iff, turns.uri, turns.sequence] at current
    rw [isCurrent_iff]
    exact (moved.current_before job.uri job.sequence (named ▸ sound.job?_le found) current).1

/-- An outcome is delivered by a job that is not dropped. -/
theorem undropped_of_reported (supervisor : Supervisor) (sound : supervisor.WellFormed)
    (event : Event) (sequence : Nat) (outcome : Outcome) (refusal : Option Failure)
    (reported : .report sequence outcome refusal ∈ (supervisor.step event).2) :
    (∃ ending refusals kept, event = .ended sequence ending refusals kept) ∧
      ∃ job, supervisor.job? sequence = some job ∧ supervisor.dropReason? job = none := by
  obtain ⟨ending, refusals, kept, job, handle, result, rfl, found, _, _, _, delivered⟩ :=
    (transition supervisor sound event).reported sequence outcome refusal reported
  refine ⟨⟨ending, refusals, kept, rfl⟩, job, found, ?_⟩
  by_contra dropped
  obtain ⟨reason, same⟩ := Option.ne_none_iff_exists'.mp dropped
  simp [(verdict_of_dropped supervisor job _ result reason same).2] at delivered

/-- Nothing that a dropped job comes to is delivered. -/
theorem unreported_of_dropped (supervisor : Supervisor) (sound : supervisor.WellFormed)
    (titled : supervisor.Titled) (sequence : Nat) (job : Job)
    (found : supervisor.job? sequence = some job) (dropped : supervisor.dropReason? job ≠ none)
    (events : List Event) (outcome : Outcome) (refusal : Option Failure) :
    .report sequence outcome refusal ∉ (supervisor.run events).2 := by
  induction events generalizing supervisor job with
  | nil => exact List.not_mem_nil
  | cons event rest ih =>
    rw [run, List.mem_append, not_or]
    constructor
    · intro reported
      obtain ⟨_, other, same, latest⟩ :=
        undropped_of_reported supervisor sound event sequence outcome refusal reported
      cases found.symm.trans same
      exact dropped latest
    · obtain ⟨next, later, still⟩ :=
        dropped_step supervisor sound titled sequence job found dropped event
      exact ih _ (sound.step event) (titled.step sound event) next later still

end Supervisor

end FormWatch
