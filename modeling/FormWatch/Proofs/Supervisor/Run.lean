import FormWatch.Proofs.Supervisor.Transition
import Mathlib.Data.List.Induction

/-!
Runs of a supervisor from its start: where events lead, what is done on the way, and whose snapshots
are taken. An event that a step lemma says nothing about cannot occur, so every list of events is a
run.

The main statement ties the table to the history. `current_iff_undisturbed`: an active job is the
current one of its URI if and only if, since it was registered, no later snapshot of the URI was
taken and the supervisor was not made to forget it. It follows from what one event does to the
current job: `Transition.current_stays` and `Transition.current_before`.
-/

namespace FormWatch.Supervisor

/-- The state to which events lead. -/
def after (folder : UnitFolder) (events : List Event) : Supervisor :=
  ((start folder).run events).1

/-- What is done over events, in order. -/
def effects (folder : UnitFolder) (events : List Event) : List Effect :=
  ((start folder).run events).2

/-- The documents whose snapshots events take, each as it is when its snapshot is taken. -/
def snapshots (supervisor : Supervisor) : List Event → List Document
  | [] => []
  | event :: rest =>
    (supervisor.snapshot? event).toList ++ snapshots (supervisor.step event).1 rest

/-! ### Runs in parts -/

theorem run_append (supervisor : Supervisor) (early late : List Event) :
    supervisor.run (early ++ late) =
      (((supervisor.run early).1.run late).1,
        (supervisor.run early).2 ++ ((supervisor.run early).1.run late).2) := by
  induction early generalizing supervisor with
  | nil => rfl
  | cons event rest ih => simp [run, ih, List.append_assoc]

theorem after_append (folder : UnitFolder) (early late : List Event) :
    after folder (early ++ late) = ((after folder early).run late).1 := by
  simp [after, run_append]

@[simp] theorem after_concat (folder : UnitFolder) (events : List Event) (event : Event) :
    after folder (events ++ [event]) = ((after folder events).step event).1 := by
  simp [after, run_append, run]

@[simp] theorem effects_concat (folder : UnitFolder) (events : List Event) (event : Event) :
    effects folder (events ++ [event]) =
      effects folder events ++ ((after folder events).step event).2 := by
  simp [after, effects, run_append, run]

theorem snapshots_append (supervisor : Supervisor) (early late : List Event) :
    supervisor.snapshots (early ++ late) =
      supervisor.snapshots early ++ (supervisor.run early).1.snapshots late := by
  induction early generalizing supervisor with
  | nil => rfl
  | cons event rest ih => simp [snapshots, run, ih, List.append_assoc]

theorem snapshots_concat (supervisor : Supervisor) (events : List Event) (event : Event) :
    supervisor.snapshots (events ++ [event]) =
      supervisor.snapshots events ++ ((supervisor.run events).1.snapshot? event).toList := by
  simp [snapshots_append, snapshots]

theorem wellFormed_run (supervisor : Supervisor) (sound : supervisor.WellFormed)
    (events : List Event) : (supervisor.run events).1.WellFormed := by
  induction events generalizing supervisor with
  | nil => exact sound
  | cons event rest ih => exact ih _ (sound.step event)

theorem wellFormed_after (folder : UnitFolder) (events : List Event) :
    (after folder events).WellFormed :=
  wellFormed_run _ (wellFormed_start folder) events

/-! ### Jobs over one event -/

variable {before next : Supervisor} {event : Event} {done : List Effect}

/-- One job is registered for each snapshot that is taken. -/
theorem Transition.length_jobs (moved : Transition before event next done) :
    next.jobs.length = before.jobs.length + (before.snapshot? event).toList.length := by
  cases moved with
  | idle _ _ _ unasked => simp [unasked]
  | registered document held present =>
    simp [snapshot?, present, register]
  | launched | broken | refused | settled => simp [snapshot?]
  | informed _ _ _ _ _ about => rcases about with ⟨status, rfl⟩ | rfl <;> simp [snapshot?]
  | forgotten => rfl
  | stopped => rfl

/-- A job that is there after an event was there before it, or was registered by it. -/
theorem Transition.origin (moved : Transition before event next done) (sound : before.WellFormed)
    (sequence : Nat) (new : Job) (found : next.job? sequence = some new) :
    (∃ old, before.job? sequence = some old ∧ old.Becomes new) ∨
      ∃ document asked, event = .requested document ∧
        before.workspace.document? document = some asked ∧
        next = before.register document asked ∧ sequence = before.jobs.length + 1 := by
  -- A job that was not there is not the one that goes on, so it is the one registered.
  cases present : before.job? sequence with
  | some old =>
    obtain ⟨later, found', turns⟩ := moved.becomes sound sequence old present
    cases found.symm.trans found'
    exact Or.inl ⟨old, rfl, turns⟩
  | none =>
    rcases moved.jobs with same | ⟨document, asked, rfl, taken, rfl⟩ |
      ⟨key, old, job, there, turns, jobs⟩
    · rw [job?_of_jobs same, present] at found
      cases found
    · rw [sound.job?_register] at found
      split at found
      next first => exact Or.inr ⟨document, asked, rfl, taken, rfl, first⟩
      · simp [present] at found
    · rw [job?_of_jobs jobs] at found
      rcases job?_update_cases before key old job there turns found with ⟨rfl, _⟩ | ⟨_, same⟩
      · simp [present] at there
      · simp [present] at same

/-- A process that runs after an event ran before it, or was launched by it. -/
theorem Transition.supervised_before (moved : Transition before event next done)
    (sound : before.WellFormed)
    (sequence : Nat) (new : Job) (found : next.job? sequence = some new)
    (supervised : new.isSupervised = true) :
    ∃ old, before.job? sequence = some old ∧ old.uri = new.uri ∧
      (old.isSupervised = true ∨
        old.launching = true ∧ ∃ pid, event = .launched sequence pid) := by
  have untouched (same : before.job? sequence = some new) :
      ∃ old, before.job? sequence = some old ∧ old.uri = new.uri ∧
        (old.isSupervised = true ∨
          old.launching = true ∧ ∃ pid, event = .launched sequence pid) :=
    ⟨new, same, rfl, Or.inl supervised⟩
  cases moved with
  | idle | forgotten | stopped => exact untouched found
  | registered document asked present =>
    rw [sound.job?_register] at found
    split at found
    · cases found
      simp [Job.isSupervised] at supervised
    · exact untouched found
  | launched key pid old present pending =>
    rcases job?_update_cases before key old _ present (becomes_launched old pid pending) found with
      ⟨rfl, rfl⟩ | ⟨_, same⟩
    · exact ⟨old, present, rfl, Or.inr ⟨pending, pid, rfl⟩⟩
    · exact untouched same
  | refused key failure kept old present pending =>
    have inactive := (sound.stage present).inactive_unlaunched pending .idle
    rcases job?_update_cases before key old _ present (becomes_unlaunched old .idle pending)
      found with ⟨rfl, rfl⟩ | ⟨_, same⟩
    · simp [Job.unsupervised_of_inactive inactive] at supervised
    · exact untouched same
  | broken key failure kept old present pending =>
    have inactive := (sound.stage present).inactive_unlaunched pending old.state
    rcases job?_update_cases before key old _ present (becomes_unlaunched old old.state pending)
      found with ⟨rfl, rfl⟩ | ⟨_, same⟩
    · simp [Job.unsupervised_of_inactive inactive] at supervised
    · exact untouched same
  | informed _ key old earlier later about present started ending =>
    rcases job?_update_cases before key old _ present
      (becomes_informed old earlier later started ending) found with ⟨rfl, rfl⟩ | ⟨_, same⟩
    · exact ⟨old, present, rfl, Or.inl (by
        simpa [Job.isSupervised, started, ending] using supervised)⟩
    · exact untouched same
  | settled key ending refusals kept old handle result present started running gave =>
    have inactive := inactive_settled before (sound.stage present) handle ending result started
      running
    rcases job?_update_cases before key old _ present
      (becomes_settled before old handle _ result started running) found with
      ⟨rfl, rfl⟩ | ⟨_, same⟩
    · simp [Job.unsupervised_of_inactive inactive] at supervised
    · exact untouched same

/-! ### Jobs over runs -/

theorem becomes_step (supervisor : Supervisor) (sound : supervisor.WellFormed) (event : Event)
    (sequence : Nat) (job : Job) (found : supervisor.job? sequence = some job) :
    ∃ next, (supervisor.step event).1.job? sequence = some next ∧ job.Becomes next :=
  (transition supervisor sound event).becomes sound sequence job found

theorem becomes_run (supervisor : Supervisor) (sound : supervisor.WellFormed)
    (events : List Event) (sequence : Nat) (job : Job)
    (found : supervisor.job? sequence = some job) :
    ∃ last, (supervisor.run events).1.job? sequence = some last ∧ job.Becomes last := by
  induction events generalizing supervisor job with
  | nil => exact ⟨job, found, .refl job⟩
  | cons event rest ih =>
    obtain ⟨next, moved, early⟩ := becomes_step supervisor sound event sequence job found
    obtain ⟨last, ended, late⟩ := ih _ (sound.step event) next moved
    exact ⟨last, ended, early.trans late⟩

/-- A request that gets past its snapshot registers a job, which is current at once. -/
theorem step_requested (supervisor : Supervisor) (sound : supervisor.WellFormed) (document : Nat)
    (asked : Document) (present : supervisor.workspace.document? document = some asked) :
    let next := (supervisor.step (.requested document)).1
    next.current? asked.uri = some (supervisor.jobs.length + 1) ∧
      ∃ job, next.job? (supervisor.jobs.length + 1) = some job ∧ job.uri = asked.uri ∧
        job.document = document := by
  have registered : (supervisor.step (.requested document)).1 =
      supervisor.register document asked := by simp [step, request, present]
  simp only [registered, current?_register, sound.job?_register, if_true]
  exact ⟨trivial, _, rfl, rfl, rfl⟩

theorem length_jobs_run (supervisor : Supervisor) (sound : supervisor.WellFormed)
    (events : List Event) :
    (supervisor.run events).1.jobs.length =
      supervisor.jobs.length + (supervisor.snapshots events).length := by
  induction events generalizing supervisor with
  | nil => rfl
  | cons event rest ih =>
    have grown := (transition supervisor sound event).length_jobs
    rw [run, snapshots, List.length_append, ih _ (sound.step event), grown, Nat.add_assoc]

theorem length_jobs_after (folder : UnitFolder) (events : List Event) :
    (after folder events).jobs.length = ((start folder).snapshots events).length := by
  rw [after, length_jobs_run _ (wellFormed_start folder) events]
  exact Nat.zero_add _

/-! ### The current job over one event -/

/-- A job that is still active stays current if its URI is neither asked for nor dropped. -/
theorem Transition.current_stays (moved : Transition before event next done)
    (sound : before.WellFormed) (uri : Text) (sequence : Nat) (job : Job)
    (current : before.current? uri = some sequence) (found : next.job? sequence = some job)
    (active : job.isActive = true)
    (unasked : ∀ document, before.snapshot? event = some document → document.uri ≠ uri)
    (undropped : event.drops uri = false) : next.current? uri = some sequence := by
  -- A step that retires a job leaves it inactive, so it is not the one that still is.
  have retired (key : Nat) (old new : Job) (kept : Option SystemFault)
      (present : before.job? key = some old) (turns : old.Becomes new)
      (past : new.isActive = false)
      (after : ((before.update new).retire old kept).job? sequence = some job) :
      ((before.update new).retire old kept).current? uri = some sequence := by
    have named := sequence_of_job? before key old present
    rw [current?_retire]
    split
    next mine =>
      have equal : sequence = key := by
        have both := current.symm.trans (mine.1 ▸ mine.2)
        simpa [named] using both
      rw [job?_retire, job?_update_of_found before key old new present turns, if_pos equal] at after
      cases after
      simp [past] at active
    · exact current
  cases moved with
  | idle => exact current
  | registered document held present =>
    rw [current?_register, if_neg (fun same => unasked held present same.symm)]
    exact current
  | launched | broken | informed => exact current
  | refused key failure kept old present pending expected =>
    exact retired key old _ kept present (becomes_unlaunched old .idle pending)
      ((sound.stage present).inactive_unlaunched pending .idle) found
  | settled key ending refusals kept old handle result present started running gave =>
    exact retired key old _ kept present
      (becomes_settled before old handle _ result started running)
      (inactive_settled before (sound.stage present) handle ending result started running) found
  | forgotten other =>
    have elsewhere : uri ≠ other := by
      intro same
      simp [Event.drops, same] at undropped
    rw [current?_forget, if_neg elsewhere]
    exact current
  | stopped => simp [Event.drops] at undropped

/-- A registered job that is current after an event was so before, and the event neither asked for
its URI nor dropped it. -/
theorem Transition.current_before (moved : Transition before event next done)
    (uri : Text) (sequence : Nat) (registered : sequence ≤ before.jobs.length)
    (current : next.current? uri = some sequence) :
    before.current? uri = some sequence ∧
      (∀ document, before.snapshot? event = some document → document.uri ≠ uri) ∧
      event.drops uri = false := by
  cases moved with
  | idle _ _ _ unasked undropped =>
    exact ⟨current, by simp [unasked], undropped uri⟩
  | registered document held present =>
    rw [current?_register] at current
    split at current
    · cases current
      omega
    next elsewhere =>
      refine ⟨current, ?_, rfl⟩
      intro other asked same
      cases present.symm.trans asked
      exact elsewhere same.symm
  | launched | broken => exact ⟨current, by simp [snapshot?], rfl⟩
  | informed _ _ _ _ _ about =>
    rcases about with ⟨status, rfl⟩ | rfl <;>
      exact ⟨current, by simp [snapshot?], rfl⟩
  | refused | settled =>
    exact ⟨current?_of_retire current, by simp [snapshot?], rfl⟩
  | forgotten other =>
    rw [current?_forget] at current
    split at current
    · cases current
    next elsewhere =>
      refine ⟨current, by simp [snapshot?], ?_⟩
      simpa [Event.drops, eq_comm] using elsewhere
  | stopped => cases current

/-! ### The current job over a run -/

/-- Whether events neither ask for a URI nor make the supervisor forget its current job. -/
structure Undisturbed (supervisor : Supervisor) (uri : Text) (events : List Event) : Prop where
  unasked : ∀ document ∈ supervisor.snapshots events, document.uri ≠ uri
  remembered : .forgotten uri ∉ events
  unstopped : .shutdown ∉ events

theorem drops_eq_false_iff (uri : Text) (event : Event) :
    event.drops uri = false ↔ event ≠ .forgotten uri ∧ event ≠ .shutdown := by
  cases event <;> simp [Event.drops]

theorem undisturbed_concat (supervisor : Supervisor) (uri : Text) (events : List Event)
    (event : Event) :
    supervisor.Undisturbed uri (events ++ [event]) ↔
      supervisor.Undisturbed uri events ∧
        (∀ document, (supervisor.run events).1.snapshot? event = some document →
          document.uri ≠ uri) ∧ event.drops uri = false := by
  rw [drops_eq_false_iff]
  constructor
  · rintro ⟨unasked, remembered, unstopped⟩
    simp only [snapshots_concat, List.mem_append, Option.mem_toList] at unasked
    simp only [List.mem_append, List.mem_singleton, not_or] at remembered unstopped
    exact ⟨⟨fun document member => unasked document (Or.inl member), remembered.1, unstopped.1⟩,
      fun document asked => unasked document (Or.inr asked), Ne.symm remembered.2,
      Ne.symm unstopped.2⟩
  · rintro ⟨⟨unasked, remembered, unstopped⟩, unasked', remembered', unstopped'⟩
    refine ⟨?_, ?_, ?_⟩
    · simp only [snapshots_concat, List.mem_append, Option.mem_toList]
      exact fun document member => member.elim (unasked document) (unasked' document)
    · simp [remembered, Ne.symm remembered']
    · simp [unstopped, Ne.symm unstopped']

theorem current_iff_undisturbed (supervisor : Supervisor) (sound : supervisor.WellFormed)
    (uri : Text) (sequence : Nat) (current : supervisor.current? uri = some sequence)
    (events : List Event) (last : Job)
    (found : (supervisor.run events).1.job? sequence = some last)
    (active : last.isActive = true) :
    (supervisor.run events).1.current? uri = some sequence ↔ supervisor.Undisturbed uri events := by
  induction events using List.reverseRecOn generalizing last with
  | nil =>
    have calm : supervisor.Undisturbed uri [] := ⟨by simp [snapshots], by simp, by simp⟩
    simp [calm, run, current]
  | append_singleton events event ih =>
    have reached := wellFormed_run supervisor sound events
    obtain ⟨first, registered, _⟩ := sound.tracked uri sequence current
    obtain ⟨job, present, _⟩ := becomes_run supervisor sound events sequence first registered
    have moved := transition _ reached event
    have stepped : (supervisor.run (events ++ [event])).1 =
        ((supervisor.run events).1.step event).1 := by simp [run_append, run]
    rw [stepped] at found ⊢
    -- An active job was active before, so the statement for the events so far applies.
    have before : job.isActive = true := by
      obtain ⟨next, later, turns⟩ := moved.becomes reached sequence job present
      cases found.symm.trans later
      by_contra past
      simp [turns.inactive (by simpa using past)] at active
    rw [undisturbed_concat, ← ih job present before]
    constructor
    · intro still
      exact moved.current_before uri sequence (reached.job?_le present) still
    · rintro ⟨still, unasked, undropped⟩
      exact moved.current_stays reached uri sequence last still found active unasked undropped

/-- An active job is current if and only if its URI was undisturbed since the request for it. -/
theorem isCurrent_iff_undisturbed_since (folder : UnitFolder) (early late : List Event)
    (document : Nat) (asked : Document) (job : Job)
    (present : (after folder early).workspace.document? document = some asked)
    (found : (after folder (early ++ .requested document :: late)).job?
      ((after folder early).jobs.length + 1) = some job) (active : job.isActive = true) :
    job.document = document ∧
      ((after folder (early ++ .requested document :: late)).isCurrent job = true ↔
        (after folder (early ++ [.requested document])).Undisturbed asked.uri late) := by
  obtain ⟨current, first, registered, uri, captured⟩ :=
    step_requested _ (wellFormed_after folder early) document asked present
  rw [← after_concat] at current registered
  have reached : after folder (early ++ .requested document :: late) =
      ((after folder (early ++ [.requested document])).run late).1 := by
    rw [← after_append, List.append_assoc, List.singleton_append]
  rw [reached] at found ⊢
  have sound := wellFormed_after folder (early ++ [.requested document])
  obtain ⟨last, same, turns⟩ := becomes_run _ sound late _ first registered
  cases found.symm.trans same
  have named := sequence_of_job? _ _ job found
  refine ⟨turns.document.trans captured, ?_⟩
  rw [isCurrent_iff, turns.uri, uri, named]
  exact current_iff_undisturbed _ sound asked.uri _ current late job found active

end FormWatch.Supervisor
