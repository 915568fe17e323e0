import FormWatch.Proofs.Supervisor.Obsolescence

/-!
What an event leaves alone. An event about one job touches no other job, nor another's unit; and a
job that an event is not about loses its URI only if the URI is asked for or dropped. The documents
after an event depend on nothing but the documents before it.
-/

namespace FormWatch

theorem UnitFolder.content?_discard_self (folder : UnitFolder) (unit : Nat) :
    (folder.discard unit).content? unit = none := by
  simp [content?, discard, List.find?_filter]

namespace Supervisor

/-! ### What an event is about -/

/-- The job that an event is about. -/
def Event.job? : Event → Option Nat
  | .launched sequence _ | .launchFailed sequence _ _ | .exited sequence _ | .vanished sequence
  | .ended sequence _ _ _ => some sequence
  | _ => none

/-- What an event makes of the documents. -/
def Event.reshape (workspace : Workspace) : Event → Workspace
  | .opened document => workspace.put document
  | .loaded document => workspace.add document
  | .edited document version text => workspace.edit document version text
  | .closed uri => workspace.close uri
  | _ => workspace

theorem workspace_step (supervisor : Supervisor) (event : Event) :
    (supervisor.step event).1.workspace = event.reshape supervisor.workspace := by
  cases event with
  | requested => exact workspace_request _ _
  | launched => exact workspace_launch _ _ _
  | launchFailed => exact workspace_failLaunch _ _ _ _
  | ended => exact workspace_finish _ _ _ _ _
  | exited | vanished => exact workspace_updateHandle _ _ _
  | unwritten => exact workspace_failWrite _ _ _ _
  | opened | loaded | edited | closed | forgotten | shutdown => rfl

/-- An event about a job touches no document. -/
theorem workspace_step_of_job (supervisor : Supervisor) (event : Event) (sequence : Nat)
    (about : event.job? = some sequence) :
    (supervisor.step event).1.workspace = supervisor.workspace := by
  rw [workspace_step]
  cases event <;> simp [Event.job?] at about <;> rfl

/-- Whether an event takes a URI from its current job: it asks for the URI, or drops it. -/
def Displaces (supervisor : Supervisor) (event : Event) (uri : Text) : Prop :=
  (∃ document, supervisor.snapshot? event = some document ∧ document.uri = uri) ∨
    event.drops uri = true

theorem not_displaces_of_job (supervisor : Supervisor) (event : Event) (sequence : Nat)
    (about : event.job? = some sequence) (uri : Text) : ¬ supervisor.Displaces event uri := by
  cases event <;> simp [Event.job?] at about <;> simp [Displaces, snapshot?, Event.drops]

/-! ### Jobs that an event is not about -/

variable {before next : Supervisor} {event : Event} {done : List Effect}

/-- A job is touched only by events about it. -/
theorem Transition.job?_elsewhere (moved : Transition before event next done)
    (sound : before.WellFormed) (sequence : Nat) (job : Job)
    (found : before.job? sequence = some job) (elsewhere : event.job? ≠ some sequence) :
    next.job? sequence = some job := by
  have other (key : Nat) (old new : Job) (present : before.job? key = some old)
      (turns : old.Becomes new) (about : event.job? = some key) :
      (before.update new).job? sequence = some job := by
    have apart : sequence ≠ key := fun same => elsewhere (same ▸ about)
    rw [job?_update_of_found before key old new present turns, if_neg apart, found]
  cases moved with
  | idle | forgotten | stopped => exact found
  | registered document asked present =>
    have bound := sound.job?_le found
    rw [sound.job?_register, if_neg (by omega), found]
  | launched key pid old present pending =>
    exact other key old _ present (becomes_launched old pid pending) rfl
  | refused key failure kept old present pending =>
    exact other key old _ present (becomes_unlaunched old .idle pending) rfl
  | broken key failure kept old present pending =>
    exact other key old _ present (becomes_unlaunched old old.state pending) rfl
  | informed _ key old earlier later about present started ending =>
    refine other key old _ present (becomes_informed old earlier later started ending) ?_
    rcases about with ⟨status, rfl⟩ | rfl <;> rfl
  | settled key ending refusals kept old handle result present started running =>
    exact other key old _ present (becomes_settled before old handle _ result started running) rfl

/-- The unit of a job is touched only by events about the job. -/
theorem Transition.content?_elsewhere (moved : Transition before event next done)
    (sound : before.WellFormed) (sequence : Nat) (job : Job)
    (found : before.job? sequence = some job) (elsewhere : event.job? ≠ some sequence) :
    next.units.content? job.unit = before.units.content? job.unit := by
  have owned := sound.owned job (mem_of_job? before sequence job found)
  have named := sequence_of_job? before sequence job found
  have retired (key : Nat) (old new : Job) (kept : Option SystemFault)
      (present : before.job? key = some old) (about : event.job? = some key) :
      ((before.update new).retire old kept).units.content? job.unit =
        before.units.content? job.unit := by
    rw [retire_units]
    split
    · rfl
    · rw [update_units, UnitFolder.content?_discard_of_ne]
      rw [owned, named, sound.owned old (mem_of_job? before key old present),
        sequence_of_job? before key old present]
      exact fun same => elsewhere (same ▸ about)
  cases moved with
  | idle | launched | broken | informed | forgotten | stopped => rfl
  | registered document asked present =>
    refine UnitFolder.content?_write_of_le asked.text before.units job.unit ?_
    rw [owned, named, sound.counted]
    exact sound.job?_le found
  | refused key failure kept old present => exact retired key old _ kept present rfl
  | settled key ending refusals kept old handle result present =>
    exact retired key old _ kept present rfl

/-- A job that an event is not about is current after it if it was so before and was not
displaced. -/
theorem Transition.current_iff (moved : Transition before event next done) (uri : Text)
    (sequence : Nat) (registered : sequence ≤ before.jobs.length) (elsewhere : event.job? ≠ some sequence) :
    next.current? uri = some sequence ↔
      before.current? uri = some sequence ∧ ¬ before.Displaces event uri := by
  constructor
  · intro current
    obtain ⟨current', unasked, undropped⟩ := moved.current_before uri sequence registered current
    refine ⟨current', ?_⟩
    rintro (⟨document, asked, same⟩ | drops)
    · exact unasked document asked same
    · simp [undropped] at drops
  rintro ⟨current, stays⟩
  have retired (key : Nat) (old new : Job) (kept : Option SystemFault)
      (present : before.job? key = some old) (about : event.job? = some key) :
      ((before.update new).retire old kept).current? uri = some sequence := by
    rw [current?_retire, if_neg]
    · exact current
    · rintro ⟨rfl, mine⟩
      rw [current?_update, current, sequence_of_job? before key old present] at mine
      exact elsewhere (about.trans mine.symm)
  cases moved with
  | idle | launched | broken | informed => exact current
  | registered document asked present =>
    rw [current?_register, if_neg]
    · exact current
    · rintro rfl
      exact stays (Or.inl ⟨asked, present, rfl⟩)
  | refused key failure kept old present => exact retired key old _ kept present rfl
  | settled key ending refusals kept old handle result present =>
    exact retired key old _ kept present rfl
  | forgotten other =>
    rw [current?_forget, if_neg]
    · exact current
    · rintro rfl
      exact stays (Or.inr (by simp [Event.drops]))
  | stopped => exact absurd (Or.inr rfl) stays

/-- What becomes of a job that an event is not about. -/
structure Beside (before next : Supervisor) (sequence : Nat) (job : Job) (displaced : Prop) :
    Prop where
  found : next.job? sequence = some job
  unit : next.units.content? job.unit = before.units.content? job.unit
  current : next.current? job.uri = some sequence ↔
    before.current? job.uri = some sequence ∧ ¬ displaced

theorem Beside.refl {supervisor : Supervisor} {sequence : Nat} {job : Job}
    (found : supervisor.job? sequence = some job) :
    Beside supervisor supervisor sequence job False :=
  ⟨found, rfl, by simp⟩

theorem beside_step (supervisor : Supervisor) (sound : supervisor.WellFormed) (event : Event)
    (sequence : Nat) (job : Job) (found : supervisor.job? sequence = some job)
    (elsewhere : event.job? ≠ some sequence) :
    Beside supervisor (supervisor.step event).1 sequence job
      (supervisor.Displaces event job.uri) :=
  have moved := transition supervisor sound event
  ⟨moved.job?_elsewhere sound sequence job found elsewhere,
    moved.content?_elsewhere sound sequence job found elsewhere,
    moved.current_iff job.uri sequence (sound.job?_le found) elsewhere⟩

end Supervisor

end FormWatch
