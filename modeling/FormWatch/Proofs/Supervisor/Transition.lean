import FormWatch.Proofs.Supervisor.Table

/-!
What one event can do to a supervisor whose state is well formed, said once for all events, and why
the state stays well formed. Every statement about whole runs rests on these two: `transition`,
which lists the ways a state can change, and `WellFormed.step`.
-/

namespace FormWatch

/-! ### Jobs -/

namespace Job

/-- Whether a job's process runs and what comes of it is awaited. -/
def isSupervised (job : Job) : Bool :=
  job.handle.any (·.ending.isNone)

/-- Whether a job still waits for its launch or for its process. -/
def isActive (job : Job) : Bool :=
  job.launching || job.isSupervised

/-- How far a job can be. -/
inductive Stage (job : Job) : Prop where
  | launching (pending : job.launching = true) (unstarted : job.handle = none)
      (state : job.state = .running)
  | supervised (handle : ProcessHandle) (past : job.launching = false)
      (started : job.handle = some handle) (read : handle.waited = true)
      (running : handle.ending = none) (unsettled : handle.result = none)
      (state : job.state = .running)
  | settled (handle : ProcessHandle) (past : job.launching = false)
      (started : job.handle = some handle) (ended : handle.ending.isSome)
      (state : job.state = .completed ∨ job.state = .failed ∨ job.state = .obsolete)
  | unlaunched (past : job.launching = false) (unstarted : job.handle = none)
      (state : job.state = .idle ∨ job.state = .running)

/-- A job keeps what it was made for; only a job that is active changes its state or its output. -/
structure Becomes (old new : Job) : Prop where
  sequence : new.sequence = old.sequence
  uri : new.uri = old.uri
  document : new.document = old.document
  unit : new.unit = old.unit
  launching : old.launching = false → new.launching = false
  started : old.handle.isSome → new.handle.isSome
  inactive : old.isActive = false → new.isActive = false
  settled : old.isActive = false → new.state = old.state ∧ new.output = old.output

theorem Becomes.refl (job : Job) : job.Becomes job :=
  ⟨rfl, rfl, rfl, rfl, id, id, id, fun _ => ⟨rfl, rfl⟩⟩

theorem Becomes.trans {first second third : Job} (early : first.Becomes second)
    (late : second.Becomes third) : first.Becomes third where
  sequence := late.sequence.trans early.sequence
  uri := late.uri.trans early.uri
  document := late.document.trans early.document
  unit := late.unit.trans early.unit
  launching := late.launching ∘ early.launching
  started := late.started ∘ early.started
  inactive := late.inactive ∘ early.inactive
  settled past := by
    have before := early.settled past
    have after := late.settled (early.inactive past)
    exact ⟨after.1.trans before.1, after.2.trans before.2⟩

/-- A job that is still active is replaced by any job made for the same. -/
theorem Becomes.of_active {old new : Job} (active : old.isActive = true)
    (sequence : new.sequence = old.sequence) (uri : new.uri = old.uri)
    (document : new.document = old.document) (unit : new.unit = old.unit)
    (launching : old.launching = false → new.launching = false)
    (started : old.handle.isSome → new.handle.isSome) : old.Becomes new where
  sequence := sequence
  uri := uri
  document := document
  unit := unit
  launching := launching
  started := started
  inactive past := by simp [active] at past
  settled past := by simp [active] at past

theorem isSupervised_iff (job : Job) :
    job.isSupervised = true ↔ ∃ handle, job.handle = some handle ∧ handle.ending = none := by
  cases started : job.handle <;> simp [isSupervised, started]

theorem isActive_of_launching (job : Job) (pending : job.launching = true) :
    job.isActive = true := by
  simp [isActive, pending]

theorem isActive_of_supervised (job : Job) (supervised : job.isSupervised = true) :
    job.isActive = true := by
  simp [isActive, supervised]

theorem Stage.running_of_active {job : Job} (stage : job.Stage) (active : job.isActive = true) :
    job.state = .running := by
  cases stage with
  | launching _ _ state => exact state
  | supervised _ _ _ _ _ _ state => exact state
  | settled handle past started ended state =>
    obtain ⟨ending, known⟩ := Option.isSome_iff_exists.mp ended
    simp [isActive, isSupervised, past, started, known] at active
  | unlaunched past unstarted _ => simp [isActive, isSupervised, past, unstarted] at active

theorem Stage.unstarted_of_launching {job : Job} (stage : job.Stage)
    (pending : job.launching = true) : job.handle = none := by
  cases stage with
  | launching _ unstarted _ => exact unstarted
  | supervised _ past | settled _ past | unlaunched past => simp [pending] at past

/-- A job whose launch is over without a process is not active. -/
theorem Stage.inactive_unlaunched {job : Job} (stage : job.Stage) (pending : job.launching = true)
    (state : JobState) : ({ job.unlaunched with state := state } : Job).isActive = false := by
  simp [isActive, isSupervised, Job.unlaunched, stage.unstarted_of_launching pending]

theorem unsupervised_of_inactive {job : Job} (inactive : job.isActive = false) :
    job.isSupervised = false := by
  simp only [isActive, Bool.or_eq_false_iff] at inactive
  exact inactive.2

theorem Stage.past_of_started {job : Job} (stage : job.Stage) (handle : ProcessHandle)
    (started : job.handle = some handle) : job.launching = false := by
  cases stage with
  | launching _ unstarted _ => simp [started] at unstarted
  | supervised _ past | settled _ past | unlaunched past => exact past

end Job

namespace Supervisor

/-! ### Well formed states -/

/-- What holds of every state that events lead to. -/
structure WellFormed (supervisor : Supervisor) : Prop where
  numbered : supervisor.jobs.map Job.sequence = List.range' 1 supervisor.jobs.length
  counted : supervisor.units.made = supervisor.jobs.length
  unique : (supervisor.table.map Prod.fst).Nodup
  staged : ∀ job ∈ supervisor.jobs, job.Stage
  owned : ∀ job ∈ supervisor.jobs, job.unit = job.sequence
  tracked : ∀ uri sequence, supervisor.current? uri = some sequence →
    ∃ job, supervisor.job? sequence = some job ∧ job.uri = uri ∧ job.state = .running
  newest : ∀ uri sequence, supervisor.current? uri = some sequence →
    ∀ job ∈ supervisor.jobs, job.uri = uri → job.sequence ≤ sequence

namespace WellFormed

variable {supervisor : Supervisor}

theorem distinct (sound : supervisor.WellFormed) :
    (supervisor.jobs.map Job.sequence).Nodup := by
  rw [sound.numbered]
  exact List.nodup_range'

theorem job?_of_mem (sound : supervisor.WellFormed) {job : Job}
    (member : job ∈ supervisor.jobs) : supervisor.job? job.sequence = some job :=
  Supervisor.job?_of_mem supervisor sound.distinct job member

theorem stage (sound : supervisor.WellFormed) {sequence : Nat} {job : Job}
    (found : supervisor.job? sequence = some job) : job.Stage :=
  sound.staged job (mem_of_job? supervisor sequence job found)

theorem unit_of_job? (sound : supervisor.WellFormed) {sequence : Nat} {job : Job}
    (found : supervisor.job? sequence = some job) : job.unit = sequence :=
  (sound.owned job (mem_of_job? supervisor sequence job found)).trans
    (sequence_of_job? supervisor sequence job found)

theorem sequence_le (sound : supervisor.WellFormed) {job : Job}
    (member : job ∈ supervisor.jobs) : job.sequence ≤ supervisor.jobs.length := by
  have listed : job.sequence ∈ supervisor.jobs.map Job.sequence :=
    List.mem_map.mpr ⟨job, member, rfl⟩
  rw [sound.numbered, List.mem_range'_1] at listed
  omega

theorem job?_le (sound : supervisor.WellFormed) {sequence : Nat} {job : Job}
    (found : supervisor.job? sequence = some job) : sequence ≤ supervisor.jobs.length := by
  rw [← sequence_of_job? supervisor sequence job found]
  exact sound.sequence_le (mem_of_job? supervisor sequence job found)

/-- A job is current for its own URI only. -/
theorem uri_unique (sound : supervisor.WellFormed) {uri other : Text} {sequence : Nat}
    (current : supervisor.current? uri = some sequence)
    (current' : supervisor.current? other = some sequence) : uri = other := by
  obtain ⟨job, found, named, _⟩ := sound.tracked uri sequence current
  obtain ⟨job', found', named', _⟩ := sound.tracked other sequence current'
  cases found.symm.trans found'
  exact named.symm.trans named'

theorem current?_le (sound : supervisor.WellFormed) {uri : Text} {sequence : Nat}
    (current : supervisor.current? uri = some sequence) : sequence ≤ supervisor.jobs.length := by
  obtain ⟨job, found, _⟩ := sound.tracked uri sequence current
  exact sound.job?_le found

/-- The number that the next job gets is not taken. -/
theorem job?_next (sound : supervisor.WellFormed) :
    supervisor.job? (supervisor.jobs.length + 1) = none := by
  cases found : supervisor.job? (supervisor.jobs.length + 1) with
  | none => rfl
  | some job =>
    have bound := sound.job?_le found
    omega

theorem job?_register (sound : supervisor.WellFormed) (document : Nat) (found : Document)
    (sequence : Nat) :
    (supervisor.register document found).job? sequence =
      if sequence = supervisor.jobs.length + 1 then
        some { sequence := supervisor.jobs.length + 1, uri := found.uri, document := document,
               unit := supervisor.units.made + 1 }
      else supervisor.job? sequence := by
  have next := sound.job?_next
  simp only [job?] at next
  by_cases same : sequence = supervisor.jobs.length + 1
  · simp [job?, register, UnitFolder.write, List.find?_append, same, next]
  · have other : ¬ supervisor.jobs.length + 1 = sequence := fun equal => same equal.symm
    simp [job?, register, UnitFolder.write, List.find?_append, same, other]

end WellFormed

theorem wellFormed_start (folder : UnitFolder) : (start folder).WellFormed where
  numbered := rfl
  counted := rfl
  unique := List.nodup_nil
  staged job member := by simp [start] at member
  owned job member := by simp [start] at member
  tracked uri sequence current := by simp [start, current?] at current
  newest uri sequence current := by simp [start, current?] at current

/-! ### What one event can do -/

/-- The document whose snapshot an event takes, as it is when the snapshot is taken. -/
def snapshot? (supervisor : Supervisor) : Event → Option Document
  | .requested document => supervisor.workspace.document? document
  | _ => none

/-- Whether an event makes the supervisor forget the current job of a URI. -/
def Event.drops (uri : Text) : Event → Bool
  | .forgotten other => other = uri
  | .shutdown => true
  | _ => false

/-- The unit that an event leaves unfinished, if it leaves one. -/
def Event.left : Event → List (Text × Bytes)
  | .unwritten _ _ remnant => leftOf remnant
  | _ => []

/-- Whether an effect is only a line of the log or an answer. -/
def Effect.isNote : Effect → Bool
  | .log _ | .answer _ => true
  | _ => false

/-- What an event can make of a state, and with which effects. -/
inductive Transition (before : Supervisor) : Event → Supervisor → List Effect → Prop where
  -- No job is touched.
  | idle (event : Event) (workspace : Workspace) (effects : List Effect)
      (unasked : before.snapshot? event = none) (undropped : ∀ uri, event.drops uri = false)
      (quiet : ∀ effect ∈ effects, effect.isNote = true) :
      Transition before event
        { before with
          workspace := workspace
          units := before.units.withUnfinished (event.left ++ before.units.unfinished) }
        effects
  | registered (document : Nat) (found : Document)
      (present : before.workspace.document? document = some found) :
      Transition before (.requested document) (before.register document found)
        ((((before.current? found.uri).bind before.job?).map killOf).getD [] ++
          [.start (before.jobs.length + 1)])
  | launched (sequence pid : Nat) (job : Job) (found : before.job? sequence = some job)
      (pending : job.launching = true) :
      Transition before (.launched sequence pid) (before.update (job.launched pid))
        ([.launch sequence pid ((before.units.content? job.unit).getD [])] ++
          (if before.isCurrent job then [] else killOf (job.launched pid)) ++
          [.answer (.job sequence)])
  -- A launch fails as the supervisor expects.
  | refused (sequence : Nat) (failure : Failure) (kept : Option SystemFault) (job : Job)
      (found : before.job? sequence = some job) (pending : job.launching = true)
      (expected : (failure.isSystem || failure.isValue) = true) :
      Transition before (.launchFailed sequence failure kept)
        ((before.update { job.unlaunched with state := .idle }).retire job kept)
        ([.launchFailed sequence failure, .log (.launchFailed job.uri failure)] ++
          before.logKept job kept ++ [.answer .nothing])
  -- A launch fails as the supervisor does not expect.
  | broken (sequence : Nat) (failure : Failure) (kept : Option SystemFault) (job : Job)
      (found : before.job? sequence = some job) (pending : job.launching = true)
      (unexpected : (failure.isSystem || failure.isValue) = false) :
      Transition before (.launchFailed sequence failure kept) (before.update job.unlaunched)
        [.launchFailed sequence failure, .answer (.raised failure)]
  -- Something becomes known about a process, but not how it ends.
  | informed (event : Event) (sequence : Nat) (job : Job) (old new : ProcessHandle)
      (about : (∃ status, event = .exited sequence status) ∨ event = .vanished sequence)
      (found : before.job? sequence = some job) (started : job.handle = some old)
      (ending : new.ending = old.ending) (read : new.waited = old.waited)
      (result : new.result = old.result) :
      Transition before event (before.update { job with handle := some new }) []
  | settled (sequence : Nat) (ending : Ending) (refusals : Refusals)
      (kept : Option SystemFault) (job : Job) (handle : ProcessHandle)
      (result : Except Failure ProcessResult) (found : before.job? sequence = some job)
      (started : job.handle = some handle) (running : handle.ending = none)
      (gave : (handle.finish ending).result = some result) :
      Transition before (.ended sequence ending refusals kept)
        ((before.update (before.settled job (handle.finish ending) result)).retire job kept)
        (before.complete job (handle.finish ending) result refusals kept).2
  | forgotten (uri : Text) : Transition before (.forgotten uri) (before.forget uri) []
  | stopped : Transition before .shutdown before.stop.1 before.stop.2

theorem Transition.unchanged {supervisor : Supervisor} {event : Event}
    (unasked : supervisor.snapshot? event = none)
    (undropped : ∀ uri, event.drops uri = false) (finished : event.left = []) :
    Transition supervisor event supervisor [] := by
  have moved := Transition.idle event supervisor.workspace [] unasked undropped
    (fun _ member => by simp at member)
  rw [finished] at moved
  exact moved

/-- A process that has not ended gives its result once it ends, since its output is read. -/
theorem result_of_finish {job : Job} (stage : job.Stage) (handle : ProcessHandle)
    (started : job.handle = some handle) (running : handle.ending = none) (ending : Ending) :
    (handle.finish ending).result = some ending.result := by
  -- Of the stages with a process, only the supervised one has a process that has not ended.
  cases stage with
  | launching _ unstarted _ | unlaunched _ unstarted _ => simp [started] at unstarted
  | settled other _ has ended _ =>
    cases started.symm.trans has
    simp [running] at ended
  | supervised other _ has read _ unsettled _ =>
    cases started.symm.trans has
    cases ending <;>
      simp [ProcessHandle.finish, ProcessHandle.settle, read, running, unsettled, Ending.result]

theorem finish_eq_complete (supervisor : Supervisor) (sequence : Nat) (job : Job)
    (handle : ProcessHandle) (result : Except Failure ProcessResult) (ending : Ending)
    (refusals : Refusals) (kept : Option SystemFault)
    (found : supervisor.job? sequence = some job) (started : job.handle = some handle)
    (running : handle.ending = none) (gave : (handle.finish ending).result = some result) :
    supervisor.finish sequence ending refusals kept =
      supervisor.complete job (handle.finish ending) result refusals kept := by
  simp only [finish, found, started, running, Option.isSome_none, Bool.false_eq_true, if_false,
    gave]

theorem transition_launch (supervisor : Supervisor) (sequence pid : Nat) :
    Transition supervisor (.launched sequence pid) (supervisor.launch sequence pid).1
      (supervisor.launch sequence pid).2 := by
  cases found : supervisor.job? sequence with
  | none =>
    simp only [launch, found]
    exact .unchanged rfl (fun _ => rfl) rfl
  | some job =>
    by_cases pending : job.launching = true
    · simp only [launch, found, pending, if_true]
      exact .launched sequence pid job found pending
    · simp only [launch, found, pending, Bool.false_eq_true, if_false]
      exact .unchanged rfl (fun _ => rfl) rfl

theorem transition_failLaunch (supervisor : Supervisor) (sequence : Nat) (failure : Failure)
    (kept : Option SystemFault) :
    Transition supervisor (.launchFailed sequence failure kept)
      (supervisor.failLaunch sequence failure kept).1
      (supervisor.failLaunch sequence failure kept).2 := by
  cases found : supervisor.job? sequence with
  | none =>
    simp only [failLaunch, found]
    exact .unchanged rfl (fun _ => rfl) rfl
  | some job =>
    by_cases pending : job.launching = true
    · by_cases expected : (failure.isSystem || failure.isValue) = true
      · simp only [failLaunch, found, pending, expected, if_true]
        exact .refused sequence failure kept job found pending expected
      · simp only [failLaunch, found, pending, expected, if_true, Bool.false_eq_true, if_false]
        exact .broken sequence failure kept job found pending (by simpa using expected)
    · simp only [failLaunch, found, pending, Bool.false_eq_true, if_false]
      exact .unchanged rfl (fun _ => rfl) rfl

theorem transition_updateHandle (supervisor : Supervisor) (event : Event) (sequence : Nat)
    (change : ProcessHandle → ProcessHandle)
    (about : (∃ status, event = .exited sequence status) ∨ event = .vanished sequence)
    (ending : ∀ handle, (change handle).ending = handle.ending)
    (read : ∀ handle, (change handle).waited = handle.waited)
    (result : ∀ handle, (change handle).result = handle.result) :
    Transition supervisor event (supervisor.updateHandle sequence change) [] := by
  have unasked : supervisor.snapshot? event = none := by
    rcases about with ⟨status, rfl⟩ | rfl <;> rfl
  have undropped : ∀ uri, event.drops uri = false := by
    intro uri
    rcases about with ⟨status, rfl⟩ | rfl <;> rfl
  have finished : event.left = [] := by
    rcases about with ⟨status, rfl⟩ | rfl <;> rfl
  cases found : supervisor.job? sequence with
  | none =>
    simp only [updateHandle, found]
    exact .unchanged unasked undropped finished
  | some job =>
    cases started : job.handle with
    | none =>
      simp only [updateHandle, found, started]
      exact .unchanged unasked undropped finished
    | some handle =>
      simp only [updateHandle, found, started]
      exact .informed event sequence job handle _ about found started (ending handle)
        (read handle) (result handle)

theorem transition_finish (supervisor : Supervisor) (sound : supervisor.WellFormed)
    (sequence : Nat) (ending : Ending) (refusals : Refusals) (kept : Option SystemFault) :
    Transition supervisor (.ended sequence ending refusals kept)
      (supervisor.finish sequence ending refusals kept).1
      (supervisor.finish sequence ending refusals kept).2 := by
  cases found : supervisor.job? sequence with
  | none =>
    simp only [finish, found]
    exact .unchanged rfl (fun _ => rfl) rfl
  | some job =>
    cases started : job.handle with
    | none =>
      simp only [finish, found, started]
      exact .unchanged rfl (fun _ => rfl) rfl
    | some handle =>
      cases running : handle.ending with
      | some _ =>
        simp only [finish, found, started, running, Option.isSome_some, if_true]
        exact .unchanged rfl (fun _ => rfl) rfl
      | none =>
        have stage := sound.stage found
        have gave := result_of_finish stage handle started running ending
        rw [finish_eq_complete supervisor sequence job handle ending.result ending refusals kept
          found started running gave]
        have moved := Transition.settled sequence ending refusals kept job handle _ found started
          running gave
        rw [complete_eq] at moved ⊢
        exact moved

theorem isNote_logRefused (supervisor : Supervisor) (own : Text) (kept : Option SystemFault)
    (effect : Effect) (member : effect ∈ supervisor.logRefused own kept) :
    effect.isNote = true := by
  cases kept with
  | none => cases member
  | some fault =>
    rw [List.mem_singleton.mp member]
    rfl

theorem isNote_abort (uri : Text) (failure : Failure) (effect : Effect)
    (member : effect ∈ abort uri failure) : effect.isNote = true := by
  unfold abort at member
  split at member
  · simp only [List.mem_cons, List.not_mem_nil, or_false] at member
    rcases member with rfl | rfl <;> rfl
  · rw [List.mem_singleton.mp member]
    rfl

theorem isNote_failWrite (supervisor : Supervisor) (uri : Text) (failure : Failure)
    (remnant : Option Remnant) (effect : Effect)
    (member : effect ∈ (supervisor.failWrite uri failure remnant).2) : effect.isNote = true := by
  rw [failWrite_eq] at member
  rcases List.mem_append.mp member with logged | replied
  · cases remnant with
    | none => cases logged
    | some remnant => exact isNote_logRefused supervisor _ _ effect logged
  · exact isNote_abort uri failure effect replied

/-- A snapshot that cannot be taken is noted, and changes the unfinished units only. -/
theorem transition_failWrite (supervisor : Supervisor) (uri : Text) (failure : Failure)
    (remnant : Option Remnant) :
    Transition supervisor (.unwritten uri failure remnant)
      (supervisor.failWrite uri failure remnant).1
      (supervisor.failWrite uri failure remnant).2 := by
  have quiet := isNote_failWrite supervisor uri failure remnant
  rw [failWrite_eq] at quiet ⊢
  exact .idle _ supervisor.workspace _ rfl (fun _ => rfl) quiet

theorem transition (supervisor : Supervisor) (sound : supervisor.WellFormed) (event : Event) :
    Transition supervisor event (supervisor.step event).1 (supervisor.step event).2 := by
  cases event with
  | opened document =>
    exact .idle _ (supervisor.workspace.put document) [] rfl (fun _ => rfl) (by simp)
  | loaded document =>
    exact .idle _ (supervisor.workspace.add document) [] rfl (fun _ => rfl) (by simp)
  | edited document version text =>
    exact .idle _ (supervisor.workspace.edit document version text) [] rfl (fun _ => rfl) (by simp)
  | closed uri => exact .idle _ (supervisor.workspace.close uri) [] rfl (fun _ => rfl) (by simp)
  | requested document =>
    cases present : supervisor.workspace.document? document with
    | none =>
      simp only [step, request, present]
      exact .unchanged present (fun _ => rfl) rfl
    | some found =>
      simp only [step, request, present]
      exact .registered document found present
  | unwritten uri failure remnant => exact transition_failWrite supervisor uri failure remnant
  | launched sequence pid => exact transition_launch supervisor sequence pid
  | launchFailed sequence failure kept =>
    exact transition_failLaunch supervisor sequence failure kept
  | exited sequence status =>
    exact transition_updateHandle supervisor _ sequence (·.exit status) (Or.inl ⟨status, rfl⟩)
      (fun _ => rfl) (fun _ => rfl) (fun _ => rfl)
  | vanished sequence =>
    exact transition_updateHandle supervisor _ sequence (·.vanish) (Or.inr rfl)
      (fun _ => rfl) (fun _ => rfl) (fun _ => rfl)
  | ended sequence ending refusals kept =>
    exact transition_finish supervisor sound sequence ending refusals kept
  | forgotten uri => exact .forgotten uri
  | shutdown => exact .stopped

/-! ### Jobs over one event -/

theorem job?_update_of_found (supervisor : Supervisor) (sequence : Nat) (old new : Job)
    (found : supervisor.job? sequence = some old) (turns : old.Becomes new) (other : Nat) :
    (supervisor.update new).job? other =
      if other = sequence then some new else supervisor.job? other := by
  have named : new.sequence = sequence :=
    turns.sequence.trans (sequence_of_job? supervisor sequence old found)
  rw [job?_update, named]
  by_cases same : other = sequence
  · simp [same, found]
  · simp [same]

/-- A job that is there once another was put in its place is that one, or was there before. -/
theorem job?_update_cases (supervisor : Supervisor) (sequence : Nat) (old new : Job)
    (found : supervisor.job? sequence = some old) (turns : old.Becomes new) {other : Nat}
    {job : Job} (looked : (supervisor.update new).job? other = some job) :
    other = sequence ∧ job = new ∨ other ≠ sequence ∧ supervisor.job? other = some job := by
  rw [job?_update_of_found supervisor sequence old new found turns] at looked
  split at looked
  next same =>
    cases looked
    exact Or.inl ⟨same, rfl⟩
  next different => exact Or.inr ⟨different, looked⟩

theorem becomes_update (supervisor : Supervisor) (sequence : Nat) (old new : Job)
    (found : supervisor.job? sequence = some old) (turns : old.Becomes new) (other : Nat)
    (job : Job) (present : supervisor.job? other = some job) :
    ∃ next, (supervisor.update new).job? other = some next ∧ job.Becomes next := by
  rw [job?_update_of_found supervisor sequence old new found turns]
  by_cases same : other = sequence
  · have equal : old = job := by simpa [same, found] using present
    exact ⟨new, by simp [same], equal ▸ turns⟩
  · exact ⟨job, by simp [same, present], .refl job⟩

theorem becomes_launched (job : Job) (pid : Nat) (pending : job.launching = true) :
    job.Becomes (job.launched pid) :=
  .of_active (job.isActive_of_launching pending) rfl rfl rfl rfl (fun _ => rfl) (fun _ => rfl)

theorem becomes_unlaunched (job : Job) (state : JobState) (pending : job.launching = true) :
    job.Becomes { job.unlaunched with state := state } :=
  .of_active (job.isActive_of_launching pending) rfl rfl rfl rfl (fun _ => rfl) id

theorem becomes_informed (job : Job) (old new : ProcessHandle) (started : job.handle = some old)
    (ending : new.ending = old.ending) : job.Becomes { job with handle := some new } := by
  have awaited : ({ job with handle := some new } : Job).isActive = job.isActive := by
    simp [Job.isActive, Job.isSupervised, started, ending]
  exact ⟨rfl, rfl, rfl, rfl, id, fun _ => rfl, fun past => awaited.trans past,
    fun _ => ⟨rfl, rfl⟩⟩

theorem becomes_settled (supervisor : Supervisor) (job : Job) (old new : ProcessHandle)
    (result : Except Failure ProcessResult) (started : job.handle = some old)
    (running : old.ending = none) : job.Becomes (supervisor.settled job new result) := by
  have supervised := job.isSupervised_iff.mpr ⟨old, started, running⟩
  exact .of_active (job.isActive_of_supervised supervised) rfl rfl rfl rfl id (fun _ => rfl)

/-- What an event makes of the jobs: nothing, or one more, or one of them goes on. -/
theorem Transition.jobs {before after : Supervisor} {event : Event} {effects : List Effect}
    (moved : Transition before event after effects) :
    after.jobs = before.jobs ∨
      (∃ document asked, event = .requested document ∧
        before.workspace.document? document = some asked ∧
        after = before.register document asked) ∨
      ∃ key old new, before.job? key = some old ∧ old.Becomes new ∧
        after.jobs = (before.update new).jobs := by
  cases moved with
  | idle | forgotten | stopped => exact Or.inl rfl
  | registered document asked present =>
    exact Or.inr (Or.inl ⟨document, asked, rfl, present, rfl⟩)
  | launched key pid old present pending =>
    exact Or.inr (Or.inr ⟨key, old, _, present, becomes_launched old pid pending, rfl⟩)
  | refused key failure kept old present pending =>
    exact Or.inr (Or.inr ⟨key, old, _, present, becomes_unlaunched old .idle pending, rfl⟩)
  | broken key failure kept old present pending =>
    exact Or.inr (Or.inr ⟨key, old, _, present, becomes_unlaunched old old.state pending, rfl⟩)
  | informed _ key old earlier later about present started ending =>
    exact Or.inr (Or.inr
      ⟨key, old, _, present, becomes_informed old earlier later started ending, rfl⟩)
  | settled key ending refusals kept old handle result present started running =>
    exact Or.inr (Or.inr
      ⟨key, old, _, present, becomes_settled before old handle _ result started running, rfl⟩)

theorem job?_of_jobs {first second : Supervisor} (jobs : first.jobs = second.jobs)
    (sequence : Nat) : first.job? sequence = second.job? sequence := by
  rw [job?, job?, jobs]

/-- A job once registered stays, and only changes as jobs do. -/
theorem Transition.becomes {before after : Supervisor} {event : Event} {effects : List Effect}
    (moved : Transition before event after effects) (sound : before.WellFormed) (sequence : Nat)
    (job : Job) (found : before.job? sequence = some job) :
    ∃ next, after.job? sequence = some next ∧ job.Becomes next := by
  rcases moved.jobs with same | ⟨document, asked, _, _, rfl⟩ | ⟨key, old, new, present, turns, jobs⟩
  · exact ⟨job, (job?_of_jobs same sequence).trans found, .refl job⟩
  · have bound := sound.job?_le found
    have old : ¬ sequence = before.jobs.length + 1 := by omega
    exact ⟨job, by rw [sound.job?_register, if_neg old, found], .refl job⟩
  · rw [job?_of_jobs jobs]
    exact becomes_update before key old new present turns sequence job found

/-! ### States stay well formed -/

/-- One job is replaced, and the table only loses entries. -/
theorem WellFormed.replace {before after : Supervisor} (sound : before.WellFormed)
    (sequence : Nat) (old new : Job) (found : before.job? sequence = some old)
    (turns : old.Becomes new) (stage : new.Stage) (jobs : after.jobs = (before.update new).jobs)
    (made : after.units.made = before.units.made) (unique : (after.table.map Prod.fst).Nodup)
    (shrinks : ∀ uri key, after.current? uri = some key → before.current? uri = some key)
    (running : ∀ uri, after.current? uri = some sequence → new.state = .running) :
    after.WellFormed := by
  have member := mem_of_job? before sequence old found
  have same {α : Type} (view : Job → α) (agree : view new = view old) :
      after.jobs.map view = before.jobs.map view := by
    rw [jobs]
    exact map_update before old new view sound.distinct member turns.sequence agree
  have present : ∀ job ∈ after.jobs, job = new ∨ job ∈ before.jobs := by
    -- The old job is gone from the list, but nothing below needs that.
    intro job listed
    rw [jobs] at listed
    exact (mem_update before new job listed).imp_right And.left
  have length : after.jobs.length = before.jobs.length := by simp [jobs]
  refine ⟨?_, ?_, unique, ?_, ?_, ?_, ?_⟩
  · rw [same Job.sequence turns.sequence, length]
    exact sound.numbered
  · rw [made, length]
    exact sound.counted
  · intro job listed
    rcases present job listed with rfl | kept
    · exact stage
    · exact sound.staged job kept
  · intro job listed
    rcases present job listed with rfl | kept
    · rw [turns.unit, turns.sequence]
      exact sound.owned old member
    · exact sound.owned job kept
  · intro uri key current
    obtain ⟨job, tracked, named, state⟩ := sound.tracked uri key (shrinks uri key current)
    have looked : after.job? key = if key = sequence then some new else before.job? key := by
      rw [← job?_update_of_found before sequence old new found turns]
      simp [job?, jobs]
    by_cases mine : key = sequence
    · subst mine
      have equal : old = job := by simpa [found] using tracked
      exact ⟨new, by simp [looked], by rw [turns.uri, equal, named], running uri current⟩
    · exact ⟨job, by simp [looked, mine, tracked], named, state⟩
  · intro uri key current job listed named
    rcases present job listed with rfl | kept
    · rw [turns.sequence]
      exact sound.newest uri key (shrinks uri key current) old member
        (turns.uri.symm.trans named)
    · exact sound.newest uri key (shrinks uri key current) job kept named

/-- The table only loses entries, and no job is touched. -/
theorem WellFormed.shrink {before after : Supervisor} (sound : before.WellFormed)
    (jobs : after.jobs = before.jobs) (made : after.units.made = before.units.made)
    (unique : (after.table.map Prod.fst).Nodup)
    (shrinks : ∀ uri key, after.current? uri = some key → before.current? uri = some key) :
    after.WellFormed where
  numbered := by rw [jobs, sound.numbered]
  counted := by rw [made, jobs, sound.counted]
  unique := unique
  staged := by rw [jobs]; exact sound.staged
  owned := by rw [jobs]; exact sound.owned
  tracked uri key current := by
    simpa [job?, jobs] using sound.tracked uri key (shrinks uri key current)
  newest uri key current := by
    rw [jobs]
    exact sound.newest uri key (shrinks uri key current)

theorem WellFormed.register {before : Supervisor} (sound : before.WellFormed) (document : Nat)
    (found : Document) : (before.register document found).WellFormed := by
  let job : Job :=
    { sequence := before.jobs.length + 1, uri := found.uri, document := document,
      unit := before.units.made + 1 }
  have jobs : (before.register document found).jobs = before.jobs ++ [job] := rfl
  have listed : ∀ other ∈ (before.register document found).jobs,
      other ∈ before.jobs ∨ other = job := by
    intro other member
    simpa [jobs] using member
  refine ⟨?_, ?_, ?_, ?_, ?_, ?_, ?_⟩
  · rw [jobs, List.map_append, sound.numbered, List.length_append, List.length_singleton,
      List.range'_concat]
    simp [job, Nat.add_comm]
  · rw [jobs, List.length_append, ← sound.counted]
    rfl
  · exact nodup_enter found.uri _ before.table sound.unique
  · intro other member
    rcases listed other member with old | rfl
    · exact sound.staged other old
    · exact .launching rfl rfl rfl
  · intro other member
    rcases listed other member with old | rfl
    · exact sound.owned other old
    · simp [job, sound.counted]
  · intro uri key current
    rw [current?_register] at current
    rw [sound.job?_register]
    split at current
    next same =>
      cases current
      exact ⟨_, if_pos rfl, same.symm, rfl⟩
    next elsewhere =>
      have bound := sound.current?_le current
      rw [if_neg (by omega)]
      exact sound.tracked uri key current
  · intro uri key current other member named
    rw [current?_register] at current
    rcases listed other member with old | rfl
    · have bound := sound.sequence_le old
      -- The new job has the largest number of all, so an older one is below it.
      split at current
      · cases current
        omega
      · exact sound.newest uri key current other old named
    · rw [if_pos named.symm] at current
      cases current
      exact Nat.le_refl _

theorem unique_retire (supervisor : Supervisor) (job : Job) (kept : Option SystemFault)
    (unique : (supervisor.table.map Prod.fst).Nodup) :
    ((supervisor.retire job kept).table.map Prod.fst).Nodup :=
  unique.sublist ((sublist_retire supervisor job kept).map Prod.fst)

theorem made_retire (supervisor : Supervisor) (job : Job) (kept : Option SystemFault) :
    (supervisor.retire job kept).units.made = supervisor.units.made := by
  rw [retire_units]
  split <;> rfl

/-- A retired job is not the current one of any URI. -/
theorem current?_retire_ne (supervisor : Supervisor) (sound : supervisor.WellFormed)
    (job : Job) (member : job ∈ supervisor.jobs) (kept : Option SystemFault) (uri : Text) :
    (supervisor.retire job kept).current? uri ≠ some job.sequence := by
  intro current
  rw [current?_retire] at current
  split at current
  · cases current
  next different =>
    obtain ⟨other, found, named, _⟩ := sound.tracked uri job.sequence current
    rw [sound.job?_of_mem member] at found
    cases found
    exact different ⟨named.symm, named ▸ current⟩

theorem current?_retire_update_ne (supervisor : Supervisor) (sound : supervisor.WellFormed)
    (old new : Job) (member : old ∈ supervisor.jobs) (kept : Option SystemFault) (uri : Text) :
    ((supervisor.update new).retire old kept).current? uri ≠ some old.sequence := by
  intro current
  have stays := current?_retire_ne supervisor sound old member kept uri
  rw [current?_retire] at stays current
  exact stays current

/-- Putting a job in its place and retiring it makes no job current. -/
theorem current?_of_retire {supervisor : Supervisor} {old new : Job} {kept : Option SystemFault}
    {uri : Text} {sequence : Nat}
    (current : ((supervisor.update new).retire old kept).current? uri = some sequence) :
    supervisor.current? uri = some sequence := by
  rw [current?_retire] at current
  split at current
  · cases current
  · exact current

/-- A job that is no longer active is put in its place and retired. -/
theorem WellFormed.retire {before : Supervisor} (sound : before.WellFormed) (sequence : Nat)
    (old new : Job) (found : before.job? sequence = some old) (turns : old.Becomes new)
    (stage : new.Stage) (kept : Option SystemFault) :
    ((before.update new).retire old kept).WellFormed := by
  have member := mem_of_job? before sequence old found
  refine sound.replace sequence old new found turns stage rfl ?_ ?_ ?_ ?_
  · exact made_retire _ _ _
  · exact unique_retire (before.update new) old kept sound.unique
  · intro uri key current
    exact current?_of_retire current
  · intro uri current
    rw [← sequence_of_job? before sequence old found] at current
    exact absurd current (current?_retire_update_ne before sound old new member kept uri)

theorem current?_empty (supervisor : Supervisor) (uri : Text) :
    ({ supervisor with table := [] } : Supervisor).current? uri = none := rfl

theorem ending_finish (handle : ProcessHandle) (ending : Ending)
    (running : handle.ending = none) : (handle.finish ending).ending = some ending := by
  simp only [ProcessHandle.finish, running, ProcessHandle.settle]
  split <;> rfl

/-- A settled job is not active. -/
theorem inactive_settled (supervisor : Supervisor) {job : Job} (stage : job.Stage)
    (handle : ProcessHandle) (ending : Ending) (result : Except Failure ProcessResult)
    (started : job.handle = some handle) (running : handle.ending = none) :
    (supervisor.settled job (handle.finish ending) result).isActive = false := by
  simp [Job.isActive, Job.isSupervised, settled, stage.past_of_started handle started,
    ending_finish handle ending running]

/-- A job whose document is not live, or that is not current, ends obsolete and delivers nothing. -/
theorem verdict_of_dropped (supervisor : Supervisor) (job : Job) (pid : Nat)
    (result : Except Failure ProcessResult) (reason : LogEntry)
    (dropped : supervisor.dropReason? job = some reason) :
    (supervisor.verdict job pid result).state = .obsolete ∧
      (supervisor.verdict job pid result).outcome = none := by
  cases result <;> simp [verdict, resultVerdict, crashVerdict, dropped]

/-- Any other job ends completed or failed and delivers an outcome. -/
theorem verdict_of_latest (supervisor : Supervisor) (job : Job) (pid : Nat)
    (result : Except Failure ProcessResult) (latest : supervisor.dropReason? job = none) :
    ((supervisor.verdict job pid result).state = .completed ∨
      (supervisor.verdict job pid result).state = .failed) ∧
      ∃ outcome, (supervisor.verdict job pid result).outcome = some outcome := by
  cases result with
  | error failure => simp [verdict, crashVerdict, latest]
  | ok result =>
    -- A status that tells of a failure, a faulty report, a number that is too long, or records.
    simp only [verdict, resultVerdict, latest]
    split
    · exact ⟨Or.inr rfl, _, rfl⟩
    · split
      · exact ⟨Or.inr rfl, _, rfl⟩
      · simp [crashVerdict, latest]
      · exact ⟨Or.inl rfl, _, rfl⟩

theorem verdict_final (supervisor : Supervisor) (job : Job) (pid : Nat)
    (result : Except Failure ProcessResult) :
    (supervisor.verdict job pid result).state = .completed ∨
      (supervisor.verdict job pid result).state = .failed ∨
      (supervisor.verdict job pid result).state = .obsolete := by
  cases reason : supervisor.dropReason? job with
  | none =>
    rcases (verdict_of_latest supervisor job pid result reason).1 with done | failed
    · exact Or.inl done
    · exact Or.inr (Or.inl failed)
  | some cause =>
    exact Or.inr (Or.inr (verdict_of_dropped supervisor job pid result cause reason).1)

/-- Settling a job writes notes and hands over no outcome but that of its verdict. -/
theorem mem_complete (supervisor : Supervisor) (job : Job) (handle : ProcessHandle)
    (result : Except Failure ProcessResult) (refusals : Refusals) (kept : Option SystemFault)
    (effect : Effect) (member : effect ∈ (supervisor.complete job handle result refusals kept).2) :
    effect.isNote = true ∨
      ∃ outcome refusal, effect = .report job.sequence outcome refusal ∧
        (supervisor.verdict job handle.pid result).outcome = some outcome := by
  simp only [complete_eq, List.mem_append, List.mem_map] at member
  rcases member with (⟨entry, _, rfl⟩ | logged) | delivered
  · exact Or.inl rfl
  · exact Or.inl (isNote_logRefused supervisor _ _ effect logged)
  · cases outcome : (supervisor.verdict job handle.pid result).outcome with
    | none => simp [outcome] at delivered
    | some value =>
      simp only [outcome, Option.map_some, Option.getD_some, deliver] at delivered
      split at delivered
      · rw [List.mem_singleton.mp delivered]
        exact Or.inr ⟨value, none, rfl, rfl⟩
      next failure _ =>
        simp only [List.mem_cons, List.not_mem_nil, or_false] at delivered
        rcases delivered with rfl | rfl
        · exact Or.inr ⟨value, some failure, rfl, rfl⟩
        · exact Or.inl rfl

theorem Transition.wellFormed {before after : Supervisor} {event : Event} {effects : List Effect}
    (moved : Transition before event after effects) (sound : before.WellFormed) :
    after.WellFormed := by
  cases moved with
  | idle => exact sound.shrink rfl rfl sound.unique (fun _ _ current => current)
  | registered document held present => exact sound.register document held
  | launched sequence pid job found pending =>
    have state := (sound.stage found).running_of_active
      (job.isActive_of_launching pending)
    exact sound.replace sequence job _ found (becomes_launched job pid pending)
      (.supervised _ rfl rfl rfl rfl rfl state) rfl rfl sound.unique (fun _ _ current => current)
      (fun _ _ => state)
  | refused sequence failure kept job found pending expected =>
    have unstarted := (sound.stage found).unstarted_of_launching pending
    exact sound.retire sequence job _ found (becomes_unlaunched job .idle pending)
      (.unlaunched rfl unstarted (Or.inl rfl)) kept
  | broken sequence failure kept job found pending unexpected =>
    have stage := sound.stage found
    have state := stage.running_of_active (job.isActive_of_launching pending)
    exact sound.replace sequence job _ found (becomes_unlaunched job job.state pending)
      (.unlaunched rfl (stage.unstarted_of_launching pending) (Or.inr state)) rfl rfl sound.unique
      (fun _ _ current => current) (fun _ _ => state)
  | informed event sequence job old new about found started ending read result =>
    have stage : ({ job with handle := some new } : Job).Stage := by
      cases sound.stage found with
      | launching _ unstarted _ | unlaunched _ unstarted _ => simp [started] at unstarted
      | supervised handle past has reads running unsettled state =>
        cases started.symm.trans has
        exact .supervised new past rfl (read.trans reads) (ending.trans running)
          (result.trans unsettled) state
      | settled handle past has ended state =>
        cases started.symm.trans has
        exact .settled new past rfl (by rw [ending]; exact ended) state
    refine sound.replace sequence job _ found (becomes_informed job old new started ending) stage
      rfl rfl sound.unique (fun _ _ current => current) ?_
    intro uri current
    obtain ⟨other, tracked, _, state⟩ := sound.tracked uri sequence current
    cases found.symm.trans tracked
    exact state
  | settled sequence ending refusals kept job handle result found started running gave =>
    -- Whatever the verdict, its state is final and the process has ended: the last stage.
    have past := (sound.stage found).past_of_started handle started
    have ended : (handle.finish ending).ending.isSome := by
      rw [ending_finish handle ending running]
      rfl
    exact sound.retire sequence job _ found
      (becomes_settled before job handle _ result started running)
      (.settled _ past rfl ended (verdict_final before job _ result)) kept
  | forgotten uri =>
    refine sound.shrink rfl rfl ?_ ?_
    · exact sound.unique.sublist (List.filter_sublist.map Prod.fst)
    · intro other key current
      rw [current?_forget] at current
      split at current
      · cases current
      · exact current
  | stopped => exact sound.shrink rfl rfl List.nodup_nil (fun _ _ current => by cases current)

theorem WellFormed.step {supervisor : Supervisor} (sound : supervisor.WellFormed)
    (event : Event) : (supervisor.step event).1.WellFormed :=
  (transition supervisor sound event).wellFormed sound

end Supervisor

end FormWatch
