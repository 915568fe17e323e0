import FormWatch.Proofs.Supervisor.Containment

/-!
What a failed launch leaves behind. A job that is neither launching nor has a process is inert:
nothing that happens changes it or its unit, and only a newer request, being forgotten or the end
takes it off the table (`beside_run`). A launch that fails as the supervisor expects withdraws its
job before that, and so for good; one that fails in any other way leaves the job running, with its
unit and its place in the table (`traces_of_failed_launch`).
-/

namespace FormWatch.Supervisor

/-! ### Inert jobs -/

section

variable {supervisor : Supervisor} {sequence : Nat} {job : Job}

/-- An event about a job that neither launches nor has a process changes nothing. -/
theorem step_of_inert (found : supervisor.job? sequence = some job)
    (past : job.launching = false) (unstarted : job.handle = none) (event : Event)
    (about : event.job? = some sequence) : supervisor.step event = (supervisor, []) := by
  cases event with
  | launched key pid =>
    cases about
    simp only [step, launch, found, past, Bool.false_eq_true, if_false]
  | launchFailed key failure kept =>
    cases about
    simp only [step, failLaunch, found, past, Bool.false_eq_true, if_false]
  | exited key status =>
    cases about
    simp only [step, updateHandle, found, unstarted]
  | vanished key =>
    cases about
    simp only [step, updateHandle, found, unstarted]
  | ended key ending refusals kept =>
    cases about
    simp only [step, finish, found, unstarted]
  | opened | loaded | edited | closed | requested | unwritten | forgotten | shutdown => cases about

theorem beside_of_inert (sound : supervisor.WellFormed)
    (found : supervisor.job? sequence = some job) (past : job.launching = false)
    (unstarted : job.handle = none) (event : Event) :
    Beside supervisor (supervisor.step event).1 sequence job
      (supervisor.Displaces event job.uri) := by
  by_cases about : event.job? = some sequence
  · rw [step_of_inert found past unstarted event about]
    have stays := not_displaces_of_job supervisor event sequence about job.uri
    exact ⟨found, rfl, by rw [and_iff_left stays]⟩
  · exact beside_step supervisor sound event sequence job found about

/-- An inert job stays as it is with its unit, and stays current until its URI is asked for or
dropped. -/
theorem beside_run (sound : supervisor.WellFormed) (found : supervisor.job? sequence = some job)
    (past : job.launching = false) (unstarted : job.handle = none) (events : List Event) :
    Beside supervisor (supervisor.run events).1 sequence job
      (¬ supervisor.Undisturbed job.uri events) := by
  induction events using List.reverseRecOn with
  | nil =>
    have calm : supervisor.Undisturbed job.uri [] := ⟨by simp [snapshots], by simp, by simp⟩
    exact ⟨found, rfl, by simp [run, calm]⟩
  | append_singleton events event ih =>
    have reached := wellFormed_run supervisor sound events
    have last := beside_of_inert reached ih.found past unstarted event
    have stepped : (supervisor.run (events ++ [event])).1 =
        ((supervisor.run events).1.step event).1 := by simp [run_append, run]
    rw [stepped]
    refine ⟨last.found, last.unit.trans ih.unit, ?_⟩
    rw [last.current, ih.current, undisturbed_concat, and_assoc, not_not, not_not, Displaces, not_or,
      not_exists, Bool.not_eq_true]
    simp only [not_and, ne_eq]

end

/-! ### Failed launches -/

/-- What a launch that fails in a way that the supervisor does not expect does. -/
theorem step_broken (supervisor : Supervisor) (sequence : Nat) (job : Job)
    (found : supervisor.job? sequence = some job) (pending : job.launching = true)
    (failure : Failure) (unexpected : (failure.isSystem || failure.isValue) = false)
    (kept : Option SystemFault) :
    supervisor.step (.launchFailed sequence failure kept) =
      (supervisor.update job.unlaunched,
        [.launchFailed sequence failure, .answer (.raised failure)]) := by
  simp only [step, failLaunch, found, pending, unexpected, if_true, Bool.false_eq_true, if_false]

/-- A job whose launch fails as expected is off the table for good, idle without a process, and its
unit is gone unless the system keeps it. -/
theorem withdrawn_run (supervisor : Supervisor) (sound : supervisor.WellFormed) (sequence : Nat)
    (job : Job) (found : supervisor.job? sequence = some job) (pending : job.launching = true)
    (failure : Failure) (expected : (failure.isSystem || failure.isValue) = true)
    (kept : Option SystemFault) (more : List Event) :
    let last := (supervisor.run (.launchFailed sequence failure kept :: more)).1
    (∃ job, last.job? sequence = some job ∧ job.state = .idle ∧ job.handle = none) ∧
    (∀ uri, last.current? uri ≠ some sequence) ∧
    (kept = none → last.units.content? sequence = none) := by
  intro last
  have next := sound.step (.launchFailed sequence failure kept)
  have withdrawn := withdrawn_of_refused supervisor sound sequence job found pending failure
    expected kept
  have unstarted := (sound.stage found).unstarted_of_launching pending
  let idle : Job := { job.unlaunched with state := .idle }
  have inert : (supervisor.step (.launchFailed sequence failure kept)).1.job? sequence =
      some idle := by
    rw [step_refused supervisor sequence job found pending failure expected kept, job?_retire,
      job?_update_of_found _ sequence job idle found (becomes_unlaunched job .idle pending),
      if_pos rfl]
  have beside := beside_run next inert rfl unstarted more
  refine ⟨⟨idle, beside.found, rfl, unstarted⟩, ?_, ?_⟩
  · intro uri
    exact displaced_run _ next uri sequence idle inert (withdrawn.untabled uri) more
  · rintro rfl
    have stays := beside.unit
    rw [next.unit_of_job? inert] at stays
    exact stays.trans (unit_of_refused supervisor sound sequence job found pending failure expected)

/-- A job whose launch fails in any other way stays as it is for good, running without a process;
its unit stays, and so does its place in the table until its URI is asked for or dropped. -/
theorem stranded_run (supervisor : Supervisor) (sound : supervisor.WellFormed) (sequence : Nat)
    (job : Job) (found : supervisor.job? sequence = some job) (pending : job.launching = true)
    (failure : Failure) (unexpected : (failure.isSystem || failure.isValue) = false)
    (kept : Option SystemFault) (more : List Event) :
    let last := (supervisor.run (.launchFailed sequence failure kept :: more)).1
    (∃ job, last.job? sequence = some job ∧ job.state = .running ∧ job.handle = none) ∧
    last.units.content? sequence = supervisor.units.content? sequence ∧
    (last.current? job.uri = some sequence ↔ supervisor.current? job.uri = some sequence ∧
      (supervisor.step (.launchFailed sequence failure kept)).1.Undisturbed job.uri more) := by
  intro last
  have next := sound.step (.launchFailed sequence failure kept)
  have broken := step_broken supervisor sequence job found pending failure unexpected kept
  have unstarted := (sound.stage found).unstarted_of_launching pending
  have running := (sound.stage found).running_of_active (job.isActive_of_launching pending)
  have turns : job.Becomes job.unlaunched := becomes_unlaunched job job.state pending
  have inert : (supervisor.step (.launchFailed sequence failure kept)).1.job? sequence =
      some job.unlaunched := by
    rw [broken, job?_update_of_found _ sequence job _ found turns, if_pos rfl]
  have beside := beside_run next inert rfl unstarted more
  refine ⟨⟨job.unlaunched, beside.found, running, unstarted⟩, ?_, ?_⟩
  · have stays := beside.unit
    rw [next.unit_of_job? inert] at stays
    refine stays.trans ?_
    rw [broken]
    rfl
  · -- The step that fails leaves the table alone.
    have table : (supervisor.step (.launchFailed sequence failure kept)).1.current? job.uri =
        supervisor.current? job.uri := by
      rw [broken]
      rfl
    have stays := beside.current
    rw [not_not] at stays
    rw [← table]
    exact stays

/-- A launch of a job fails, whatever has happened since it began. If it is a failure that the
supervisor expects, of the system or of a value, then from then on, whatever happens, the job is
idle without a process, it is current nowhere, and its unit is gone unless the system keeps it,
which is logged. Any other failure is passed on, and the job is left running without a process:
nothing ever ends it or removes its unit, and if it was current it stays so until its URI is asked
for again or dropped. -/
theorem traces_of_failed_launch (folder : UnitFolder) (events : List Event) (sequence : Nat)
    (job : Job) (found : (after folder events).job? sequence = some job)
    (pending : job.launching = true) (failure : Failure) (kept : Option SystemFault) :
    let failed := Event.launchFailed sequence failure kept
    ((failure.isSystem || failure.isValue) = true →
      ((after folder events).step failed).2 =
        [.launchFailed sequence failure, .log (.launchFailed job.uri failure)] ++
          (after folder events).logKept job kept ++ [.answer .nothing] ∧
      ∀ more, let last := after folder (events ++ failed :: more)
        (∃ job, last.job? sequence = some job ∧ job.state = .idle ∧ job.handle = none) ∧
        (∀ uri, last.current? uri ≠ some sequence) ∧
        (kept = none → last.units.content? sequence = none)) ∧
    ((failure.isSystem || failure.isValue) = false →
      ((after folder events).step failed).2 =
        [.launchFailed sequence failure, .answer (.raised failure)] ∧
      ∀ more, let last := after folder (events ++ failed :: more)
        (∃ job, last.job? sequence = some job ∧ job.state = .running ∧ job.handle = none) ∧
        (∃ asked, asked? folder events sequence = some asked ∧
          last.units.content? sequence = some (Utf8.encode asked.text)) ∧
        (last.current? job.uri = some sequence ↔
          (after folder events).current? job.uri = some sequence ∧
            (after folder (events ++ [failed])).Undisturbed job.uri more)) := by
  intro failed
  have sound := wellFormed_after folder events
  constructor
  · intro expected
    constructor
    · exact congrArg Prod.snd (step_refused _ sequence job found pending failure expected kept)
    · intro more
      rw [after_append]
      exact withdrawn_run _ sound sequence job found pending failure expected kept more
  · intro unexpected
    constructor
    · exact congrArg Prod.snd (step_broken _ sequence job found pending failure unexpected kept)
    · intro more
      obtain ⟨stuck, unit, current⟩ := stranded_run _ sound sequence job found pending failure
        unexpected kept more
      obtain ⟨asked, known, _, filled⟩ := (filled_after folder events).made sequence job found
      have content := filled pending
      rw [sound.unit_of_job? found] at content
      rw [after_append, after_concat]
      exact ⟨stuck, ⟨asked, known, unit.trans content⟩, current⟩

/-- A launch for which the program is missing leaves nothing behind. -/
theorem no_trace_of_missing_program :
    let folder : UnitFolder := { path := ['t'] }
    let events : List Event := [.opened ⟨['a'], some 1, ['x']⟩, .requested 0]
    let failed : Event := .launchFailed 1 (.refused .noSuchFile ['c']) none
    (after folder (events ++ [failed])).current? ['a'] ≠ some 1 ∧
      (after folder (events ++ [failed])).units.content? 1 = none := by
  intro folder events failed
  obtain ⟨expected, _⟩ := traces_of_failed_launch folder events 1
    { sequence := 1, uri := ['a'], document := 0, unit := 1 } rfl rfl (.refused .noSuchFile ['c'])
    none
  obtain ⟨_, untabled, gone⟩ := (expected rfl).2 []
  exact ⟨untabled ['a'], gone rfl⟩

/-- A launch that fails because the loop is closed leaves a job in the table, running without a
process, and its unit. -/
theorem traces_of_closed_loop :
    let folder : UnitFolder := { path := ['t'] }
    let last := after folder [.opened ⟨['a'], some 1, ['x']⟩, .requested 0,
      .launchFailed 1 (.badState "loop is closed".toList) none]
    last.current? ['a'] = some 1 ∧ (last.job? 1).map Job.state = some .running ∧
      last.units.content? 1 = some (Utf8.encode ['x']) := by
  decide +kernel

end FormWatch.Supervisor
