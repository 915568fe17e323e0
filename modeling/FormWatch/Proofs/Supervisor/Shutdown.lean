import FormWatch.Proofs.Supervisor.Kill
import FormWatch.Proofs.Supervisor.Snapshot

/-!
What the end of the supervisor leaves behind. It kills the processes of the jobs in the table and
empties the table; if nothing is asked for after that, the table stays empty, and a process that
starts late is killed at once. A job that was forgotten while its process ran is not in the table
then and is never killed: such jobs, and no others, can run on (`running_after_shutdown`).
-/

namespace FormWatch.Supervisor

/-! ### The table once nothing is asked for -/

/-- An empty table gets an entry by a request only. -/
theorem Transition.table_empty {before next : Supervisor} {event : Event} {done : List Effect}
    (moved : Transition before event next done) (empty : before.table = [])
    (unasked : ∀ document, event ≠ .requested document) : next.table = [] := by
  have retired (old new : Job) (kept : Option SystemFault) :
      ((before.update new).retire old kept).table = [] := by
    have less := sublist_retire (before.update new) old kept
    have same : (before.update new).table = [] := empty
    rw [same] at less
    exact List.sublist_nil.mp less
  cases moved with
  | idle | launched | broken | informed => exact empty
  | registered document => exact absurd rfl (unasked document)
  | refused sequence failure kept job => exact retired job _ kept
  | settled sequence ending refusals kept job => exact retired job _ kept
  | forgotten uri =>
    show before.table.filter _ = []
    rw [empty]
    rfl
  | stopped => rfl

theorem table_run_empty (supervisor : Supervisor) (sound : supervisor.WellFormed)
    (empty : supervisor.table = []) (events : List Event)
    (unasked : ∀ document, .requested document ∉ events) :
    (supervisor.run events).1.table = [] := by
  induction events generalizing supervisor with
  | nil => exact empty
  | cons event rest ih =>
    have stays := (transition supervisor sound event).table_empty empty fun document same =>
      unasked document (same ▸ List.mem_cons_self)
    exact ih _ (sound.step event) stays fun document later =>
      unasked document (List.mem_cons_of_mem event later)

/-- After the end nothing is current, as long as nothing is asked for. -/
theorem current?_after_shutdown (folder : UnitFolder) (early late : List Event)
    (unasked : ∀ document, .requested document ∉ late) (uri : Text) :
    (after folder (early ++ .shutdown :: late)).current? uri = none := by
  have sound := (wellFormed_after folder early).step .shutdown
  have empty := table_run_empty _ sound rfl late unasked
  have reached : after folder (early ++ .shutdown :: late) =
      (((after folder early).step .shutdown).1.run late).1 := after_append folder early _
  rw [reached, current?, empty]
  rfl

/-! ### Jobs that were forgotten -/

/-- A process whose job is not current is not killed any more. -/
theorem unkilled_run (supervisor : Supervisor) (sound : supervisor.WellFormed) (sequence : Nat)
    (job : Job) (found : supervisor.job? sequence = some job) (started : job.handle.isSome = true)
    (displaced : ∀ uri, supervisor.current? uri ≠ some sequence) (events : List Event) :
    sequence ∉ killed (supervisor.run events).2 := by
  induction events generalizing supervisor job with
  | nil => exact List.not_mem_nil
  | cons event rest ih =>
    have moved := transition supervisor sound event
    obtain ⟨next, later, turns⟩ := moved.becomes sound sequence job found
    rw [run, killed_append, List.mem_append, not_or]
    constructor
    · intro dead
      rcases (moved.mem_killed sound sequence dead).2.2 with ⟨uri, current⟩ | ⟨other, same, none⟩
      · exact displaced uri current
      · cases found.symm.trans same
        rw [none] at started
        cases started
    · apply ih _ (sound.step event) next later (turns.started started)
      intro uri current
      exact displaced uri (moved.current_before uri sequence (sound.job?_le found) current).1

theorem ForgottenAfterLaunch.unkilled {folder : UnitFolder} {events : List Event} {job : Job}
    (forgotten : ForgottenAfterLaunch folder events job) :
    job.sequence ∉ killed (effects folder events) := by
  obtain ⟨early, late, old, rfl, found, started, current⟩ := forgotten
  have sound := wellFormed_after folder early
  rw [effects, run_append, killed_append, List.mem_append, not_or]
  constructor
  · intro dead
    exact ((killed_effects folder early).2 job.sequence dead).2 job.uri current
  · -- The step that forgets it kills nothing, and after it the job is not current.
    apply unkilled_run _ (sound.step (.forgotten job.uri)) job.sequence old found started
    intro uri again
    have step : (after folder early).step (.forgotten job.uri) =
        ((after folder early).forget job.uri, []) := rfl
    rw [step, current?_forget] at again
    split at again
    · cases again
    next elsewhere => exact elsewhere (sound.uri_unique again current)

/-- What is forgotten after the end was not current, so it was forgotten before. -/
theorem ForgottenAfterLaunch.before_shutdown {folder : UnitFolder} {early late : List Event}
    {job : Job} (unasked : ∀ document, .requested document ∉ late)
    (forgotten : ForgottenAfterLaunch folder (early ++ .shutdown :: late) job) :
    ForgottenAfterLaunch folder early job := by
  obtain ⟨front, back, old, split, found, started, current⟩ := forgotten
  rcases List.append_eq_append_iff.mp split with ⟨middle, rfl, rest⟩ | ⟨middle, rfl, rest⟩
  · cases middle with
    | nil => cases rest
    | cons first middle =>
      obtain ⟨rfl, rfl⟩ := List.cons_eq_cons.mp rest
      have none := current?_after_shutdown folder early middle
        (fun document asked => unasked document (List.mem_append_left _ asked)) job.uri
      rw [none] at current
      cases current
  · cases middle with
    | nil => cases rest
    | cons first middle =>
      obtain ⟨rfl, rfl⟩ := List.cons_eq_cons.mp rest
      exact ⟨front, middle, old, rfl, found, started, current⟩

/-! ### The end -/

/-- A job that was launched keeps its process. -/
theorem started_of_launched (folder : UnitFolder) (events : List Event) (sequence pid : Nat)
    (unit : Bytes) (ran : .launch sequence pid unit ∈ effects folder events) :
    ∃ job handle, (after folder events).job? sequence = some job ∧ job.handle = some handle := by
  suffices kept : ∃ job, (after folder events).job? sequence = some job ∧
      job.handle.isSome = true by
    obtain ⟨job, found, started⟩ := kept
    obtain ⟨handle, has⟩ := Option.isSome_iff_exists.mp started
    exact ⟨job, handle, found, has⟩
  induction events using List.reverseRecOn with
  | nil => cases ran
  | append_singleton events event ih =>
    have sound := wellFormed_after folder events
    have moved := transition _ sound event
    rw [effects_concat, List.mem_append] at ran
    rw [after_concat]
    rcases ran with early | now
    · obtain ⟨job, found, started⟩ := ih early
      obtain ⟨next, later, turns⟩ := moved.becomes sound sequence job found
      exact ⟨next, later, turns.started started⟩
    · obtain ⟨rfl, job, found, pending, _⟩ := moved.launches sequence pid unit now
      refine ⟨job.launched pid, ?_, rfl⟩
      have launched : ((after folder events).step (.launched sequence pid)).1 =
          (after folder events).update (job.launched pid) := by
        simp only [step, launch, found, pending, if_true]
      rw [launched, job?_update_of_found _ sequence job _ found (becomes_launched job pid pending),
        if_pos rfl]

/-- Once the supervisor has ended and nothing is asked for any more, nothing is current, and every
process that was ever launched has ended, or was killed, or its job had been forgotten before the
end while the process ran. Those forgotten run on until they end by themselves: a job runs unkilled
if and only if it is one of them and its process has not ended. -/
theorem running_after_shutdown (folder : UnitFolder) (early late : List Event)
    (unasked : ∀ document, .requested document ∉ late) :
    let events := early ++ .shutdown :: late
    (∀ uri, (after folder events).current? uri = none) ∧
    (∀ sequence pid unit, .launch sequence pid unit ∈ effects folder events →
      ∃ job handle, (after folder events).job? sequence = some job ∧ job.handle = some handle ∧
        (handle.ending.isSome = true ∨ sequence ∈ killed (effects folder events) ∨
          ForgottenAfterLaunch folder early job)) ∧
    (∀ job, RunsUnkilled folder events job ↔
      job ∈ (after folder events).jobs ∧ job.isSupervised = true ∧
        ForgottenAfterLaunch folder early job) := by
  intro events
  have none := current?_after_shutdown folder early late unasked
  -- What runs unkilled is current or was forgotten, and nothing is current.
  have survives (sequence : Nat) (job : Job) (found : (after folder events).job? sequence = some job)
      (supervised : job.isSupervised = true)
      (unkilled : sequence ∉ killed (effects folder events)) :
      ForgottenAfterLaunch folder early job := by
    rcases current_or_forgotten folder events sequence job found supervised unkilled with
      current | forgotten
    · rw [none] at current
      cases current
    · exact forgotten.before_shutdown unasked
  refine ⟨none, ?_, ?_⟩
  · intro sequence pid unit ran
    obtain ⟨job, handle, found, started⟩ := started_of_launched folder events sequence pid unit ran
    refine ⟨job, handle, found, started, ?_⟩
    cases ended : handle.ending with
    | some ending => exact .inl rfl
    | none =>
      have supervised := job.isSupervised_iff.mpr ⟨handle, started, ended⟩
      right
      by_cases dead : sequence ∈ killed (effects folder events)
      · exact .inl dead
      · exact .inr (survives sequence job found supervised dead)
  · intro job
    constructor
    · rintro ⟨registered, supervised, unkilled⟩
      have found := (wellFormed_after folder events).job?_of_mem registered
      exact ⟨registered, supervised, survives job.sequence job found supervised unkilled⟩
    · rintro ⟨registered, supervised, forgotten⟩
      have unkilled := (forgotten.append rfl rfl (.shutdown :: late)).unkilled
      exact ⟨registered, supervised, unkilled⟩

/-- A process that starts only after the end is killed. -/
theorem late_start_killed :
    let folder : UnitFolder := { path := ['t'] }
    let early : List Event := [.opened ⟨['a'], some 1, ['x']⟩, .requested 0]
    let events := early ++ .shutdown :: [.launched 1 7]
    (∀ document, .requested document ∉ [Event.launched 1 7]) ∧
      .launch 1 7 ['x'.toUInt8] ∈ effects folder events ∧ 1 ∈ killed (effects folder events) := by
  intro folder early events
  have unasked : ∀ document, .requested document ∉ [Event.launched 1 7] := by
    intro document member
    cases List.mem_singleton.mp member
  have ran : .launch 1 7 ['x'.toUInt8] ∈ effects folder events := by
    exact List.mem_of_getElem? (i := 1) rfl
  obtain ⟨_, launches, _⟩ := running_after_shutdown folder early [.launched 1 7] unasked
  obtain ⟨job, handle, found, started, ended | dead | forgotten⟩ := launches 1 7 _ ran
  · cases found
    cases started
    cases ended
  · exact ⟨unasked, ran, dead⟩
  · obtain ⟨front, back, _, split, _⟩ := forgotten
    have member : Event.forgotten job.uri ∈ early := by simp [split]
    simp [early] at member

/-- A process whose job was forgotten runs on after the end, with no launch pending. -/
theorem forgotten_survives_shutdown :
    let folder : UnitFolder := { path := ['t'] }
    let events : List Event := [.opened ⟨['a'], some 1, ['x']⟩, .requested 0, .launched 1 7,
      .forgotten ['a'], .shutdown]
    let job : Job := Job.launched 7 { sequence := 1, uri := ['a'], document := 0, unit := 1 }
    RunsUnkilled folder events job ∧
      ∀ other ∈ (after folder events).jobs, other.launching = false := by
  intro folder events job
  refine ⟨⟨List.mem_singleton.mpr rfl, rfl, List.not_mem_nil⟩, ?_⟩
  intro other member
  rw [List.mem_singleton.mp member]
  rfl

end FormWatch.Supervisor
