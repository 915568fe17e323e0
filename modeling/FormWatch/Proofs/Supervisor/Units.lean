import FormWatch.Proofs.Supervisor.Unfinished

/-!
What the table and the folder of units hold. As long as launches fail only as the supervisor
expects and units can be removed, the jobs in the table are active and the units are those of the
active jobs, whoever else still knows of them.
-/

namespace FormWatch

/-! ### Units -/

namespace UnitFolder

theorem serials_discard (unit : Nat) (folder : UnitFolder) :
    (folder.discard unit).units.map Prod.fst =
      (folder.units.map Prod.fst).filter (· ≠ unit) := by
  simp [discard, List.filter_map, Function.comp_def]

theorem serials_write (text : Text) (folder : UnitFolder) :
    (folder.write text).units.map Prod.fst = folder.units.map Prod.fst ++ [folder.made + 1] := by
  simp [write]

end UnitFolder

namespace Supervisor

/-- Whether an event respects what the supervisor counts on: a launch fails with a failure that it
expects, and a unit that it discards goes away. -/
def Event.isOrderly : Event → Bool
  | .unwritten _ _ remnant => remnant.all (·.kept.isNone)
  | .launchFailed _ failure kept => (failure.isSystem || failure.isValue) && kept.isNone
  | .ended _ _ _ kept => kept.isNone
  | _ => true

/-- The units of the jobs that are active. -/
def activeUnits (supervisor : Supervisor) : List Nat :=
  (supervisor.jobs.filter Job.isActive).map Job.unit

/-- What holds as long as all events are orderly. -/
structure Tidy (supervisor : Supervisor) : Prop where
  awaited : ∀ uri sequence, supervisor.current? uri = some sequence →
    ∃ job, supervisor.job? sequence = some job ∧ job.isActive = true
  kept : supervisor.units.units.map Prod.fst = supervisor.activeUnits

theorem tidy_start (folder : UnitFolder) : (start folder).Tidy where
  awaited uri sequence current := by simp [start, current?] at current
  kept := rfl

/-! ### The units of active jobs -/

/-- The units of active jobs, read off the jobs one by one. -/
theorem activeUnits_eq_filterMap (supervisor : Supervisor) :
    supervisor.activeUnits =
      (supervisor.jobs.map fun job =>
        if job.isActive then some job.unit else none).filterMap id := by
  rw [activeUnits]
  induction supervisor.jobs with
  | nil => rfl
  | cons job rest ih => by_cases active : job.isActive = true <;> simp [active, ih]

/-- A job that stays as active as it was keeps the active units. -/
theorem activeUnits_update (supervisor : Supervisor) (sound : supervisor.WellFormed) (old new : Job)
    (member : old ∈ supervisor.jobs) (turns : old.Becomes new)
    (active : new.isActive = old.isActive) :
    (supervisor.update new).activeUnits = supervisor.activeUnits := by
  have agree : (if new.isActive then some new.unit else none) =
      if old.isActive then some old.unit else none := by
    rw [active, turns.unit]
  rw [activeUnits_eq_filterMap, activeUnits_eq_filterMap,
    map_update supervisor old new _ sound.distinct member turns.sequence agree]

/-- A job that is no longer active takes its unit off the active ones, and no other. -/
theorem activeUnits_update_of_inactive (supervisor : Supervisor) (sound : supervisor.WellFormed)
    (old new : Job) (member : old ∈ supervisor.jobs) (turns : old.Becomes new)
    (past : new.isActive = false) :
    (supervisor.update new).activeUnits = supervisor.activeUnits.filter (· ≠ old.unit) := by
  have named := turns.sequence.trans (sound.owned old member).symm
  have owned := sound.owned
  simp only [activeUnits, update]
  generalize supervisor.jobs = jobs at owned
  induction jobs with
  | nil => rfl
  | cons job rest ih =>
    have tail := ih (fun other later => owned other (List.mem_cons_of_mem job later))
    have head := owned job List.mem_cons_self
    by_cases same : job.sequence = new.sequence
    -- Units are owned, so the replaced job is the one whose unit is taken away.
    · have mine : job.unit = old.unit := by omega
      by_cases active : job.isActive = true <;> simp_all
    · have other : job.unit ≠ old.unit := by omega
      by_cases active : job.isActive = true <;> simp_all

theorem activeUnits_register (supervisor : Supervisor) (document : Nat) (found : Document) :
    (supervisor.register document found).activeUnits =
      supervisor.activeUnits ++ [supervisor.units.made + 1] := by
  simp [activeUnits, register, UnitFolder.write, Job.isActive]

/-! ### States stay tidy -/

namespace Tidy

variable {supervisor : Supervisor}

/-- A job in the place of one that was as active as it is. -/
theorem update (tidy : supervisor.Tidy) (sound : supervisor.WellFormed) (sequence : Nat)
    (old new : Job) (found : supervisor.job? sequence = some old) (turns : old.Becomes new)
    (active : new.isActive = old.isActive) : (supervisor.update new).Tidy where
  awaited uri key current := by
    obtain ⟨job, tracked, awaited⟩ := tidy.awaited uri key current
    rw [job?_update_of_found supervisor sequence old new found turns]
    by_cases mine : key = sequence
    · subst mine
      cases found.symm.trans tracked
      exact ⟨new, if_pos rfl, active.trans awaited⟩
    · exact ⟨job, by rw [if_neg mine, tracked], awaited⟩
  kept := by
    rw [activeUnits_update supervisor sound old new (mem_of_job? _ _ _ found) turns active]
    exact tidy.kept

/-- A job that is no longer active leaves the table, and its unit goes. -/
theorem retire (tidy : supervisor.Tidy) (sound : supervisor.WellFormed) (sequence : Nat)
    (old new : Job) (found : supervisor.job? sequence = some old) (turns : old.Becomes new)
    (past : new.isActive = false) : ((supervisor.update new).retire old none).Tidy where
  awaited uri key current := by
    have member := mem_of_job? supervisor sequence old found
    have elsewhere : key ≠ sequence := by
      rintro rfl
      refine current?_retire_update_ne supervisor sound old new member none uri ?_
      rw [sequence_of_job? supervisor key old found]
      exact current
    obtain ⟨job, tracked, awaited⟩ := tidy.awaited uri key (current?_of_retire current)
    refine ⟨job, ?_, awaited⟩
    rw [job?_retire, job?_update_of_found supervisor sequence old new found turns,
      if_neg elsewhere, tracked]
  kept := by
    have active : ((supervisor.update new).retire old none).activeUnits =
        (supervisor.update new).activeUnits := rfl
    rw [active, activeUnits_update_of_inactive supervisor sound old new
      (mem_of_job? _ _ _ found) turns past, retire_units]
    simp only [Option.isSome_none, Bool.false_eq_true, if_false, update_units,
      UnitFolder.serials_discard, tidy.kept]

theorem register (tidy : supervisor.Tidy) (sound : supervisor.WellFormed) (document : Nat)
    (found : Document) : (supervisor.register document found).Tidy where
  awaited uri key current := by
    rw [current?_register] at current
    rw [sound.job?_register]
    split at current
    · cases current
      exact ⟨_, if_pos rfl, rfl⟩
    · have bound := sound.current?_le current
      rw [if_neg (by omega)]
      exact tidy.awaited uri key current
  kept := by
    have units : (supervisor.register document found).units = supervisor.units.write found.text :=
      rfl
    rw [activeUnits_register, units, UnitFolder.serials_write, tidy.kept]

/-- The table loses entries, and nothing else happens. -/
theorem shrink {next : Supervisor} (tidy : supervisor.Tidy) (jobs : next.jobs = supervisor.jobs)
    (units : next.units.units = supervisor.units.units)
    (shrinks : ∀ uri key, next.current? uri = some key → supervisor.current? uri = some key) :
    next.Tidy where
  awaited uri key current := by
    simpa [job?, jobs] using tidy.awaited uri key (shrinks uri key current)
  kept := by
    rw [units, activeUnits, jobs]
    exact tidy.kept

end Tidy

theorem Transition.tidy {before next : Supervisor} {event : Event} {done : List Effect}
    (moved : Transition before event next done) (sound : before.WellFormed) (tidy : before.Tidy)
    (orderly : event.isOrderly = true) : next.Tidy := by
  cases moved with
  | idle => exact tidy.shrink rfl rfl (fun _ _ current => current)
  | registered document held present => exact tidy.register sound document held
  | launched sequence pid job found pending =>
    exact tidy.update sound sequence job _ found (becomes_launched job pid pending)
      (by simp [Job.isActive, Job.isSupervised, Job.launched, pending, ProcessHandle.wait,
        ProcessHandle.settle])
  | refused sequence failure kept job found pending expected =>
    simp only [Event.isOrderly, Bool.and_eq_true, Option.isNone_iff_eq_none] at orderly
    rw [orderly.2]
    exact tidy.retire sound sequence job _ found (becomes_unlaunched job .idle pending)
      ((sound.stage found).inactive_unlaunched pending .idle)
  | broken sequence failure kept job found pending unexpected =>
    simp [Event.isOrderly, unexpected] at orderly
  | informed event sequence job old new about found started ending =>
    exact tidy.update sound sequence job _ found (becomes_informed job old new started ending)
      (by simp [Job.isActive, Job.isSupervised, started, ending])
  | settled sequence ending refusals kept job handle result found started running gave =>
    simp only [Event.isOrderly, Option.isNone_iff_eq_none] at orderly
    rw [orderly]
    exact tidy.retire sound sequence job _ found
      (becomes_settled before job handle _ result started running)
      (inactive_settled before (sound.stage found) handle ending result started running)
  | forgotten uri =>
    refine tidy.shrink rfl rfl ?_
    intro other key current
    rw [current?_forget] at current
    split at current
    · cases current
    · exact current
  | stopped => exact tidy.shrink rfl rfl (fun _ _ current => by cases current)

theorem tidy_after (folder : UnitFolder) (events : List Event)
    (orderly : ∀ event ∈ events, event.isOrderly = true) : (after folder events).Tidy := by
  induction events using List.reverseRecOn with
  | nil => exact tidy_start folder
  | append_singleton events event ih =>
    have sound := wellFormed_after folder events
    rw [after_concat]
    exact (transition _ sound event).tidy sound
      (ih fun other early => orderly other (List.mem_append_left [event] early))
      (orderly event List.mem_concat_self)

/-! ### What tidy states hold -/

theorem WellFormed.eq_of_sequence {supervisor : Supervisor} (sound : supervisor.WellFormed)
    {first second : Job} (member : first ∈ supervisor.jobs) (member' : second ∈ supervisor.jobs)
    (same : first.sequence = second.sequence) : first = second :=
  List.inj_on_of_nodup_map sound.distinct member member' same

theorem isActive_iff (job : Job) :
    job.isActive = true ↔ job.launching = true ∨ job.isSupervised = true := by
  simp [Job.isActive]

namespace Tidy

variable {supervisor : Supervisor}

/-- A job in the table is active, and the newest of its URI. -/
theorem entry (tidy : supervisor.Tidy) (sound : supervisor.WellFormed) (uri : Text)
    (sequence : Nat) (listed : (uri, sequence) ∈ supervisor.table) :
    ∃ job ∈ supervisor.jobs, job.sequence = sequence ∧ job.uri = uri ∧ job.state = .running ∧
      (job.launching = true ∨ job.isSupervised = true) ∧
      ∀ other ∈ supervisor.jobs, other.uri = uri → other ≠ job → other.sequence < sequence := by
  have current := (current?_eq_some_iff _ sound.unique uri sequence).mpr listed
  obtain ⟨job, found, named, state⟩ := sound.tracked uri sequence current
  obtain ⟨same, found', awaited⟩ := tidy.awaited uri sequence current
  cases found.symm.trans found'
  have member := mem_of_job? _ _ job found
  have numbered := sequence_of_job? _ _ job found
  refine ⟨job, member, numbered, named, state, (isActive_iff job).mp awaited, ?_⟩
  intro other present uri' different
  have bound := sound.newest uri sequence current other present uri'
  have apart : other.sequence ≠ sequence := by
    intro equal
    exact different (sound.eq_of_sequence present member (equal.trans numbered.symm))
  omega

/-- There is one unit for each active job. -/
theorem mem_units_iff (tidy : supervisor.Tidy) (unit : Nat) :
    unit ∈ supervisor.units.units.map Prod.fst ↔
      ∃ job ∈ supervisor.jobs, job.unit = unit ∧
        (job.launching = true ∨ job.isSupervised = true) := by
  simp only [tidy.kept, activeUnits, List.mem_map, List.mem_filter, isActive_iff]
  constructor
  · rintro ⟨job, ⟨member, active⟩, same⟩
    exact ⟨job, member, same, active⟩
  · rintro ⟨job, member, same, active⟩
    exact ⟨job, ⟨member, active⟩, same⟩

theorem nodup_units (tidy : supervisor.Tidy) (sound : supervisor.WellFormed) :
    (supervisor.units.units.map Prod.fst).Nodup := by
  -- Each job has the unit of its own number, and no two have the same number.
  have owned : supervisor.activeUnits =
      (supervisor.jobs.filter Job.isActive).map Job.sequence := by
    apply List.map_congr_left
    intro job listed
    exact sound.owned job (List.mem_of_mem_filter listed)
  rw [tidy.kept, owned]
  exact sound.distinct.sublist (List.filter_sublist.map Job.sequence)

/-- Once no job is active, nothing is left. -/
theorem empty_of_inactive (tidy : supervisor.Tidy) (sound : supervisor.WellFormed)
    (inactive : ∀ job ∈ supervisor.jobs, job.isActive = false) :
    supervisor.table = [] ∧ supervisor.units.units = [] := by
  constructor
  · rw [List.eq_nil_iff_forall_not_mem]
    rintro ⟨uri, sequence⟩ listed
    have current := (current?_eq_some_iff _ sound.unique uri sequence).mpr listed
    obtain ⟨job, found, awaited⟩ := tidy.awaited uri sequence current
    simp [inactive job (mem_of_job? _ _ job found)] at awaited
  · rw [← List.map_eq_nil_iff, tidy.kept, activeUnits, List.map_eq_nil_iff,
      List.filter_eq_nil_iff]
    intro job member
    simp [inactive job member]

end Tidy

/-! ### Whole runs -/

theorem left_of_orderly (event : Event) (orderly : event.isOrderly = true) : event.left = [] := by
  cases event with
  | unwritten uri failure remnant =>
    rcases remnant with _ | ⟨own, content, _ | fault⟩
    · rfl
    · rfl
    · cases orderly
  | _ => rfl

/-- As long as units that are discarded go away, none stays unfinished. -/
theorem unfinished_of_orderly (folder : UnitFolder) (events : List Event)
    (orderly : ∀ event ∈ events, event.isOrderly = true) :
    (after folder events).units.unfinished = [] := by
  rw [unfinished_after, leftBy, List.flatMap_eq_nil_iff]
  intro event member
  exact left_of_orderly event (orderly event (List.mem_reverse.mp member))

theorem numbered_after (folder : UnitFolder) (events : List Event) :
    (after folder events).jobs.map Job.sequence =
      List.range' 1 ((start folder).snapshots events).length := by
  rw [(wellFormed_after folder events).numbered, length_jobs_after]

/-- After orderly events the table holds, for each of its URIs, the newest job of the URI, which is
running and still active; the units are one for each active job, in the table or not, and no
unfinished ones; and jobs are numbered as they were registered. So when no job is active any more,
nothing is left. -/
theorem table_and_units_of_orderly (folder : UnitFolder) (events : List Event)
    (orderly : ∀ event ∈ events, event.isOrderly = true) :
    (∀ uri sequence, (uri, sequence) ∈ (after folder events).table →
      ∃ job ∈ (after folder events).jobs, job.sequence = sequence ∧ job.uri = uri ∧
        job.state = .running ∧ (job.launching = true ∨ job.isSupervised = true) ∧
        ∀ other ∈ (after folder events).jobs, other.uri = uri → other ≠ job →
          other.sequence < sequence) ∧
    (((after folder events).units.units.map Prod.fst).Nodup ∧
      (∀ unit, unit ∈ (after folder events).units.units.map Prod.fst ↔
        ∃ job ∈ (after folder events).jobs, job.unit = unit ∧
          (job.launching = true ∨ job.isSupervised = true)) ∧
      (after folder events).units.unfinished = [] ∧
      ∀ first ∈ (after folder events).jobs, ∀ second ∈ (after folder events).jobs,
        first.unit = second.unit → first = second) ∧
    (((after folder events).jobs.map Job.sequence).Pairwise (· < ·) ∧
      ∀ early late, events = early ++ late →
        (after folder early).jobs.map Job.sequence <+:
          (after folder events).jobs.map Job.sequence) ∧
    ((∀ job ∈ (after folder events).jobs, job.launching = false ∧ job.isSupervised = false) →
      (after folder events).table = [] ∧ (after folder events).units.units = []) := by
  have sound := wellFormed_after folder events
  have tidy := tidy_after folder events orderly
  refine ⟨tidy.entry sound,
    ⟨tidy.nodup_units sound, tidy.mem_units_iff, unfinished_of_orderly folder events orderly, ?_⟩,
    ⟨?_, ?_⟩, ?_⟩
  · intro first member second member' same
    rw [sound.owned first member, sound.owned second member'] at same
    exact sound.eq_of_sequence member member' same
  · rw [numbered_after]
    exact List.pairwise_lt_range'
  · rintro early late rfl
    rw [numbered_after, numbered_after, snapshots_append, List.length_append,
      ← List.range'_append_1]
    exact List.prefix_append _ _
  · intro ceased
    apply tidy.empty_of_inactive sound
    intro job member
    simp [Job.isActive, ceased job member]

/-- Nothing is left of three requests, of which the first one is forgotten, the second one's
snapshot cannot be written and the third one cannot be launched, once the process of the first has
ended. -/
theorem units_of_forgotten_request :
    let folder : UnitFolder := { path := ['t'] }
    let events : List Event :=
      [.opened ⟨['a'], some 1, ['x']⟩, .requested 0, .launched 1 7, .forgotten ['a'],
        .unwritten ['a'] (.refused .noSuchFile ['u']) (some ⟨['w'], [], none⟩), .requested 0,
        .launchFailed 2 (.refused .noSuchFile ['c']) none,
        .ended 1 (.finished (some 0) [] []) ⟨none, none⟩ none]
    (∀ event ∈ events, event.isOrderly = true) ∧
      (after folder events).table = [] ∧ (after folder events).units.units = [] ∧
      (after folder events).units.unfinished = [] := by
  intro folder events
  have orderly : ∀ event ∈ events, event.isOrderly = true := by simp [events, Event.isOrderly,
    Failure.isSystem]
  obtain ⟨_, ⟨_, _, unfinished, _⟩, _, idle⟩ := table_and_units_of_orderly folder events orderly
  obtain ⟨table, units⟩ := idle (by decide)
  exact ⟨orderly, table, units, unfinished⟩

end Supervisor

end FormWatch
