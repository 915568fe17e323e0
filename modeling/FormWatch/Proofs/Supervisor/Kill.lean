import FormWatch.Proofs.Supervisor.Run

/-!
Which processes are killed. A process is killed when its job loses its URI to a newer request or to
the end of the supervisor, or at once when it starts too late. So a process that runs and was not
killed belongs to the current job of its URI, or to a job that was forgotten while it ran.
-/

namespace FormWatch.Supervisor

def Effect.killed? : Effect → Option Nat
  | .kill sequence _ _ => some sequence
  | _ => none

/-- The jobs whose processes effects kill, in order. -/
def killed (effects : List Effect) : List Nat :=
  effects.filterMap Effect.killed?

/-! ### What one step kills -/

@[simp] theorem killed_nil : killed [] = [] := rfl

@[simp] theorem killed_cons (effect : Effect) (rest : List Effect) :
    killed (effect :: rest) = effect.killed?.toList ++ killed rest := by
  cases same : effect.killed? <;> simp [killed, same]

@[simp] theorem killed_append (early late : List Effect) :
    killed (early ++ late) = killed early ++ killed late :=
  List.filterMap_append

@[simp] theorem killed_killOf (job : Job) :
    killed (killOf job) = if job.handle.isSome then [job.sequence] else [] := by
  cases started : job.handle <;> simp [killOf, Effect.killed?, started]

@[simp] theorem killed_logKept (supervisor : Supervisor) (job : Job)
    (kept : Option SystemFault) : killed (supervisor.logKept job kept) = [] := by
  cases kept <;> rfl

theorem killed_eq_nil (effects : List Effect)
    (harmless : ∀ effect ∈ effects, effect.killed? = none) : killed effects = [] :=
  List.filterMap_eq_nil_iff.mpr harmless

theorem killed?_of_isNote (effect : Effect) (note : effect.isNote = true) :
    effect.killed? = none := by
  cases effect <;> simp [Effect.isNote, Effect.killed?] at note ⊢

theorem killed_complete (supervisor : Supervisor) (job : Job) (handle : ProcessHandle)
    (result : Except Failure ProcessResult) (refusals : Refusals) (kept : Option SystemFault) :
    killed (supervisor.complete job handle result refusals kept).2 = [] := by
  apply killed_eq_nil
  intro effect member
  rcases mem_complete supervisor job handle result refusals kept effect member with
    note | ⟨outcome, refusal, rfl, _⟩
  · exact killed?_of_isNote effect note
  · rfl

/-- A request kills the process of the current job of its URI. -/
theorem killed_request (supervisor : Supervisor) (uri : Text) (sequence : Nat) :
    sequence ∈ killed ((((supervisor.current? uri).bind supervisor.job?).map killOf).getD []) ↔
      supervisor.current? uri = some sequence ∧
        ∃ job, supervisor.job? sequence = some job ∧ job.handle.isSome = true := by
  cases current : supervisor.current? uri with
  | none => simp
  | some other =>
    cases found : supervisor.job? other with
    | none =>
      constructor
      · intro dead
        simp [found] at dead
      · rintro ⟨same, job, present, _⟩
        cases same
        simp [found] at present
    | some job =>
      have named := sequence_of_job? supervisor other job found
      by_cases same : sequence = other
      · subst same
        simp [found, named]
      · have different : ¬ other = sequence := fun equal => same equal.symm
        simp [found, named, same, different]

theorem killed_stop (supervisor : Supervisor) :
    killed supervisor.stop.2 = supervisor.table.flatMap fun entry =>
      killed (((supervisor.job? entry.2).map killOf).getD []) := by
  simp [killed, stop, List.filterMap_flatMap]

/-- The end of the supervisor kills the processes of all current jobs. -/
theorem mem_killed_stop (supervisor : Supervisor) (sound : supervisor.WellFormed)
    (sequence : Nat) :
    sequence ∈ killed supervisor.stop.2 ↔
      (∃ uri, supervisor.current? uri = some sequence) ∧
        ∃ job, supervisor.job? sequence = some job ∧ job.handle.isSome = true := by
  rw [killed_stop, List.mem_flatMap]
  constructor
  · rintro ⟨⟨uri, other⟩, member, dead⟩
    have current := (current?_eq_some_iff supervisor sound.unique uri other).mpr member
    obtain ⟨job, found, _⟩ := sound.tracked uri other current
    have named := sequence_of_job? supervisor other job found
    by_cases started : job.handle.isSome = true
    · have same : sequence = other := by simpa [found, started, named] using dead
      exact ⟨⟨uri, same ▸ current⟩, job, same ▸ found, started⟩
    · simp [found, started] at dead
  · rintro ⟨⟨uri, current⟩, job, found, started⟩
    have member := (current?_eq_some_iff supervisor sound.unique uri sequence).mp current
    have named := sequence_of_job? supervisor sequence job found
    exact ⟨(uri, sequence), member, by simp [found, started, named]⟩

theorem nodup_killed_stop (supervisor : Supervisor) (sound : supervisor.WellFormed) :
    (killed supervisor.stop.2).Nodup := by
  -- A job is current for its own URI only, so no job stands twice in the table.
  have once : (supervisor.table.map Prod.snd).Nodup := by
    apply sound.unique.of_map.map_on
    rintro ⟨uri, sequence⟩ member ⟨other, same⟩ member' equal
    cases equal
    have current := (current?_eq_some_iff _ sound.unique _ _).mpr member
    have current' := (current?_eq_some_iff _ sound.unique _ _).mpr member'
    rw [sound.uri_unique current current']
  have part (table : List (Text × Nat)) :
      (table.flatMap fun entry =>
        killed (((supervisor.job? entry.2).map killOf).getD [])).Sublist
        (table.map Prod.snd) := by
    induction table with
    | nil => exact .slnil
    | cons entry rest ih =>
      cases found : supervisor.job? entry.2 with
      | none => simpa [found] using ih.cons entry.2
      | some job =>
        have named := sequence_of_job? supervisor entry.2 job found
        by_cases started : job.handle.isSome = true
        · simpa [found, started, named] using ih
        · simpa [found, started] using ih.cons entry.2
  rw [killed_stop]
  exact once.sublist (part supervisor.table)

/-- A job is killed once it has a process, when it is current no more; before, it was current or
had no process yet. -/
theorem Transition.mem_killed {before next : Supervisor} {event : Event} {done : List Effect}
    (moved : Transition before event next done) (sound : before.WellFormed) (sequence : Nat)
    (dead : sequence ∈ killed done) :
    (∃ job, next.job? sequence = some job ∧ job.handle.isSome = true) ∧
      (∀ uri, next.current? uri ≠ some sequence) ∧
      ((∃ uri, before.current? uri = some sequence) ∨
        ∃ job, before.job? sequence = some job ∧ job.handle = none) := by
  cases moved with
  | idle _ _ _ _ _ quiet =>
    rw [killed_eq_nil _ fun effect member => killed?_of_isNote effect (quiet effect member)] at dead
    cases dead
  | registered document found present =>
    rw [killed_append, List.mem_append] at dead
    obtain ⟨current, job, old, started⟩ :=
      (killed_request before found.uri sequence).mp (dead.resolve_right (by
        simp [Effect.killed?]))
    have bound := sound.job?_le old
    refine ⟨⟨job, ?_, started⟩, ?_, Or.inl ⟨found.uri, current⟩⟩
    · rw [sound.job?_register, if_neg (by omega), old]
    · intro uri again
      rw [current?_register] at again
      split at again
      · cases again
        omega
      next elsewhere => exact elsewhere (sound.uri_unique again current)
  | launched key pid job found pending =>
    have named := sequence_of_job? before key job found
    by_cases current : before.isCurrent job = true
    · simp [current, Effect.killed?] at dead
    · have same : sequence = key := by
        simpa [current, Effect.killed?, killOf, Job.launched, named, eq_comm] using dead
      subst same
      have stage := sound.stage found
      refine ⟨⟨job.launched pid, ?_, rfl⟩, ?_,
        Or.inr ⟨job, found, stage.unstarted_of_launching pending⟩⟩
      · rw [job?_update_of_found before sequence job _ found (becomes_launched job pid pending),
          if_pos rfl]
      · intro uri again
        obtain ⟨other, has, same, _⟩ := sound.tracked uri sequence again
        cases found.symm.trans has
        exact current ((isCurrent_iff before job).mpr (by rw [named, same]; exact again))
  | refused => simp [Effect.killed?] at dead
  | broken => simp [Effect.killed?] at dead
  | informed => simp at dead
  | settled _ _ _ _ job handle result => simp [killed_complete] at dead
  | forgotten => simp at dead
  | stopped =>
    obtain ⟨current, job, found, started⟩ := (mem_killed_stop before sound sequence).mp dead
    exact ⟨⟨job, found, started⟩, by simp [stop, current?_empty], Or.inl current⟩

theorem Transition.nodup_killed {before next : Supervisor} {event : Event} {done : List Effect}
    (moved : Transition before event next done) (sound : before.WellFormed) :
    (killed done).Nodup := by
  cases moved with
  | idle _ _ _ _ _ quiet =>
    rw [killed_eq_nil _ fun effect member => killed?_of_isNote effect (quiet effect member)]
    exact List.nodup_nil
  | registered document found present =>
    cases current : before.current? found.uri with
    | none => simp [Effect.killed?]
    | some sequence =>
      obtain ⟨job, has, _⟩ := sound.tracked found.uri sequence current
      by_cases started : job.handle.isSome = true <;>
        simp [has, started, Effect.killed?]
  | launched key pid job found pending =>
    by_cases current : before.isCurrent job = true <;>
      simp [current, Effect.killed?, killOf, Job.launched]
  | refused => simp [Effect.killed?]
  | broken => simp [Effect.killed?]
  | informed => simp
  | settled _ _ _ _ job handle result => simp [killed_complete]
  | forgotten => simp
  | stopped => exact nodup_killed_stop before sound

/-! ### What a run kills -/

/-- What is killed over a run is killed once, has a process, and is not current. -/
theorem killed_effects (folder : UnitFolder) (events : List Event) :
    (killed (effects folder events)).Nodup ∧
      ∀ sequence ∈ killed (effects folder events),
        (∃ job, (after folder events).job? sequence = some job ∧ job.handle.isSome = true) ∧
          ∀ uri, (after folder events).current? uri ≠ some sequence := by
  -- A killed job has its process and has lost its URI for good, so no later step kills it again.
  induction events using List.reverseRecOn with
  | nil => exact ⟨List.nodup_nil, fun _ member => by cases member⟩
  | append_singleton events event ih =>
    obtain ⟨once, past⟩ := ih
    have sound := wellFormed_after folder events
    have moved := transition _ sound event
    rw [effects_concat, after_concat, killed_append]
    constructor
    · refine once.append (moved.nodup_killed sound) ?_
      intro sequence early now
      obtain ⟨⟨job, found, started⟩, displaced⟩ := past sequence early
      rcases (moved.mem_killed sound sequence now).2.2 with
        ⟨uri, current⟩ | ⟨other, same, unstarted⟩
      · exact displaced uri current
      · cases found.symm.trans same
        simp [unstarted] at started
    · intro sequence member
      rcases List.mem_append.mp member with early | now
      · obtain ⟨⟨job, found, started⟩, displaced⟩ := past sequence early
        obtain ⟨next, later, turns⟩ := moved.becomes sound sequence job found
        refine ⟨⟨next, later, turns.started started⟩, ?_⟩
        intro uri current
        exact displaced uri (moved.current_before uri sequence (sound.job?_le found) current).1
      · obtain ⟨started, displaced, _⟩ := moved.mem_killed sound sequence now
        exact ⟨started, displaced⟩

/-- Whether a job was made to be forgotten while it was current and had a process. -/
def ForgottenAfterLaunch (folder : UnitFolder) (events : List Event) (job : Job) : Prop :=
  ∃ early late old, events = early ++ .forgotten job.uri :: late ∧
    (after folder early).job? job.sequence = some old ∧ old.handle.isSome = true ∧
    (after folder early).current? job.uri = some job.sequence

theorem ForgottenAfterLaunch.append {folder : UnitFolder} {events : List Event}
    {old new : Job} (forgotten : ForgottenAfterLaunch folder events old)
    (uri : old.uri = new.uri) (sequence : old.sequence = new.sequence) (more : List Event) :
    ForgottenAfterLaunch folder (events ++ more) new := by
  obtain ⟨early, late, first, split, found, started, current⟩ := forgotten
  exact ⟨early, late ++ more, first, by simp [split, uri], sequence ▸ found, started,
    by rw [← uri, ← sequence]; exact current⟩

/-- A request that finds a job with a process kills it before the launch of its own begins. -/
theorem effects_requested (supervisor : Supervisor) (document : Nat) (asked : Document)
    (sequence : Nat) (job : Job) (handle : ProcessHandle)
    (present : supervisor.workspace.document? document = some asked)
    (current : supervisor.current? asked.uri = some sequence)
    (found : supervisor.job? sequence = some job) (started : job.handle = some handle) :
    (supervisor.step (.requested document)).2 =
      [.kill sequence handle.pid handle.kill, .start (supervisor.jobs.length + 1)] := by
  have named := sequence_of_job? supervisor sequence job found
  simp [step, request, present, current, found, killOf, started, named]

/-- A process that starts too late is killed at once. -/
theorem effects_launched (supervisor : Supervisor) (sequence pid : Nat) (job : Job)
    (found : supervisor.job? sequence = some job) (pending : job.launching = true)
    (displaced : supervisor.current? job.uri ≠ some sequence) :
    (supervisor.step (.launched sequence pid)).2 =
      [.launch sequence pid ((supervisor.units.content? job.unit).getD []),
        .kill sequence pid .sent, .answer (.job sequence)] := by
  have named := sequence_of_job? supervisor sequence job found
  have stale : supervisor.isCurrent job = false := by
    rw [← Bool.not_eq_true, isCurrent_iff, named]
    exact displaced
  simp [step, launch, found, pending, stale, killOf, Job.launched, named, ProcessHandle.wait,
    ProcessHandle.settle, ProcessHandle.kill]

/-- A process that runs and was not killed belongs to the current job of its URI, or to a job that
was forgotten while it had its process. -/
theorem current_or_forgotten (folder : UnitFolder) (events : List Event) (sequence : Nat)
    (job : Job) (found : (after folder events).job? sequence = some job)
    (supervised : job.isSupervised = true)
    (unkilled : sequence ∉ killed (effects folder events)) :
    (after folder events).current? job.uri = some sequence ∨
      ForgottenAfterLaunch folder events job := by
  induction events using List.reverseRecOn generalizing job with
  | nil => cases found
  | append_singleton events event ih =>
    have sound := wellFormed_after folder events
    have moved := transition _ sound event
    rw [effects_concat, killed_append, List.mem_append, not_or] at unkilled
    rw [after_concat] at found ⊢
    have named := sequence_of_job? _ _ job found
    obtain ⟨old, present, uri, ran | ⟨pending, pid, rfl⟩⟩ :=
      moved.supervised_before sound sequence job found supervised
    · have active := job.isActive_of_supervised supervised
      obtain ⟨handle, started, _⟩ := old.isSupervised_iff.mp ran
      rcases ih old present ran unkilled.1 with current | forgotten
      -- A current job can lose its URI to a request, to being forgotten, or to the end; the first
      -- and the last kill it.
      · rw [uri] at current
        by_cases asked : ∃ document, (after folder events).snapshot? event = some document ∧
            document.uri = job.uri
        · obtain ⟨document, taken, same⟩ := asked
          cases event <;> simp only [snapshot?, reduceCtorEq] at taken
          have effects := effects_requested _ _ document sequence old handle taken
            (same ▸ current) present started
          simp [effects, Effect.killed?] at unkilled
        · by_cases forgets : event = .forgotten job.uri
          · right
            exact ⟨events, [], old, by rw [forgets], by rw [named]; exact present,
              by simp [started], by rw [named]; exact current⟩
          · by_cases stops : event = .shutdown
            · subst stops
              refine absurd ((mem_killed_stop _ sound sequence).mpr ?_) unkilled.2
              exact ⟨⟨job.uri, current⟩, old, present, by simp [started]⟩
            · left
              exact moved.current_stays sound job.uri sequence job current found active
                (fun document taken same => asked ⟨document, taken, same⟩)
                ((drops_eq_false_iff job.uri event).mpr ⟨forgets, stops⟩)
      · have same := sequence_of_job? _ _ old present
        exact Or.inr (forgotten.append uri (same.trans named.symm) [event])
    -- The process has just been launched, and it is killed at once if the job is not current.
    · left
      by_contra displaced
      have stale : (after folder events).current? old.uri ≠ some sequence := by
        intro current
        rw [uri] at current
        exact displaced (moved.current_stays sound job.uri sequence job current found
          (job.isActive_of_supervised supervised) (by simp [snapshot?]) rfl)
      have effects := effects_launched _ sequence pid old present pending stale
      simp [effects, Effect.killed?] at unkilled

/-- A registered job that is not current for a URI does not become so again. -/
theorem displaced_run (supervisor : Supervisor) (sound : supervisor.WellFormed) (uri : Text)
    (sequence : Nat) (job : Job) (found : supervisor.job? sequence = some job)
    (displaced : supervisor.current? uri ≠ some sequence) (events : List Event) :
    (supervisor.run events).1.current? uri ≠ some sequence := by
  induction events generalizing supervisor job with
  | nil => exact displaced
  | cons event rest ih =>
    have moved := transition supervisor sound event
    obtain ⟨next, later, _⟩ := moved.becomes sound sequence job found
    refine ih _ (sound.step event) next later ?_
    intro current
    exact displaced (moved.current_before uri sequence (sound.job?_le found) current).1

/-- A job that was still launching when its URI was asked for again is not current when its
process starts. -/
theorem displaced_of_requested (folder : UnitFolder) (early late : List Event) (document : Nat)
    (asked : Document) (sequence : Nat)
    (present : (after folder early).workspace.document? document = some asked)
    (current : (after folder early).current? asked.uri = some sequence) :
    (after folder (early ++ .requested document :: late)).current? asked.uri ≠ some sequence := by
  have sound := wellFormed_after folder early
  have bound := sound.current?_le current
  obtain ⟨newer, _⟩ := step_requested _ sound document asked present
  obtain ⟨first, has, _⟩ := sound.tracked asked.uri sequence current
  obtain ⟨next, later, _⟩ := becomes_step _ sound (.requested document) sequence first has
  rw [List.append_cons, after_append, after_concat]
  refine displaced_run _ (sound.step _) asked.uri sequence next later ?_ late
  rw [newer]
  simp only [ne_eq, Option.some.injEq]
  omega

/-- A job whose process runs, awaited and not killed, once events have happened. -/
structure RunsUnkilled (folder : UnitFolder) (events : List Event) (job : Job) : Prop where
  registered : job ∈ (after folder events).jobs
  supervised : job.isSupervised = true
  unkilled : job.sequence ∉ killed (effects folder events)

/-- After any events, a job that runs unkilled is the current one of its URI, or was forgotten while
it had its process; so of those not forgotten each URI has at most one. No current job was killed,
and no job was killed twice. A request that finds a process kills it before its own launch begins,
and a job that was launching then is killed in the step in which its process starts. -/
theorem kill_discipline (folder : UnitFolder) (events : List Event) :
    (∀ job, RunsUnkilled folder events job →
      (after folder events).isCurrent job = true ∨ ForgottenAfterLaunch folder events job) ∧
    (∀ first second, RunsUnkilled folder events first → RunsUnkilled folder events second →
      ¬ ForgottenAfterLaunch folder events first → ¬ ForgottenAfterLaunch folder events second →
      first.uri = second.uri → first = second) ∧
    (∀ uri sequence, (after folder events).current? uri = some sequence →
      sequence ∉ killed (effects folder events)) ∧
    (∀ sequence, (killed (effects folder events)).count sequence ≤ 1) ∧
    (∀ document asked previous job handle,
      (after folder events).workspace.document? document = some asked →
      (after folder events).current? asked.uri = some previous →
      (after folder events).job? previous = some job → job.handle = some handle →
      ((after folder events).step (.requested document)).2 =
        [.kill previous handle.pid handle.kill,
          .start ((after folder events).jobs.length + 1)]) ∧
    (∀ early document asked late previous job, events = early ++ .requested document :: late →
      (after folder early).workspace.document? document = some asked →
      (after folder early).current? asked.uri = some previous →
      (after folder events).job? previous = some job → job.launching = true → ∀ pid,
      ∃ unit, ((after folder events).step (.launched previous pid)).2 =
        [.launch previous pid unit, .kill previous pid .sent, .answer (.job previous)]) := by
  have sound := wellFormed_after folder events
  obtain ⟨once, past⟩ := killed_effects folder events
  have tabled (job : Job) (runs : RunsUnkilled folder events job) :
      (after folder events).isCurrent job = true ∨ ForgottenAfterLaunch folder events job := by
    rw [isCurrent_iff]
    exact current_or_forgotten folder events job.sequence job (sound.job?_of_mem runs.registered)
      runs.supervised runs.unkilled
  refine ⟨tabled, ?_, ?_, ?_, ?_, ?_⟩
  · intro first second runs runs' remembered remembered' uri
    -- Both are current for the one URI.
    have current := (isCurrent_iff _ first).mp ((tabled first runs).resolve_right remembered)
    have current' := (isCurrent_iff _ second).mp ((tabled second runs').resolve_right remembered')
    have same : first.sequence = second.sequence := by
      simpa [uri, current'] using current.symm
    have found := sound.job?_of_mem runs.registered
    rw [same, sound.job?_of_mem runs'.registered] at found
    exact (Option.some.inj found).symm
  · intro uri sequence current dead
    exact (past sequence dead).2 uri current
  · exact List.nodup_iff_count_le_one.mp once
  · intro document asked previous job handle present current found started
    exact effects_requested _ document asked previous job handle present current found started
  · intro early document asked late previous job split present current found pending pid
    obtain ⟨first, has, uri, _⟩ :=
      (wellFormed_after folder early).tracked asked.uri previous current
    obtain ⟨last, later, turns⟩ := becomes_run _ (wellFormed_after folder early)
      (.requested document :: late) previous first has
    rw [← after_append, ← split, found] at later
    cases later
    refine ⟨_, effects_launched _ previous pid job found pending ?_⟩
    rw [turns.uri, uri, split]
    exact displaced_of_requested folder early late document asked previous present current

/-- A process is killed by the next request, or once it starts after that, but not when its URI is
forgotten. -/
theorem killed_unless_forgotten :
    let folder : UnitFolder := { path := ['t'] }
    let early : List Event := [.opened ⟨['a'], some 1, ['x']⟩, .requested 0]
    let job : Job := Job.launched 7 { sequence := 1, uri := ['a'], document := 0, unit := 1 }
    ((after folder (early ++ [.launched 1 7])).step (.requested 0)).2 =
        [.kill 1 7 .sent, .start 2] ∧
      (∃ unit, ((after folder (early ++ [.requested 0])).step (.launched 1 7)).2 =
        [.launch 1 7 unit, .kill 1 7 .sent, .answer (.job 1)]) ∧
      ForgottenAfterLaunch folder (early ++ [.launched 1 7, .forgotten ['a']]) job := by
  intro folder early job
  refine ⟨?_, ?_, ?_⟩
  · obtain ⟨_, _, _, _, found, _⟩ := kill_discipline folder (early ++ [.launched 1 7])
    exact found 0 ⟨['a'], some 1, ['x']⟩ 1 job _ rfl rfl rfl rfl
  · obtain ⟨_, _, _, _, _, late⟩ := kill_discipline folder (early ++ [.requested 0])
    exact late early 0 ⟨['a'], some 1, ['x']⟩ [] 1 _ rfl rfl rfl rfl rfl 7
  · obtain ⟨tabled, _⟩ :=
      kill_discipline folder (early ++ [.launched 1 7, .forgotten ['a']])
    refine (tabled job ⟨List.mem_singleton.mpr rfl, rfl, ?_⟩).resolve_left (by decide)
    exact List.not_mem_nil

end FormWatch.Supervisor
