import FormWatch.Proofs.Supervisor.Run

/-!
When outcomes are delivered. Over any run the sink of a job is called at most once, and only when
the job's process ends; it is called then if and only if the job's document is live and nothing took
the URI from the job since it was registered.
-/

namespace FormWatch

/-- Whether a job came to its end with a process, so that nothing more comes of it. -/
def JobState.isFinal : JobState → Bool
  | .completed | .failed | .obsolete => true
  | .idle | .running => false

theorem Job.Stage.inactive_of_final {job : Job} (stage : job.Stage)
    (final : job.state.isFinal = true) : job.isActive = false := by
  by_contra active
  have state := stage.running_of_active (by simpa using active)
  simp [state, JobState.isFinal] at final

namespace Supervisor

/-- Whether an effect calls the sink of a job. -/
def Effect.reports (sequence : Nat) : Effect → Bool
  | .report other _ _ => other = sequence
  | _ => false

/-- How often effects call the sink of a job. -/
def reportCount (sequence : Nat) (effects : List Effect) : Nat :=
  effects.countP (·.reports sequence)

/-! ### Effects that call no sink -/

@[simp] theorem reportCount_nil (sequence : Nat) : reportCount sequence [] = 0 := rfl

@[simp] theorem reportCount_append (sequence : Nat) (early late : List Effect) :
    reportCount sequence (early ++ late) =
      reportCount sequence early + reportCount sequence late :=
  List.countP_append

@[simp] theorem reportCount_cons (sequence : Nat) (effect : Effect) (rest : List Effect) :
    reportCount sequence (effect :: rest) =
      reportCount sequence rest + if effect.reports sequence then 1 else 0 :=
  List.countP_cons

theorem reportCount_eq_zero (sequence : Nat) (effects : List Effect)
    (silent : ∀ effect ∈ effects, effect.reports sequence = false) :
    reportCount sequence effects = 0 := by
  rw [reportCount, List.countP_eq_zero]
  intro effect member
  simp [silent effect member]

theorem reports_of_isNote (sequence : Nat) (effect : Effect) (note : effect.isNote = true) :
    effect.reports sequence = false := by
  cases effect <;> simp [Effect.isNote, Effect.reports] at note ⊢

@[simp] theorem reportCount_killOf (sequence : Nat) (job : Job) :
    reportCount sequence (killOf job) = 0 := by
  cases started : job.handle <;> simp [killOf, started, Effect.reports]

theorem reportCount_killOf? (sequence : Nat) (job : Option Job) :
    reportCount sequence ((job.map killOf).getD []) = 0 := by
  cases job <;> simp

@[simp] theorem reportCount_logKept (sequence : Nat) (supervisor : Supervisor) (job : Job)
    (kept : Option SystemFault) : reportCount sequence (supervisor.logKept job kept) = 0 := by
  cases kept <;> rfl

@[simp] theorem reportCount_logs (sequence : Nat) (logs : List LogEntry) :
    reportCount sequence (logs.map .log) = 0 := by
  apply reportCount_eq_zero
  intro effect member
  obtain ⟨entry, _, rfl⟩ := List.mem_map.mp member
  rfl

theorem reportCount_stop (sequence : Nat) (supervisor : Supervisor) :
    reportCount sequence supervisor.stop.2 = 0 := by
  apply reportCount_eq_zero
  intro effect member
  obtain ⟨entry, _, killed⟩ := List.mem_flatMap.mp member
  have silent := reportCount_killOf? sequence (supervisor.job? entry.2)
  rw [reportCount, List.countP_eq_zero] at silent
  simpa using silent effect killed

/-! ### The step that delivers -/

theorem reportCount_deliver (sequence other : Nat) (refusals : Refusals) (outcome : Outcome) :
    reportCount sequence (deliver other refusals outcome) = if other = sequence then 1 else 0 := by
  unfold deliver
  split <;> by_cases same : other = sequence <;> simp [Effect.reports, same]

theorem reportCount_complete (supervisor : Supervisor) (sequence : Nat) (job : Job)
    (handle : ProcessHandle) (result : Except Failure ProcessResult) (refusals : Refusals)
    (kept : Option SystemFault) :
    reportCount sequence (supervisor.complete job handle result refusals kept).2 =
      if job.sequence = sequence ∧
          (supervisor.verdict job handle.pid result).outcome.isSome then 1 else 0 := by
  cases outcome : (supervisor.verdict job handle.pid result).outcome with
  | none => simp [complete_eq, outcome]
  | some value => simp [complete_eq, outcome, reportCount_deliver]

/-- Only the end of a supervised job's process calls a sink, and only that job's, once. -/
theorem Transition.reports_once {before next : Supervisor} {event : Event} {done : List Effect}
    (moved : Transition before event next done) (sequence : Nat) :
    reportCount sequence done = 0 ∨
      reportCount sequence done = 1 ∧
        (∃ job, before.job? sequence = some job ∧ job.isSupervised = true) ∧
        ∃ ending refusals kept, event = .ended sequence ending refusals kept := by
  cases moved with
  | idle _ _ _ _ _ quiet =>
    left
    exact reportCount_eq_zero sequence _
      (fun effect member => reports_of_isNote sequence effect (quiet effect member))
  | registered =>
    left
    rw [reportCount_append, reportCount_killOf?]
    rfl
  | launched other pid job =>
    left
    by_cases current : before.isCurrent job = true <;> simp [current, Effect.reports]
  | refused => left; simp [Effect.reports]
  | broken => left; rfl
  | informed => left; rfl
  | forgotten => left; rfl
  | stopped => left; exact reportCount_stop sequence before
  | settled key ending refusals kept job handle result found started running gave =>
    rw [reportCount_complete]
    split
    next mine =>
      right
      have named := (sequence_of_job? before key job found).symm.trans mine.1
      subst named
      exact ⟨rfl, ⟨job, found, job.isSupervised_iff.mpr ⟨handle, started, running⟩⟩,
        ending, refusals, kept, rfl⟩
    · exact Or.inl rfl

theorem dropReason?_eq_none_iff (supervisor : Supervisor) (job : Job) :
    supervisor.dropReason? job = none ↔
      supervisor.workspace.isLive job.document = true ∧ supervisor.isCurrent job = true := by
  cases live : supervisor.workspace.isLive job.document <;>
    cases current : supervisor.isCurrent job <;> simp [dropReason?, live, current]

/-- When the process of a supervised job ends, its sink is called if the job's document is live and
the job is current, and the job is completed or failed; else it is obsolete. -/
theorem ended_of_supervised (supervisor : Supervisor) (sound : supervisor.WellFormed)
    (sequence : Nat) (job : Job) (found : supervisor.job? sequence = some job)
    (supervised : job.isSupervised = true) (ending : Ending) (refusals : Refusals)
    (kept : Option SystemFault) :
    let ended := supervisor.step (.ended sequence ending refusals kept)
    let latest := supervisor.workspace.isLive job.document = true ∧ supervisor.isCurrent job = true
    ∃ last, ended.1.job? sequence = some last ∧
      (latest → (last.state = .completed ∨ last.state = .failed) ∧
        reportCount sequence ended.2 = 1) ∧
      (¬ latest → last.state = .obsolete ∧ reportCount sequence ended.2 = 0) := by
  obtain ⟨handle, started, running⟩ := job.isSupervised_iff.mp supervised
  have gave := result_of_finish (sound.stage found) handle started running ending
  generalize ending.result = result at gave
  have done := finish_eq_complete supervisor sequence job handle result ending refusals kept found
    started running gave
  have turns := becomes_settled supervisor job handle (handle.finish ending) result started running
  have last : (supervisor.finish sequence ending refusals kept).1.job? sequence =
      some (supervisor.settled job (handle.finish ending) result) := by
    rw [done, complete_eq, job?_retire,
      job?_update_of_found supervisor sequence job _ found turns, if_pos rfl]
  have named := sequence_of_job? supervisor sequence job found
  refine ⟨_, last, ?_, ?_⟩
  · intro latest
    have reason := (dropReason?_eq_none_iff supervisor job).mpr latest
    obtain ⟨state, outcome, delivered⟩ :=
      verdict_of_latest supervisor job (handle.finish ending).pid result reason
    refine ⟨state, ?_⟩
    rw [step, done, reportCount_complete]
    simp [named, delivered]
  · intro stale
    rw [← dropReason?_eq_none_iff] at stale
    obtain ⟨cause, reason⟩ := Option.ne_none_iff_exists'.mp stale
    obtain ⟨state, undelivered⟩ :=
      verdict_of_dropped supervisor job (handle.finish ending).pid result cause reason
    refine ⟨state, ?_⟩
    rw [step, done, reportCount_complete]
    simp [undelivered]

/-! ### Whole runs -/

/-- A job whose sink was called is over, so its sink is not called again. -/
theorem reportCount_effects (folder : UnitFolder) (events : List Event) (sequence : Nat) :
    reportCount sequence (effects folder events) = 0 ∨
      reportCount sequence (effects folder events) = 1 ∧
        ∃ job, (after folder events).job? sequence = some job ∧ job.isActive = false := by
  -- What carries the induction is that the sink's only call leaves the job inactive.
  induction events using List.reverseRecOn with
  | nil => exact Or.inl rfl
  | append_singleton events event ih =>
    have sound := wellFormed_after folder events
    have moved := transition _ sound event
    rw [effects_concat, reportCount_append, after_concat]
    rcases moved.reports_once sequence with silent |
        ⟨once, ⟨job, found, supervised⟩, ending, refusals, kept, rfl⟩
    · rw [silent]
      refine ih.imp_right ?_
      rintro ⟨once, job, found, past⟩
      obtain ⟨next, later, turns⟩ := moved.becomes sound sequence job found
      exact ⟨once, next, later, turns.inactive past⟩
    · have active := job.isActive_of_supervised supervised
      have before : reportCount sequence (effects folder events) = 0 := by
        refine ih.resolve_right ?_
        rintro ⟨_, other, same, past⟩
        cases found.symm.trans same
        simp [active] at past
      obtain ⟨last, settled, latest, stale⟩ :=
        ended_of_supervised _ sound sequence job found supervised ending refusals kept
      have final : last.state.isFinal = true := by
        by_cases fit : (after folder events).workspace.isLive job.document = true ∧
            (after folder events).isCurrent job = true
        · rcases (latest fit).1 with done | failed
          · simp [done, JobState.isFinal]
          · simp [failed, JobState.isFinal]
        · simp [(stale fit).1, JobState.isFinal]
      have stage := (sound.step _).stage settled
      exact Or.inr ⟨by rw [before, once], last, settled, stage.inactive_of_final final⟩

/-- The sink of a job that is not over has not been called. -/
theorem reportCount_of_active {folder : UnitFolder} {events : List Event} {sequence : Nat}
    {job : Job} (found : (after folder events).job? sequence = some job)
    (active : job.isActive = true) : reportCount sequence (effects folder events) = 0 := by
  apply (reportCount_effects folder events sequence).resolve_right
  rintro ⟨_, other, same, past⟩
  cases found.symm.trans same
  rw [active] at past
  cases past

theorem reportCount_run_of_inactive (supervisor : Supervisor) (sound : supervisor.WellFormed)
    (sequence : Nat) (job : Job) (found : supervisor.job? sequence = some job)
    (past : job.isActive = false) (events : List Event) :
    reportCount sequence (supervisor.run events).2 = 0 := by
  induction events generalizing supervisor job with
  | nil => rfl
  | cons event rest ih =>
    have moved := transition supervisor sound event
    obtain ⟨next, later, turns⟩ := moved.becomes sound sequence job found
    have silent : reportCount sequence (supervisor.step event).2 = 0 := by
      refine (moved.reports_once sequence).resolve_right ?_
      rintro ⟨_, ⟨other, same, supervised⟩, _⟩
      cases found.symm.trans same
      simp [job.isActive_of_supervised supervised] at past
    simp only [run, reportCount_append, silent, ih _ (sound.step event) next later
      (turns.inactive past)]

/-- Exactly once, and only the latest. Over any run a sink is called at most once, and only when the
process of its job ends. It is then called if and only if the job's document is live and, since the
job was registered, its URI was neither asked for again nor dropped; if so the job is completed or
failed, else it is obsolete and nothing is delivered. From then on the job stays what it is. -/
theorem outcome_once_of_latest (folder : UnitFolder) (events : List Event) :
    (∀ sequence, reportCount sequence (effects folder events) ≤ 1) ∧
    (∀ event sequence, reportCount sequence ((after folder events).step event).2 ≠ 0 →
      (∃ job, (after folder events).job? sequence = some job ∧ job.isSupervised = true) ∧
        ∃ ending refusals kept, event = .ended sequence ending refusals kept) ∧
    (∀ early document asked late job, events = early ++ .requested document :: late →
      (after folder early).workspace.document? document = some asked →
      (after folder events).job? ((after folder early).jobs.length + 1) = some job →
      job.isSupervised = true → ∀ ending refusals kept,
        let ended := (after folder events).step (.ended job.sequence ending refusals kept)
        let latest := (after folder events).workspace.isLive document = true ∧
          (after folder (early ++ [.requested document])).Undisturbed asked.uri late
        (reportCount job.sequence ended.2 = 1 ↔ latest) ∧
          ∃ last, ended.1.job? job.sequence = some last ∧
            (latest → last.state = .completed ∨ last.state = .failed) ∧
            (¬ latest → last.state = .obsolete ∧ ∀ other, reportCount other ended.2 = 0)) ∧
    (∀ job ∈ (after folder events).jobs, job.state.isFinal = true → ∀ more,
      (∃ last, (after folder (events ++ more)).job? job.sequence = some last ∧
        last.state = job.state) ∧
        reportCount job.sequence ((after folder events).run more).2 = 0) := by
  have sound := wellFormed_after folder events
  have only (event : Event) (sequence : Nat)
      (called : reportCount sequence ((after folder events).step event).2 ≠ 0) :=
    (((transition _ sound event).reports_once sequence).resolve_left called).2
  refine ⟨?_, only, ?_, ?_⟩
  · intro sequence
    rcases reportCount_effects folder events sequence with never | ⟨once, _⟩ <;> omega
  · intro early document asked late job split present found supervised ending refusals kept
    -- The table test of the supervisor is the condition on the history.
    obtain ⟨captured, tabled⟩ := isCurrent_iff_undisturbed_since folder early late document asked
      job present (split ▸ found) (job.isActive_of_supervised supervised)
    have named := sequence_of_job? _ _ job found
    obtain ⟨last, settled, fit, unfit⟩ := ended_of_supervised _ sound job.sequence job
      (named ▸ found) supervised ending refusals kept
    rw [← split] at tabled
    rw [tabled, captured] at fit unfit
    refine ⟨⟨?_, fun latest => (fit latest).2⟩, last, settled, fun latest => (fit latest).1, ?_⟩
    · intro once
      by_contra stale
      have never := (unfit stale).2
      omega
    · intro stale
      refine ⟨(unfit stale).1, ?_⟩
      intro other
      by_contra called
      obtain ⟨_, _, _, _, same⟩ := only _ other called
      cases same
      exact called (unfit stale).2
  · intro job member final more
    -- A final state is not that of an active job, and an inactive job changes no more.
    have found := sound.job?_of_mem member
    have past := (sound.staged job member).inactive_of_final final
    obtain ⟨last, later, turns⟩ := becomes_run _ sound more job.sequence job found
    rw [← after_append] at later
    exact ⟨⟨last, later, (turns.settled past).1⟩,
      reportCount_run_of_inactive _ sound job.sequence job found past more⟩

/-- The second of two requests for a document delivers, and the first one does not. -/
theorem outcome_of_second_request :
    let folder : UnitFolder := { path := ['t'] }
    let early : List Event := [.opened ⟨['a'], some 1, ['x']⟩, .requested 0, .launched 1 7]
    let state := after folder (early ++ [.requested 0, .launched 2 8])
    reportCount 2 (state.step (.ended 2 (.finished (some 0) [] []) ⟨none, none⟩ none)).2 = 1 ∧
      reportCount 1 (state.step (.ended 1 (.finished (some 0) [] []) ⟨none, none⟩ none)).2 ≠ 1 := by
  intro folder early state
  have delivered := (outcome_once_of_latest folder (early ++ [.requested 0, .launched 2 8])).2.2.1
  have second := delivered early 0 ⟨['a'], some 1, ['x']⟩ [.launched 2 8] _ rfl rfl rfl rfl
    (.finished (some 0) [] []) ⟨none, none⟩ none
  have first := delivered [.opened ⟨['a'], some 1, ['x']⟩] 0 ⟨['a'], some 1, ['x']⟩
    [.launched 1 7, .requested 0, .launched 2 8] _ rfl rfl rfl rfl
    (.finished (some 0) [] []) ⟨none, none⟩ none
  refine ⟨second.1.mpr ⟨rfl, ?_, by simp, by simp⟩, fun once => ?_⟩
  · intro document member
    exact absurd member (List.not_mem_nil)
  · have undisturbed := (first.1.mp once).2
    exact undisturbed.unasked ⟨['a'], some 1, ['x']⟩ (List.mem_singleton.mpr rfl) rfl

end Supervisor

end FormWatch
