import FormWatch.Proofs.Supervisor.Containment
import FormWatch.Proofs.Supervisor.Refusals

/-!
What the current job of a live document comes to. Whatever its process gives, it delivers one
outcome: the records of the report if the process ended with status zero and the report can be read,
and then the job is completed; else a panic, and the job has failed. The outcome is handed over when
the job is off the table and its unit discarded, and if the client refuses it nothing is changed by
that (`completion_of_current`).
-/

namespace FormWatch

namespace Supervisor

/-! ### Verdicts -/

/-- What a job delivers by what waiting gave, and the state in which that leaves it: for records the
list of them, each where it is in the document, and else a panic. -/
structure Concludes (result : Except Failure ProcessResult) (document : Document)
    (outcome : Outcome) (state : JobState) : Prop where
  diagnostics : ∀ resolved, outcome = .diagnostics resolved ↔
    ∃ given records, result = .ok given ∧ given.status = 0 ∧
      Report.parse given.stdout = .ok records ∧
      resolved = records.map fun record =>
        ⟨document.uri, Span.resolve document.text record.position, record.level, record.message⟩
  completed : state = .completed ↔ ∃ resolved, outcome = .diagnostics resolved
  failed : state = .failed ↔ ∃ cause, outcome = .panic cause

theorem concludes_of_records {result : Except Failure ProcessResult} {document : Document}
    {given : ProcessResult} {records : List Record} (gave : result = .ok given)
    (well : given.status = 0) (parsed : Report.parse given.stdout = .ok records) :
    Concludes result document
      (.diagnostics (records.map (Record.resolve document.uri document.text))) .completed where
  diagnostics resolved := by
    constructor
    · intro same
      cases same
      exact ⟨given, records, gave, well, parsed, rfl⟩
    · rintro ⟨given', records', gave', _, parsed', rfl⟩
      cases gave.symm.trans gave'
      cases parsed.symm.trans parsed'
      rfl
  completed := iff_of_true rfl ⟨_, rfl⟩
  failed := by simp

theorem concludes_of_panic {result : Except Failure ProcessResult} {document : Document}
    (cause : Panic)
    (unreadable : ∀ given records, result = .ok given → given.status = 0 →
      Report.parse given.stdout ≠ .ok records) :
    Concludes result document (.panic cause) .failed where
  diagnostics resolved := by
    constructor
    · intro same
      cases same
    · rintro ⟨given, records, gave, well, parsed, _⟩
      exact absurd parsed (unreadable given records gave well)
  completed := by simp
  failed := iff_of_true rfl ⟨cause, rfl⟩

/-- The verdict on a job that is not dropped. -/
theorem concludes_of_latest (supervisor : Supervisor) (job : Job) (document : Document) (pid : Nat)
    (result : Except Failure ProcessResult) (latest : supervisor.dropReason? job = none)
    (present : supervisor.workspace.document? job.document = some document)
    (uri : document.uri = job.uri) :
    ∃ outcome, (supervisor.verdict job pid result).outcome = some outcome ∧
      Concludes result document outcome (supervisor.verdict job pid result).state := by
  have text : supervisor.textOf job = document.text := by
    rw [textOf, present]
    rfl
  cases result with
  | error failure =>
    simp only [verdict, crashVerdict, latest]
    refine ⟨_, rfl, concludes_of_panic _ ?_⟩
    intro given records gave
    cases gave
  | ok given =>
    simp only [verdict, resultVerdict, latest]
    split
    next ill =>
      refine ⟨_, rfl, concludes_of_panic _ ?_⟩
      intro given' records gave well
      cases gave
      exact absurd well ill
    next well =>
      rw [ne_eq, not_not] at well
      -- A report that cannot be read, one with a number that is too long, or records.
      split
      next faulty =>
        refine ⟨_, rfl, concludes_of_panic _ ?_⟩
        intro given' records gave _ parsed
        cases gave
        cases faulty.symm.trans parsed
      next oversized =>
        simp only [crashVerdict, latest]
        refine ⟨_, rfl, concludes_of_panic _ ?_⟩
        intro given' records gave _ parsed
        cases gave
        cases oversized.symm.trans parsed
      next records parsed =>
        rw [text, ← uri]
        exact ⟨_, rfl, concludes_of_records rfl well parsed⟩

/-! ### The order of a completion -/

/-- When a client is called, the state is already that in which the completion ends. -/
theorem moments_of_report (supervisor : Supervisor) (job : Job) (handle : ProcessHandle)
    (result : Except Failure ProcessResult) (refusals : Refusals) (kept : Option SystemFault)
    (state : Supervisor) (sequence : Nat) (outcome : Outcome) (refusal : Option Failure)
    (member : (state, .report sequence outcome refusal) ∈
      supervisor.moments job handle result refusals kept) :
    state = (supervisor.complete job handle result refusals kept).1 := by
  rw [complete_eq]
  simp only [moments, play_completion, List.mem_append, List.mem_map, Prod.mk.injEq] at member
  rcases member with (⟨_, _, _, same⟩ | ⟨effect, logged, _, rfl⟩) | ⟨_, _, same, _⟩
  · cases same
  · cases kept with
    | none => cases logged
    | some fault => cases List.mem_singleton.mp logged
  · exact same.symm

/-! ### Current jobs -/

section

variable {supervisor : Supervisor} {sequence : Nat} {job : Job}

/-- A job whose process has ended is current nowhere. -/
theorem current?_complete (sound : supervisor.WellFormed)
    (found : supervisor.job? sequence = some job) (handle : ProcessHandle)
    (result : Except Failure ProcessResult) (refusals : Refusals) (kept : Option SystemFault)
    (uri : Text) :
    (supervisor.complete job handle result refusals kept).1.current? uri ≠ some sequence := by
  rw [complete_eq, ← sequence_of_job? supervisor sequence job found]
  exact current?_retire_update_ne supervisor sound job _ (mem_of_job? _ _ _ found) kept uri

/-- The unit of a job whose process has ended is gone, if the system lets it go. -/
theorem unit_complete (sound : supervisor.WellFormed) (found : supervisor.job? sequence = some job)
    (handle : ProcessHandle) (result : Except Failure ProcessResult) (refusals : Refusals) :
    (supervisor.complete job handle result refusals none).1.units.content? sequence = none := by
  rw [complete_eq, retire_units, sound.unit_of_job? found]
  exact UnitFolder.content?_discard_self _ _

/-- A job that is not dropped delivers one outcome when its process ends, and is over then. -/
theorem delivers_of_latest (sound : supervisor.WellFormed)
    (found : supervisor.job? sequence = some job) {handle : ProcessHandle}
    (started : job.handle = some handle) (running : handle.ending = none)
    (latest : supervisor.dropReason? job = none) {document : Document}
    (present : supervisor.workspace.document? job.document = some document)
    (uri : document.uri = job.uri) (ending : Ending) (refusals : Refusals)
    (kept : Option SystemFault) :
    let done := supervisor.complete job (handle.finish ending) ending.result refusals kept
    ∃ outcome last, done.1.job? sequence = some last ∧ last.isActive = false ∧
      Concludes ending.result document outcome last.state ∧
      .report sequence outcome (refusals.of outcome) ∈ done.2 ∧
      ∀ other, reportCount other done.2 = if sequence = other then 1 else 0 := by
  intro done
  have named := sequence_of_job? supervisor sequence job found
  obtain ⟨outcome, delivered, concludes⟩ := concludes_of_latest supervisor job document
    (handle.finish ending).pid ending.result latest present uri
  have turns := becomes_settled supervisor job handle (handle.finish ending) ending.result started
    running
  have closed : done = _ := complete_eq ..
  refine ⟨outcome, supervisor.settled job (handle.finish ending) ending.result, ?_, ?_, concludes,
    ?_, ?_⟩
  · rw [closed, job?_retire, job?_update_of_found supervisor sequence job _ found turns, if_pos rfl]
  · exact inactive_settled supervisor (sound.stage found) handle ending _ started running
  · rw [closed]
    -- The outcome comes behind all that is logged.
    apply List.mem_append_right
    rw [delivered, Option.map_some, Option.getD_some, named]
    unfold deliver
    split
    next taken => rw [taken]; exact List.mem_cons_self
    next failure refused => rw [refused]; exact List.mem_cons_self
  · intro other
    rw [reportCount_complete, delivered, named, Option.isSome_some]
    simp only [and_true]

end

/-- What a job delivers when it ends is all that it delivers in a run, however the run goes on. -/
theorem reportCount_of_ended {folder : UnitFolder} {events : List Event} {sequence : Nat}
    {job last : Job} {event : Event} (found : (after folder events).job? sequence = some job)
    (active : job.isActive = true) {count : Nat}
    (now : reportCount sequence ((after folder events).step event).2 = count)
    (settled : ((after folder events).step event).1.job? sequence = some last)
    (past : last.isActive = false) (more : List Event) :
    reportCount sequence (effects folder (events ++ event :: more)) = count := by
  have before := reportCount_of_active found active
  have sound := (wellFormed_after folder events).step event
  have behind := reportCount_run_of_inactive _ sound sequence last settled past more
  calc reportCount sequence (effects folder (events ++ event :: more))
      = reportCount sequence (effects folder events) +
          reportCount sequence ((after folder events).step event).2 +
          reportCount sequence (((after folder events).step event).1.run more).2 := by
        rw [List.append_cons, effects_append, effects_concat, after_concat, reportCount_append,
          reportCount_append]
    _ = count := by rw [before, now, behind, Nat.zero_add, Nat.add_zero]

/-- The process of a current job ends, the job's document being live. Then one outcome is delivered,
and over any run that goes on from there no other one: the records of the report, each where it is
in the document as it is now, if the process ended with status zero and the report can be read, and
the job is completed then; else a panic, and the job has failed. When the client is called, the job
is off the table, and its unit is gone unless the system keeps it. And a run in which clients refuse
leads to the same state, and to the same outcomes and other effects, as one in which none does. -/
theorem completion_of_current (folder : UnitFolder) (events : List Event) (sequence : Nat)
    (job : Job) (found : (after folder events).job? sequence = some job)
    (supervised : job.isSupervised = true)
    (live : (after folder events).workspace.isLive job.document = true)
    (current : (after folder events).isCurrent job = true) (ending : Ending) (refusals : Refusals)
    (kept : Option SystemFault) :
    let event := Event.ended sequence ending refusals kept
    let done := (after folder events).step event
    (∃ outcome document last,
      (after folder events).workspace.document? job.document = some document ∧
      document.uri = job.uri ∧ done.1.job? sequence = some last ∧
      Concludes ending.result document outcome last.state ∧
      .report sequence outcome (refusals.of outcome) ∈ done.2) ∧
    (∀ other, reportCount other done.2 = if sequence = other then 1 else 0) ∧
    (∀ more, reportCount sequence (effects folder (events ++ event :: more)) = 1) ∧
    (∃ handle, job.handle = some handle ∧
      let moments := (after folder events).moments job (handle.finish ending) ending.result refusals
        kept
      moments.map Prod.snd = done.2 ∧
      ∀ state other outcome refusal, (state, .report other outcome refusal) ∈ moments →
        state = done.1 ∧ (∀ uri, state.current? uri ≠ some sequence) ∧
          (kept = none → state.units.content? sequence = none)) ∧
    (∀ more,
      after folder ((events ++ event :: more).map Event.accepted) =
        after folder (events ++ event :: more) ∧
      effects folder ((events ++ event :: more).map Event.accepted) =
        accepted (effects folder (events ++ event :: more))) := by
  intro event done
  have sound := wellFormed_after folder events
  obtain ⟨handle, started, running⟩ := job.isSupervised_iff.mp supervised
  have gave := result_of_finish (sound.stage found) handle started running ending
  have complete : done = (after folder events).complete job (handle.finish ending) ending.result
      refusals kept :=
    finish_eq_complete _ sequence job handle ending.result ending refusals kept found started running
      gave
  have latest := (dropReason?_eq_none_iff _ job).mpr ⟨live, current⟩
  obtain ⟨document, present, uri⟩ := titled_after folder events sequence job found
  obtain ⟨outcome, last, settled, past, concludes, reported, counted⟩ := delivers_of_latest sound
    found started running latest present uri ending refusals kept
  rw [← complete] at settled reported counted
  refine ⟨⟨outcome, document, last, present, uri, settled, concludes, reported⟩, counted, ?_, ?_, ?_⟩
  · have now := counted sequence
    rw [if_pos rfl] at now
    exact reportCount_of_ended found (job.isActive_of_supervised supervised) now settled past
  · refine ⟨handle, started, ?_, ?_⟩
    · rw [complete]
      rfl
    · intro state other outcome refusal member
      rw [moments_of_report _ _ _ _ _ _ _ _ _ _ member]
      refine ⟨by rw [complete], current?_complete sound found _ _ _ _, ?_⟩
      rintro rfl
      exact unit_complete sound found _ _ _
  · intro more
    rw [after, effects, run_accepted]
    exact ⟨rfl, rfl⟩

/-- A client that refuses a list is called when the job is off the table and its unit is gone; the
job is completed all the same. -/
theorem completion_refused_by_client :
    let folder : UnitFolder := { path := ['t'] }
    let events : List Event := [.opened ⟨['a'], some 1, ['(']⟩, .requested 0, .launched 1 7]
    let stdout := Utf8.encode ":lisp-compile-output-start\n[[\"m\", 0, null, \"note\"]]\n".toList
    let refusal : Failure := .badState "no".toList
    let done := (after folder events).step
      (.ended 1 (.finished (some 0) stdout []) ⟨some refusal, none⟩ none)
    (∃ resolved, .report 1 (.diagnostics resolved) (some refusal) ∈ done.2) ∧
      (∃ last, done.1.job? 1 = some last ∧ last.state = .completed) ∧
      done.1.current? ['a'] ≠ some 1 ∧ done.1.units.content? 1 = none := by
  intro folder events stdout refusal done
  obtain ⟨⟨outcome, document, last, _, _, settled, concludes, reported⟩, _, _,
    ⟨handle, _, same, called⟩, _⟩ := completion_of_current folder events 1
      (Job.launched 7 { sequence := 1, uri := ['a'], document := 0, unit := 1 }) rfl rfl rfl rfl
      (.finished (some 0) stdout []) ⟨some refusal, none⟩ none
  obtain ⟨records, parsed⟩ : ∃ records, Report.parse (Utf8.decodeLenient stdout) = .ok records := by
    have read : (Report.parse (Utf8.decodeLenient stdout)).toBool = true := by decide +kernel
    cases parsed : Report.parse (Utf8.decodeLenient stdout) with
    | ok records => exact ⟨records, rfl⟩
    | error fault =>
      rw [parsed] at read
      cases read
  have listed := (concludes.diagnostics _).mpr ⟨_, records, rfl, rfl, parsed, rfl⟩
  rw [listed] at reported
  have moment := reported
  rw [← same] at moment
  obtain ⟨⟨state, effect⟩, member, rfl⟩ := List.mem_map.mp moment
  obtain ⟨rfl, untabled, gone⟩ := called state _ _ _ member
  exact ⟨⟨_, reported⟩, ⟨last, settled, concludes.completed.mpr ⟨_, listed⟩⟩, untabled ['a'],
    gone rfl⟩

end Supervisor

end FormWatch
