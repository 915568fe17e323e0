import FormWatch.Proofs.Supervisor.Correspondence
import FormWatch.Proofs.Supervisor.Kill
import FormWatch.Proofs.Supervisor.Unfinished

/-!
Requests that come to nothing. A request whose snapshot cannot be taken leaves the supervisor as it
was, except for a unit that the system does not let go (`run_unwritten`). A request whose launch
fails removes what it brought, and nothing else; and the requests after it go on as they would have
gone without it, which is shown by running the supervisor again on the same events with the failed
job left out.
-/

namespace FormWatch.Supervisor

/-! ### Runs without one job -/

/-- The numbers that jobs have without one of them. -/
def lessOne (missing : Nat) : Renumbering where
  job sequence := if missing < sequence then sequence - 1 else sequence
  document := id
  pid := id

/-- Events as they are without one job. -/
def without (missing : Nat) (events : List Event) : List Event :=
  (events.filter (·.job? ≠ some missing)).map (lessOne missing).ofEvent

/-- Whether a supervisor is as another one would be without one job, as far as later jobs go. -/
structure LessOne (missing : Nat) (first second : Supervisor) : Prop where
  workspace : second.workspace = first.workspace
  counted : first.jobs.length = second.jobs.length + 1
  registered : missing ≤ first.jobs.length
  later : ∀ sequence job, missing < sequence → first.job? sequence = some job →
    Matches (lessOne missing) first second sequence job

theorem job?_lessOne_ne (missing : Nat) (event : Event) (sequence : Nat) (later : missing < sequence)
    (present : event.job? ≠ some missing) (elsewhere : event.job? ≠ some sequence) :
    ((lessOne missing).ofEvent event).job? ≠ some ((lessOne missing).job sequence) := by
  rw [job?_ofEvent]
  cases about : event.job? with
  | none => simp
  | some key =>
    have other : key ≠ sequence := fun same => elsewhere (same ▸ about)
    have there : key ≠ missing := fun same => present (same ▸ about)
    simp only [Option.map_some, lessOne, ne_eq, Option.some.injEq, later, if_true]
    split <;> omega

theorem reshape_lessOne (missing : Nat) (event : Event) (workspace : Workspace) :
    ((lessOne missing).ofEvent event).reshape workspace = event.reshape workspace := by
  cases event <;> rfl

namespace LessOne

variable {missing : Nat} {first second : Supervisor}

/-- A later job goes on standing for its counterpart. -/
theorem later_step (less : LessOne missing first second) (sound : first.WellFormed)
    (sound' : second.WellFormed) (event : Event) (present : event.job? ≠ some missing)
    (sequence : Nat) (old job : Job) (later : missing < sequence)
    (before : first.job? sequence = some old)
    (found : (first.step event).1.job? sequence = some job) :
    Matches (lessOne missing) (first.step event).1
      (second.step ((lessOne missing).ofEvent event)).1 sequence job := by
  have same := less.later sequence old later before
  by_cases about : event.job? = some sequence
  · obtain ⟨last, still, _⟩ := same.step event about
    cases found.symm.trans still.found
    exact still
  · have one := beside_step first sound event sequence old before about
    have other := beside_step second sound' _ _ _ same.twin
      (job?_lessOne_ne missing event sequence later present about)
    cases found.symm.trans one.found
    rw [displaces_ofEvent _ first second event _ fun index _ => by rw [less.workspace]; rfl]
      at other
    have workspace : (second.step ((lessOne missing).ofEvent event)).1.workspace =
        (first.step event).1.workspace := by
      rw [workspace_step, workspace_step, reshape_lessOne, less.workspace]
    exact same.beside one other (by rw [workspace]; rfl) (by rw [workspace]; rfl)

/-- An event that is not about the missing job happens on both sides. -/
theorem step (less : LessOne missing first second) (sound : first.WellFormed)
    (sound' : second.WellFormed)
    (kept : ∀ unit ∈ first.units.units.map Prod.fst, unit ≤ first.units.made)
    (kept' : ∀ unit ∈ second.units.units.map Prod.fst, unit ≤ second.units.made)
    (event : Event) (present : event.job? ≠ some missing) :
    LessOne missing (first.step event).1 (second.step ((lessOne missing).ofEvent event)).1 where
  workspace := by
    rw [workspace_step, workspace_step, reshape_lessOne, less.workspace]
  counted := by
    have snapshot : second.snapshot? ((lessOne missing).ofEvent event) = first.snapshot? event := by
      cases event <;> simp [snapshot?, Renumbering.ofEvent, lessOne, less.workspace]
    rw [(transition first sound event).length_jobs, (transition second sound' _).length_jobs,
      snapshot, less.counted]
    omega
  registered := by
    rw [(transition first sound event).length_jobs]
    exact Nat.le_add_right_of_le less.registered
  later sequence job later found := by
    rcases (transition first sound event).origin sound sequence job found with
      ⟨old, before, _⟩ | ⟨index, asked, rfl, taken, registered, rfl⟩
    · exact less.later_step sound sound' event present sequence old job later before found
    · have numbered : (lessOne missing).job (first.jobs.length + 1) = second.jobs.length + 1 := by
        have counted := less.counted
        simp only [lessOne]
        rw [if_pos later]
        omega
      have taken' : second.workspace.document? index = some asked := by
        rw [less.workspace, taken]
      have registered' : (second.step ((lessOne missing).ofEvent (.requested index))).1 =
          second.register index asked := by
        simp [Renumbering.ofEvent, lessOne, Supervisor.step, request, taken']
      rw [registered'] at *
      rw [registered] at found ⊢
      exact Matches.registered sound sound' kept kept' numbered index asked
        (by rw [less.workspace]; rfl) (by rw [less.workspace]; rfl) job found

/-- An event about the missing job happens on one side only. -/
theorem skip (less : LessOne missing first second) (sound : first.WellFormed) (event : Event)
    (about : event.job? = some missing) : LessOne missing (first.step event).1 second where
  workspace := by
    rw [less.workspace, workspace_step_of_job first event missing about]
  counted := by
    have unasked : first.snapshot? event = none := by
      cases event <;> simp [Event.job?] at about <;> rfl
    rw [(transition first sound event).length_jobs, less.counted, unasked]
    rfl
  registered := by
    rw [(transition first sound event).length_jobs]
    exact Nat.le_add_right_of_le less.registered
  later sequence job later found := by
    have elsewhere : event.job? ≠ some sequence := by
      rw [about]
      simp only [ne_eq, Option.some.injEq]
      omega
    rcases (transition first sound event).origin sound sequence job found with
      ⟨old, before, _⟩ | ⟨index, asked, rfl, _⟩
    · have same := less.later sequence old later before
      have one := beside_step first sound event sequence old before elsewhere
      cases found.symm.trans one.found
      have undisplaced : first.Displaces event job.uri = False :=
        eq_false (not_displaces_of_job first event missing about job.uri)
      rw [undisplaced] at one
      have workspace := workspace_step_of_job first event missing about
      exact same.beside one (.refl same.twin) (by rw [workspace, same.document])
        (by rw [workspace, same.live])
    · simp [Event.job?] at about

end LessOne

/-! ### What later jobs deliver -/

def Effect.outcome? (sequence : Nat) : Effect → Option (Outcome × Option Failure)
  | .report other outcome refusal => if other = sequence then some (outcome, refusal) else none
  | _ => none

/-- The outcomes that effects hand to the sink of a job, with the refusals of them. -/
def outcomesOf (sequence : Nat) (effects : List Effect) : List (Outcome × Option Failure) :=
  effects.filterMap (·.outcome? sequence)

@[simp] theorem outcomesOf_append (sequence : Nat) (early late : List Effect) :
    outcomesOf sequence (early ++ late) = outcomesOf sequence early ++ outcomesOf sequence late :=
  List.filterMap_append

theorem outcomesOf_deeds (sequence : Nat) (effects : List Effect) :
    outcomesOf sequence (deeds effects) = outcomesOf sequence effects := by
  rw [outcomesOf, deeds, List.filterMap_filter, outcomesOf]
  apply List.filterMap_congr
  intro effect _
  cases effect <;> rfl

theorem outcomesOf_eq_nil (sequence : Nat) (effects : List Effect)
    (silent : ∀ outcome refusal, .report sequence outcome refusal ∉ effects) :
    outcomesOf sequence effects = [] := by
  rw [outcomesOf, List.filterMap_eq_nil_iff]
  intro effect member
  cases effect with
  | report other outcome refusal =>
    have apart : other ≠ sequence := by
      rintro rfl
      exact silent outcome refusal member
    simp [Effect.outcome?, apart]
  | _ => rfl

/-- An event that is not about a job delivers nothing of it. -/
theorem outcomesOf_elsewhere (supervisor : Supervisor) (sound : supervisor.WellFormed)
    (event : Event) (sequence : Nat)
    (elsewhere : event.job? ≠ some sequence ∨ supervisor.job? sequence = none) :
    outcomesOf sequence (supervisor.step event).2 = [] := by
  apply outcomesOf_eq_nil
  intro outcome refusal reported
  obtain ⟨⟨_, _, _, rfl⟩, job, found, _⟩ :=
    undropped_of_reported supervisor sound event sequence outcome refusal reported
  rcases elsewhere with other | missing
  · exact other rfl
  · simp [missing] at found

/-- Effects that report one job only report the same outcomes under another number. -/
theorem outcomesOf_lessOne (missing sequence : Nat) (effects : List Effect)
    (only : ∀ other outcome refusal, .report other outcome refusal ∈ effects → other = sequence) :
    outcomesOf ((lessOne missing).job sequence) (effects.map (lessOne missing).ofEffect) =
      outcomesOf sequence effects := by
  have pids (outcome : Outcome) : (lessOne missing).ofOutcome outcome = outcome := by
    rcases outcome with _ | (_ | _ | _) <;> rfl
  induction effects with
  | nil => rfl
  | cons effect rest ih =>
    have tail := ih fun other outcome refusal later =>
      only other outcome refusal (List.mem_cons_of_mem effect later)
    cases effect with
    | report other outcome refusal =>
      have mine := only other outcome refusal List.mem_cons_self
      subst mine
      simpa [outcomesOf, Renumbering.ofEffect, Effect.outcome?, pids] using tail
    | _ => exact tail

namespace LessOne

variable {missing : Nat} {first second : Supervisor}

theorem outcomesOf_step (less : LessOne missing first second) (sound : first.WellFormed)
    (sound' : second.WellFormed) (event : Event) (present : event.job? ≠ some missing)
    (sequence : Nat) (later : missing < sequence) :
    outcomesOf (sequence - 1) (second.step ((lessOne missing).ofEvent event)).2 =
      outcomesOf sequence (first.step event).2 := by
  have numbered : sequence - 1 = (lessOne missing).job sequence := by simp [lessOne, later]
  rw [numbered]
  cases found : first.job? sequence with
  | none =>
    -- The job is not there yet, on either side.
    have absent : second.job? ((lessOne missing).job sequence) = none := by
      cases there : second.job? ((lessOne missing).job sequence) with
      | none => rfl
      | some job =>
        have bound := sound'.job?_le there
        have within : sequence ≤ first.jobs.length := by
          have counted := less.counted
          omega
        have listed : sequence ∈ first.jobs.map Job.sequence := by
          rw [sound.numbered, List.mem_range'_1]
          omega
        obtain ⟨old, member, same⟩ := List.mem_map.mp listed
        have known := sound.job?_of_mem member
        rw [same, found] at known
        cases known
    rw [outcomesOf_elsewhere first sound event sequence (Or.inr found),
      outcomesOf_elsewhere second sound' _ _ (Or.inr absent)]
  | some job =>
    have same := less.later sequence job later found
    by_cases about : event.job? = some sequence
    · obtain ⟨_, _, effects⟩ := same.step event about
      rw [← outcomesOf_deeds, effects, outcomesOf_lessOne, outcomesOf_deeds]
      intro other outcome refusal reported
      obtain ⟨⟨_, _, _, rfl⟩, _⟩ := undropped_of_reported first sound event other outcome refusal
        (List.mem_of_mem_filter reported)
      simpa [Event.job?] using about
    · rw [outcomesOf_elsewhere first sound event sequence (Or.inl about),
        outcomesOf_elsewhere second sound' _ _
          (Or.inl (job?_lessOne_ne missing event sequence later present about))]

end LessOne

theorem without_concat (missing : Nat) (events : List Event) (event : Event) :
    without missing (events ++ [event]) = without missing events ++
      if event.job? = some missing then [] else [(lessOne missing).ofEvent event] := by
  by_cases about : event.job? = some missing <;> simp [without, about]

/-- A request makes one job more than there would be without it, and none after that one. -/
theorem lessOne_requested (supervisor : Supervisor) (sound : supervisor.WellFormed)
    (document : Nat) (asked : Document)
    (present : supervisor.workspace.document? document = some asked) :
    LessOne (supervisor.jobs.length + 1) (supervisor.step (.requested document)).1 supervisor := by
  have registered : (supervisor.step (.requested document)).1 =
      supervisor.register document asked := by
    simp [step, request, present]
  have sound' := sound.step (.requested document)
  rw [registered] at sound' ⊢
  refine ⟨rfl, by simp [register], by simp [register], fun sequence job later found => ?_⟩
  have bound := sound'.job?_le found
  simp only [register, List.length_append, List.length_singleton] at bound
  omega

/-- What the jobs after a request deliver is what they would deliver without it. -/
theorem outcomesOf_without (folder : UnitFolder) (early : List Event) (document : Nat)
    (asked : Document) (present : (after folder early).workspace.document? document = some asked)
    (late : List Event) :
    let missing := (after folder early).jobs.length + 1
    LessOne missing (after folder (early ++ Event.requested document :: late))
        (after folder (early ++ without missing late)) ∧
      ∀ sequence, missing < sequence →
        outcomesOf sequence ((after folder early).run (.requested document :: late)).2 =
          outcomesOf (sequence - 1) ((after folder early).run (without missing late)).2 := by
  intro missing
  induction late using List.reverseRecOn with
  | nil =>
    have sound := wellFormed_after folder early
    refine ⟨?_, fun sequence later => ?_⟩
    · rw [after_concat]
      simpa [without] using lessOne_requested _ sound document asked present
    · have silent := outcomesOf_elsewhere _ sound (.requested document) sequence
        (Or.inl (by simp [Event.job?]))
      simpa [without, run, outcomesOf] using silent
  | append_singleton late event ih =>
    obtain ⟨less, same⟩ := ih
    have split : early ++ Event.requested document :: (late ++ [event]) =
        (early ++ Event.requested document :: late) ++ [event] := by simp
    have sound := wellFormed_after folder (early ++ Event.requested document :: late)
    have sound' := wellFormed_after folder (early ++ without missing late)
    have effects (events : List Event) :
        ((after folder early).run (events ++ [event])).2 =
          ((after folder early).run events).2 ++ ((after folder (early ++ events)).step event).2 := by
      simp [run_append, run, after_append]
    rw [split, after_concat, without_concat]
    by_cases about : event.job? = some missing
    · rw [if_pos about, List.append_nil]
      refine ⟨less.skip sound event about, fun sequence later => ?_⟩
      have elsewhere : event.job? ≠ some sequence := by
        rw [about]
        simp only [ne_eq, Option.some.injEq]
        omega
      rw [← List.cons_append, effects, outcomesOf_append, same sequence later,
        outcomesOf_elsewhere _ sound event sequence (Or.inl elsewhere), List.append_nil]
    · rw [if_neg about]
      have kept := (filled_after folder (early ++ Event.requested document :: late)).numbered
      have kept' := (filled_after folder (early ++ without missing late)).numbered
      refine ⟨?_, fun sequence later => ?_⟩
      · rw [← List.append_assoc, after_concat]
        exact less.step sound sound' kept kept' event about
      · rw [← List.cons_append, effects, outcomesOf_append, same sequence later, run_append,
          outcomesOf_append, ← less.outcomesOf_step sound sound' event about sequence later,
          ← after_append]
        simp [run]

/-! ### Launches that fail -/

/-- Whether a job is withdrawn by a step, and nothing else is touched: it is idle, without a process
and off the table; the documents, the other jobs, their places in the table, their units and those
left unfinished are as they were. -/
structure Withdrawn (before next : Supervisor) (sequence : Nat) : Prop where
  idle : ∃ job, next.job? sequence = some job ∧ job.state = .idle ∧ job.handle = none
  untabled : ∀ uri, next.current? uri ≠ some sequence
  workspace : next.workspace = before.workspace
  counted : next.jobs.length = before.jobs.length
  jobs : ∀ other, other ≠ sequence → next.job? other = before.job? other
  table : ∀ uri other, other ≠ sequence →
    (next.current? uri = some other ↔ before.current? uri = some other)
  units : ∀ unit, unit ≠ sequence → next.units.content? unit = before.units.content? unit
  unfinished : next.units.unfinished = before.units.unfinished

/-- What a launch that fails as expected does. -/
theorem step_refused (supervisor : Supervisor) (sequence : Nat) (job : Job)
    (found : supervisor.job? sequence = some job) (pending : job.launching = true)
    (failure : Failure) (expected : (failure.isSystem || failure.isValue) = true)
    (kept : Option SystemFault) :
    supervisor.step (.launchFailed sequence failure kept) =
      ((supervisor.update { job.unlaunched with state := .idle }).retire job kept,
        [.launchFailed sequence failure, .log (.launchFailed job.uri failure)] ++
          supervisor.logKept job kept ++ [.answer .nothing]) := by
  simp only [step, failLaunch, found, pending, expected, if_true]

/-- A launch that fails withdraws its job. -/
theorem withdrawn_of_refused (supervisor : Supervisor) (sound : supervisor.WellFormed)
    (sequence : Nat) (job : Job) (found : supervisor.job? sequence = some job)
    (pending : job.launching = true) (failure : Failure)
    (expected : (failure.isSystem || failure.isValue) = true) (kept : Option SystemFault) :
    Withdrawn supervisor (supervisor.step (.launchFailed sequence failure kept)).1 sequence := by
  have turns := becomes_unlaunched job .idle pending
  have member := mem_of_job? supervisor sequence job found
  have named := sequence_of_job? supervisor sequence job found
  have unstarted := (sound.stage found).unstarted_of_launching pending
  have looked := job?_update_of_found supervisor sequence job _ found turns
  rw [step_refused supervisor sequence job found pending failure expected kept]
  refine ⟨⟨{ job.unlaunched with state := .idle }, ?_, rfl, unstarted⟩, ?_, rfl, by simp, ?_, ?_, ?_,
    ?_⟩
  · rw [job?_retire, looked, if_pos rfl]
  · intro uri
    rw [← named]
    exact current?_retire_update_ne supervisor sound job _ member kept uri
  · intro other apart
    rw [job?_retire, looked, if_neg apart]
  · intro uri other apart
    rw [current?_retire, current?_update, current?_update]
    split
    next mine =>
      -- The entry that goes is the job's own.
      rw [mine.1, mine.2, named]
      simp [Ne.symm apart]
    · rfl
  · intro unit apart
    rw [retire_units]
    split
    · rfl
    · rw [update_units, UnitFolder.content?_discard_of_ne]
      rw [sound.owned job member, named]
      exact apart
  · cases kept <;> rfl

/-- The unit of a withdrawn job goes, if the system lets it go. -/
theorem unit_of_refused (supervisor : Supervisor) (sound : supervisor.WellFormed)
    (sequence : Nat) (job : Job) (found : supervisor.job? sequence = some job)
    (pending : job.launching = true) (failure : Failure)
    (expected : (failure.isSystem || failure.isValue) = true) :
    (supervisor.step (.launchFailed sequence failure none)).1.units.content? sequence = none := by
  have owned := sound.owned job (mem_of_job? supervisor sequence job found)
  have named := sequence_of_job? supervisor sequence job found
  rw [step_refused supervisor sequence job found pending failure expected none, retire_units,
    owned, named]
  exact UnitFolder.content?_discard_self _ _

/-- A job that is not current never delivers. -/
theorem unreported_of_displaced (folder : UnitFolder) (events : List Event) (sequence : Nat)
    (job : Job) (found : (after folder events).job? sequence = some job)
    (displaced : ∀ uri, (after folder events).current? uri ≠ some sequence) (more : List Event)
    (outcome : Outcome) (refusal : Option Failure) :
    .report sequence outcome refusal ∉ ((after folder events).run more).2 := by
  refine unreported_of_dropped _ (wellFormed_after folder events) (titled_after folder events)
    sequence job found ?_ more outcome refusal
  intro latest
  have current := (isCurrent_iff _ job).mp ((dropReason?_eq_none_iff _ job).mp latest).2
  rw [sequence_of_job? _ sequence job found] at current
  exact displaced job.uri current

/-- A job that is still active has delivered nothing. -/
theorem unreported_of_active (folder : UnitFolder) (events : List Event) (sequence : Nat)
    (job : Job) (found : (after folder events).job? sequence = some job)
    (active : job.isActive = true) (outcome : Outcome) (refusal : Option Failure) :
    .report sequence outcome refusal ∉ effects folder events := by
  intro reported
  have called : reportCount sequence (effects folder events) ≠ 0 := by
    rw [← Nat.pos_iff_ne_zero, reportCount, List.countP_pos_iff]
    exact ⟨_, reported, by simp [Effect.reports]⟩
  exact called (reportCount_of_active found active)

theorem effects_append (folder : UnitFolder) (early late : List Event) :
    effects folder (early ++ late) = effects folder early ++ ((after folder early).run late).2 := by
  simp [effects, after, run_append]

/-- A job whose launch fails never delivers. -/
theorem unreported_of_refused (folder : UnitFolder) (events : List Event) (sequence : Nat)
    (job : Job) (found : (after folder events).job? sequence = some job)
    (pending : job.launching = true) (failure : Failure)
    (expected : (failure.isSystem || failure.isValue) = true) (kept : Option SystemFault)
    (more : List Event) (outcome : Outcome) (refusal : Option Failure) :
    .report sequence outcome refusal ∉
      effects folder (events ++ Event.launchFailed sequence failure kept :: more) := by
  have withdrawn := withdrawn_of_refused _ (wellFormed_after folder events) sequence job found
    pending failure expected kept
  rw [← after_concat] at withdrawn
  obtain ⟨last, later, _⟩ := withdrawn.idle
  rw [List.append_cons, effects_append, effects_concat, List.mem_append, List.mem_append, not_or,
    not_or]
  refine ⟨⟨unreported_of_active folder events sequence job found
    (job.isActive_of_launching pending) outcome refusal, ?_⟩,
    unreported_of_displaced folder _ sequence last later withdrawn.untabled more outcome refusal⟩
  intro reported
  obtain ⟨⟨_, _, _, same⟩, _⟩ := undropped_of_reported _ (wellFormed_after folder events) _
    sequence outcome refusal reported
  cases same

/-- The job that a request supersedes never delivers from then on. -/
theorem unreported_of_superseded (folder : UnitFolder) (early : List Event) (document : Nat)
    (asked : Document) (present : (after folder early).workspace.document? document = some asked)
    (previous : Nat) (current : (after folder early).current? asked.uri = some previous)
    (late : List Event) (outcome : Outcome) (refusal : Option Failure) :
    .report previous outcome refusal ∉
      ((after folder early).run (.requested document :: late)).2 := by
  have sound := wellFormed_after folder early
  obtain ⟨job, found, uri, _⟩ := sound.tracked asked.uri previous current
  obtain ⟨next, later, turns⟩ := becomes_step _ sound (.requested document) previous job found
  rw [← after_concat] at later
  have displaced (other : Text) :
      (after folder (early ++ [Event.requested document])).current? other ≠ some previous := by
    intro still
    -- It could only be current for its own URI, which has been asked for.
    obtain ⟨same, there, named, _⟩ :=
      (wellFormed_after folder (early ++ [Event.requested document])).tracked other previous still
    cases later.symm.trans there
    rw [← named, turns.uri, uri] at still
    exact displaced_of_requested folder early [] document asked previous present current still
  rw [run, List.mem_append, not_or, ← after_concat]
  refine ⟨?_, unreported_of_displaced folder _ previous next later displaced late outcome refusal⟩
  intro reported
  obtain ⟨⟨_, _, _, same⟩, _⟩ :=
    undropped_of_reported _ sound _ previous outcome refusal reported
  cases same

/-! ### Snapshots that cannot be taken -/

/-- A snapshot that cannot be taken is noted, and leaves at most an unfinished unit. However the run
goes on, it comes to what it would come to without the request, beside that unit. -/
theorem run_unwritten (supervisor : Supervisor) (uri : Text) (failure : Failure)
    (remnant : Option Remnant) (more : List Event) :
    supervisor.run (.unwritten uri failure remnant :: more) =
      ((supervisor.run more).1.withUnfinished
          (leftBy more ++ leftOf remnant ++ supervisor.units.unfinished),
        supervisor.logLeft remnant ++ abort uri failure ++ (supervisor.run more).2) := by
  have failed : supervisor.step (.unwritten uri failure remnant) =
      (supervisor.withUnfinished (leftOf remnant ++ supervisor.units.unfinished),
        supervisor.logLeft remnant ++ abort uri failure) := failWrite_eq ..
  simp only [run, failed, run_withUnfinished, List.append_assoc]

/-- If no unit was made, or the system removes it, the run is as it would be without the request. -/
theorem run_unwritten_of_removed (supervisor : Supervisor) (uri : Text) (failure : Failure)
    (remnant : Option Remnant) (removed : ∀ made, remnant = some made → made.kept = none)
    (more : List Event) :
    supervisor.run (.unwritten uri failure remnant :: more) =
      ((supervisor.run more).1, abort uri failure ++ (supervisor.run more).2) := by
  have left : leftOf remnant = [] ∧ supervisor.logLeft remnant = [] := by
    rcases remnant with _ | ⟨own, content, _ | fault⟩
    · exact ⟨rfl, rfl⟩
    · exact ⟨rfl, rfl⟩
    · cases removed _ rfl
  rw [run_unwritten, left.1, left.2, List.append_nil, List.nil_append, ← unfinished_run]
  rfl

/-- Requests that come to nothing are contained. If the snapshot cannot be taken, everything goes on
as if there had been no request; only if a unit was made for it that the system refuses to remove,
that unit stays, and the refusal is logged. If the launch fails in a way that the supervisor
expects, whatever happened since it began, the job is withdrawn and nothing else is touched; its
unit is gone unless the system keeps it; the request ends with no job; and its sink is never called.
The jobs after it deliver what they would deliver without it, and the job it superseded never
delivers. -/
theorem requests_contained (folder : UnitFolder) :
    (∀ events uri failure, failure.isSystem = true → ∀ more,
      let before := after folder events
      let told : List Effect := [.log (.snapshotFailed uri failure), .answer .nothing]
      (∀ remnant, (∀ made, remnant = some made → made.kept = none) →
        before.run (.unwritten uri failure remnant :: more) =
          ((before.run more).1, told ++ (before.run more).2)) ∧
      ∀ own content fault,
        let path := before.units.unitPath own
        let left := leftBy more ++ (own, content) :: before.units.unfinished
        before.run (.unwritten uri failure (some ⟨own, content, some fault⟩) :: more) =
          ((before.run more).1.withUnfinished left,
            .log (.unitKept path (.refused fault path)) :: told ++ (before.run more).2) ∧
        (before.run more).1.units.unfinished = leftBy more ++ before.units.unfinished) ∧
    (∀ early document asked during job failure kept,
      (after folder early).workspace.document? document = some asked →
      let sequence := (after folder early).jobs.length + 1
      let pending := after folder (early ++ Event.requested document :: during)
      let failed := pending.step (.launchFailed sequence failure kept)
      pending.job? sequence = some job → job.launching = true →
      (failure.isSystem || failure.isValue) = true →
      Withdrawn pending failed.1 sequence ∧
      (kept = none → failed.1.units.content? sequence = none) ∧
      failed.2 = [.launchFailed sequence failure, .log (.launchFailed job.uri failure)] ++
        pending.logKept job kept ++ [.answer .nothing] ∧
      ∀ more,
        (∀ outcome refusal, .report sequence outcome refusal ∉ effects folder
          (early ++ Event.requested document :: (during ++
            Event.launchFailed sequence failure kept :: more))) ∧
        (∀ newer, sequence < newer →
          outcomesOf newer ((after folder early).run (.requested document ::
              (during ++ Event.launchFailed sequence failure kept :: more))).2 =
            outcomesOf (newer - 1) ((after folder early).run
              (without sequence (during ++ more))).2) ∧
        ∀ previous, (after folder early).current? asked.uri = some previous →
          ∀ outcome refusal, .report previous outcome refusal ∉
            ((after folder early).run (.requested document ::
              (during ++ Event.launchFailed sequence failure kept :: more))).2) := by
  constructor
  · intro events uri failure system more before told
    have reply : abort uri failure = told := if_pos system
    refine ⟨?_, ?_⟩
    · intro remnant removed
      rw [run_unwritten_of_removed before uri failure remnant removed more, reply]
    · intro own content fault path left
      refine ⟨?_, unfinished_run before more⟩
      rw [run_unwritten, reply, List.append_assoc]
      rfl
  · intro early document asked during job failure kept present sequence pending failed found
      launching expected
    have sound := wellFormed_after folder (early ++ Event.requested document :: during)
    refine ⟨withdrawn_of_refused _ sound sequence job found launching failure expected kept, ?_, ?_,
      ?_⟩
    · rintro rfl
      exact unit_of_refused _ sound sequence job found launching failure expected
    · exact congrArg Prod.snd
        (step_refused _ sequence job found launching failure expected kept)
    · intro more
      refine ⟨?_, ?_, ?_⟩
      · intro outcome refusal
        have silent := unreported_of_refused folder _ sequence job found launching failure expected
          kept more outcome refusal
        rwa [List.append_assoc, List.cons_append] at silent
      · intro newer later
        have left : without sequence (during ++ Event.launchFailed sequence failure kept :: more) =
            without sequence (during ++ more) := by
          simp [without, Event.job?]
        rw [← left]
        exact (outcomesOf_without folder early document asked present _).2 newer later
      · intro previous current outcome refusal
        exact unreported_of_superseded folder early document asked present previous current _
          outcome refusal

/-- A second request fails to launch after a third one has come: the third job stays current and
delivers what it would deliver without the second, and the first job never delivers. A request
whose snapshot breaks off changes nothing for any of them, and its unit stays only if the system
keeps it. -/
theorem second_request_contained :
    let folder : UnitFolder := { path := ['t'] }
    let early : List Event := [.opened ⟨['a'], some 1, ['x']⟩, .requested 0, .launched 1 7]
    let failure : Failure := .refused .noSuchFile ['c']
    let failed := ((after folder (early ++ [Event.requested 0, .requested 0])).step
      (.launchFailed 2 failure none)).1
    let ended (sequence : Nat) : Event :=
      .ended sequence (.finished (some 1) [] []) ⟨none, none⟩ none
    let broken (kept : Option SystemFault) : Event :=
      .unwritten ['a'] failure (some ⟨['w'], [120], kept⟩)
    let more : List Event := [.launched 3 8, ended 1, ended 3]
    let told := ((after folder early).run
      ([Event.requested 0, .requested 0, .launchFailed 2 failure none] ++ more)).2
    failed.current? ['a'] = some 3 ∧ failed.units.content? 2 = none ∧
      (outcomesOf 3 told).length = 1 ∧
      outcomesOf 3 told =
        outcomesOf 2 ((after folder early).run (without 2 ([Event.requested 0] ++ more))).2 ∧
      (∀ outcome refusal, .report 1 outcome refusal ∉ told) ∧
      ((after folder early).run (broken none :: [ended 1])).1 =
        ((after folder early).run [ended 1]).1 ∧
      ((after folder early).run (broken (some .permissionDenied) :: [ended 1])).1.units.unfinished =
        [(['w'], [120])] := by
  intro folder early failure failed ended broken more told
  obtain ⟨unwritten, refused⟩ := requests_contained folder
  obtain ⟨removed, stays⟩ := unwritten early ['a'] failure rfl [ended 1]
  obtain ⟨withdrawn, gone, _, later⟩ := refused early 0 ⟨['a'], some 1, ['x']⟩ [.requested 0]
    { sequence := 2, uri := ['a'], document := 0, unit := 2 } failure none rfl rfl rfl rfl
  obtain ⟨_, newer, older⟩ := later more
  refine ⟨?_, gone rfl, by decide +kernel, newer 3 (by decide), older 1 rfl, ?_, ?_⟩
  · exact (withdrawn.table ['a'] 3 (by decide)).mpr (by decide +kernel)
  · rw [removed _ (by rintro made ⟨⟩; rfl)]
  · rw [(stays ['w'] [120] .permissionDenied).1]
    rfl

end FormWatch.Supervisor
