import FormWatch.Proofs.Supervisor.Locality

/-!
Jobs of two supervisors that stand for each other: the same jobs under other numbers, made of the
same documents and run by processes that go by other numbers. Whatever happens to one of them,
happening to the other under its numbers, comes to the same; and they go on standing for each other
as long as either both lose their URI or neither does.
-/

namespace FormWatch

/-- Other numbers for jobs, documents and processes. -/
structure Renumbering where
  job : Nat → Nat
  document : Nat → Nat
  pid : Nat → Nat

variable (names : Renumbering)

namespace Renumbering

def ofHandle (handle : ProcessHandle) : ProcessHandle :=
  { handle with pid := names.pid handle.pid }

/-- A job under other numbers; its unit has the number of the job. -/
def ofJob (job : Job) : Job :=
  { job with
    sequence := names.job job.sequence
    document := names.document job.document
    unit := names.job job.unit
    handle := job.handle.map names.ofHandle }

def ofPanic : Panic → Panic
  | .crashed uri failure => .crashed uri failure
  | .exited pid status output => .exited (names.pid pid) status output
  | .unreadable pid status cause output => .unreadable (names.pid pid) status cause output

def ofOutcome : Outcome → Outcome
  | .diagnostics resolved => .diagnostics resolved
  | .panic cause => .panic (names.ofPanic cause)

open Supervisor

def ofEvent : Event → Event
  | .edited document version text => .edited (names.document document) version text
  | .requested document => .requested (names.document document)
  | .launched sequence pid => .launched (names.job sequence) (names.pid pid)
  | .launchFailed sequence failure kept => .launchFailed (names.job sequence) failure kept
  | .exited sequence status => .exited (names.job sequence) status
  | .vanished sequence => .vanished (names.job sequence)
  | .ended sequence ending refusals kept => .ended (names.job sequence) ending refusals kept
  | event => event

def ofAnswer : Answer → Answer
  | .job sequence => .job (names.job sequence)
  | answer => answer

/-- An effect under other numbers; a line of the log is not renumbered. -/
def ofEffect : Effect → Effect
  | .start sequence => .start (names.job sequence)
  | .launch sequence pid unit => .launch (names.job sequence) (names.pid pid) unit
  | .launchFailed sequence failure => .launchFailed (names.job sequence) failure
  | .kill sequence pid attempt => .kill (names.job sequence) (names.pid pid) attempt
  | .log entry => .log entry
  | .answer answer => .answer (names.ofAnswer answer)
  | .report sequence outcome refusal =>
    .report (names.job sequence) (names.ofOutcome outcome) refusal

/-! ### Handles under other numbers -/

@[simp] theorem ofHandle_settle (handle : ProcessHandle) :
    (names.ofHandle handle).settle = names.ofHandle handle.settle := by
  obtain ⟨pid, status, vanished, ending, waited, result⟩ := handle
  cases waited <;> cases result <;> rcases ending with _ | ⟨_, _, _⟩ | _ <;> rfl

@[simp] theorem ofHandle_finish (ending : Ending) (handle : ProcessHandle) :
    (names.ofHandle handle).finish ending = names.ofHandle (handle.finish ending) := by
  simp only [ProcessHandle.finish]
  cases running : handle.ending with
  | some other => simp [ofHandle, running]
  | none =>
    have same : (names.ofHandle handle).ending = none := running
    rw [same]
    exact ofHandle_settle names { handle with ending := some ending }

@[simp] theorem killOf_ofJob (job : Job) :
    killOf (names.ofJob job) = (killOf job).map names.ofEffect := by
  cases started : job.handle with
  | none => simp [killOf, ofJob, started]
  | some handle =>
    simp only [killOf, ofJob, started, Option.map_some]
    rfl

theorem refusals_of_ofOutcome (refusals : Refusals) (outcome : Outcome) :
    refusals.of (names.ofOutcome outcome) = refusals.of outcome := by
  cases outcome <;> rfl

end Renumbering

namespace Supervisor

/-! ### Effects that are no lines of the log -/

def Effect.isLog : Effect → Bool
  | .log _ => true
  | _ => false

/-- The effects that are no lines of the log. -/
def deeds (effects : List Effect) : List Effect :=
  effects.filter fun effect => !effect.isLog

@[simp] theorem deeds_nil : deeds [] = [] := rfl

@[simp] theorem deeds_append (early late : List Effect) :
    deeds (early ++ late) = deeds early ++ deeds late :=
  List.filter_append ..

@[simp] theorem deeds_cons (effect : Effect) (rest : List Effect) :
    deeds (effect :: rest) = if effect.isLog then deeds rest else effect :: deeds rest := by
  cases log : effect.isLog <;> simp [deeds, log]

@[simp] theorem deeds_killOf (job : Job) : deeds (killOf job) = killOf job := by
  cases started : job.handle <;> simp [killOf, started, Effect.isLog]

@[simp] theorem deeds_logKept (supervisor : Supervisor) (job : Job) (kept : Option SystemFault) :
    deeds (supervisor.logKept job kept) = [] := by
  cases kept <;> rfl

@[simp] theorem deeds_logLeft (supervisor : Supervisor) (remnant : Option Remnant) :
    deeds (supervisor.logLeft remnant) = [] := by
  rcases remnant with _ | ⟨own, content, _ | fault⟩ <;> rfl

@[simp] theorem deeds_map (effects : List Effect) :
    deeds (effects.map names.ofEffect) = (deeds effects).map names.ofEffect := by
  induction effects with
  | nil => rfl
  | cons effect rest ih =>
    have same : (names.ofEffect effect).isLog = effect.isLog := by cases effect <;> rfl
    cases log : effect.isLog <;> simp [same, log, ih]

theorem deeds_deliver (sequence : Nat) (refusals : Refusals) (outcome : Outcome) :
    deeds (deliver sequence refusals outcome) =
      [.report sequence outcome (refusals.of outcome)] := by
  unfold deliver
  split
  next accepted => simp [accepted, Effect.isLog]
  next failure refused => simp [refused, Effect.isLog]

theorem deeds_complete (supervisor : Supervisor) (job : Job) (handle : ProcessHandle)
    (result : Except Failure ProcessResult) (refusals : Refusals) (kept : Option SystemFault) :
    deeds (supervisor.complete job handle result refusals kept).2 =
      ((supervisor.verdict job handle.pid result).outcome.map fun outcome =>
        [.report job.sequence outcome (refusals.of outcome)]).getD [] := by
  have logs (entries : List LogEntry) : deeds (entries.map .log) = [] := by
    induction entries with
    | nil => rfl
    | cons entry rest ih => simpa [Effect.isLog] using ih
  cases outcome : (supervisor.verdict job handle.pid result).outcome with
  | none => simp [complete_eq, outcome, logs]
  | some value => simp [complete_eq, outcome, logs, deeds_deliver]

/-! ### Jobs that stand for each other -/

/-- Whether a job of the first supervisor, under other numbers, is a job of the second. -/
structure Matches (first second : Supervisor) (sequence : Nat) (job : Job) : Prop where
  found : first.job? sequence = some job
  twin : second.job? (names.job sequence) = some (names.ofJob job)
  current : second.current? job.uri = some (names.job sequence) ↔
    first.current? job.uri = some sequence
  document : second.workspace.document? (names.document job.document) =
    first.workspace.document? job.document
  live : second.workspace.isLive (names.document job.document) =
    first.workspace.isLive job.document
  unit : second.units.content? (names.job job.unit) = first.units.content? job.unit

namespace Matches

variable {names : Renumbering} {first second : Supervisor} {sequence : Nat} {job : Job}

theorem isCurrent (same : Matches names first second sequence job) :
    second.isCurrent (names.ofJob job) = first.isCurrent job := by
  have named := sequence_of_job? first sequence job same.found
  rw [Bool.eq_iff_iff, isCurrent_iff, isCurrent_iff, named]
  have numbered : (names.ofJob job).sequence = names.job sequence := by rw [← named]; rfl
  rw [numbered]
  exact same.current

/-- One job is put in its place on both sides. -/
theorem update (same : Matches names first second sequence job) (new : Job)
    (turns : job.Becomes new) :
    Matches names (first.update new) (second.update (names.ofJob new)) sequence new where
  found := by
    rw [job?_update_of_found first sequence job new same.found turns, if_pos rfl]
  twin := by
    have named := sequence_of_job? first sequence job same.found
    have numbered : (names.ofJob new).sequence = names.job sequence := by
      rw [← named, ← turns.sequence]
      rfl
    rw [job?_update, numbered, if_pos rfl, same.twin]
    rfl
  current := by
    rw [turns.uri]
    exact same.current
  document := by
    rw [turns.document]
    exact same.document
  live := by
    rw [turns.document]
    exact same.live
  unit := by
    rw [turns.unit]
    exact same.unit

/-- One job is put in its place and retired on both sides. -/
theorem retire (same : Matches names first second sequence job) (new : Job)
    (turns : job.Becomes new) (kept : Option SystemFault) :
    Matches names ((first.update new).retire job kept)
      ((second.update (names.ofJob new)).retire (names.ofJob job) kept) sequence new := by
  have updated := same.update new turns
  have named := sequence_of_job? first sequence job same.found
  refine ⟨updated.found, updated.twin, ?_, updated.document, updated.live, ?_⟩
  · rw [current?_retire, current?_retire, turns.uri, ← named]
    -- A retired job has no URI any more, on either side.
    have gone (supervisor : Supervisor) (key : Nat) (uri : Text) :
        (if uri = uri ∧ supervisor.current? uri = some key then none
          else supervisor.current? uri) ≠ some key := by
      split
      · simp
      next other => exact fun current => other ⟨rfl, current⟩
    exact iff_of_false (gone _ _ _) (gone _ _ _)
  · rw [retire_units, retire_units]
    cases kept with
    | some fault => exact updated.unit
    | none =>
      have numbered : (names.ofJob job).unit = names.job new.unit := by rw [turns.unit]; rfl
      simp only [Option.isSome_none, Bool.false_eq_true, if_false, numbered, turns.unit,
        UnitFolder.content?_discard_self]

/-- An event about neither of two jobs leaves them standing for each other, if both are displaced
by what happens or neither is, and if their documents are alike afterwards. -/
theorem beside (same : Matches names first second sequence job) {next next' : Supervisor}
    {displaced : Prop} (one : Beside first next sequence job displaced)
    (other : Beside second next' (names.job sequence) (names.ofJob job) displaced)
    (document : next'.workspace.document? (names.document job.document) =
      next.workspace.document? job.document)
    (live : next'.workspace.isLive (names.document job.document) =
      next.workspace.isLive job.document) : Matches names next next' sequence job where
  found := one.found
  twin := other.found
  current := by
    have current := other.current
    rw [show (names.ofJob job).uri = job.uri from rfl, same.current] at current
    exact current.trans one.current.symm
  document := document
  live := live
  unit := other.unit.trans (same.unit.trans one.unit.symm)

/-! ### What happens to one happens to the other -/

theorem dropReason? (same : Matches names first second sequence job) :
    second.dropReason? (names.ofJob job) = none ↔ first.dropReason? job = none := by
  rw [dropReason?_eq_none_iff, dropReason?_eq_none_iff, same.isCurrent,
    show (names.ofJob job).document = names.document job.document from rfl, same.live]

theorem textOf (same : Matches names first second sequence job) :
    second.textOf (names.ofJob job) = first.textOf job := by
  rw [Supervisor.textOf, Supervisor.textOf,
    show (names.ofJob job).document = names.document job.document from rfl, same.document]

/-- The verdicts on both jobs are the same, up to the numbers of processes in what is told. -/
theorem verdict (same : Matches names first second sequence job) (pid : Nat)
    (result : Except Failure ProcessResult) :
    (second.verdict (names.ofJob job) (names.pid pid) result).state =
        (first.verdict job pid result).state ∧
      (second.verdict (names.ofJob job) (names.pid pid) result).outcome =
        (first.verdict job pid result).outcome.map names.ofOutcome := by
  have uri : (names.ofJob job).uri = job.uri := rfl
  cases reason : first.dropReason? job with
  | some cause =>
    obtain ⟨cause', reason'⟩ : ∃ cause', second.dropReason? (names.ofJob job) = some cause' := by
      rw [← Option.ne_none_iff_exists', ne_eq, same.dropReason?, reason]
      simp
    obtain ⟨state, silent⟩ := verdict_of_dropped first job pid result cause reason
    obtain ⟨state', silent'⟩ := verdict_of_dropped second _ (names.pid pid) result cause' reason'
    simp [state, state', silent, silent']
  | none =>
    have reason' := same.dropReason?.mpr reason
    cases result with
    | error failure =>
      simp [Supervisor.verdict, crashVerdict, reason, reason', Renumbering.ofOutcome,
        Renumbering.ofPanic, uri]
    | ok result =>
      simp only [Supervisor.verdict, resultVerdict, reason, reason', same.textOf, uri]
      split
      · exact ⟨rfl, rfl⟩
      · split <;> simp [crashVerdict, reason, reason', Renumbering.ofOutcome,
          Renumbering.ofPanic, uri]

theorem launch (same : Matches names first second sequence job) (pid : Nat) :
    ∃ last, Matches names (first.launch sequence pid).1
        (second.launch (names.job sequence) (names.pid pid)).1 sequence last ∧
      deeds (second.launch (names.job sequence) (names.pid pid)).2 =
        (deeds (first.launch sequence pid).2).map names.ofEffect := by
  have pending : (names.ofJob job).launching = job.launching := rfl
  simp only [Supervisor.launch, same.found, same.twin, pending]
  split
  next launching =>
    refine ⟨job.launched pid, same.update _ (becomes_launched job pid launching), ?_⟩
    have unit : (names.ofJob job).unit = names.job job.unit := rfl
    have runs : (names.ofJob job).launched (names.pid pid) = names.ofJob (job.launched pid) := rfl
    cases current : first.isCurrent job <;>
      simp [same.isCurrent, current, unit, runs, same.unit, Effect.isLog, Renumbering.ofEffect,
        Renumbering.ofAnswer]
  · exact ⟨job, same, rfl⟩

theorem failLaunch (same : Matches names first second sequence job) (failure : Failure)
    (kept : Option SystemFault) :
    ∃ last, Matches names (first.failLaunch sequence failure kept).1
        (second.failLaunch (names.job sequence) failure kept).1 sequence last ∧
      deeds (second.failLaunch (names.job sequence) failure kept).2 =
        (deeds (first.failLaunch sequence failure kept).2).map names.ofEffect := by
  have pending : (names.ofJob job).launching = job.launching := rfl
  simp only [Supervisor.failLaunch, same.found, same.twin, pending]
  split
  next launching =>
    split
    · exact ⟨_, same.retire _ (becomes_unlaunched job .idle launching) kept,
        by simp [Effect.isLog, Renumbering.ofEffect, Renumbering.ofAnswer]⟩
    · exact ⟨_, same.update _ (becomes_unlaunched job job.state launching),
        by simp [Effect.isLog, Renumbering.ofEffect, Renumbering.ofAnswer]⟩
  · exact ⟨job, same, rfl⟩

theorem updateHandle (same : Matches names first second sequence job)
    (change : ProcessHandle → ProcessHandle)
    (ending : ∀ handle, (change handle).ending = handle.ending)
    (numbered : ∀ handle, change (names.ofHandle handle) = names.ofHandle (change handle)) :
    ∃ last, Matches names (first.updateHandle sequence change)
      (second.updateHandle (names.job sequence) change) sequence last := by
  cases started : job.handle with
  | none =>
    have started' : (names.ofJob job).handle = none := by simp [Renumbering.ofJob, started]
    simp only [Supervisor.updateHandle, same.found, same.twin, started, started']
    exact ⟨job, same⟩
  | some handle =>
    have started' : (names.ofJob job).handle = some (names.ofHandle handle) := by
      simp [Renumbering.ofJob, started]
    simp only [Supervisor.updateHandle, same.found, same.twin, started, started', numbered]
    exact ⟨_, same.update { job with handle := some (change handle) }
      (becomes_informed job handle _ started (ending handle))⟩

theorem complete (same : Matches names first second sequence job) (old handle : ProcessHandle)
    (started : job.handle = some old) (running : old.ending = none)
    (result : Except Failure ProcessResult) (refusals : Refusals) (kept : Option SystemFault) :
    ∃ last, Matches names (first.complete job handle result refusals kept).1
        (second.complete (names.ofJob job) (names.ofHandle handle) result refusals kept).1
        sequence last ∧
      deeds (second.complete (names.ofJob job) (names.ofHandle handle) result refusals kept).2 =
        (deeds (first.complete job handle result refusals kept).2).map names.ofEffect := by
  obtain ⟨state, outcome⟩ := same.verdict handle.pid result
  have pid : (names.ofHandle handle).pid = names.pid handle.pid := rfl
  have settled : second.settled (names.ofJob job) (names.ofHandle handle) result =
      names.ofJob (first.settled job handle result) := by
    simp only [Supervisor.settled, pid, state]
    rfl
  refine ⟨first.settled job handle result, ?_, ?_⟩
  · rw [complete_eq, complete_eq, settled]
    exact same.retire _ (becomes_settled first job old handle result started running) kept
  · rw [deeds_complete, deeds_complete, pid, outcome]
    cases (first.verdict job handle.pid result).outcome with
    | none => rfl
    | some told => simp [Renumbering.ofEffect, names.refusals_of_ofOutcome, Renumbering.ofJob]

theorem finish (same : Matches names first second sequence job) (ending : Ending)
    (refusals : Refusals) (kept : Option SystemFault) :
    ∃ last, Matches names (first.finish sequence ending refusals kept).1
        (second.finish (names.job sequence) ending refusals kept).1 sequence last ∧
      deeds (second.finish (names.job sequence) ending refusals kept).2 =
        (deeds (first.finish sequence ending refusals kept).2).map names.ofEffect := by
  cases started : job.handle with
  | none =>
    have started' : (names.ofJob job).handle = none := by simp [Renumbering.ofJob, started]
    simp only [Supervisor.finish, same.found, same.twin, started, started']
    exact ⟨job, same, rfl⟩
  | some handle =>
    have started' : (names.ofJob job).handle = some (names.ofHandle handle) := by
      simp [Renumbering.ofJob, started]
    have numbered : (names.ofHandle handle).ending = handle.ending := rfl
    simp only [Supervisor.finish, same.found, same.twin, started, started', numbered,
      Renumbering.ofHandle_finish]
    cases running : handle.ending with
    | some _ => exact ⟨job, same, rfl⟩
    | none =>
      have gave : (names.ofHandle (handle.finish ending)).result = (handle.finish ending).result :=
        rfl
      simp only [Option.isSome_none, Bool.false_eq_true, if_false, gave]
      split
      · exact ⟨_, same.update { job with handle := some (handle.finish ending) }
          (.of_active (job.isActive_of_supervised
            (job.isSupervised_iff.mpr ⟨handle, started, running⟩)) rfl rfl rfl rfl id
            (fun _ => rfl)), rfl⟩
      · exact same.complete handle _ started running _ refusals kept

/-- An event about one of two jobs, happening to the other under its numbers, has the same effects
under its numbers, and they go on standing for each other. -/
theorem step (same : Matches names first second sequence job) (event : Event)
    (about : event.job? = some sequence) :
    ∃ last, Matches names (first.step event).1 (second.step (names.ofEvent event)).1
        sequence last ∧
      deeds (second.step (names.ofEvent event)).2 =
        (deeds (first.step event).2).map names.ofEffect := by
  cases event <;> simp only [Event.job?, Option.some.injEq, reduceCtorEq] at about <;>
    subst about
  case launched pid => exact same.launch pid
  case launchFailed failure kept => exact same.failLaunch failure kept
  case exited status =>
    obtain ⟨last, still⟩ := same.updateHandle (·.exit status) (fun _ => rfl) (fun _ => rfl)
    exact ⟨last, still, rfl⟩
  case vanished =>
    obtain ⟨last, still⟩ := same.updateHandle (·.vanish) (fun _ => rfl) (fun _ => rfl)
    exact ⟨last, still, rfl⟩
  case ended ending refusals kept => exact same.finish ending refusals kept

/-- Jobs registered for the same document stand for each other. -/
theorem registered (sound : first.WellFormed) (sound' : second.WellFormed)
    (kept : ∀ unit ∈ first.units.units.map Prod.fst, unit ≤ first.units.made)
    (kept' : ∀ unit ∈ second.units.units.map Prod.fst, unit ≤ second.units.made)
    (numbered : names.job (first.jobs.length + 1) = second.jobs.length + 1) (index : Nat)
    (asked : Document)
    (document : second.workspace.document? (names.document index) =
      first.workspace.document? index)
    (live : second.workspace.isLive (names.document index) = first.workspace.isLive index)
    (new : Job)
    (found : (first.register index asked).job? (first.jobs.length + 1) = some new) :
    Matches names (first.register index asked) (second.register (names.document index) asked)
      (first.jobs.length + 1) new := by
  have made := found
  rw [sound.job?_register, if_pos rfl] at made
  cases made
  refine ⟨found, ?_, ?_, document, live, ?_⟩
  · rw [sound'.job?_register, numbered, if_pos rfl]
    simp only [Renumbering.ofJob, sound.counted, sound'.counted, numbered, Option.map_none]
  · rw [current?_register, current?_register, if_pos rfl, if_pos rfl, numbered]
    simp
  · have written (supervisor : Supervisor) (place : Nat) :
        (supervisor.register place asked).units = supervisor.units.write asked.text := rfl
    rw [written, written, UnitFolder.content?_write asked.text first.units kept]
    simp only [sound.counted, numbered, ← sound'.counted]
    exact UnitFolder.content?_write asked.text second.units kept'

end Matches

/-! ### Events under other numbers -/

theorem job?_ofEvent (event : Event) : (names.ofEvent event).job? = event.job?.map names.job := by
  cases event <;> rfl

theorem displaces_ofEvent (first second : Supervisor) (event : Event) (uri : Text)
    (document : ∀ index, event = .requested index →
      second.workspace.document? (names.document index) = first.workspace.document? index) :
    second.Displaces (names.ofEvent event) uri = first.Displaces event uri := by
  cases event with
  | requested index => simp [Displaces, snapshot?, Event.drops, Renumbering.ofEvent, document index rfl]
  | _ => rfl

end Supervisor

end FormWatch
