import FormWatch.Proofs.Supervisor.Delivery

/-!
Clients that refuse. Whether a client takes an outcome or raises a failure is told in the report and
in a line of the log, and nowhere else: with all refusals taken back, the same events lead to the
same state, by the same effects but for what tells of the refusals (`run_accepted`).
-/

namespace FormWatch.Supervisor

/-- A client that takes every outcome. -/
def Refusals.never : Refusals := ⟨none, none⟩

/-- An event whose client takes what it is handed. -/
def Event.accepted : Event → Event
  | .ended sequence ending _ kept => .ended sequence ending .never kept
  | event => event

/-- What remains of an effect once nothing is refused: the refusal of a report is taken back, and
the line that tells of it is not written. -/
def Effect.accepted? : Effect → Option Effect
  | .report sequence outcome _ => some (.report sequence outcome none)
  | .log (.notReported _ _) => none
  | effect => some effect

def accepted (effects : List Effect) : List Effect :=
  effects.filterMap Effect.accepted?

@[simp] theorem accepted_append (early late : List Effect) :
    accepted (early ++ late) = accepted early ++ accepted late :=
  List.filterMap_append

/-! ### Effects that tell of no refusal -/

theorem accepted_eq_self {effects : List Effect}
    (same : ∀ effect ∈ effects, effect.accepted? = some effect) : accepted effects = effects := by
  rw [accepted, List.filterMap_congr same, List.filterMap_some]

@[simp] theorem accepted_killOf (job : Job) : accepted (killOf job) = killOf job := by
  unfold killOf
  split <;> rfl

theorem accepted_killOf? (job : Option Job) :
    accepted ((job.map killOf).getD []) = (job.map killOf).getD [] := by
  cases job with
  | none => rfl
  | some job => exact accepted_killOf job

@[simp] theorem accepted_logKept (supervisor : Supervisor) (job : Job) (kept : Option SystemFault) :
    accepted (supervisor.logKept job kept) = supervisor.logKept job kept := by
  cases kept <;> rfl

theorem accepted_logLeft (supervisor : Supervisor) (remnant : Option Remnant) :
    accepted (supervisor.logLeft remnant) = supervisor.logLeft remnant := by
  rcases remnant with _ | ⟨own, content, _ | fault⟩ <;> rfl

theorem accepted_abort (uri : Text) (failure : Failure) :
    accepted (abort uri failure) = abort uri failure := by
  unfold abort
  split <;> rfl

theorem accepted_stop (supervisor : Supervisor) : accepted supervisor.stop.2 = supervisor.stop.2 := by
  apply accepted_eq_self
  intro effect member
  obtain ⟨entry, _, kill⟩ := List.mem_flatMap.mp member
  cases found : supervisor.job? entry.2 with
  | none => simp [found] at kill
  | some job =>
    rw [found, Option.map_some, Option.getD_some] at kill
    unfold killOf at kill
    split at kill
    · rw [List.mem_singleton.mp kill]
      rfl
    · cases kill

/-- No verdict logs a refusal; it is reached before anything is handed over. -/
theorem accepted_logs (supervisor : Supervisor) (job : Job) (pid : Nat)
    (result : Except Failure ProcessResult) :
    accepted ((supervisor.verdict job pid result).logs.map .log) =
      (supervisor.verdict job pid result).logs.map .log := by
  have reasons (reason : LogEntry) (dropped : supervisor.dropReason? job = some reason) :
      Effect.accepted? (.log reason) = some (.log reason) := by
    unfold dropReason? at dropped
    split at dropped
    · cases dropped
      rfl
    · split at dropped
      · cases dropped
        rfl
      · cases dropped
  have crashed (failure : Failure) :
      accepted ((supervisor.crashVerdict job failure).logs.map .log) =
        (supervisor.crashVerdict job failure).logs.map .log := by
    unfold crashVerdict
    split
    next reason dropped =>
      apply accepted_eq_self
      exact List.forall_mem_cons.mpr
        ⟨rfl, List.forall_mem_singleton.mpr (reasons reason dropped)⟩
    · rfl
  cases result with
  | error failure => exact crashed failure
  | ok result =>
    simp only [verdict, resultVerdict]
    split
    next reason dropped =>
      apply accepted_eq_self
      exact List.forall_mem_singleton.mpr (reasons reason dropped)
    · split
      · rfl
      · split
        · rfl
        · exact crashed _
        · rfl

/-! ### Steps and runs -/

theorem accepted_deliver (sequence : Nat) (refusals : Refusals) (outcome : Outcome) :
    accepted (deliver sequence refusals outcome) = deliver sequence .never outcome := by
  have none : Refusals.never.of outcome = none := by cases outcome <;> rfl
  unfold deliver
  rw [none]
  split <;> rfl

theorem complete_accepted (supervisor : Supervisor) (job : Job) (handle : ProcessHandle)
    (result : Except Failure ProcessResult) (refusals : Refusals) (kept : Option SystemFault) :
    supervisor.complete job handle result .never kept =
      ((supervisor.complete job handle result refusals kept).1,
        accepted (supervisor.complete job handle result refusals kept).2) := by
  simp only [complete_eq, accepted_append, accepted_logs, accepted_logKept]
  cases (supervisor.verdict job handle.pid result).outcome with
  | none => rfl
  | some outcome => rw [Option.map_some, Option.map_some, Option.getD_some, Option.getD_some,
      accepted_deliver]

theorem finish_accepted (supervisor : Supervisor) (sequence : Nat) (ending : Ending)
    (refusals : Refusals) (kept : Option SystemFault) :
    supervisor.finish sequence ending .never kept =
      ((supervisor.finish sequence ending refusals kept).1,
        accepted (supervisor.finish sequence ending refusals kept).2) := by
  unfold finish
  split
  · rfl
  · split
    · rfl
    · split
      · rfl
      · dsimp only
        split
        · rfl
        · exact complete_accepted _ _ _ _ _ _

/-- A step is the same whether or not its client refuses. -/
theorem step_accepted (supervisor : Supervisor) (event : Event) :
    supervisor.step event.accepted =
      ((supervisor.step event).1, accepted (supervisor.step event).2) := by
  cases event with
  | ended sequence ending refusals kept => exact finish_accepted _ _ _ _ _
  | opened | loaded | edited | closed | exited | vanished | forgotten => rfl
  | requested document =>
    simp only [Event.accepted, step, request]
    split
    · rfl
    · rw [accepted_append, accepted_killOf?]
      rfl
  | unwritten uri failure remnant =>
    simp only [Event.accepted, step, failWrite_eq]
    rw [accepted_append, accepted_logLeft, accepted_abort]
  | launched sequence pid =>
    simp only [Event.accepted, step, launch]
    split
    · rfl
    next job _ =>
      split
      · rw [accepted_append, accepted_append]
        have kill : accepted (if supervisor.isCurrent job then [] else killOf (job.launched pid)) =
            if supervisor.isCurrent job then [] else killOf (job.launched pid) := by
          split
          · rfl
          · exact accepted_killOf _
        rw [kill]
        rfl
      · rfl
  | launchFailed sequence failure kept =>
    simp only [Event.accepted, step, failLaunch]
    split
    · rfl
    · split
      · split
        · rw [accepted_append, accepted_append, accepted_logKept]
          rfl
        · rfl
      · rfl
  | shutdown =>
    show supervisor.stop = _
    rw [step, accepted_stop]

/-- A run is the same whether or not its clients refuse. -/
theorem run_accepted (supervisor : Supervisor) (events : List Event) :
    supervisor.run (events.map Event.accepted) =
      ((supervisor.run events).1, accepted (supervisor.run events).2) := by
  induction events generalizing supervisor with
  | nil => rfl
  | cons event rest ih => simp only [List.map_cons, run, step_accepted, ih, accepted_append]

end FormWatch.Supervisor
