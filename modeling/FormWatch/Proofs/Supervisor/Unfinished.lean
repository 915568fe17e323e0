import FormWatch.Proofs.Supervisor.Run

/-!
Units that are left of snapshots that could not be written. Nothing that a supervisor does depends
on them: a step does the same whichever of them there are, and adds at most the one that its own
event leaves (`step_withUnfinished`). So after a run there are exactly those that the events of the
run leave (`unfinished_after`).
-/

namespace FormWatch.Supervisor

/-- The units that events leave unfinished, latest first. -/
def leftBy (events : List Event) : List (Text × Bytes) :=
  events.reverse.flatMap Event.left

@[simp] theorem leftBy_nil : leftBy [] = [] := rfl

@[simp] theorem leftBy_cons (event : Event) (rest : List Event) :
    leftBy (event :: rest) = leftBy rest ++ event.left := by
  simp [leftBy]

theorem leftBy_append (early late : List Event) :
    leftBy (early ++ late) = leftBy late ++ leftBy early := by
  simp [leftBy]

/-! ### Nothing depends on unfinished units -/

section

variable (left : List (Text × Bytes)) (supervisor : Supervisor)

theorem request_withUnfinished (document : Nat) :
    (supervisor.withUnfinished left).request document =
      ((supervisor.request document).1.withUnfinished left, (supervisor.request document).2) := by
  have held : (supervisor.withUnfinished left).workspace = supervisor.workspace := rfl
  simp only [request, held]
  split <;> rfl

theorem launch_withUnfinished (sequence pid : Nat) :
    (supervisor.withUnfinished left).launch sequence pid =
      ((supervisor.launch sequence pid).1.withUnfinished left,
        (supervisor.launch sequence pid).2) := by
  have jobs : (supervisor.withUnfinished left).job? sequence = supervisor.job? sequence := rfl
  simp only [launch, jobs]
  split
  · rfl
  · split <;> rfl

theorem retire_withUnfinished (job : Job) (kept : Option SystemFault) :
    (supervisor.withUnfinished left).retire job kept =
      (supervisor.retire job kept).withUnfinished left := by
  cases kept <;> rfl

theorem failLaunch_withUnfinished (sequence : Nat) (failure : Failure)
    (kept : Option SystemFault) :
    (supervisor.withUnfinished left).failLaunch sequence failure kept =
      ((supervisor.failLaunch sequence failure kept).1.withUnfinished left,
        (supervisor.failLaunch sequence failure kept).2) := by
  have jobs : (supervisor.withUnfinished left).job? sequence = supervisor.job? sequence := rfl
  simp only [failLaunch, jobs]
  split
  · rfl
  · split
    · split
      · -- Only here is a unit discarded, which is not among the unfinished ones.
        rw [← retire_withUnfinished]
        cases kept <;> rfl
      · rfl
    · rfl

theorem updateHandle_withUnfinished (sequence : Nat) (change : ProcessHandle → ProcessHandle) :
    (supervisor.withUnfinished left).updateHandle sequence change =
      (supervisor.updateHandle sequence change).withUnfinished left := by
  have jobs : (supervisor.withUnfinished left).job? sequence = supervisor.job? sequence := rfl
  simp only [updateHandle, jobs]
  split
  · rfl
  · split <;> rfl

theorem complete_withUnfinished (job : Job) (handle : ProcessHandle)
    (result : Except Failure ProcessResult) (refusals : Refusals) (kept : Option SystemFault) :
    (supervisor.withUnfinished left).complete job handle result refusals kept =
      ((supervisor.complete job handle result refusals kept).1.withUnfinished left,
        (supervisor.complete job handle result refusals kept).2) := by
  rw [complete_eq, complete_eq, ← retire_withUnfinished]
  cases kept <;> rfl

theorem finish_withUnfinished (sequence : Nat) (ending : Ending) (refusals : Refusals)
    (kept : Option SystemFault) :
    (supervisor.withUnfinished left).finish sequence ending refusals kept =
      ((supervisor.finish sequence ending refusals kept).1.withUnfinished left,
        (supervisor.finish sequence ending refusals kept).2) := by
  have jobs : (supervisor.withUnfinished left).job? sequence = supervisor.job? sequence := rfl
  simp only [finish, jobs]
  split
  · rfl
  · split
    · rfl
    · split
      · rfl
      · split
        · rfl
        · exact complete_withUnfinished left supervisor _ _ _ refusals kept

/-- A step does the same whichever units are unfinished, and adds the one that its event leaves. -/
theorem step_withUnfinished (event : Event) :
    (supervisor.withUnfinished left).step event =
      ((supervisor.step event).1.withUnfinished (event.left ++ left),
        (supervisor.step event).2) := by
  cases event with
  | requested document => exact request_withUnfinished left supervisor document
  | unwritten uri failure remnant =>
    simp only [step, failWrite_eq, Event.left]
    rfl
  | launched sequence pid => exact launch_withUnfinished left supervisor sequence pid
  | launchFailed sequence failure kept =>
    exact failLaunch_withUnfinished left supervisor sequence failure kept
  | exited sequence status =>
    exact congrArg (·, []) (updateHandle_withUnfinished left supervisor sequence (·.exit status))
  | vanished sequence =>
    exact congrArg (·, []) (updateHandle_withUnfinished left supervisor sequence (·.vanish))
  | ended sequence ending refusals kept =>
    exact finish_withUnfinished left supervisor sequence ending refusals kept
  | opened | loaded | edited | closed | forgotten | shutdown => rfl

end

/-! ### Runs -/

theorem run_withUnfinished (left : List (Text × Bytes)) (supervisor : Supervisor)
    (events : List Event) :
    (supervisor.withUnfinished left).run events =
      ((supervisor.run events).1.withUnfinished (leftBy events ++ left),
        (supervisor.run events).2) := by
  -- What an event leaves is already there for the events after it.
  induction events generalizing supervisor left with
  | nil => rfl
  | cons event rest ih =>
    simp only [run, step_withUnfinished, ih, leftBy_cons, List.append_assoc]

/-- After a run there are the unfinished units that its events leave, and those from before. -/
theorem unfinished_run (supervisor : Supervisor) (events : List Event) :
    (supervisor.run events).1.units.unfinished = leftBy events ++ supervisor.units.unfinished := by
  have same := run_withUnfinished supervisor.units.unfinished supervisor events
  exact congrArg (fun ended => ended.1.units.unfinished) same

theorem unfinished_after (folder : UnitFolder) (events : List Event) :
    (after folder events).units.unfinished = leftBy events := by
  rw [after, unfinished_run]
  exact List.append_nil _

end FormWatch.Supervisor
