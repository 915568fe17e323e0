import FormWatch.Proofs.EventLoop.Futures

/-!
A handle without its loop. Where the loop comes to its futures after every event, nothing is left for
it to do in between (`Rests`), and all that can be known of the handle is what `ProcessHandle` tells
(`handle_foldl`), whether a kill is tried included (`kills_kill`).
-/

namespace FormWatch

/-- What a future gives, once it is settled. -/
def Future.result? : Future → Option (Except Failure ProcessResult)
  | .scheduled | .reading => none
  | .settled result => some result

namespace EventLoop

/-- What is known of the handle of a loop. -/
def handle (loop : EventLoop) : ProcessHandle where
  pid := loop.process.pid
  status := loop.process.status
  vanished := loop.process.refusal.isSome
  ending := loop.process.ending
  waited := loop.kept.isSome
  result := (loop.kept.bind fun future => loop.futures[future]?).bind Future.result?

/-- What happens to a handle, as its loop has it. -/
def Event.ofHandle : ProcessHandle.Event → Event
  | .wait => .wait
  | .kill => .kill
  | .finish ending => .finish ending
  | .exit status => .exit status
  | .vanish => .refuse unknownProcess

/-- A loop that has come to its futures. -/
inductive Rests : EventLoop → Prop
  | unasked (process : Process) : Rests ⟨process, [], none⟩
  | reading (pid : Nat) (status : Option Int) (refusal : Option Failure) (readings kills : Nat) :
    Rests ⟨⟨pid, status, none, refusal, readings, kills⟩, [.reading], some 0⟩
  | settled (process : Process) (result : Except Failure ProcessResult) :
    Rests ⟨process, [.settled result], some 0⟩

theorem kills_kill (loop : EventLoop) :
    loop.kill.1.process.kills =
      loop.process.kills + if loop.handle.kill.isTried then 1 else 0 := by
  rw [kill_eq]
  cases known : loop.process.status with
  | some status => simp [handle, known, ProcessHandle.kill, KillAttempt.isTried]
  | none =>
    cases refused : loop.process.refusal <;>
      simp [handle, known, refused, ProcessHandle.kill, KillAttempt.isTried]

theorem Rests.kill {loop : EventLoop} (rests : loop.Rests) :
    loop.kill.1.turn.Rests ∧ loop.kill.1.turn.handle = loop.handle := by
  rw [kill_eq]
  cases rests with
  | unasked process => exact ⟨.unasked _, rfl⟩
  | reading pid status refusal readings kills => exact ⟨.reading .., rfl⟩
  | settled process result => exact ⟨.settled _ _, rfl⟩

theorem Rests.step {loop : EventLoop} (rests : loop.Rests) (event : ProcessHandle.Event) :
    (loop.step (.ofHandle event)).turn.Rests ∧
      (loop.step (.ofHandle event)).turn.handle = loop.handle.step event := by
  cases event with
  | kill => exact rests.kill
  | wait =>
    cases rests with
    | unasked process =>
      -- The future is settled at once if the process has ended already, however it did.
      obtain ⟨pid, status, _ | _ | _, refusal, readings, kills⟩ := process
      · exact ⟨.reading .., rfl⟩
      · exact ⟨.settled _ _, rfl⟩
      · exact ⟨.settled _ _, rfl⟩
    | reading pid status refusal readings kills => exact ⟨.reading .., rfl⟩
    | settled process result => exact ⟨.settled _ _, rfl⟩
  | finish ending =>
    cases rests with
    | unasked process =>
      obtain ⟨pid, status, _ | _, refusal, readings, kills⟩ := process
      · exact ⟨.unasked _, rfl⟩
      · exact ⟨.unasked _, rfl⟩
    | reading pid status refusal readings kills =>
      cases ending with
      | finished status stdout stderr => exact ⟨.settled _ _, rfl⟩
      | unreadable failure => exact ⟨.settled _ _, rfl⟩
    | settled process result =>
      obtain ⟨pid, status, _ | _, refusal, readings, kills⟩ := process
      · exact ⟨.settled _ _, rfl⟩
      · exact ⟨.settled _ _, rfl⟩
  | exit _ | vanish =>
    cases rests with
    | unasked process => exact ⟨.unasked _, rfl⟩
    | reading pid status refusal readings kills => exact ⟨.reading .., rfl⟩
    | settled process result => exact ⟨.settled _ _, rfl⟩

/-- A handle whose loop comes to its futures after every event is what is told of it without the
loop. -/
theorem handle_foldl (pid : Nat) (events : List ProcessHandle.Event) :
    (events.foldl (fun loop event => (loop.step (.ofHandle event)).turn) (start pid)).handle =
      events.foldl ProcessHandle.step { pid := pid } := by
  have along {loop : EventLoop} (rests : loop.Rests) :
      (events.foldl (fun loop event => (loop.step (.ofHandle event)).turn) loop).handle =
        events.foldl ProcessHandle.step loop.handle := by
    induction events generalizing loop with
    | nil => rfl
    | cons event rest ih =>
      obtain ⟨rests, same⟩ := rests.step event
      rw [List.foldl_cons, List.foldl_cons, ← same]
      exact ih rests
  exact along (.unasked _)

end EventLoop

end FormWatch
