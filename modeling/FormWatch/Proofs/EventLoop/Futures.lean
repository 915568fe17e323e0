import FormWatch.EventLoop

/-!
What waiting for a process gives. A handle has one future at most, made by the first wait, and every
event either leaves the future as it is or takes it one stage on (`IsAt.step`); so the output is read
once at most, and a result that was given stays (`future_of_handle`).
-/

namespace FormWatch

/-! ### Stages of a future -/

namespace Future

/-- How often reading was begun for a future. -/
def readings : Future → Nat
  | .scheduled => 0
  | .reading | .settled _ => 1

/-- A future that the loop has come to. -/
def begun : Future → Future
  | .scheduled => .reading
  | future => future

/-- A future that the loop has come to, where the process ended so, if it did. -/
def concluded (ending : Option Ending) : Future → Future
  | .reading => ending.elim .reading fun ending => .settled ending.result
  | future => future

@[simp] theorem readings_begun (future : Future) : future.begun.readings = 1 := by
  cases future <;> rfl

@[simp] theorem readings_concluded (ending : Option Ending) (future : Future) :
    (future.concluded ending).readings = future.readings := by
  cases future <;> cases ending <;> rfl

end Future

namespace EventLoop

/-- What an event makes of the future of a handle, if there is one yet. -/
def advance (ending : Option Ending) (future : Option Future) : Event → Option Future
  | .wait => some (future.getD .scheduled)
  | .begin 0 => future.map Future.begun
  | .settle 0 => future.map (Future.concluded ending)
  | _ => future

/-- A loop whose handle has this future and no other, settled by how the process ended. -/
structure IsAt (loop : EventLoop) (future : Option Future) : Prop where
  futures : loop.futures = future.toList
  kept : loop.kept = future.map fun _ => 0
  readings : loop.process.readings = future.elim 0 Future.readings
  ended : ∀ result, future = some (.settled result) →
    ∃ ending, loop.process.ending = some ending ∧ result = ending.result

theorem advance_some (ending : Option Ending) (future : Future) (event : Event) :
    ∃ next, advance ending (some future) event = some next ∧
      next.readings = (if future.readings = 1 ∨ event = .begin 0 then 1 else 0) ∧
      ∀ result, future = .settled result → next = .settled result := by
  have read : future.readings = 0 ∨ future.readings = 1 := by
    cases future <;> simp [Future.readings]
  unfold advance
  split
  next => exact ⟨future, rfl, by rcases read with read | read <;> simp [read], fun _ => id⟩
  next => exact ⟨future.begun, rfl, by simp, by rintro _ rfl; rfl⟩
  next =>
    refine ⟨future.concluded ending, rfl, ?_, by rintro _ rfl; rfl⟩
    rcases read with read | read <;> simp [read]
  next _ other _ =>
    have past : event ≠ .begin 0 := other
    refine ⟨future, rfl, ?_, fun _ => id⟩
    rcases read with read | read <;> simp [read, past]

theorem advance_none (ending : Option Ending) {event : Event} (other : event ≠ .wait) :
    advance ending none event = none := by
  cases event with
  | wait => exact absurd rfl other
  | begin number | settle number => cases number <;> rfl
  | kill | finish _ | exit _ | refuse _ => rfl

theorem isAt_start (pid : Nat) : (start pid).IsAt none where
  futures := rfl
  kept := rfl
  readings := rfl
  ended _ settled := by cases settled

theorem wait_of_kept {loop : EventLoop} {future : Nat} (kept : loop.kept = some future) :
    loop.wait = (loop, future) := by
  simp only [EventLoop.wait, kept]

namespace IsAt

variable {loop : EventLoop} {future : Option Future}

/-- What happens to the process alone leaves the future, if an ending stays as it is. -/
theorem of_process (now : loop.IsAt future) (process : Process)
    (readings : process.readings = loop.process.readings)
    (ending : ∀ ending, loop.process.ending = some ending → process.ending = some ending) :
    IsAt { loop with process := process } future where
  futures := now.futures
  kept := now.kept
  readings := readings.trans now.readings
  ended result settled := by
    obtain ⟨old, ended, same⟩ := now.ended result settled
    exact ⟨old, ending old ended, same⟩

theorem wait (now : loop.IsAt future) :
    loop.wait.1.IsAt (some (future.getD .scheduled)) ∧ loop.wait.2 = 0 := by
  cases future with
  | none =>
    have unkept : loop.kept = none := now.kept
    have fresh : loop.futures = [] := now.futures
    have made : loop.wait = ({ loop with futures := [.scheduled], kept := some 0 }, 0) := by
      simp [EventLoop.wait, unkept, fresh]
    rw [made]
    exact ⟨⟨rfl, rfl, now.readings, fun _ settled => by cases settled⟩, rfl⟩
  | some future =>
    rw [wait_of_kept now.kept]
    exact ⟨now, rfl⟩

theorem kill (now : loop.IsAt future) : loop.kill.1.IsAt future := by
  unfold EventLoop.kill
  split
  · exact now
  · exact now.of_process _ rfl fun _ ended => ended

theorem begin (now : loop.IsAt future) (number : Nat) :
    (loop.begin number).IsAt (advance loop.process.ending future (.begin number)) := by
  unfold EventLoop.begin
  rw [now.futures]
  cases number with
  | zero =>
    rcases future with _ | _ | _ | result
    · exact now
    · exact ⟨rfl, now.kept, congrArg (· + 1) now.readings, fun _ settled => by cases settled⟩
    · exact now
    · exact now
  | succ number => cases future <;> exact now

theorem settle (now : loop.IsAt future) (number : Nat) :
    (loop.settle number).IsAt (advance loop.process.ending future (.settle number)) := by
  unfold EventLoop.settle
  rw [now.futures]
  cases number with
  | zero =>
    rcases future with _ | _ | _ | result
    · exact now
    · exact now
    · -- Only a future that is being read is settled, and only by an ending.
      cases ended : loop.process.ending with
      | none => exact now
      | some ending =>
        have kept (process : Process) : (process.learn ending).ending = process.ending ∧
            (process.learn ending).readings = process.readings := by
          cases ending <;> exact ⟨rfl, rfl⟩
        refine ⟨rfl, now.kept, (kept _).2.trans now.readings, ?_⟩
        rintro _ ⟨⟩
        exact ⟨ending, (kept _).1.trans ended, rfl⟩
    · exact now
  | succ number => cases future <;> exact now

theorem step (now : loop.IsAt future) (event : Event) :
    (loop.step event).IsAt (advance loop.process.ending future event) := by
  cases event with
  | wait => exact now.wait.1
  | kill => exact now.kill
  | begin number => exact now.begin number
  | settle number => exact now.settle number
  | finish ending => exact now.of_process _ rfl fun old ended => by simp [ended]
  | exit status => exact now.of_process _ rfl fun _ ended => ended
  | refuse failure => exact now.of_process _ rfl fun _ ended => ended

/-- A loop with a future keeps one, whose reading has begun once the loop came to it; a result
stays. -/
theorem run {future : Future} (now : loop.IsAt (some future)) (events : List Event) :
    ∃ last : Future, (loop.run events).IsAt (some last) ∧
      last.readings = (if future.readings = 1 ∨ .begin 0 ∈ events then 1 else 0) ∧
      ∀ result, future = .settled result → last = .settled result := by
  induction events generalizing loop future with
  | nil => exact ⟨future, now, by cases future <;> rfl, fun _ settled => settled⟩
  | cons event rest ih =>
    obtain ⟨next, same, begun, stays⟩ := advance_some loop.process.ending future event
    obtain ⟨last, there, read, kept⟩ := ih (same ▸ now.step event)
    refine ⟨last, there, ?_, fun result settled => kept result (stays result settled)⟩
    rw [read, begun]
    by_cases first : event = .begin 0 <;> by_cases before : future.readings = 1 <;>
      simp [first, before, eq_comm]

/-- A loop without a future has one from the first wait on, and reading begins when the loop comes to
it. -/
theorem run_unasked (now : loop.IsAt none) (events : List Event) :
    ∃ last, (loop.run events).IsAt last ∧ (last = none ↔ .wait ∉ events) ∧
      last.elim 0 Future.readings =
        if .begin 0 ∈ events.dropWhile (· ≠ .wait) then 1 else 0 := by
  induction events generalizing loop with
  | nil => exact ⟨none, now, by simp, rfl⟩
  | cons event rest ih =>
    by_cases first : event = .wait
    · -- From here on there is a future, and only what comes behind counts for it.
      subst first
      obtain ⟨last, there, read, _⟩ := (now.step .wait).run rest
      exact ⟨some last, there, by simp, by simpa [Future.readings] using read⟩
    · have same := advance_none loop.process.ending first
      obtain ⟨last, there, asked, read⟩ := ih (same ▸ now.step event)
      refine ⟨last, there, ?_, ?_⟩
      · simpa [Ne.symm first] using asked
      · simpa [first] using read

end IsAt

/-! ### Runs -/

theorem run_append (loop : EventLoop) (early late : List Event) :
    loop.run (early ++ late) = (loop.run early).run late :=
  List.foldl_append

@[simp] theorem ending_wait (loop : EventLoop) :
    loop.wait.1.process.ending = loop.process.ending := by
  unfold wait
  split <;> rfl

@[simp] theorem ending_begin (loop : EventLoop) (number : Nat) :
    (loop.begin number).process.ending = loop.process.ending := by
  unfold begin
  split <;> rfl

/-- Once the process has ended, the future of a wait is settled as soon as the loop has come to it,
by what the ending gives. -/
theorem IsAt.settled {loop : EventLoop} {future : Option Future} (now : loop.IsAt future)
    {ending : Ending} (ended : loop.process.ending = some ending) :
    (loop.wait.1.run [.begin 0, .settle 0]).IsAt (some (.settled ending.result)) := by
  obtain ⟨waited, _⟩ := now.wait
  have settled := (waited.step (.begin 0)).step (.settle 0)
  have there : ((loop.wait.1.step (.begin 0)).process.ending) = some ending :=
    (ending_begin _ 0).trans ((ending_wait loop).trans ended)
  rw [there] at settled
  -- A future that was settled before was settled by this same ending.
  cases future with
  | none => exact settled
  | some future =>
    cases future with
    | scheduled | reading => exact settled
    | settled result =>
      obtain ⟨_, known, rfl⟩ := now.ended result rfl
      obtain rfl := Option.some.inj (ended.symm.trans known)
      exact settled

/-! ### Kills -/

/-- The system is asked to kill if the exit status is not known, and nothing else changes. -/
theorem kill_eq (loop : EventLoop) :
    loop.kill.1 = { loop with process := { loop.process with
      kills := loop.process.kills + if loop.process.status = none then 1 else 0 } } := by
  unfold kill
  cases known : loop.process.status <;> simp [Process.kill]

/-- A kill fails only as the system refuses it, and not for a process that the system does not
know. -/
theorem kill_eq_error_iff (loop : EventLoop) (failure : Failure) :
    loop.kill.2 = .error failure ↔ loop.process.status = none ∧
      loop.process.refusal = some failure ∧ failure.name ≠ unknownProcess.name := by
  unfold kill
  cases known : loop.process.status with
  | some status => simp
  | none =>
    cases refused : loop.process.refusal with
    | none => simp [Process.kill, refused]
    | some other =>
      by_cases unknown : other.name = unknownProcess.name
      · simp only [Process.kill, refused, unknown]
        constructor
        · rintro ⟨⟩
        · rintro ⟨-, ⟨⟩, named⟩
          exact absurd unknown named
      · simp only [Process.kill, refused, unknown]
        constructor
        · rintro ⟨⟩
          exact ⟨trivial, rfl, unknown⟩
        · rintro ⟨-, ⟨⟩, -⟩
          rfl

/-! ### One future -/

/-- Whatever happens to a handle, it has one future, made by the first wait, and its output is read
once at most. Every wait gives that future; once it is settled it stays so, by how the process
ended, and it can be settled as soon as the process has ended. A kill asks the system only while the
exit status is not known, a process that the system does not know is no failure of it, and it leaves
all else as it is, as does a repeated wait. -/
theorem future_of_handle (pid : Nat) (events : List Event) :
    let loop := (start pid).run events
    loop.futures.length = (if .wait ∈ events then 1 else 0) ∧
    loop.process.readings = (if .begin 0 ∈ events.dropWhile (· ≠ .wait) then 1 else 0) ∧
    (∀ later, (loop.run later).wait.2 = loop.wait.2) ∧
    (∀ result, loop.futures[loop.wait.2]? = some (.settled result) →
      (∃ ending, loop.process.ending = some ending ∧ result = ending.result) ∧
      ∀ later, (loop.run later).futures[loop.wait.2]? = some (.settled result)) ∧
    (∀ ending, loop.process.ending = some ending →
      (loop.wait.1.run [.begin 0, .settle 0]).futures[loop.wait.2]? =
        some (.settled ending.result)) ∧
    (.wait ∈ events → loop.wait.1 = loop) ∧
    loop.kill.1 = { loop with process := { loop.process with
      kills := loop.process.kills + if loop.process.status = none then 1 else 0 } } ∧
    ∀ failure, loop.kill.2 = .error failure ↔ loop.process.status = none ∧
      loop.process.refusal = some failure ∧ failure.name ≠ unknownProcess.name := by
  intro loop
  obtain ⟨future, now, asked, read⟩ := (isAt_start pid).run_unasked events
  have given : loop.wait.2 = 0 := now.wait.2
  have made (waited : .wait ∈ events) : ∃ kept, future = some kept :=
    Option.ne_none_iff_exists'.mp fun absent => asked.mp absent waited
  refine ⟨?_, now.readings.trans read, fun later => ?_, fun result settled => ?_,
    fun ending ended => ?_, fun waited => ?_, kill_eq loop, kill_eq_error_iff loop⟩
  · rw [now.futures]
    by_cases waited : .wait ∈ events
    · obtain ⟨kept, rfl⟩ := made waited
      simp [waited]
    · simp [waited, asked.mpr waited]
  · -- The later wait is a wait after one longer run from the start.
    obtain ⟨last, there, _⟩ := (isAt_start pid).run_unasked (events ++ later)
    rw [run_append] at there
    rw [given, there.wait.2]
  · rw [given, now.futures] at settled
    cases future with
    | none => simp at settled
    | some future =>
      obtain rfl : future = .settled result := by simpa using settled
      refine ⟨now.ended result rfl, fun later => ?_⟩
      obtain ⟨last, there, _, stays⟩ := now.run later
      obtain rfl := stays result rfl
      rw [given, there.futures]
      rfl
  · rw [given, (now.settled ended).futures]
    rfl
  · obtain ⟨kept, rfl⟩ := made waited
    rw [wait_of_kept now.kept]

/-- A process that ends before it is waited for, and that the system does not know any more when it
is killed: once its exit status is known, it is not killed again. -/
theorem future_of_unknown_process :
    let loop := (start 7).run [.kill, .refuse unknownProcess,
      .finish (.finished (some 3) [0x61] []), .kill, .wait, .exit 3, .kill, .begin 0, .wait,
      .settle 0]
    loop.process.kills = 2 ∧ loop.process.readings = 1 ∧
      (loop.run [.kill, .wait, .begin 0, .settle 0]).futures[loop.wait.2]? =
        some (.settled (.ok ⟨3, "a".toList, []⟩)) ∧
      loop.kill.1.process.kills = 2 ∧ loop.kill.2 ≠ .error unknownProcess := by
  intro loop
  obtain ⟨_, read, _, stays, _, _, killed, failed⟩ := future_of_handle 7
    [.kill, .refuse unknownProcess, .finish (.finished (some 3) [0x61] []), .kill, .wait, .exit 3,
      .kill, .begin 0, .wait, .settle 0]
  have told : (Ending.finished (some 3) [0x61] []).result = .ok ⟨3, "a".toList, []⟩ := by
    have stdout : Utf8.decodeLenient [0x61] = "a".toList := by decide +kernel
    have stderr : Utf8.decodeLenient [] = [] := by decide +kernel
    simp only [Ending.result, stdout, stderr, Option.getD_some]
  rw [← told]
  refine ⟨rfl, read, (stays _ rfl).2 _, congrArg (·.process.kills) killed, fun raised => ?_⟩
  exact ((failed unknownProcess).mp raised).2.2 rfl

end EventLoop

end FormWatch
