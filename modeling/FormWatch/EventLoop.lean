import FormWatch.ProcessHandle

/-!
A process handle and the event loop that it lives on. The first wait schedules a future that reads
the output of the process, and every wait gives out the future that the handle keeps. The loop gets
on by itself: it comes to what is scheduled, so that reading begins, and to what is read, so that the
future is settled. Until then a call finds the handle as it is.

Where the loop gets on after every event, the handle is a `ProcessHandle`.
-/

namespace FormWatch

/-- A process, as the system has it. -/
structure Process where
  pid : Nat
  -- the exit status, once it is known
  status : Option Int := none
  -- how it ended, once it has
  ending : Option Ending := none
  -- the failure with which the system refuses to kill it, if it does
  refusal : Option Failure := none
  -- how often reading its output was begun
  readings : Nat := 0
  -- how often the system was asked to kill it
  kills : Nat := 0

/-- What waiting gives. -/
inductive Future where
  | scheduled
  | reading
  | settled (result : Except Failure ProcessResult)

structure EventLoop where
  process : Process
  -- every future ever made, in order
  futures : List Future := []
  -- the future that the handle keeps
  kept : Option Nat := none

namespace Process

/-- The system is asked to kill. -/
def kill (process : Process) : Process × Except Failure Unit :=
  ({ process with kills := process.kills + 1 },
    match process.refusal with
    | none => .ok ()
    | some failure => .error failure)

/-- Reading the output begins. -/
def read (process : Process) : Process :=
  { process with readings := process.readings + 1 }

/-- An ending tells the exit status; one whose output cannot be read tells nothing. -/
def learn (process : Process) : Ending → Process
  | .finished status _ _ => { process with status := status }
  | .unreadable _ => process

end Process

namespace EventLoop

/-- The failure of killing a process that the system does not know any more. -/
def unknownProcess : Failure := .other true false "ProcessLookupError".toList []

/-- A handle on a new process. -/
def start (pid : Nat) : EventLoop where
  process := { pid := pid }

/-- The future that the handle keeps, made if there is none. -/
def wait (loop : EventLoop) : EventLoop × Nat :=
  match loop.kept with
  | some future => (loop, future)
  | none =>
    ({ loop with
      futures := loop.futures ++ [.scheduled]
      kept := some loop.futures.length }, loop.futures.length)

/-- The process killed, unless its exit status is known. A process that the system does not know any
more is as good as killed; any other failure is passed on. -/
def kill (loop : EventLoop) : EventLoop × Except Failure Unit :=
  if loop.process.status.isSome then (loop, .ok ())
  else
    let (process, answer) := loop.process.kill
    ({ loop with process := process },
      match answer with
      | .ok () => .ok ()
      | .error failure =>
        if failure.name = unknownProcess.name then .ok () else .error failure)

/-- The loop comes to the future of a place, which is scheduled: reading begins. -/
def begin (loop : EventLoop) (future : Nat) : EventLoop :=
  match loop.futures[future]? with
  | some .scheduled =>
    { loop with process := loop.process.read, futures := loop.futures.set future .reading }
  | _ => loop

/-- The loop comes to the future of a place, whose process has ended: it is settled. -/
def settle (loop : EventLoop) (future : Nat) : EventLoop :=
  match loop.futures[future]?, loop.process.ending with
  | some .reading, some ending =>
    { loop with
      process := loop.process.learn ending
      futures := loop.futures.set future (.settled ending.result) }
  | _, _ => loop

inductive Event where
  | wait
  | kill
  -- The loop comes to a future.
  | begin (future : Nat)
  | settle (future : Nat)
  -- The process ends; a second ending counts for nothing.
  | finish (ending : Ending)
  -- The exit status becomes known.
  | exit (status : Int)
  -- From now on the system refuses to kill.
  | refuse (failure : Failure)
  deriving DecidableEq, Repr

def step (loop : EventLoop) : Event → EventLoop
  | .wait => loop.wait.1
  | .kill => loop.kill.1
  | .begin future => loop.begin future
  | .settle future => loop.settle future
  | .finish ending =>
    { loop with process := { loop.process with
      ending := loop.process.ending.or (some ending) } }
  | .exit status => { loop with process := { loop.process with status := some status } }
  | .refuse failure => { loop with process := { loop.process with refusal := some failure } }

/-- The loop after events. -/
def run (loop : EventLoop) (events : List Event) : EventLoop :=
  events.foldl step loop

/-- The loop comes to every future there is. -/
def turn (loop : EventLoop) : EventLoop :=
  loop.run ((List.range loop.futures.length).flatMap fun future => [.begin future, .settle future])

end EventLoop

end FormWatch
