import FormWatch.Failure

/-!
A handle on a running compiler. Its output is read only once it is waited for, and what waiting
gives is settled once: every wait gives the same result. A kill is tried only while the exit status
is not known, and it changes nothing about the result.
-/

namespace FormWatch

structure ProcessResult where
  status : Int
  stdout : Text
  stderr : Text
  deriving DecidableEq, Repr

def ProcessResult.output (result : ProcessResult) : Text :=
  result.stdout ++ result.stderr

/-- How a process ends. -/
inductive Ending where
  -- with an exit status, if the system learnt it, and its output
  | finished (status : Option Int) (stdout stderr : Bytes)
  -- with output that cannot be read
  | unreadable (failure : Failure)
  deriving DecidableEq, Repr

/-- What waiting for a process gives when it ends: its output as text, and its exit status, where
one that the system did not learn counts as zero. -/
def Ending.result : Ending → Except Failure ProcessResult
  | .finished status stdout stderr =>
    .ok ⟨status.getD 0, Utf8.decodeLenient stdout, Utf8.decodeLenient stderr⟩
  | .unreadable failure => .error failure

inductive KillAttempt where
  -- The exit status is known, and nothing is done.
  | unneeded
  | sent
  -- The system does not know the process any more.
  | gone
  deriving DecidableEq, Repr

/-- Whether the system was asked to kill. -/
def KillAttempt.isTried : KillAttempt → Bool
  | .unneeded => false
  | .sent | .gone => true

/-- A process as far as it is known. -/
structure ProcessHandle where
  pid : Nat
  -- the exit status, once it is known
  status : Option Int := none
  -- whether the system has lost the process
  vanished : Bool := false
  -- how it ended, once it has
  ending : Option Ending := none
  -- whether its output is being read
  waited : Bool := false
  -- what waiting gives, once it is settled
  result : Option (Except Failure ProcessResult) := none

namespace ProcessHandle

/-- The result settled if it is waited for and the process has ended. What the ending tells of the
exit status counts, and not what was known before; a status that it does not tell counts as zero in
the result. -/
def settle (handle : ProcessHandle) : ProcessHandle :=
  match handle.waited, handle.result, handle.ending with
  | true, none, some (.finished status stdout stderr) =>
    { handle with
      status := status
      result := some (.ok
        ⟨status.getD 0, Utf8.decodeLenient stdout, Utf8.decodeLenient stderr⟩) }
  | true, none, some (.unreadable failure) => { handle with result := some (.error failure) }
  | _, _, _ => handle

/-- The output is read from now on. -/
def wait (handle : ProcessHandle) : ProcessHandle :=
  settle { handle with waited := true }

/-- The process ends; a second ending counts for nothing. -/
def finish (ending : Ending) (handle : ProcessHandle) : ProcessHandle :=
  match handle.ending with
  | some _ => handle
  | none => settle { handle with ending := some ending }

def exit (status : Int) (handle : ProcessHandle) : ProcessHandle :=
  { handle with status := some status }

/-- The system loses the process. -/
def vanish (handle : ProcessHandle) : ProcessHandle :=
  { handle with vanished := true }

def kill (handle : ProcessHandle) : KillAttempt :=
  if handle.status.isSome then .unneeded
  else if handle.vanished then .gone
  else .sent

inductive Event where
  | wait
  | kill
  | finish (ending : Ending)
  | exit (status : Int)
  | vanish
  deriving DecidableEq, Repr

def step (handle : ProcessHandle) : Event → ProcessHandle
  | .wait => handle.wait
  | .kill => handle
  | .finish ending => handle.finish ending
  | .exit status => handle.exit status
  | .vanish => handle.vanish

end ProcessHandle

end FormWatch
