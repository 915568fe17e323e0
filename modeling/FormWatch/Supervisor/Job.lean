import FormWatch.Diagnostic
import FormWatch.ProcessHandle

/-!
Compile jobs, what they come to, and what is logged on the way.
-/

namespace FormWatch

inductive JobState where
  | idle
  | running
  | completed
  | failed
  | obsolete
  deriving DecidableEq, Repr

def JobState.name : JobState → Text
  | idle => "idle".toList
  | running => "running".toList
  | completed => "completed".toList
  | failed => "failed".toList
  | obsolete => "obsolete".toList

/-- The compilation of one snapshot of a document. -/
structure Job where
  -- its place in the order of requests, counted from one
  sequence : Nat
  -- the URI of its document
  uri : Text
  -- the document whose text was taken
  document : Nat
  -- the unit that holds the snapshot
  unit : Nat
  state : JobState := .running
  -- whether the launch of its process is under way
  launching : Bool := true
  -- its process, once it is launched
  handle : Option ProcessHandle := none
  output : Text := []

namespace Job

/-- A job whose process runs; its output is read from the start. -/
def launched (pid : Nat) (job : Job) : Job :=
  { job with launching := false, handle := some (ProcessHandle.wait { pid := pid }) }

/-- A job whose launch is over without a process. -/
def unlaunched (job : Job) : Job :=
  { job with launching := false }

end Job

/-- Why a compilation tells nothing about the document. -/
inductive Panic where
  | crashed (uri : Text) (failure : Failure)
  | exited (pid : Nat) (status : Int) (output : Text)
  | unreadable (pid : Nat) (status : Int) (cause : Malformed) (output : Text)
  deriving Repr

def Panic.explanation : Panic → Text
  | crashed uri failure =>
    "Compile job for ".toList ++ uri ++ " crashed: ".toList ++ failure.name ++ ": ".toList ++
      failure.message
  | exited pid status output =>
    "Compiler process ".toList ++ Text.ofNat pid ++ " exited abnormally with code ".toList ++
      Text.ofInt status ++ '\n' :: output
  | unreadable pid status cause output =>
    "Compiler process ".toList ++ Text.ofNat pid ++ " exited with code ".toList ++
      Text.ofInt status ++ " but its report could not be read: ".toList ++ cause.message ++
      '\n' :: output

inductive Outcome where
  | diagnostics (resolved : List Resolved)
  | panic (cause : Panic)
  deriving Repr

inductive LogEntry where
  | snapshotFailed (uri : Text) (failure : Failure)
  | launchFailed (uri : Text) (failure : Failure)
  | crashed (sequence : Nat) (failure : Failure)
  | notReported (sequence : Nat) (failure : Failure)
  | exited (pid : Nat) (status : Int)
  | unreadable (pid : Nat) (cause : Malformed)
  | droppedClosed (sequence : Nat) (uri : Text)
  | droppedSuperseded (sequence : Nat) (uri : Text)
  | unitKept (path : Text) (failure : Failure)
  | compilationFailed (uri : Text)
  deriving Repr

namespace LogEntry

/-- Whether an entry warns; all others are errors. -/
def isWarning : LogEntry → Bool
  | droppedClosed _ _ | droppedSuperseded _ _ | unitKept _ _ => true
  | _ => false

def text : LogEntry → Text
  | snapshotFailed uri failure =>
    "Failed to snapshot ".toList ++ uri ++ ": ".toList ++ failure.message
  | launchFailed uri failure =>
    "Failed to start compiler for ".toList ++ uri ++ ": ".toList ++ failure.message
  | crashed sequence failure =>
    "Compile job ".toList ++ Text.ofNat sequence ++ " crashed: ".toList ++ failure.message
  | notReported sequence failure =>
    "Failed to report compile job ".toList ++ Text.ofNat sequence ++ ": ".toList ++
      failure.message
  | exited pid status =>
    "Compiler process ".toList ++ Text.ofNat pid ++ " exited with code ".toList ++
      Text.ofInt status
  | unreadable pid cause =>
    "Malformed report from process ".toList ++ Text.ofNat pid ++ ": ".toList ++ cause.message
  | droppedClosed sequence uri =>
    "Dropping compile job ".toList ++ Text.ofNat sequence ++ ": ".toList ++ uri ++
      " is no longer open".toList
  | droppedSuperseded sequence uri =>
    "Dropping compile job ".toList ++ Text.ofNat sequence ++ ": superseded for ".toList ++ uri
  | unitKept path failure =>
    "Failed to remove compilation unit ".toList ++ path ++ ": ".toList ++ failure.message
  | compilationFailed uri => "Compilation of ".toList ++ uri ++ " failed".toList

end LogEntry

end FormWatch
