import FormWatch.Supervisor.Job
import FormWatch.UnitFolder
import FormWatch.Workspace

/-!
The supervisor of compile jobs. A request takes a snapshot of a document and starts a compiler on
it; the newest request of a URI is its current job, and only the current job of a live document
delivers an outcome. A job that is replaced is killed.

The supervisor is a pure machine. What the world decides is in the events: whether a snapshot can be
written, and what there is of it if it cannot; when a launch ends and how; how a process ends;
whether a unit can be removed; and whether the client takes a report. What the supervisor does to
the world is in the effects of a step, in order. A launch ends once and a process ends once; an
event that tells of a second end, or of a job that is not there, changes nothing.
-/

namespace FormWatch

/-- The supervisor with the documents it watches. -/
structure Supervisor where
  workspace : Workspace
  -- every job ever registered, in order
  jobs : List Job
  -- the current job of each URI by its sequence number, in the order of first registration
  table : List (Text × Nat)
  units : UnitFolder

namespace Supervisor

/-- A supervisor that has done nothing yet, with the folder in which it makes units. -/
def start (folder : UnitFolder) : Supervisor :=
  ⟨.empty, [], [], { folder with made := 0, units := [], unfinished := [] }⟩

/-- The failures with which a client refuses outcomes, if it does. -/
structure Refusals where
  ofDiagnostics : Option Failure
  ofPanics : Option Failure

def Refusals.of (refusals : Refusals) : Outcome → Option Failure
  | .diagnostics _ => refusals.ofDiagnostics
  | .panic _ => refusals.ofPanics

/-- What there is of a snapshot whose text cannot be written: the own part of the name of the unit
that was made for it, what could be written, and why the unit stays if the system refuses to remove
it. -/
structure Remnant where
  own : Text
  content : Bytes
  kept : Option SystemFault

inductive Event where
  -- A new document is opened.
  | opened (document : Document)
  -- A document that is not open is read for one request.
  | loaded (document : Document)
  | edited (document : Nat) (version : Option Int) (text : Text)
  | closed (uri : Text)
  -- A document is to be compiled, and its snapshot can be written.
  | requested (document : Nat)
  -- A document is to be compiled, but its snapshot cannot be taken; a unit may have been made.
  | unwritten (uri : Text) (failure : Failure) (remnant : Option Remnant)
  | launched (sequence pid : Nat)
  -- A job's process cannot be started, and its unit stays if the system refuses to remove it.
  | launchFailed (sequence : Nat) (failure : Failure) (kept : Option SystemFault)
  | exited (sequence : Nat) (status : Int)
  | vanished (sequence : Nat)
  -- A job's process ends, and its unit stays if the system refuses to remove it.
  | ended (sequence : Nat) (ending : Ending) (refusals : Refusals) (kept : Option SystemFault)
  | forgotten (uri : Text)
  | shutdown

inductive Answer where
  | job (sequence : Nat)
  | nothing
  | raised (failure : Failure)
  deriving DecidableEq, Repr

inductive Effect where
  -- The launch of a job's process begins.
  | start (sequence : Nat)
  -- A job's process runs on its unit.
  | launch (sequence pid : Nat) (unit : Bytes)
  | launchFailed (sequence : Nat) (failure : Failure)
  -- A job's process is to be killed.
  | kill (sequence pid : Nat) (attempt : KillAttempt)
  | log (entry : LogEntry)
  -- The request ends.
  | answer (answer : Answer)
  -- The outcome of a job is handed to the client, who may refuse it.
  | report (sequence : Nat) (outcome : Outcome) (refusal : Option Failure)

/-! ### Jobs and the table -/

def job? (supervisor : Supervisor) (sequence : Nat) : Option Job :=
  supervisor.jobs.find? (·.sequence = sequence)

/-- The current job of a URI, by its sequence number. -/
def current? (supervisor : Supervisor) (uri : Text) : Option Nat :=
  (supervisor.table.find? (·.1 = uri)).map Prod.snd

def isCurrent (supervisor : Supervisor) (job : Job) : Bool :=
  supervisor.current? job.uri = some job.sequence

/-- A job put in the place of the one with its sequence number. -/
def update (job : Job) (supervisor : Supervisor) : Supervisor :=
  { supervisor with
    jobs := supervisor.jobs.map fun old => if old.sequence = job.sequence then job else old }

/-- The table with a current job for a URI: in the URI's place if it has one, else at the end. -/
def enter (uri : Text) (sequence : Nat) : List (Text × Nat) → List (Text × Nat)
  | [] => [(uri, sequence)]
  | (u, s) :: rest =>
    if u = uri then (u, sequence) :: rest else (u, s) :: enter uri sequence rest

/-- No current job for a URI. -/
def forget (uri : Text) (supervisor : Supervisor) : Supervisor :=
  { supervisor with table := supervisor.table.filter (·.1 ≠ uri) }

/-- A job taken off the table, if it is current. -/
def untable (job : Job) (supervisor : Supervisor) : Supervisor :=
  { supervisor with
    table :=
      if supervisor.isCurrent job then (supervisor.forget job.uri).table else supervisor.table }

/-- A job's unit discarded, if the system lets it go. -/
def release (job : Job) (kept : Option SystemFault) (supervisor : Supervisor) : Supervisor :=
  { supervisor with
    units := if kept.isSome then supervisor.units else supervisor.units.discard job.unit }

/-- A job off the table, and its unit discarded. -/
def retire (job : Job) (kept : Option SystemFault) (supervisor : Supervisor) : Supervisor :=
  (supervisor.untable job).release job kept

/-- What is logged of a unit that the system does not let go, by the own part of its name. -/
def logRefused (supervisor : Supervisor) (own : Text) : Option SystemFault → List Effect
  | none => []
  | some fault =>
    let path := supervisor.units.unitPath own
    [.log (.unitKept path (.refused fault path))]

/-- What is logged of the unit of a job. -/
def logKept (supervisor : Supervisor) (job : Job) (kept : Option SystemFault) : List Effect :=
  supervisor.logRefused (UnitFolder.ownPart job.unit) kept

/-- The call that kills a job's process, if it has one. -/
def killOf (job : Job) : List Effect :=
  match job.handle with
  | some handle => [.kill job.sequence handle.pid handle.kill]
  | none => []

/-! ### Requests -/

/-- A new job for a document, current from now on; its unit holds the document's text. -/
def register (document : Nat) (found : Document) (supervisor : Supervisor) : Supervisor :=
  let units := supervisor.units.write found.text
  let job : Job :=
    { sequence := supervisor.jobs.length + 1, uri := found.uri, document := document,
      unit := units.made }
  { supervisor with
    jobs := supervisor.jobs ++ [job]
    table := enter found.uri job.sequence supervisor.table
    units := units }

/-- A document's snapshot is written, the job before it is killed, a new job is current, and its
launch begins. -/
def request (document : Nat) (supervisor : Supervisor) : Supervisor × List Effect :=
  match supervisor.workspace.document? document with
  | none => (supervisor, [])
  | some found =>
    let previous := (supervisor.current? found.uri).bind supervisor.job?
    (supervisor.register document found,
      (previous.map killOf).getD [] ++ [.start (supervisor.jobs.length + 1)])

/-- How a request ends whose snapshot cannot be taken: any failure but a refusal by the system is
passed on. -/
def abort (uri : Text) (failure : Failure) : List Effect :=
  if failure.isSystem then [.log (.snapshotFailed uri failure), .answer .nothing]
  else [.answer (.raised failure)]

/-- A snapshot cannot be taken. A unit that was made for it is discarded, if the system lets it
go. -/
def failWrite (uri : Text) (failure : Failure) (remnant : Option Remnant)
    (supervisor : Supervisor) : Supervisor × List Effect :=
  match remnant with
  | none => (supervisor, abort uri failure)
  | some remnant =>
    let made := supervisor.units.begin remnant.own remnant.content
    ({ supervisor with
        units := if remnant.kept.isSome then made else made.abandon remnant.own },
      supervisor.logRefused remnant.own remnant.kept ++ abort uri failure)

/-- A job's process runs and its output is read; it is killed at once if a newer request came. -/
def launch (sequence pid : Nat) (supervisor : Supervisor) : Supervisor × List Effect :=
  match supervisor.job? sequence with
  | none => (supervisor, [])
  | some job =>
    if job.launching then
      let unit := (supervisor.units.content? job.unit).getD []
      (supervisor.update (job.launched pid),
        [.launch sequence pid unit] ++
          (if supervisor.isCurrent job then [] else killOf (job.launched pid)) ++
          [.answer (.job sequence)])
    else (supervisor, [])

/-- A job's process cannot be started. A refusal by the system, or of a value, ends the job; any
other failure leaves it as it is. -/
def failLaunch (sequence : Nat) (failure : Failure) (kept : Option SystemFault)
    (supervisor : Supervisor) : Supervisor × List Effect :=
  match supervisor.job? sequence with
  | none => (supervisor, [])
  | some job =>
    if job.launching then
      if failure.isSystem || failure.isValue then
        ((supervisor.update { job.unlaunched with state := .idle }).retire job kept,
          [.launchFailed sequence failure, .log (.launchFailed job.uri failure)] ++
            supervisor.logKept job kept ++ [.answer .nothing])
      else (supervisor.update job.unlaunched,
        [.launchFailed sequence failure, .answer (.raised failure)])
    else (supervisor, [])

/-! ### Completion -/

/-- Why a job's result is dropped: its document is not live, or it is not current. -/
def dropReason? (supervisor : Supervisor) (job : Job) : Option LogEntry :=
  if !supervisor.workspace.isLive job.document then some (.droppedClosed job.sequence job.uri)
  else if !supervisor.isCurrent job then some (.droppedSuperseded job.sequence job.uri)
  else none

/-- What a job comes to: its last state, what is logged, and what is delivered. -/
structure Verdict where
  state : JobState
  logs : List LogEntry
  outcome : Option Outcome

def crashVerdict (supervisor : Supervisor) (job : Job) (failure : Failure) : Verdict :=
  match supervisor.dropReason? job with
  | some reason => ⟨.obsolete, [.crashed job.sequence failure, reason], none⟩
  | none =>
    ⟨.failed, [.crashed job.sequence failure], some (.panic (.crashed job.uri failure))⟩

def textOf (supervisor : Supervisor) (job : Job) : Text :=
  ((supervisor.workspace.document? job.document).map Document.text).getD []

/-- The verdict on a job whose process gave a result. -/
def resultVerdict (supervisor : Supervisor) (job : Job) (pid : Nat) (result : ProcessResult) :
    Verdict :=
  match supervisor.dropReason? job with
  | some reason => ⟨.obsolete, [reason], none⟩
  | none =>
    if result.status ≠ 0 then
      ⟨.failed, [.exited pid result.status],
        some (.panic (.exited pid result.status result.output))⟩
    else
      match Report.parse result.stdout with
      | .error (.malformed cause) =>
        ⟨.failed, [.unreadable pid cause],
          some (.panic (.unreadable pid result.status cause result.output))⟩
      | .error (.oversized digits) =>
        supervisor.crashVerdict job (.badValue (oversizedMessage digits))
      | .ok records =>
        let resolved := records.map (Record.resolve job.uri (supervisor.textOf job))
        ⟨.completed, [], some (.diagnostics resolved)⟩

def deliver (sequence : Nat) (refusals : Refusals) (outcome : Outcome) : List Effect :=
  match refusals.of outcome with
  | none => [.report sequence outcome none]
  | some failure => [.report sequence outcome (some failure), .log (.notReported sequence failure)]

/-- The verdict on a job, by what waiting for its process gave. -/
def verdict (supervisor : Supervisor) (job : Job) (pid : Nat) :
    Except Failure ProcessResult → Verdict
  | .ok result => supervisor.resultVerdict job pid result
  | .error failure => supervisor.crashVerdict job failure

/-- A job with what came of it. -/
def settled (supervisor : Supervisor) (job : Job) (handle : ProcessHandle)
    (result : Except Failure ProcessResult) : Job :=
  { job with
    handle := some handle
    state := (supervisor.verdict job handle.pid result).state
    output := (result.map ProcessResult.output).toOption.getD job.output }

/-- One of the things that are done one after the other within an event. -/
inductive Move where
  | change (apply : Supervisor → Supervisor)
  | emit (effect : Effect)

/-- Moves made in order: the last state, and each effect with the state in which it is caused. -/
def play : List Move → Supervisor → Supervisor × List (Supervisor × Effect)
  | [], supervisor => (supervisor, [])
  | .change apply :: rest, supervisor => play rest (apply supervisor)
  | .emit effect :: rest, supervisor =>
    let (last, seen) := play rest supervisor
    (last, (supervisor, effect) :: seen)

/-- What is done when a job's result is there: the output is kept, the verdict is logged and the job
gets its last state; its unit is discarded and it leaves the table; then its outcome is
delivered. -/
def completion (supervisor : Supervisor) (job : Job) (handle : ProcessHandle)
    (result : Except Failure ProcessResult) (refusals : Refusals) (kept : Option SystemFault) :
    List Move :=
  let verdict := supervisor.verdict job handle.pid result
  let settled := supervisor.settled job handle result
  [.change (update { settled with state := job.state })] ++
    verdict.logs.map (fun entry => .emit (.log entry)) ++
  [.change (update settled)] ++
  [.change (release job kept)] ++
    (supervisor.logKept job kept).map .emit ++
  [.change (untable job)] ++
    ((verdict.outcome.map (deliver job.sequence refusals)).getD []).map .emit

/-- The effects of a completion, each with the state in which it is caused. -/
def moments (job : Job) (handle : ProcessHandle) (result : Except Failure ProcessResult)
    (refusals : Refusals) (kept : Option SystemFault) (supervisor : Supervisor) :
    List (Supervisor × Effect) :=
  (play (supervisor.completion job handle result refusals kept) supervisor).2

/-- A job's result is settled. -/
def complete (job : Job) (handle : ProcessHandle) (result : Except Failure ProcessResult)
    (refusals : Refusals) (kept : Option SystemFault) (supervisor : Supervisor) :
    Supervisor × List Effect :=
  ((play (supervisor.completion job handle result refusals kept) supervisor).1,
    (supervisor.moments job handle result refusals kept).map Prod.snd)

/-- A job's process ends; a second ending of it counts for nothing. -/
def finish (sequence : Nat) (ending : Ending) (refusals : Refusals) (kept : Option SystemFault)
    (supervisor : Supervisor) : Supervisor × List Effect :=
  match supervisor.job? sequence with
  | none => (supervisor, [])
  | some job =>
    match job.handle with
    | none => (supervisor, [])
    | some handle =>
      if handle.ending.isSome then (supervisor, [])
      else
        let handle := handle.finish ending
        match handle.result with
        | none => (supervisor.update { job with handle := some handle }, [])
        | some result => supervisor.complete job handle result refusals kept

/-! ### Steps -/

/-- Something becomes known about a job's process, if it has one. -/
def updateHandle (sequence : Nat) (change : ProcessHandle → ProcessHandle)
    (supervisor : Supervisor) : Supervisor :=
  match supervisor.job? sequence with
  | none => supervisor
  | some job =>
    match job.handle with
    | none => supervisor
    | some handle => supervisor.update { job with handle := some (change handle) }

def stop (supervisor : Supervisor) : Supervisor × List Effect :=
  ({ supervisor with table := [] },
    supervisor.table.flatMap fun entry => ((supervisor.job? entry.2).map killOf).getD [])

def step (supervisor : Supervisor) : Event → Supervisor × List Effect
  | .opened document =>
    ({ supervisor with workspace := supervisor.workspace.put document }, [])
  | .loaded document => ({ supervisor with workspace := supervisor.workspace.add document }, [])
  | .edited document version text =>
    ({ supervisor with workspace := supervisor.workspace.edit document version text }, [])
  | .closed uri => ({ supervisor with workspace := supervisor.workspace.close uri }, [])
  | .requested document => supervisor.request document
  | .unwritten uri failure remnant => supervisor.failWrite uri failure remnant
  | .launched sequence pid => supervisor.launch sequence pid
  | .launchFailed sequence failure kept => supervisor.failLaunch sequence failure kept
  | .exited sequence status => (supervisor.updateHandle sequence (·.exit status), [])
  | .vanished sequence => (supervisor.updateHandle sequence (·.vanish), [])
  | .ended sequence ending refusals kept => supervisor.finish sequence ending refusals kept
  | .forgotten uri => (supervisor.forget uri, [])
  | .shutdown => supervisor.stop

/-- Events one after the other, and all effects in order. -/
def run (supervisor : Supervisor) : List Event → Supervisor × List Effect
  | [] => (supervisor, [])
  | event :: rest =>
    let (next, effects) := supervisor.step event
    let (last, more) := run next rest
    (last, effects ++ more)

end Supervisor

end FormWatch
