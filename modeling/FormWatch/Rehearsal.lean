import FormWatch.Batch
import FormWatch.Server

/-!
Rehearsals. A script drives a supervisor, or a server with its editor, through steps in which
processes launch and end as the script says, and after each step what can be seen is written down.

A launch succeeds at once unless the script lets it fail or holds it back at a gate; what comes of
one held back is told when it is released. A process ends only when the script says so.
-/

namespace FormWatch

namespace Rehearsal

/-- Who takes the outcomes: those who asked, or an editor. -/
inductive Audience where
  | askers
  | editor
  deriving DecidableEq

inductive Step where
  -- Processes end, in this order.
  | finish (endings : List (Nat × Ending))
  -- A process runs the batch runner on its unit and ends.
  | compile (pid : Nat) (entryPoint : Text)
  | exited (pid : Nat) (status : Int)
  | gone (pid : Nat)
  | failLaunches (failure : Option Failure)
  | failReports (failure : Option Failure)
  | failSnapshots (fails : Bool)
  -- The launches held back at a gate go on, or fail.
  | release (gate : Text) (failure : Option Failure)
  -- A new document is opened under a name.
  | openNamed (name : Text) (document : Document)
  | closeUri (uri : Text)
  | changeNamed (name text : Text)
  | request (names : List Text) (gate : Option Text)
  | forget (uri : Text)
  | shutdown
  | notify (notification : Notification) (gate : Option Text)

inductive Act where
  | launch (pid : Nat) (unit : Bytes)
  | launchFailed (failure : Failure)
  | kill (pid : Nat)

/-- What is reported: an outcome to the one who asked for a named document, or a message. -/
inductive Notice where
  | outcome (name : Text) (outcome : Outcome)
  | message (message : Message)

structure Observation where
  failed : Option Failure := none
  returned : List (Nat × Supervisor.Answer) := []
  acts : List Act := []
  notices : List Notice := []
  logs : List LogEntry := []
  current : List (Text × Nat) := []
  jobs : List Job := []
  outputs : List (Nat × Text) := []
  units : Nat := 0

end Rehearsal

open Rehearsal in
structure Rehearsal where
  audience : Audience
  -- the path of the bundled checker
  checker : Text
  -- what files there are
  disk : Disk
  supervisor : Supervisor
  -- the named documents, latest first
  names : List (Text × Nat) := []
  -- the number of requests started
  started : Nat := 0
  -- the request that each job was made for, and the name it asked for
  requests : List (Nat × Nat × Text) := []
  -- the jobs whose launches are held back, with their gates, in order
  held : List (Text × Nat) := []
  launches : Nat := 0
  -- what each process was started on
  units : List (Nat × Bytes) := []
  launchFailure : Option Failure := none
  reportFailure : Option Failure := none
  snapshotsFail : Bool := false
  -- the jobs seen so far
  seen : List Nat := []
  -- what has been seen in this step
  noted : Observation := {}

namespace Rehearsal

/-- A supervisor that has done nothing. -/
def begin (audience : Audience) (checker : Text) (disk : Disk) (unitPath : Text) : Rehearsal where
  audience := audience
  checker := checker
  disk := disk
  supervisor := .start { path := unitPath }

/-! ### Writing down -/

def note (write : Observation → Observation) (rehearsal : Rehearsal) : Rehearsal :=
  { rehearsal with noted := write rehearsal.noted }

def noteAct (act : Act) : Rehearsal → Rehearsal :=
  note fun noted => { noted with acts := noted.acts ++ [act] }

def nameOf (rehearsal : Rehearsal) (sequence : Nat) : Text :=
  ((rehearsal.requests.find? (·.1 = sequence)).map (·.2.2)).getD []

/-- An effect of the supervisor written down. `request` is the request that it may answer. -/
def noteEffect (request : Nat) (rehearsal : Rehearsal) : Supervisor.Effect → Rehearsal
  | .start _ => rehearsal
  | .launch _ pid unit =>
    { rehearsal with units := rehearsal.units ++ [(pid, unit)] }.noteAct (.launch pid unit)
  | .launchFailed _ failure => rehearsal.noteAct (.launchFailed failure)
  | .kill _ pid attempt => if attempt.isTried then rehearsal.noteAct (.kill pid) else rehearsal
  | .log entry => rehearsal.note fun noted => { noted with logs := noted.logs ++ [entry] }
  | .answer answer =>
    let shown : Supervisor.Answer :=
      match rehearsal.audience, answer with
      | .editor, .job _ => .nothing
      | _, answer => answer
    rehearsal.note fun noted => { noted with returned := noted.returned ++ [(request, shown)] }
  | .report sequence outcome none =>
    let notice := Notice.outcome (rehearsal.nameOf sequence) outcome
    rehearsal.note fun noted => { noted with notices := noted.notices ++ [notice] }
  | .report _ _ (some _) => rehearsal

def noteServer (request : Nat) (rehearsal : Rehearsal) : Server.Effect → Rehearsal
  | .act effect => rehearsal.noteEffect request effect
  | .send message =>
    rehearsal.note fun noted => { noted with notices := noted.notices ++ [.message message] }
  | .raised failure => rehearsal.note fun noted => { noted with failed := some failure }

/-! ### Events -/

/-- The failure of writing a snapshot into a folder that is not there, where no unit is made. -/
def snapshotFailure (rehearsal : Rehearsal) : Option Failure :=
  if rehearsal.snapshotsFail then
    let units := rehearsal.supervisor.units
    let missing := { units with path := units.path ++ "/missing".toList }
    some (.refused .noSuchFile (missing.unitPath "XXXXXXXX".toList))
  else none

def surroundings (rehearsal : Rehearsal) : Server.Surroundings :=
  ⟨rehearsal.disk, rehearsal.snapshotFailure.map (·, none), rehearsal.reportFailure⟩

def happen (request : Nat) (event : Server.Event) (rehearsal : Rehearsal) : Rehearsal :=
  match rehearsal.audience, event with
  | .askers, .world event =>
    let (next, effects) := rehearsal.supervisor.step event
    effects.foldl (noteEffect request) { rehearsal with supervisor := next }
  | _, event =>
    let (next, effects) := Server.step rehearsal.surroundings rehearsal.supervisor event
    effects.foldl (noteServer request) { rehearsal with supervisor := next }

/-- The failures with which outcomes are refused: an editor takes every message that compiling
failed. -/
def refusals (rehearsal : Rehearsal) : Supervisor.Refusals :=
  match rehearsal.audience with
  | .askers => ⟨rehearsal.reportFailure, rehearsal.reportFailure⟩
  | .editor => ⟨rehearsal.reportFailure, none⟩

def fail (failure : Failure) : Rehearsal → Rehearsal :=
  note fun noted => { noted with failed := some failure }

/-- The launch of a job goes on: it fails, or its process is the next. -/
def goOn (failure : Option Failure) (sequence : Nat) (rehearsal : Rehearsal) : Rehearsal :=
  let request := ((rehearsal.requests.find? (·.1 = sequence)).map (·.2.1)).getD 0
  match failure with
  | some failure => rehearsal.happen request (.world (.launchFailed sequence failure none))
  | none =>
    let pid := rehearsal.launches + 1
    { rehearsal with launches := pid }.happen request (.world (.launched sequence pid))

/-- A request started by an event: if a job comes of it, its launch goes on at once or waits at a
gate. -/
def start (name : Text) (gate : Option Text) (event : Server.Event) (rehearsal : Rehearsal) :
    Rehearsal :=
  let number := rehearsal.started + 1
  let before := rehearsal.supervisor.jobs.length
  let rehearsal := { rehearsal with started := number }.happen number event
  let sequence := rehearsal.supervisor.jobs.length
  if sequence = before then rehearsal
  else
    let rehearsal :=
      { rehearsal with requests := rehearsal.requests ++ [(sequence, number, name)] }
    match gate with
    | some gate => { rehearsal with held := rehearsal.held ++ [(gate, sequence)] }
    | none => rehearsal.goOn rehearsal.launchFailure sequence

/-- What happens to the job of a process, if there is one. -/
def happenTo (pid : Nat) (event : Nat → Supervisor.Event) (rehearsal : Rehearsal) : Rehearsal :=
  match rehearsal.supervisor.jobs.find? fun job => job.handle.any (·.pid = pid) with
  | none => rehearsal
  | some job => rehearsal.happen 0 (.world (event job.sequence))

def endProcess (pid : Nat) (ending : Ending) (rehearsal : Rehearsal) : Rehearsal :=
  rehearsal.happenTo pid (.ended · ending rehearsal.refusals none)

/-- How a process ends that runs the batch runner on its unit. -/
def batchEnding (entryPoint : Text) (unit : Bytes) (rehearsal : Rehearsal) : Ending :=
  let target := "unit.lisp".toList
  let disk := rehearsal.disk
  let files := (pathParts disk.start ++ [target], unit) :: disk.files
  let arguments := ["-l".toList, rehearsal.checker, "-f".toList, entryPoint, target]
  match Batch.run rehearsal.checker { disk with files := files } arguments with
  | .error failure => .unreadable failure
  | .ok outcome =>
    .finished (some outcome.exit) (Utf8.encode outcome.stdout) (Utf8.encode outcome.stderr)

def named? (rehearsal : Rehearsal) (name : Text) : Option Nat :=
  (rehearsal.names.find? (·.1 = name)).map Prod.snd

/-- The request for a document that is known by a name. -/
def requestNamed (gate : Option Text) (rehearsal : Rehearsal) (name : Text) (document : Nat) :
    Rehearsal :=
  match rehearsal.snapshotFailure, rehearsal.supervisor.workspace.document? document with
  | some failure, some found =>
    rehearsal.start name gate (.world (.unwritten found.uri failure none))
  | _, _ => rehearsal.start name gate (.world (.requested document))

/-- The requests for named documents, in order. A name of no document ends them. -/
def requestAll (gate : Option Text) (rehearsal : Rehearsal) : List Text → Rehearsal
  | [] => rehearsal
  | name :: rest =>
    match rehearsal.named? name with
    | none => rehearsal.fail (.missingKey name)
    | some document => (rehearsal.requestNamed gate name document).requestAll gate rest

/-- Whether a notification that is not rejected starts a request. -/
def startsRequest : Notification → Bool
  | .opened _ | .changed _ _ _ | .saved _ => true
  | .closed _ | .shutdown => false

def act (rehearsal : Rehearsal) : Step → Rehearsal
  | .finish endings =>
    endings.foldl (fun rehearsal (pid, ending) => rehearsal.endProcess pid ending) rehearsal
  | .compile pid entryPoint =>
    match rehearsal.units.find? (·.1 = pid) with
    | none => rehearsal
    | some (_, unit) => rehearsal.endProcess pid (rehearsal.batchEnding entryPoint unit)
  | .exited pid status => rehearsal.happenTo pid (.exited · status)
  | .gone pid => rehearsal.happenTo pid .vanished
  | .failLaunches failure => { rehearsal with launchFailure := failure }
  | .failReports failure => { rehearsal with reportFailure := failure }
  | .failSnapshots fails => { rehearsal with snapshotsFail := fails }
  | .release gate failure =>
    let waiting := rehearsal.held.filter (·.1 = gate)
    let rehearsal := { rehearsal with held := rehearsal.held.filter (·.1 ≠ gate) }
    waiting.foldl (fun rehearsal (_, sequence) => rehearsal.goOn failure sequence) rehearsal
  | .openNamed name document =>
    match Uri.fault? document.uri with
    | some fault => rehearsal.fail (.badValue fault.message)
    | none =>
      let made := rehearsal.supervisor.workspace.documents.length
      { rehearsal with names := (name, made) :: rehearsal.names }.happen 0
        (.world (.opened document))
  | .closeUri uri => rehearsal.happen 0 (.world (.closed uri))
  | .changeNamed name text =>
    match rehearsal.named? name with
    | none => rehearsal.fail (.missingKey name)
    | some document => rehearsal.happen 0 (.world (.edited document none text))
  | .request names gate => rehearsal.requestAll gate names
  | .forget uri => rehearsal.happen 0 (.world (.forgotten uri))
  | .shutdown =>
    match rehearsal.audience with
    | .askers => rehearsal.happen 0 (.world .shutdown)
    | .editor => rehearsal.happen 0 (.notified .shutdown)
  | .notify notification gate =>
    let rejection := Server.rejection? rehearsal.supervisor notification
    if startsRequest notification && rejection.isNone then
      rehearsal.start [] gate (.notified notification)
    else rehearsal.happen 0 (.notified notification)

/-- The jobs seen after a step: those seen before, those returned and those in the table. -/
def seenNow (rehearsal : Rehearsal) : List Nat :=
  let returned := rehearsal.noted.returned.filterMap fun
    | (_, .job sequence) => some sequence
    | _ => none
  rehearsal.seen ++ returned ++ rehearsal.supervisor.table.map Prod.snd

def step (rehearsal : Rehearsal) (step : Step) : Rehearsal × Observation :=
  let before := rehearsal.supervisor
  let after := { rehearsal with noted := {} }.act step
  let after := { after with seen := after.seenNow }
  let jobs := after.supervisor.jobs.filter (·.sequence ∈ after.seen)
  let outputs := jobs.filterMap fun job =>
    let old := ((before.job? job.sequence).map Job.output).getD []
    if job.output = old then none else some (job.sequence, job.output)
  (after,
    { after.noted with
      current := after.supervisor.table.mergeSort fun a b => Text.comesFirst a.1 b.1
      jobs := jobs
      outputs := outputs
      units := after.supervisor.units.units.length + after.supervisor.units.unfinished.length })

def observe (rehearsal : Rehearsal) : List Step → List Observation
  | [] => []
  | first :: rest =>
    let (next, observation) := rehearsal.step first
    observation :: next.observe rest

end Rehearsal

end FormWatch
