import FormWatch.Disk
import FormWatch.Supervisor
import FormWatch.Workspace.Uri

/-!
The server of an editor. Notifications change the documents and ask the supervisor to compile; the
outcome of a compilation goes to the editor as a list of diagnostics in place of the last one, or
as a message that compiling failed.
-/

namespace FormWatch

inductive Notification where
  | opened (document : Document)
  | changed (uri : Text) (version : Option Int) (changes : List Change)
  | saved (uri : Text)
  | closed (uri : Text)
  | shutdown
  deriving Repr

inductive Message where
  -- The diagnostics of a version of a document, in place of all before.
  | publish (uri : Text) (version : Option Int) (diagnostics : List Diagnostic)
  -- A line for the editor's log of errors.
  | logged (text : Text)
  -- An error shown to the user.
  | notice (text : Text)
  deriving Repr

namespace Server

/-- What the world decides while a notification is handled. -/
structure Surroundings where
  -- the files that are not open
  disk : Disk
  -- the failure of writing a snapshot, if it fails, and what there is of it then
  snapshotFailure : Option (Failure × Option Supervisor.Remnant)
  -- the failure with which the editor refuses diagnostics, if it does
  refusal : Option Failure

inductive Event where
  | notified (notification : Notification)
  -- A launch or a process got on.
  | world (event : Supervisor.Event)

inductive Effect where
  | act (effect : Supervisor.Effect)
  | send (message : Message)
  -- Handling a notification failed.
  | raised (failure : Failure)

def requestOf (around : Surroundings) (uri : Text) (document : Nat) : Supervisor.Event :=
  match around.snapshotFailure with
  | none => .requested document
  | some (failure, remnant) => .unwritten uri failure remnant

def readUri (disk : Disk) (uri : Text) : Except Failure Text :=
  match Uri.fault? uri with
  | some fault => .error (.badValue fault.message)
  | none => disk.readText (Uri.filePath uri)

/-- The request to compile a URI that is not open: its file is read for this once. -/
def requestUnopened (around : Surroundings) (uri : Text) (supervisor : Supervisor) :
    List Supervisor.Event :=
  match readUri around.disk uri with
  | .error failure => [.unwritten uri failure none]
  | .ok text =>
    [.loaded ⟨uri, none, text⟩, requestOf around uri supervisor.workspace.documents.length]

def requestHeld (around : Surroundings) (uri : Text) (supervisor : Supervisor) :
    List Supervisor.Event :=
  match supervisor.workspace.held? uri with
  | some document => [requestOf around uri document]
  | none => requestUnopened around uri supervisor

def minVersion : Int := -2147483648

def maxVersion : Int := 2147483647

/-- The failure of a version that is missing or out of bounds. -/
def versionFailure? (owner : String) (version : Option Int) : Option Failure :=
  if version.any fun n => minVersion ≤ n && n ≤ maxVersion then none
  else some (.badValue (owner.toList ++ ".version should be in range [".toList ++
    Text.ofInt minVersion ++ ':' :: Text.ofInt maxVersion ++ "], but was ".toList ++
    (version.map Text.ofInt).getD "None".toList ++ ['.']))

/-- Why a notification is not handled at all: a version out of bounds, a document opened under a
URI that cannot be read, or changes of a URI that is not open. -/
def rejection? (supervisor : Supervisor) : Notification → Option Failure
  | .opened document =>
    (versionFailure? "TextDocumentItem" document.version).or
      ((Uri.fault? document.uri).map fun fault => .badValue fault.message)
  | .changed uri version changes =>
    (versionFailure? "VersionedTextDocumentIdentifier" version).or
      (if changes.isEmpty || (supervisor.workspace.held? uri).isSome then none
      else some (.missingKey uri))
  | .saved _ | .closed _ | .shutdown => none

/-- What a notification makes of the documents and asks of the supervisor. -/
def eventsOf (around : Surroundings) (supervisor : Supervisor) :
    Notification → List Supervisor.Event
  | .opened document =>
    [.opened document, requestOf around document.uri supervisor.workspace.documents.length]
  | .changed uri version changes =>
    match changes, supervisor.workspace.held? uri with
    | _ :: _, some document =>
      let old := ((supervisor.workspace.document? document).map Document.text).getD []
      [.edited document version (changes.foldl Change.apply old), requestOf around uri document]
    | _, _ => requestHeld around uri supervisor
  | .saved uri => requestHeld around uri supervisor
  | .closed uri => [.closed uri, .forgotten uri]
  | .shutdown => [.shutdown]

/-- A message to the editor, unless it refuses it. -/
def send (refusal : Option Failure) (message : Message) : Effect :=
  match refusal with
  | none => .send message
  | some failure => .raised failure

/-- What follows a notification once the supervisor has done its part: a closed document has no
diagnostics. -/
def epilogue (around : Surroundings) : Notification → List Effect
  | .closed uri => [send around.refusal (.publish uri none [])]
  | _ => []

/-- An outcome as the editor is told of it, the document being as it is now. -/
def present (document : Document) : Outcome → List Effect
  | .diagnostics resolved =>
    [.send (.publish document.uri document.version
      (resolved.map (Resolved.diagnostic document.text)))]
  | .panic cause =>
    [.act (.log (.compilationFailed document.uri)), .send (.logged cause.explanation),
      .send (.notice ("Compiling ".toList ++ Uri.fileName document.uri ++
        " failed, see the output log for details".toList))]

/-- What the supervisor does, with the outcomes that the editor takes told to it. -/
def relay (supervisor : Supervisor) : Supervisor.Effect → List Effect
  | .report sequence outcome none =>
    match (supervisor.job? sequence).bind fun job =>
        supervisor.workspace.document? job.document with
    | some document => present document outcome
    | none => []
  | .report _ _ (some _) => []
  | effect => [.act effect]

def step (around : Surroundings) (supervisor : Supervisor) : Event → Supervisor × List Effect
  | .world event =>
    let (next, effects) := supervisor.step event
    (next, effects.flatMap (relay next))
  | .notified notification =>
    match rejection? supervisor notification with
    | some failure => (supervisor, [.raised failure])
    | none =>
      let (next, effects) := supervisor.run (eventsOf around supervisor notification)
      (next, effects.flatMap (relay next) ++ epilogue around notification)

end Server

end FormWatch
