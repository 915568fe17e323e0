import FormWatch.Batch.EntryPoint
import FormWatch.Command.Arguments

/-!
The batch runner: it loads a checker, and calls one of its entry points on one file.
-/

namespace FormWatch.Batch

def grammar : Command.Grammar where
  program := "lisp_server.batch".toList
  about := "Run a compiler entry point on a single file".toList
  switches := [
    Command.helpSwitch,
    { names := ["--batch".toList], key := "batch".toList, intake := .nothing, required := false,
      help := "Run non-interactively and exit".toList },
    { names := ["-L".toList], key := "search_paths".toList, intake := .text, required := false,
      help := "Add a directory to the module search path".toList },
    { names := ["-l".toList], key := "load".toList, intake := .text, required := true,
      help := "File to load".toList },
    { names := ["-f".toList], key := "function".toList, intake := .text, required := true,
      help := "Entry point to call".toList }]
  operands := [{ key := "target".toList, help := "File to compile".toList }]

/-- What a command line asks for. A switch may stand without a value. -/
structure Request where
  searchPaths : List (Option Text)
  load : Option Text
  entryPoint : Option Text
  target : Text
  deriving DecidableEq, Repr

def Request.ofArguments (arguments : Command.Arguments) : Request where
  searchPaths := (arguments.all "search_paths").map List.head?
  load := arguments.valueOr [] "load"
  entryPoint := arguments.valueOr [] "function"
  target := (arguments.operand? "target").getD []

/-- What a command line asks for, or why nothing is run. -/
def Request.parse (arguments : List Text) : Except Command.Stop Request :=
  (grammar.parse arguments).map Request.ofArguments

/-- How a run ended: its exit status, what it printed, and the search paths it put in front. -/
structure Outcome where
  exit : Nat
  stdout : Text
  stderr : Text
  searchPaths : List (Option Text)
  deriving DecidableEq, Repr

/-- What is told of a failure: its name and its message, and of these the last line. -/
def account (failure : Failure) : Text :=
  (Text.lines (failure.name ++ ": ".toList ++ failure.message)).getLast?.getD []

/-- A value shown, a missing one as an empty list. -/
def shown (value : Option Text) : Text :=
  value.getD "[]".toList

/-- The file that a request loads, where `checker` is the path of the bundled checker. -/
def Request.loaded (checker : Text) (disk : Disk) (request : Request) : Except LoadFault Loaded :=
  match request.load with
  | none => .error .noPath
  | some path => loadFile checker disk path

/-- A request carried out, where `checker` is the path of the bundled checker. It fails if the
file is loaded and no name is given for the entry point. -/
def Request.run (checker : Text) (disk : Disk) (request : Request) : Except Failure Outcome :=
  let paths := request.searchPaths
  match request.loaded checker disk with
  | .error fault =>
    .ok ⟨2, [], "Failed to load ".toList ++ shown request.load ++ ": ".toList ++ fault.message ++
      ['\n'], paths⟩
  | .ok file =>
    match request.entryPoint with
    | none => .error (.noAttribute "'list' object has no attribute 'replace'".toList)
    | some name =>
      match entryPoint? file (stem (shown request.load)) name request.target with
      | none =>
        .ok ⟨2, [], "Unknown entry point ".toList ++ name ++ " in ".toList ++
          shown request.load ++ ['\n'], paths⟩
      | some entryPoint =>
        match entryPoint.call disk request.target with
        | .ok stdout => .ok ⟨0, stdout, [], paths⟩
        | .error failure => .ok ⟨1, [], account failure, paths⟩

/-- A run of the batch runner, where `checker` is the path of the bundled checker. -/
def run (checker : Text) (disk : Disk) (arguments : List Text) : Except Failure Outcome :=
  match Request.parse arguments with
  | .error stop =>
    let ending := grammar.ending stop
    .ok ⟨ending.exit, ending.stdout, ending.stderr, []⟩
  | .ok request => request.run checker disk

end FormWatch.Batch
