import FormWatch.ShellWords

/-!
How the compiler is started: an executable with its own arguments, then flags for search paths,
the file to load and the entry point, then the file to compile.
-/

namespace FormWatch

structure Invocation where
  executable : List Text
  searchPaths : List Text := []
  backend : Text
  entryPoint : Text := "compile-and-report".toList
  batchFlag : Text := "--batch".toList
  searchPathFlag : Text := "-L".toList
  loadFlag : Text := "-l".toList
  entryPointFlag : Text := "-f".toList
  deriving DecidableEq, Repr

namespace Invocation

/-- The batch runner under an interpreter, with the checker that comes with it. -/
def bundled (interpreter backend : Text) : Invocation where
  executable := [interpreter, "-m".toList, "lisp_server.batch".toList]
  backend := backend

def arguments (invocation : Invocation) (target : Text) : List Text :=
  invocation.batchFlag ::
    (invocation.searchPaths.flatMap (fun path => [invocation.searchPathFlag, path]) ++
      [invocation.loadFlag, invocation.backend, invocation.entryPointFlag,
        invocation.entryPoint, target])

def argv (invocation : Invocation) (target : Text) : List Text :=
  invocation.executable ++ invocation.arguments target

/-- The search paths replaced. -/
def setSites (sites : List Text) (invocation : Invocation) : Invocation :=
  { invocation with searchPaths := sites }

/-- The executable replaced by the words of a command, and the entry point replaced; an empty text
leaves what is there. A command that cannot be split is refused. -/
def setCompiler (command entryPoint : Text) (invocation : Invocation) :
    Except ShellWords.Fault Invocation := do
  let executable ←
    if command.isEmpty then pure invocation.executable else ShellWords.split command
  return { invocation with
    executable := executable
    entryPoint := if entryPoint.isEmpty then invocation.entryPoint else entryPoint }

inductive Setting where
  | sites (sites : List Text)
  | compiler (command entryPoint : Text)
  deriving DecidableEq, Repr

/-- An invocation with a setting applied, if it is not refused. -/
def apply (invocation : Invocation) : Setting → Except ShellWords.Fault Invocation
  | .sites sites => .ok (invocation.setSites sites)
  | .compiler command entryPoint => invocation.setCompiler command entryPoint

/-- An invocation with a setting applied; a refused one changes nothing. -/
def accept (invocation : Invocation) (setting : Setting) : Invocation :=
  match invocation.apply setting with
  | .ok changed => changed
  | .error _ => invocation

/-- An invocation after settings, one after the other. -/
def configure (invocation : Invocation) (settings : List Setting) : Invocation :=
  settings.foldl accept invocation

end Invocation

end FormWatch
