import FormWatch.Invocation

/-!
The configuration of a server. The server and the launcher of its supervisor hold an invocation
each, which is one and the same: a setting changes it where it is, one part after the other, and the
launcher looks at it whenever it starts a compiler. A setting that is refused stops where it is;
what it has changed by then stays changed.
-/

namespace FormWatch

/-- The invocations there are, and which of them the server and the launcher hold. -/
structure Configuration where
  invocations : List Invocation
  server : Nat
  launcher : Nat
  deriving DecidableEq, Repr

namespace Configuration

/-- A server starts with an invocation of the bundled batch runner, and gives it to the launcher. -/
def start (interpreter backend : Text) : Configuration where
  invocations := [.bundled interpreter backend]
  server := 0
  launcher := 0

/-- A call on the server, which may be refused half-way. -/
abbrev Call := ExceptT ShellWords.Fault (StateM Configuration) Unit

/-- The invocation that the server holds is changed where it is. -/
def change (part : Invocation → Invocation) : Call :=
  modify fun configuration => { configuration with
    invocations := configuration.invocations.modify configuration.server part }

def setSites (sites : List Text) : Call :=
  change fun invocation => { invocation with searchPaths := sites }

/-- The executable is replaced by the words of a command, and then the entry point. A text that is
empty, or not given, leaves what is there. -/
def setCompiler (command entryPoint : Text) : Call := do
  if !command.isEmpty then
    let words ← ShellWords.split command
    change fun invocation => { invocation with executable := words }
  if !entryPoint.isEmpty then
    change fun invocation => { invocation with entryPoint := entryPoint }

def apply : Invocation.Setting → Call
  | .sites sites => setSites sites
  | .compiler command entryPoint => setCompiler command entryPoint

/-- A setting applied: whether it is refused, and what it leaves behind. -/
def call (setting : Invocation.Setting) (configuration : Configuration) :
    Except ShellWords.Fault Unit × Configuration :=
  (apply setting).run.run configuration

/-- What is left behind by settings, one after the other, refused or not. -/
def configure (configuration : Configuration) (settings : List Invocation.Setting) :
    Configuration :=
  settings.foldl (fun configuration setting => (configuration.call setting).2) configuration

/-- How the launcher starts the compiler on a file. -/
def argv (configuration : Configuration) (target : Text) : Option (List Text) :=
  configuration.invocations[configuration.launcher]?.map fun invocation => invocation.argv target

end Configuration

end FormWatch
