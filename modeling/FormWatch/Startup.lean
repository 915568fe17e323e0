import FormWatch.Command.Arguments
import FormWatch.Invocation

/-!
The command line of the server: how it talks to its client, and how it starts the compiler.
-/

namespace FormWatch.Startup

def grammar : Command.Grammar where
  program := "lisp-compile-server".toList
  about := "Out of process compile diagnostics for lisp sources".toList
  switches := [
    Command.helpSwitch,
    { names := ["--tcp".toList], key := "tcp".toList, intake := .nothing, required := false,
      help := "Use TCP server".toList },
    { names := ["--ws".toList], key := "ws".toList, intake := .nothing, required := false,
      help := "Use WebSocket server".toList },
    { names := ["--host".toList], key := "host".toList, intake := .text, required := false,
      help := "Bind to this address".toList },
    { names := ["--port".toList], key := "port".toList, intake := .number, required := false,
      help := "Bind to this port".toList },
    { names := ["--site".toList], key := "site".toList, intake := .texts, required := false,
      help := "Search paths passed to the compiler process".toList },
    { names := ["--compiler".toList], key := "compiler".toList, intake := .text, required := false,
      help := "Command used to start the compiler, defaults to the bundled batch runner".toList },
    { names := ["--entrypoint".toList], key := "entrypoint".toList, intake := .text,
      required := false, help := "Compiler entry point producing the diagnostic report".toList }]
  operands := []

/-- How the server talks to its client. A host or a port may be left open on purpose. -/
inductive Transport where
  | stdio
  | tcp (host : Option Text) (port : Option Int)
  | webSocket (host : Option Text) (port : Option Int)
  deriving DecidableEq, Repr

structure Request where
  transport : Transport
  sites : List Text
  command : Text
  entryPoint : Text
  deriving DecidableEq, Repr

def Request.ofArguments (arguments : Command.Arguments) : Request where
  transport :=
    let host := arguments.valueOr "127.0.0.1".toList "host"
    let port := arguments.numberOr 2087 "port"
    if arguments.isUsed "tcp" then .tcp host port
    else if arguments.isUsed "ws" then .webSocket host port
    else .stdio
  sites := (arguments.last? "site").getD []
  command := (arguments.valueOr [] "compiler").getD []
  entryPoint := (arguments.valueOr [] "entrypoint").getD []

def Request.parse (arguments : List Text) : Except Command.Stop Request :=
  (grammar.parse arguments).map Request.ofArguments

def Request.configure (request : Request) (invocation : Invocation) :
    Except ShellWords.Fault Invocation :=
  (invocation.setSites request.sites).setCompiler request.command request.entryPoint

end FormWatch.Startup
