import FormWatch.Text.Basic

/-!
Command lines: which switches and operands a program takes.
-/

namespace FormWatch.Command

inductive Intake where
  -- It shows the help and ends.
  | help
  -- It takes none.
  | nothing
  -- It takes one text.
  | text
  -- It takes one whole number.
  | number
  -- It takes all up to the next switch.
  | texts
  deriving DecidableEq, Repr

/-- A switch by its names, the first of which stands for it in messages. -/
structure Switch where
  names : List Text
  -- What its values are called in the results and, in capitals, in the help.
  key : Text
  intake : Intake
  required : Bool
  help : Text
  deriving DecidableEq, Repr

structure Operand where
  key : Text
  help : Text
  deriving DecidableEq, Repr

structure Grammar where
  program : Text
  about : Text
  switches : List Switch
  operands : List Operand

def helpSwitch : Switch where
  names := ["-h".toList, "--help".toList]
  key := "help".toList
  intake := .help
  required := false
  help := "show this help message and exit".toList

def Grammar.names (grammar : Grammar) : List (Text × Switch) :=
  grammar.switches.flatMap fun switch => switch.names.map (·, switch)

def Grammar.switch? (grammar : Grammar) (name : Text) : Option Switch :=
  (grammar.names.find? (·.1 = name)).map Prod.snd

end FormWatch.Command
