import FormWatch.Command.Grammar
import FormWatch.Text.Blank

/-!
The usage and the help of a program, set in 78 columns. A word or a bracketed group is never cut.
-/

namespace FormWatch.Command

def columns : Nat := 78

/-- The column at which help texts begin at the latest. -/
def helpColumn : Nat := 24

def spaces (n : Nat) : Text :=
  List.replicate n ' '

/-- Parts put on lines, as many on each as fit. `used` is the width already taken on the line that
`line` holds, latest part first. -/
def fill (indent width used : Nat) (line : List Text) : List Text → List (List Text)
  | [] => if line.isEmpty then [] else [line.reverse]
  | part :: rest =>
    if width < used + 1 + part.length ∧ !line.isEmpty then
      line.reverse :: fill indent width (indent + part.length) [part] rest
    else fill indent width (used + 1 + part.length) (part :: line) rest

/-- Lines of parts, each line after the first with an indent. -/
def setLines (indent : Nat) (lines : List (List Text)) : Text :=
  Text.join ('\n' :: spaces indent) (lines.map (Text.join [' ']))

namespace Switch

def values (switch : Switch) : Text :=
  let shown := switch.key.map Char.toUpper
  match switch.intake with
  | .help | .nothing => []
  | .text | .number => ' ' :: shown
  | .texts => " [".toList ++ shown ++ " ...]".toList

/-- The parts of a usage line for a switch: one in brackets, or the words of a required one. -/
def usage (switch : Switch) : List Text :=
  let shown := (switch.names.headD []) ++ switch.values
  if switch.required then Text.splitAt ' ' shown else ['[' :: (shown ++ [']'])]

/-- A switch in the help: all its names, each with its values. -/
def heading (switch : Switch) : Text :=
  Text.join ", ".toList (switch.names.map (· ++ switch.values))

end Switch

namespace Grammar

def usage (grammar : Grammar) : Text :=
  let start := "usage: ".toList ++ grammar.program
  let switches := grammar.switches.flatMap Switch.usage
  let operands := grammar.operands.map Operand.key
  let whole := Text.join [' '] (start :: (switches ++ operands))
  if whole.length ≤ columns then whole ++ ['\n']
  else
    let indent := start.length + 1
    let lines := fill indent columns start.length [start] switches ++
      fill indent columns start.length [] operands
    setLines indent lines ++ ['\n']

/-- An entry of the help, its text beside its heading or, after a long heading, below it. -/
def helpEntry (column : Nat) (heading help : Text) : Text :=
  let words := (Text.splitAt ' ' help).filter (· ≠ [])
  let body := setLines column (fill column columns (column - 1) [] words)
  let start :=
    if heading.length + 4 ≤ column then spaces 2 ++ heading ++ spaces (column - 2 - heading.length)
    else spaces 2 ++ heading ++ '\n' :: spaces column
  start ++ body ++ ['\n']

def helpSection (column : Nat) (title : String) (entries : List (Text × Text)) : Text :=
  if entries.isEmpty then []
  else '\n' :: (title.toList ++ ":\n".toList ++
    entries.flatMap fun entry => helpEntry column entry.1 entry.2)

def help (grammar : Grammar) : Text :=
  let switches := grammar.switches.map fun switch => (switch.heading, switch.help)
  let operands := grammar.operands.map fun operand => (operand.key, operand.help)
  let widest := ((switches ++ operands).map (·.1.length)).foldl max 0
  let column := min (widest + 4) helpColumn
  grammar.usage ++ '\n' :: (grammar.about ++ ['\n'] ++
    helpSection column "positional arguments" operands ++ helpSection column "options" switches)

end Grammar

end FormWatch.Command
