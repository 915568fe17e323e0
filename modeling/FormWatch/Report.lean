import FormWatch.Finding
import FormWatch.Json.Display
import FormWatch.Json.Printer
import FormWatch.Json.Reader
import FormWatch.Text.Line

/-!
Reports of a compiler run: any lines, a sentinel line, then a JSON list with one entry of four items
for each diagnostic. What follows the list means nothing.

`Report.print` writes the report of a check; `Report.parse` reads the report out of the output of a
run. A faulty report names its first fault.
-/

namespace FormWatch

/-- A diagnostic as a compiler reports it, placed in the text that it compiled. -/
structure Record where
  message : WideText
  position : Int
  reserved : Json.Value
  level : WideText
  deriving Repr

inductive Malformed where
  | noSentinel
  | notJson (problem : Json.Problem) (line column place : Nat)
  | notList (found : Json.Kind)
  | notEntry (found : Json.Value)
  | badText (entry : Json.Value)
  | badPosition (entry : Json.Value)
  deriving Repr

inductive ReportFault where
  | malformed (cause : Malformed)
  -- A whole number has too many digits.
  | oversized (digits : Nat)
  deriving Repr

namespace Report

def sentinel : Text := ":lisp-compile-output-start".toList

/-! ### Writing -/

def entry (finding : Finding) : Json.Value :=
  .list [.text finding.problem.message, .nat finding.position, .null,
    .text finding.problem.level.name]

def print (path : Text) (findings : List Finding) : Text :=
  "Compiling ".toList ++ path ++
    "\nFound ".toList ++ Text.ofNat findings.length ++ " diagnostics\n".toList ++
    sentinel ++ '\n' :: (Json.write (.list (findings.map entry)) ++ ['\n'])

/-! ### Reading -/

/-- The text after the first sentinel line, without white space at its start. -/
def payload? (output : Text) : Option Text :=
  match output.lines.dropWhile fun line => Text.withoutEnding line ≠ sentinel with
  | [] => none
  | _ :: rest => some (Text.trimStart rest.flatten)

def record? (value : Json.Value) : Except Malformed Record :=
  match value with
  | .list [message, position, reserved, level] =>
    match message, level with
    | .string message, .string level =>
      match position with
      | .integer position => .ok ⟨message, position, reserved, level⟩
      | _ => .error (.badPosition value)
    | _, _ => .error (.badText value)
  | _ => .error (.notEntry value)

/-- The records of the entries, or the first fault of one. -/
def records : List Json.Value → Except Malformed (List Record)
  | [] => .ok []
  | value :: rest => do
    let record ← record? value
    return record :: (← records rest)

def parse (output : Text) : Except ReportFault (List Record) :=
  match payload? output with
  | none => .error (.malformed .noSentinel)
  | some payload =>
    match Json.read payload with
    | .error (.oversized digits) => .error (.oversized digits)
    | .error (.malformed problem remaining) =>
      let place := payload.length - remaining
      .error (.malformed (.notJson problem ((payload.take place).count '\n' + 1)
        (payload.sinceNewline place + 1) place))
    | .ok (.list entries, _) => (records entries).mapError .malformed
    | .ok (value, _) => .error (.malformed (.notList value.kind))

end Report

def Malformed.message : Malformed → Text
  | noSentinel => "Missing ".toList ++ Report.sentinel ++ " marker in compiler output".toList
  | notJson problem line column place =>
    "Invalid diagnostic payload: ".toList ++ problem.message ++ ": line ".toList ++
      Text.ofNat line ++ " column ".toList ++ Text.ofNat column ++ " (char ".toList ++
      Text.ofNat place ++ [')']
  | notList found => "Expected a list of diagnostics, got ".toList ++ found.name
  | notEntry found => "Expected a 4-tuple diagnostic, got ".toList ++ Json.display found
  | badText entry => "Invalid message or level in ".toList ++ Json.display entry
  | badPosition entry => "Invalid position in ".toList ++ Json.display entry

/-- What is said about a number with too many digits. -/
def oversizedMessage (digits : Nat) : Text :=
  "Exceeds the limit (".toList ++ Text.ofNat Text.maxDigits ++
    " digits) for integer string conversion: value has ".toList ++ Text.ofNat digits ++
    " digits; use sys.set_int_max_str_digits() to increase the limit".toList

end FormWatch
