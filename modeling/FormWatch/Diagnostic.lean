import FormWatch.Report
import FormWatch.Span
import FormWatch.Text.Position

/-!
Diagnostics of a document: the records of a report resolved to spans of the document's text, and
these as ranges of an editor.
-/

namespace FormWatch

structure Resolved where
  uri : Text
  span : Span
  level : WideText
  message : WideText
  deriving DecidableEq, Repr

def Record.resolve (uri text : Text) (record : Record) : Resolved :=
  ⟨uri, Span.resolve text record.position, record.level, record.message⟩

inductive Severity where
  | error
  | warning
  | information
  deriving DecidableEq, Repr

/-- The severity of a level; a level of unknown name is shown like a note. -/
def Severity.ofLevel (level : WideText) : Severity :=
  if level = Text.wide Level.error.name then .error
  else if level = Text.wide Level.warning.name then .warning
  else .information

structure Diagnostic where
  range : Range
  severity : Severity
  message : WideText
  deriving DecidableEq, Repr

def Diagnostic.source : Text := "lisp-compile".toList

/-- A message between two offsets of a text, as an editor shows it. -/
def Diagnostic.at (text : Text) (start stop : Int) (level message : WideText) : Diagnostic :=
  ⟨text.range start stop, .ofLevel level, message⟩

/-- A resolved record as an editor shows it in a text. -/
def Resolved.diagnostic (text : Text) (resolved : Resolved) : Diagnostic :=
  .at text resolved.span.start resolved.span.stop resolved.level resolved.message

end FormWatch
