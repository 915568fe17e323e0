import FormWatch.Finding
import FormWatch.Form

/-!
Reading a text into a forest. Every text is read: a closing bracket that closes nothing, one of the
wrong kind, a string without an end and a form without an end are findings, not failures.
-/

namespace FormWatch

/-- A form whose closing bracket has not come yet; its items latest first. -/
structure Frame where
  bracket : Bracket
  start : Nat
  items : List Node

/-- What has been read: the open forms, innermost first; the top-level nodes and the findings,
latest first. -/
structure Reading where
  frames : List Frame
  top : List Node
  findings : List Finding

namespace Reading

def empty : Reading := ⟨[], [], []⟩

/-- A node put at the end of the innermost open form, or of the top level. -/
def add (node : Node) (reading : Reading) : Reading :=
  match reading.frames with
  | [] => { reading with top := node :: reading.top }
  | frame :: outer =>
    { reading with frames := { frame with items := node :: frame.items } :: outer }

def report (problem : Problem) (position : Nat) (reading : Reading) : Reading :=
  { reading with findings := ⟨problem, position⟩ :: reading.findings }

/-- The innermost open form ended. -/
def close (found : Bracket) (lexeme : Lexeme) (reading : Reading) : Reading :=
  match reading.frames with
  | [] => reading.report (.unmatched found) lexeme.start
  | frame :: outer =>
    let form := Node.form frame.bracket frame.start lexeme.stop true frame.items.reverse
    let closed := ({ reading with frames := outer } : Reading).add form
    if found = frame.bracket then closed
    else closed.report (.mismatched found frame.bracket) lexeme.start

def step (reading : Reading) (lexeme : Lexeme) : Reading :=
  match lexeme.kind with
  | .comment => reading
  | .opening bracket => { reading with frames := ⟨bracket, lexeme.start, []⟩ :: reading.frames }
  | .closing found => reading.close found lexeme
  | .unterminated =>
    (reading.add (.atom ⟨lexeme.value, lexeme.start, lexeme.stop⟩)).report
      .unterminatedString lexeme.start
  | .string | .atom => reading.add (.atom ⟨lexeme.value, lexeme.start, lexeme.stop⟩)

/-- The forest when the text ends: each open form reaches to the end and is the last item of the
form around it. -/
def forest (stop : Nat) (reading : Reading) : List Node :=
  let last := reading.frames.foldl
    (fun inner frame => [Node.form frame.bracket frame.start stop false (frame.items.reverse ++ inner)])
    []
  reading.top.reverse ++ last

/-- The findings when the text ends, the open forms last and outermost first. -/
def allFindings (reading : Reading) : List Finding :=
  reading.findings.reverse ++
    reading.frames.reverse.map fun frame => ⟨.unclosed frame.bracket, frame.start⟩

end Reading

def Form.read (text : Text) : List Node × List Finding :=
  let reading := (Lexeme.scan text).foldl Reading.step Reading.empty
  (reading.forest text.length, reading.allFindings)

end FormWatch
