import FormWatch.Text.Position

/-!
Documents and the changes that editors make to them. A change of a part names it by a range whose
characters are UTF-16 units; a range that begins on the line after the last appends.
-/

namespace FormWatch

structure Document where
  uri : Text
  version : Option Int
  text : Text
  deriving DecidableEq, Repr

inductive Change where
  | whole (text : Text)
  | part (range : Range) (text : Text)
  deriving DecidableEq, Repr

namespace Change

/-- The number of characters that begin before a number of UTF-16 units. -/
def column (units : Nat) : Text → Nat
  | [] => 0
  | c :: rest => if units = 0 then 0 else column (units - unitsOf c) rest + 1

/-- A line that ends in a carriage return and a newline, ended by the newline alone. -/
def shortEnding : Text → Text
  | [] => []
  | ['\r', '\n'] => ['\n']
  | c :: rest => c :: shortEnding rest

/-- The line and the column in characters of a position, in lines with their endings. A character
beyond the line stands for its last unit. -/
def locate (lines : List Text) (position : Position) : Nat × Nat :=
  match lines[position.line]? with
  | some line =>
    let short := shortEnding line
    let units := Text.units short
    let within := if units < position.character then units - 1 else position.character
    (position.line, column within short)
  | none => (lines.length - 1, ((lines.getLast?.map Text.units).getD 0))

def replace (start stop : Nat × Nat) (text : Text) (lines : List Text) : Text :=
  (lines.zipIdx.map fun (line, i) =>
    if i < start.1 ∨ stop.1 < i then line
    else
      (if i = start.1 then line.take start.2 ++ text else []) ++
        (if i = stop.1 then line.drop stop.2 else [])).flatten

def apply (text : Text) : Change → Text
  | .whole new => new
  | .part range new =>
    let lines := text.lines
    if lines.isEmpty then new
    else replace (locate lines range.start) (locate lines range.stop) new lines

end Change

end FormWatch
