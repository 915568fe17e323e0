import FormWatch.Text.Basic

/-!
Lines. Offsets and positions know one line ending, the newline; output of other programs is cut at
every character that ends a line, and a file is read with its line endings made newlines.
-/

namespace FormWatch.Text

/-- How far back from a place its line reaches. -/
def sinceNewline (text : Text) (place : Nat) : Nat :=
  ((text.take place).reverse.takeWhile (· ≠ '\n')).length

/-- The place just after the last newline before a place, or the start of the text. -/
def lineStart (text : Text) (place : Nat) : Nat :=
  place - text.sinceNewline place

/-- The first newline at or after a place, or the end of the text. -/
def lineEnd (text : Text) (place : Nat) : Nat :=
  place + ((text.drop place).takeWhile (· ≠ '\n')).length

/-- The bounds of the line of an offset, its newline left out. -/
def lineBounds (text : Text) (offset : Int) : Nat × Nat :=
  (text.lineStart (text.clamp offset), text.lineEnd (text.clamp offset))

/-- The characters that end a line of program output. -/
def endsLine (c : Char) : Bool :=
  c ∈ ['\n', '\r', '\x0b', '\x0c', '\x1c', '\x1d', '\x1e', '\u0085', '\u2028', '\u2029']

/-- The lines of a text with their endings; a carriage return and the newline after it are one
ending. -/
def lines : Text → List Text
  | [] => []
  | c :: rest =>
    if endsLine c && !(c == '\r' && rest.head? == some '\n') then
      [c] :: lines rest
    else
      match lines rest with
      | [] => [[c]]
      | line :: more => (c :: line) :: more

/-- A line without the carriage returns and newlines at its end. -/
def withoutEnding (line : Text) : Text :=
  (line.reverse.dropWhile fun c => c == '\n' || c == '\r').reverse

/-- A text with each of its line endings (`\r\n`, `\r` and `\n`) written as one newline. -/
def unifyNewlines : Text → Text
  | [] => []
  | '\r' :: '\n' :: rest => '\n' :: unifyNewlines rest
  | '\r' :: rest => '\n' :: unifyNewlines rest
  | c :: rest => c :: unifyNewlines rest

theorem flatten_lines (text : Text) : text.lines.flatten = text := by
  induction text with
  | nil => rfl
  | cons c rest ih =>
    rw [lines]
    split
    · simp [ih]
    · split <;> simp_all

end FormWatch.Text
