import FormWatch.Text.Blank

/-!
Lexemes of an s-expression text: brackets, atoms, strings and comments, each with its place.

White space is dropped. A quote opens a string; the rule that decides how far it goes reads the
text once (`Quote.read`). A quote whose body is cut off by a backslash before a newline makes no
lexeme, and the rest of its line is dropped with it.
-/

namespace FormWatch

namespace Quote

/-- How the body of a quote ends. -/
inductive Ending where
  -- at a second quote
  | closed
  -- at the end of the text, which may be a backslash
  | unterminated
  -- at a backslash before a newline
  | broken
  deriving DecidableEq, Repr

/-- The ending of a body and its length, the closing quote or the last backslash included. -/
def read : Text → Ending × Nat
  | [] => (.unterminated, 0)
  | '"' :: _ => (.closed, 1)
  | ['\\'] => (.unterminated, 1)
  | '\\' :: '\n' :: _ => (.broken, 0)
  | '\\' :: _ :: rest => let (ending, length) := read rest; (ending, length + 2)
  | _ :: rest => let (ending, length) := read rest; (ending, length + 1)

end Quote

/-- The two pairs of brackets. -/
inductive Bracket where
  | round
  | square
  deriving DecidableEq, Repr

namespace Bracket

def opening : Bracket → Char
  | round => '('
  | square => '['

def closing : Bracket → Char
  | round => ')'
  | square => ']'

end Bracket

inductive Lexeme.Kind where
  | comment
  | string
  | unterminated
  | opening (bracket : Bracket)
  | closing (bracket : Bracket)
  | atom
  deriving DecidableEq, Repr

structure Lexeme where
  kind : Lexeme.Kind
  value : Text
  start : Nat
  stop : Nat
  deriving DecidableEq, Repr

/-- The characters that never belong to an atom. -/
def endsAtom (c : Char) : Bool :=
  isBlank c || c ∈ ['(', ')', '[', ']', '"', ';']

namespace Lexeme

/-- The number of characters before the next newline. -/
def restOfLine (text : Text) : Nat :=
  (text.takeWhile (· ≠ '\n')).length

/-- What begins with a character: its kind, or nothing where it is dropped, and the number of
characters after the first that belong to it. -/
def extent (c : Char) (rest : Text) : Option Kind × Nat :=
  if c = ';' then (some .comment, restOfLine rest)
  else if c = '"' then
    match Quote.read rest with
    | (.closed, length) => (some .string, length)
    | (.unterminated, length) => (some .unterminated, length)
    | (.broken, _) => (none, restOfLine rest)
  else if c = '(' then (some (.opening .round), 0)
  else if c = '[' then (some (.opening .square), 0)
  else if c = ')' then (some (.closing .round), 0)
  else if c = ']' then (some (.closing .square), 0)
  else if isBlank c then (none, 0)
  else (some .atom, (rest.takeWhile (!endsAtom ·)).length)

/-- The lexemes of a text that stands at an offset. -/
def scanAt (place : Nat) : Text → List Lexeme
  | [] => []
  | c :: rest =>
    let (kind, more) := extent c rest
    let following := scanAt (place + more + 1) (rest.drop more)
    match kind with
    | some kind => ⟨kind, c :: rest.take more, place, place + more + 1⟩ :: following
    | none => following
  termination_by text => text.length

def scan (text : Text) : List Lexeme :=
  scanAt 0 text

end Lexeme

end FormWatch
