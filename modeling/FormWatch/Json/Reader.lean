import FormWatch.Json.Value
import FormWatch.Text.Digit

/-!
Reading JSON. `Json.read` reads one value at the head of a text and returns it with the rest.

Beyond the standard it takes `NaN`, `Infinity` and `-Infinity`. A whole number may have at most
`Text.maxDigits` digits. A fault is placed by the length of the text that remains where it is
seen, so readers need not count characters.
-/

namespace FormWatch.Json

/-- What a text that is no JSON lacks. -/
inductive Problem where
  | value
  | comma
  | colon
  | key
  | closingQuote
  | control
  | escape
  | unicodeEscape
  deriving DecidableEq, Repr

def Problem.message : Problem → Text
  | .value => "Expecting value".toList
  | .comma => "Expecting ',' delimiter".toList
  | .colon => "Expecting ':' delimiter".toList
  | .key => "Expecting property name enclosed in double quotes".toList
  | .closingQuote => "Unterminated string starting at".toList
  | .control => "Invalid control character at".toList
  | .escape => "Invalid \\escape".toList
  | .unicodeEscape => "Invalid \\uXXXX escape".toList

inductive Fault where
  -- It is no JSON, seen where `remaining` characters are left.
  | malformed (problem : Problem) (remaining : Nat)
  -- A whole number has too many digits.
  | oversized (digits : Nat)
  deriving DecidableEq, Repr

/-- The characters between JSON's signs that mean nothing. -/
def isSpace (c : Char) : Bool :=
  c == ' ' || c == '\t' || c == '\n' || c == '\r'

def skipSpace (text : Text) : Text :=
  text.dropWhile isSpace

def unit? (a b c d : Char) : Option Nat := do
  return (((← hexValue? a) * 16 + (← hexValue? b)) * 16 + (← hexValue? c)) * 16 + (← hexValue? d)

def escaped? (c : Char) : Option Char :=
  match c with
  | '"' | '\\' | '/' => some c
  | 'b' => some '\x08'
  | 'f' => some '\x0c'
  | 'n' => some '\n'
  | 'r' => some '\r'
  | 't' => some '\t'
  | _ => none

/-- The symbols up to the closing quote, and what follows it. `opened` is the length of the text
from the opening quote on. -/
def readString (opened : Nat) : Text → Except Fault (WideText × Text)
  | [] => .error (.malformed .closingQuote opened)
  | '"' :: rest => .ok ([], rest)
  | ['\\'] => .error (.malformed .closingQuote opened)
  | '\\' :: 'u' :: a :: b :: c :: d :: e :: rest =>
    match unit? a b c d with
    | none => .error (.malformed .unicodeEscape (rest.length + 6))
    | some unit => do
      let (symbols, after) ← readString opened (e :: rest)
      return ((Symbol.ofUnit unit).push symbols, after)
  | '\\' :: 'u' :: rest => .error (.malformed .unicodeEscape (rest.length + 1))
  | '\\' :: c :: rest =>
    match escaped? c with
    | none => .error (.malformed .escape (rest.length + 2))
    | some c => do
      let (symbols, after) ← readString opened rest
      return (.char c :: symbols, after)
  | c :: rest =>
    if c.toNat ≤ 0x1f then .error (.malformed .control (rest.length + 1))
    else do
      let (symbols, after) ← readString opened rest
      return (.char c :: symbols, after)

/-- The digits at the head of a text, and what follows them. -/
def spanDigits (text : Text) : Text × Text :=
  text.span fun c => '0' ≤ c && c ≤ '9'

def natOf (digits : Text) : Nat :=
  Text.ofDigits (digits.map fun c => c.toNat - '0'.toNat)

/-- The whole part of a number: one zero, or digits that do not begin with zero. -/
def readWhole? : Text → Option (Text × Text)
  | '0' :: rest => some (['0'], rest)
  | text =>
    match spanDigits text with
    | ([], _) => none
    | digits => some digits

/-- The digits after a point, if the point and a digit stand at the head. -/
def readFraction? : Text → Option (Text × Text)
  | '.' :: text =>
    match spanDigits text with
    | ([], _) => none
    | digits => some digits
  | _ => none

/-- Whether a minus stands at the head of a text, and what follows the sign there, if there is
one. -/
def readSign : Text → Bool × Text
  | '-' :: body => (true, body)
  | '+' :: body => (false, body)
  | body => (false, body)

/-- The exponent, if its letter, perhaps a sign, and a digit stand at the head. -/
def readExponent? : Text → Option (Int × Text)
  | letter :: text =>
    if letter = 'e' ∨ letter = 'E' then
      let (negative, body) := readSign text
      match spanDigits body with
      | ([], _) => none
      | (digits, rest) =>
        some (if negative then -(natOf digits : Int) else (natOf digits : Int), rest)
    else none
  | [] => none

/-- What follows the fraction at the head of a text, if one stands there. -/
def behindFraction (text : Text) : Text :=
  ((readFraction? text).map Prod.snd).getD text

/-- What follows the exponent at the head of a text, if one stands there. -/
def behindExponent (text : Text) : Text :=
  ((readExponent? text).map Prod.snd).getD text

/-- The number with a whole part before a text: an integer if the text goes on with neither fraction
nor exponent. -/
def numberOf (negative : Bool) (whole after : Text) : Except Fault Value :=
  let fraction := readFraction? after
  let exponent := readExponent? (behindFraction after)
  if fraction.isNone ∧ exponent.isNone then
    if Text.maxDigits < whole.length then .error (.oversized whole.length)
    else .ok (.integer (if negative then -(natOf whole : Int) else natOf whole))
  else
    let decimals := (fraction.map Prod.fst).getD []
    let power := (exponent.map Prod.fst).getD 0 - decimals.length
    .ok (.number (Binary64.ofDecimal negative (natOf (whole ++ decimals)) power))

/-- A number behind its sign. `given` is the length of the text from the sign on. -/
def readUnsigned (negative : Bool) (given : Nat) (body : Text) : Except Fault (Value × Text) :=
  match readWhole? body with
  | none => .error (.malformed .value given)
  | some (whole, after) =>
    (numberOf negative whole after).map (·, behindExponent (behindFraction after))

def readNumber : Text → Except Fault (Value × Text)
  | '-' :: body => readUnsigned true (body.length + 1) body
  | body => readUnsigned false body.length body

def readWord? : Text → Option (Value × Text)
  | 'n' :: 'u' :: 'l' :: 'l' :: rest => some (.null, rest)
  | 't' :: 'r' :: 'u' :: 'e' :: rest => some (.bool true, rest)
  | 'f' :: 'a' :: 'l' :: 's' :: 'e' :: rest => some (.bool false, rest)
  | 'N' :: 'a' :: 'N' :: rest => some (.number .undefined, rest)
  | 'I' :: 'n' :: 'f' :: 'i' :: 'n' :: 'i' :: 't' :: 'y' :: rest =>
    some (.number (.infinite false), rest)
  | '-' :: 'I' :: 'n' :: 'f' :: 'i' :: 'n' :: 'i' :: 't' :: 'y' :: rest =>
    some (.number (.infinite true), rest)
  | _ => none

/-- The key of a member at the head of a text with the colon after it, and what follows them. -/
def readKey (text : Text) : Except Fault (WideText × Text) :=
  match text with
  | '"' :: body => do
    let (key, rest) ← readString text.length body
    match skipSpace rest with
    | ':' :: body => return (key, skipSpace body)
    | other => .error (.malformed .colon other.length)
  | _ => .error (.malformed .key text.length)

mutual

/-- One value at the head of a text. The first argument bounds the steps; more than two for each
character of the text are enough. -/
def readValue : Nat → Text → Except Fault (Value × Text)
  | 0, text => .error (.malformed .value text.length)
  | steps + 1, text =>
    match text with
    | [] => .error (.malformed .value 0)
    | '"' :: rest => do
      let (symbols, after) ← readString text.length rest
      return (.string symbols, after)
    | '[' :: rest =>
      match skipSpace rest with
      | ']' :: after => .ok (.list [], after)
      | body => do
        let (items, after) ← readItems steps body
        return (.list items, after)
    | '{' :: rest =>
      match skipSpace rest with
      | '}' :: after => .ok (.object [], after)
      | body => do
        let (pairs, after) ← readPairs steps body
        return (.object (membersOf pairs), after)
    | _ =>
      match readWord? text with
      | some word => .ok word
      | none => readNumber text

def readItems : Nat → Text → Except Fault (List Value × Text)
  | 0, text => .error (.malformed .value text.length)
  | steps + 1, text => do
    let (item, rest) ← readValue steps text
    match skipSpace rest with
    | ']' :: after => return ([item], after)
    | ',' :: body =>
      let (items, after) ← readItems steps (skipSpace body)
      return (item :: items, after)
    | other => .error (.malformed .comma other.length)

def readPairs : Nat → Text → Except Fault (List (WideText × Value) × Text)
  | 0, text => .error (.malformed .key text.length)
  | steps + 1, text => do
    let (key, body) ← readKey text
    let (value, rest) ← readValue steps body
    match skipSpace rest with
    | '}' :: after => return ([(key, value)], after)
    | ',' :: body =>
      let (pairs, after) ← readPairs steps (skipSpace body)
      return ((key, value) :: pairs, after)
    | other => .error (.malformed .comma other.length)

end

/-- The value at the head of a text, and what follows it. -/
def read (text : Text) : Except Fault (Value × Text) :=
  readValue (2 * text.length + 1) text

end FormWatch.Json
