import FormWatch.Json.Value

/-!
Writing JSON on one line in ASCII: a comma and a space between neighbours, a colon and a space
after a key, every character outside the printable ASCII range escaped by its UTF-16 units.
-/

namespace FormWatch.Json

def escape (symbol : Symbol) : Text :=
  match symbol with
  | .char '"' => ['\\', '"']
  | .char '\\' => ['\\', '\\']
  | .char '\n' => ['\\', 'n']
  | .char '\r' => ['\\', 'r']
  | .char '\t' => ['\\', 't']
  | .char '\x0c' => ['\\', 'f']
  | .char '\x08' => ['\\', 'b']
  | .char c =>
    if ' ' ≤ c ∧ c ≤ '~' then [c]
    else (Symbol.char c).units.flatMap fun unit => '\\' :: 'u' :: Text.hex 4 unit
  | .half offset => '\\' :: 'u' :: Text.hex 4 (Symbol.half offset).code

def writeString (symbols : WideText) : Text :=
  '"' :: (symbols.flatMap escape ++ ['"'])

def writeNumber : Binary64 → Text
  | .undefined => "NaN".toList
  | .infinite negative => (if negative then ['-'] else []) ++ "Infinity".toList
  | x => x.text

mutual

def write : Value → Text
  | .null => "null".toList
  | .bool true => "true".toList
  | .bool false => "false".toList
  | .integer n => Text.ofInt n
  | .number x => writeNumber x
  | .string symbols => writeString symbols
  | .list items => '[' :: (writeItems items ++ [']'])
  | .object members => '{' :: (writeMembers members ++ ['}'])

def writeItems : List Value → Text
  | [] => []
  | [item] => write item
  | item :: next :: rest => write item ++ ',' :: ' ' :: writeItems (next :: rest)

def writeMembers : List (WideText × Value) → Text
  | [] => []
  | [(key, value)] => writeString key ++ ':' :: ' ' :: write value
  | (key, value) :: next :: rest =>
    writeString key ++ ':' :: ' ' :: (write value ++ ',' :: ' ' :: writeMembers (next :: rest))

end

end FormWatch.Json
