import FormWatch.Json.Value
import FormWatch.Text.Quoted

/-!
JSON values as they are shown in messages.
-/

namespace FormWatch.Json

def Kind.name : Kind → Text
  | .null => "NoneType".toList
  | .bool => "bool".toList
  | .integer => "int".toList
  | .number => "float".toList
  | .string => "str".toList
  | .list => "list".toList
  | .object => "dict".toList

mutual

/-- A value as it is shown in messages: strings quoted, lists in brackets, members in braces. -/
def display : Value → Text
  | .null => "None".toList
  | .bool true => "True".toList
  | .bool false => "False".toList
  | .integer n => Text.ofInt n
  | .number x => x.text
  | .string symbols => symbols.quoted
  | .list items => '[' :: (displayItems items ++ [']'])
  | .object members => '{' :: (displayMembers members ++ ['}'])

def displayItems : List Value → Text
  | [] => []
  | [item] => display item
  | item :: next :: rest => display item ++ ',' :: ' ' :: displayItems (next :: rest)

def displayMembers : List (WideText × Value) → Text
  | [] => []
  | [(key, value)] => key.quoted ++ ':' :: ' ' :: display value
  | (key, value) :: next :: rest =>
    key.quoted ++ ':' :: ' ' :: (display value ++ ',' :: ' ' :: displayMembers (next :: rest))

end

end FormWatch.Json
