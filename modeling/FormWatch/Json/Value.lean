import FormWatch.Decimal.Binary64
import FormWatch.Text.Symbol

/-!
JSON values. Members of an object keep the order in which their keys first came.
-/

namespace FormWatch.Json

inductive Value where
  | null
  | bool (value : Bool)
  | integer (value : Int)
  | number (value : Binary64)
  | string (value : WideText)
  | list (items : List Value)
  | object (members : List (WideText × Value))
  deriving Repr, Inhabited

inductive Kind where
  | null
  | bool
  | integer
  | number
  | string
  | list
  | object
  deriving DecidableEq, Repr

namespace Value

def kind : Value → Kind
  | .null => .null
  | .bool _ => .bool
  | .integer _ => .integer
  | .number _ => .number
  | .string _ => .string
  | .list _ => .list
  | .object _ => .object

def text (text : Text) : Value :=
  .string text.wide

def nat (n : Nat) : Value :=
  .integer n

end Value

/-- The members with a key set: in its first place if the key is there, else at the end. -/
def put (key : WideText) (value : Value) : List (WideText × Value) → List (WideText × Value)
  | [] => [(key, value)]
  | (k, v) :: rest => if k = key then (k, value) :: rest else (k, v) :: put key value rest

/-- Written pairs as members: a repeated key keeps its first place and its last value. -/
def membersOf (pairs : List (WideText × Value)) : List (WideText × Value) :=
  pairs.foldl (fun members pair => put pair.1 pair.2 members) []

end FormWatch.Json
