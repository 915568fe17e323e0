import FormWatch.Lexeme

/-!
The tree of a text: atoms, and forms between brackets.
-/

namespace FormWatch

structure Atom where
  value : Text
  start : Nat
  stop : Nat
  deriving DecidableEq, Repr

/-- A node of the tree. A form that is not closed reaches to the end of the text. -/
inductive Node where
  | atom (atom : Atom)
  | form (bracket : Bracket) (start stop : Nat) (closed : Bool) (items : List Node)
  deriving Repr

namespace Node

def start : Node → Nat
  | atom a => a.start
  | form _ start _ _ _ => start

def stop : Node → Nat
  | atom a => a.stop
  | form _ _ stop _ _ => stop

def head? : List Node → Option Atom
  | .atom a :: _ => some a
  | _ => none

mutual

def walk : Node → List Node
  | .atom a => [.atom a]
  | .form bracket start stop closed items =>
    .form bracket start stop closed items :: walkAll items

def walkAll : List Node → List Node
  | [] => []
  | node :: rest => walk node ++ walkAll rest

end

def atoms (forest : List Node) : List Atom :=
  (walkAll forest).filterMap fun
    | .atom a => some a
    | .form .. => none

end Node

end FormWatch
