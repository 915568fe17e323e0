import FormWatch.Lexeme

/-!
Findings: what is wrong with a text, and where.
-/

namespace FormWatch

inductive Level where
  | error
  | warning
  | note
  deriving DecidableEq, Repr

def Level.name : Level → Text
  | error => "error".toList
  | warning => "warning".toList
  | note => "note".toList

inductive Problem where
  -- A closing bracket closes nothing.
  | unmatched (found : Bracket)
  -- A closing bracket closes a form of the other kind.
  | mismatched (found expected : Bracket)
  | unclosed (bracket : Bracket)
  | unterminatedString
  | emptyForm
  | redefined (name : Text)
  | unusedVariable (name : Text)
  deriving DecidableEq, Repr

namespace Problem

def level : Problem → Level
  | unmatched _ | mismatched _ _ | unclosed _ | unterminatedString => .error
  | emptyForm => .note
  | redefined _ | unusedVariable _ => .warning

def message : Problem → Text
  | unmatched found => "Unmatched closing '".toList ++ [found.closing, '\'']
  | mismatched found expected =>
    "Mismatched '".toList ++ found.closing :: ("', expected '".toList ++ [expected.closing, '\''])
  | unclosed bracket => "Unclosed '".toList ++ [bracket.opening, '\'']
  | unterminatedString => "Unterminated string".toList
  | emptyForm => "Empty form at top level".toList
  | redefined name => name ++ " is already defined".toList
  | unusedVariable name => "unused variable ".toList ++ name

end Problem

structure Finding where
  problem : Problem
  position : Nat
  deriving DecidableEq, Repr

end FormWatch
