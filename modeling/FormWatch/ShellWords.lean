import FormWatch.Text.Basic

/-!
Words of a command line, split as a shell splits them: at white space outside quotes. A backslash
takes the next character as it is; within double quotes it does so before a double quote or a
backslash only, and elsewhere it stands for itself; within single quotes it always does.
-/

namespace FormWatch.ShellWords

inductive Fault where
  | openQuote
  | openEscape
  deriving DecidableEq, Repr

def Fault.message : Fault → Text
  | openQuote => "No closing quotation".toList
  | openEscape => "No escaped character".toList

/-- Where a character stands. -/
inductive Mode where
  | plain
  | singleQuoted
  | doubleQuoted
  -- after a backslash outside quotes
  | escaped
  -- after a backslash within double quotes
  | escapedInQuotes
  deriving DecidableEq, Repr

def isSeparator (c : Char) : Bool :=
  c == ' ' || c == '\t' || c == '\r' || c == '\n'

/-- The words from a place on. `word` holds the characters of the word read so far, latest first,
if one was begun. -/
def splitFrom : Mode → Option Text → Text → Except Fault (List Text)
  | .plain, none, [] => .ok []
  | .plain, some word, [] => .ok [word.reverse]
  | .singleQuoted, _, [] | .doubleQuoted, _, [] => .error .openQuote
  | .escaped, _, [] | .escapedInQuotes, _, [] => .error .openEscape
  | .plain, word, c :: rest =>
    if isSeparator c then
      match word with
      | none => splitFrom .plain none rest
      | some word => (splitFrom .plain none rest).map (word.reverse :: ·)
    else if c = '\\' then splitFrom .escaped word rest
    else if c = '\'' then splitFrom .singleQuoted (some (word.getD [])) rest
    else if c = '"' then splitFrom .doubleQuoted (some (word.getD [])) rest
    else splitFrom .plain (some (c :: word.getD [])) rest
  | .singleQuoted, word, c :: rest =>
    if c = '\'' then splitFrom .plain word rest
    else splitFrom .singleQuoted (some (c :: word.getD [])) rest
  | .doubleQuoted, word, c :: rest =>
    if c = '"' then splitFrom .plain word rest
    else if c = '\\' then splitFrom .escapedInQuotes word rest
    else splitFrom .doubleQuoted (some (c :: word.getD [])) rest
  | .escaped, word, c :: rest => splitFrom .plain (some (c :: word.getD [])) rest
  | .escapedInQuotes, word, c :: rest =>
    let kept := if c = '"' ∨ c = '\\' then [c] else [c, '\\']
    splitFrom .doubleQuoted (some (kept ++ word.getD [])) rest

def split (line : Text) : Except Fault (List Text) :=
  splitFrom .plain none line

end FormWatch.ShellWords
