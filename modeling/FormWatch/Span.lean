import FormWatch.Lexeme
import FormWatch.Text.Line

/-!
Spans. An offset is shown as the form or atom around it, cut to the line of the offset.
-/

namespace FormWatch

structure Span where
  start : Nat
  stop : Nat
  deriving DecidableEq, Repr

namespace Span

def contains (span : Span) (offset : Int) : Bool :=
  span.start ≤ offset && offset < span.stop

/-- What a search has met: the starts of the open forms, innermost first, and the best closed form
and the atom around the offset. -/
structure Search where
  opened : List Nat
  form : Option Span
  atom : Option Span

namespace Search

/-- A closed form taken if it holds the offset and starts no earlier than the best one. -/
def offer (offset : Int) (span : Span) (search : Search) : Search :=
  if span.contains offset && search.form.all (·.start ≤ span.start) then
    { search with form := some span }
  else search

def step (offset : Int) (search : Search) (lexeme : Lexeme) : Search :=
  match lexeme.kind with
  | .opening _ => { search with opened := lexeme.start :: search.opened }
  | .closing _ =>
    match search.opened with
    | [] => search
    | start :: outer => offer offset ⟨start, lexeme.stop⟩ { search with opened := outer }
  | .comment => search
  | .string | .unterminated | .atom =>
    let span : Span := ⟨lexeme.start, lexeme.stop⟩
    if span.contains offset then { search with atom := some span } else search

end Search

/-- The innermost closed form around an offset, or else the atom. -/
def enclosing? (text : Text) (offset : Int) : Option Span :=
  let search := (Lexeme.scan text).foldl (Search.step offset) ⟨[], none, none⟩
  search.form.or search.atom

/-- The span that shows an offset: the form or atom around it, cut to its line. An empty span is
widened by the character before it. -/
def resolve (text : Text) (offset : Int) : Span :=
  let place := text.clamp offset
  let bounds := (enclosing? text place).getD ⟨place, place⟩
  let start := max (text.lineStart place) bounds.start
  let stop := min (text.lineEnd place) bounds.stop
  if start = stop then ⟨start - 1, stop⟩ else ⟨start, stop⟩

end Span

end FormWatch
