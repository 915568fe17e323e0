import FormWatch.Text.Line

/-!
Positions as editors count them: the line, and the UTF-16 units before the place on it.
-/

namespace FormWatch

def unitsOf (c : Char) : Nat :=
  if c.toNat < 0x10000 then 1 else 2

/-- A line and the UTF-16 units before a place on it, both counted from zero. -/
structure Position where
  line : Nat
  character : Nat
  deriving DecidableEq, Repr

structure Range where
  start : Position
  stop : Position
  deriving DecidableEq, Repr

namespace Text

def units : Text → Nat
  | [] => 0
  | c :: rest => unitsOf c + units rest

/-- The position of an offset, which is first clamped to the text. -/
def position (text : Text) (offset : Int) : Position :=
  let place := text.clamp offset
  let start := text.lineStart place
  ⟨(text.take place).count '\n', units ((text.take place).drop start)⟩

def range (text : Text) (start stop : Int) : Range :=
  ⟨text.position start, text.position stop⟩

end Text

end FormWatch
