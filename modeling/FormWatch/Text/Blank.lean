import FormWatch.Text.Basic

/-!
White space. `isSpace` is the Unicode property White_Space; `isBlank`, by which texts are cut into
lexemes, has the four information separators U+001C to U+001F as well.
-/

namespace FormWatch

/-- The ranges of the property White_Space, in ascending order. -/
def spaceRanges : List (Nat × Nat) :=
  [(0x09, 0x0d), (0x20, 0x20), (0x85, 0x85), (0xa0, 0xa0), (0x1680, 0x1680), (0x2000, 0x200a),
    (0x2028, 0x2029), (0x202f, 0x202f), (0x205f, 0x205f), (0x3000, 0x3000)]

def isSpace (c : Char) : Bool :=
  spaceRanges.any fun range => range.1 ≤ c.toNat && c.toNat ≤ range.2

/-- White space and the information separators. -/
def isBlank (c : Char) : Bool :=
  isSpace c || (0x1c ≤ c.toNat && c.toNat ≤ 0x1f)

namespace Text

def trimStart (text : Text) : Text :=
  text.dropWhile isBlank

def trimSpace (text : Text) : Text :=
  ((text.dropWhile isSpace).reverse.dropWhile isSpace).reverse

end Text

end FormWatch
