/-!
Texts are lists of characters, so an offset into a text counts characters, and a cut of a text is
`take` and `drop`. Offsets that come from outside are integers of any size; `clamp` brings them
into the text.
-/

namespace FormWatch

abbrev Text := List Char

def hexValue? (c : Char) : Option Nat :=
  if '0' ≤ c ∧ c ≤ '9' then some (c.toNat - '0'.toNat)
  else if 'a' ≤ c ∧ c ≤ 'f' then some (c.toNat - 'a'.toNat + 10)
  else if 'A' ≤ c ∧ c ≤ 'F' then some (c.toNat - 'A'.toNat + 10)
  else none

namespace Text

/-- An offset moved to the nearest place of the text. -/
def clamp (text : Text) (offset : Int) : Nat :=
  min offset.toNat text.length

theorem clamp_le_length (text : Text) (offset : Int) : text.clamp offset ≤ text.length :=
  Nat.min_le_right _ _

def ofNat (n : Nat) : Text :=
  Nat.toDigits 10 n

def ofInt (n : Int) : Text :=
  if n < 0 then '-' :: ofNat n.natAbs else ofNat n.natAbs

/-- The digits of a number in base sixteen, filled with zeros to a least width. -/
def hex (width : Nat) (n : Nat) : Text :=
  let digits := Nat.toDigits 16 n
  List.replicate (width - digits.length) '0' ++ digits

/-- The parts joined with a separator between neighbours. -/
def join (separator : Text) : List Text → Text
  | [] => []
  | [part] => part
  | part :: next :: rest => part ++ separator ++ join separator (next :: rest)

/-- The parts between occurrences of a character; one more part than occurrences. -/
def splitAt (mark : Char) : Text → List Text
  | [] => [[]]
  | c :: rest =>
    match splitAt mark rest with
    | [] => [[c]]
    | part :: parts => if c = mark then [] :: part :: parts else (c :: part) :: parts

def startsWith (text beginning : Text) : Bool :=
  beginning.isPrefixOf text

/-- Whether a text comes no later than another in the order of their characters. -/
def comesFirst : Text → Text → Bool
  | [], _ => true
  | _ :: _, [] => false
  | a :: s, b :: t => a < b || (a == b && comesFirst s t)

/-- Every occurrence of one character replaced by another. -/
def replace (text : Text) (old new : Char) : Text :=
  text.map fun c => if c = old then new else c

end Text

end FormWatch
