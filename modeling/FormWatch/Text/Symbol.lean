import FormWatch.Text.Basic

/-!
Wide texts. An escape of a JSON string may name half of a surrogate pair without the other half;
such a half is no character, and a text that may hold one is a list of symbols.
-/

namespace FormWatch

/-- A character, or half of a surrogate pair that stands alone. -/
inductive Symbol where
  | char (c : Char)
  | half (offset : Fin 0x800)
  deriving DecidableEq, Repr

abbrev WideText := List Symbol

namespace Symbol

def code : Symbol → Nat
  | char c => c.toNat
  | half offset => 0xd800 + offset

def ofUnit (unit : Nat) : Symbol :=
  if high : 0xd800 ≤ unit ∧ unit < 0xe000 then .half ⟨unit - 0xd800, by omega⟩
  else .char (Char.ofNat unit)

/-- A symbol put before others; a high half and the low half after it make one character. -/
def push : Symbol → WideText → WideText
  | half high, half low :: rest =>
    if high < 0x400 ∧ 0x400 ≤ low then
      char (Char.ofNat (0x10000 + high * 0x400 + (low - 0x400))) :: rest
    else half high :: half low :: rest
  | symbol, rest => symbol :: rest

def units (symbol : Symbol) : List Nat :=
  let code := symbol.code
  if code < 0x10000 then [code]
  else [0xd800 + (code - 0x10000) / 0x400, 0xdc00 + (code - 0x10000) % 0x400]

end Symbol

def Text.wide (text : Text) : WideText :=
  text.map .char

end FormWatch
