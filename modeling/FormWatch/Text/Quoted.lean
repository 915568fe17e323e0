import FormWatch.Text.Printable
import FormWatch.Text.Symbol

/-!
Texts shown in messages: in single quotes, or in double quotes if the text holds single quotes
and no double ones. The quote, the backslash and what is not printable are escaped.
-/

namespace FormWatch

namespace Symbol

def quoted (quote : Char) (symbol : Symbol) : Text :=
  let code := symbol.code
  if code = '\\'.toNat ∨ code = quote.toNat then ['\\', Char.ofNat code]
  else if code = '\n'.toNat then ['\\', 'n']
  else if code = '\r'.toNat then ['\\', 'r']
  else if code = '\t'.toNat then ['\\', 't']
  else if isPrintable code then [Char.ofNat code]
  else if code ≤ 0xff then '\\' :: 'x' :: Text.hex 2 code
  else if code ≤ 0xffff then '\\' :: 'u' :: Text.hex 4 code
  else '\\' :: 'U' :: Text.hex 8 code

end Symbol

def WideText.quoted (symbols : WideText) : Text :=
  let quote := if .char '\'' ∈ symbols ∧ .char '"' ∉ symbols then '"' else '\''
  quote :: (symbols.flatMap (Symbol.quoted quote) ++ [quote])

def Text.quoted (text : Text) : Text :=
  WideText.quoted text.wide

/-- Bytes shown in quotes after a letter `b`: those of ASCII as characters, the others escaped. -/
def Text.quotedBytes (bytes : List UInt8) : Text :=
  let symbols := bytes.map fun byte => Symbol.char (Char.ofNat byte.toNat)
  let quote := if .char '\'' ∈ symbols ∧ .char '"' ∉ symbols then '"' else '\''
  let shown (byte : UInt8) : Text :=
    if byte < 0x80 then Symbol.quoted quote (.char (Char.ofNat byte.toNat))
    else '\\' :: 'x' :: Text.hex 2 byte.toNat
  'b' :: quote :: (bytes.flatMap shown ++ [quote])

end FormWatch
