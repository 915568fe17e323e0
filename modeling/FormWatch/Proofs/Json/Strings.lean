import FormWatch.Json.Printer
import FormWatch.Json.Reader
import Mathlib.Data.Nat.Digits.Defs

/-!
Strings of JSON there and back. What a string says is a relation, which the reader decides; every
escape that the printer writes stands for the symbol it was written for. Only a character that is
split into the two halves of its surrogate pair is read as another text: the character in one piece.
-/

namespace FormWatch.Json

/-! ### Units in base sixteen -/

theorem hexValue?_digitChar (digit : Nat) (small : digit < 16) :
    hexValue? (Nat.digitChar digit) = some digit := by
  have all : ∀ digit < 16, hexValue? (Nat.digitChar digit) = some digit := by decide
  exact all digit small

/-- A unit has four digits in base sixteen. -/
theorem hex_four (unit : Nat) (small : unit < 0x10000) :
    Text.hex 4 unit = [Nat.digitChar (unit / 4096), Nat.digitChar (unit / 256 % 16),
      Nat.digitChar (unit / 16 % 16), Nat.digitChar (unit % 16)] := by
  have more (n : Nat) (large : 16 ≤ n) :
      Nat.toDigits 16 n = Nat.toDigits 16 (n / 16) ++ [Nat.digitChar (n % 16)] :=
    Nat.toDigits_of_base_le (by decide) large
  have one (n : Nat) (digit : n < 16) : Nat.toDigits 16 n = [Nat.digitChar n] :=
    Nat.toDigits_of_lt_base digit
  -- The cases differ by how many zeros are put before the digits of the number.
  unfold Text.hex
  by_cases first : unit < 16
  · have above : unit / 4096 = 0 ∧ unit / 256 % 16 = 0 ∧ unit / 16 % 16 = 0 := by omega
    rw [one unit first, above.1, above.2.1, above.2.2, Nat.mod_eq_of_lt first]
    rfl
  by_cases second : unit < 256
  · have above : unit / 4096 = 0 ∧ unit / 256 % 16 = 0 := by omega
    have high : unit / 16 % 16 = unit / 16 := by omega
    rw [more unit (by omega), one (unit / 16) (by omega), above.1, above.2, high]
    rfl
  by_cases third : unit < 4096
  · have above : unit / 4096 = 0 := by omega
    have high : unit / 256 % 16 = unit / 16 / 16 := by omega
    rw [more unit (by omega), more (unit / 16) (by omega), one (unit / 16 / 16) (by omega), above,
      high]
    rfl
  · have high : unit / 4096 = unit / 16 / 16 / 16 := by omega
    have next : unit / 256 = unit / 16 / 16 := by omega
    rw [more unit (by omega), more (unit / 16) (by omega), more (unit / 16 / 16) (by omega),
      one (unit / 16 / 16 / 16) (by omega), high, next]
    rfl

theorem unit?_hex (unit : Nat) (small : unit < 0x10000) :
    unit? (Nat.digitChar (unit / 4096)) (Nat.digitChar (unit / 256 % 16))
      (Nat.digitChar (unit / 16 % 16)) (Nat.digitChar (unit % 16)) = some unit := by
  have joined : ((unit / 4096 * 16 + unit / 256 % 16) * 16 + unit / 16 % 16) * 16 + unit % 16 =
      unit := by omega
  simp [unit?, hexValue?_digitChar _ (show unit / 4096 < 16 by omega),
    hexValue?_digitChar _ (show unit / 256 % 16 < 16 by omega),
    hexValue?_digitChar _ (show unit / 16 % 16 < 16 by omega),
    hexValue?_digitChar _ (show unit % 16 < 16 by omega), joined]

/-! ### Strings -/

/-- What a string says behind its opening quote: `Spelled body symbols rest` if `body` begins with
the symbols and a closing quote, and `rest` follows. A unit that is half of a surrogate pair joins
the other half if that comes next. -/
inductive Spelled : Text → WideText → Text → Prop
  | close (rest : Text) : Spelled ('"' :: rest) [] rest
  | plain {c : Char} {body : Text} {symbols : WideText} {rest : Text} (unquoted : c ≠ '"')
      (unescaped : c ≠ '\\') (printable : 0x1f < c.toNat) (later : Spelled body symbols rest) :
      Spelled (c :: body) (.char c :: symbols) rest
  | escaped {c symbol : Char} {body : Text} {symbols : WideText} {rest : Text}
      (known : escaped? c = some symbol) (later : Spelled body symbols rest) :
      Spelled ('\\' :: c :: body) (.char symbol :: symbols) rest
  | unit {a b c d : Char} {unit : Nat} {body : Text} {symbols : WideText} {rest : Text}
      (known : unit? a b c d = some unit) (later : Spelled body symbols rest) :
      Spelled ('\\' :: 'u' :: a :: b :: c :: d :: body) ((Symbol.ofUnit unit).push symbols) rest

namespace Spelled

variable {body rest : Text} {symbols : WideText}

theorem length_lt (spelled : Spelled body symbols rest) : rest.length < body.length := by
  induction spelled with
  | close rest => simp
  | plain _ _ _ _ ih => simpa using Nat.lt_succ_of_lt ih
  | escaped _ _ ih => simp only [List.length_cons]; omega
  | unit _ _ ih => simp only [List.length_cons]; omega

/-- What follows the closing quote does not matter. -/
theorem append (spelled : Spelled body symbols rest) (more : Text) :
    Spelled (body ++ more) symbols (rest ++ more) := by
  induction spelled with
  | close rest => exact .close (rest ++ more)
  | plain unquoted unescaped printable _ ih => exact .plain unquoted unescaped printable ih
  | escaped known _ ih => exact .escaped known ih
  | unit known _ ih => exact .unit known ih

end Spelled

/-! ### Strings as they are read -/

/-- What a successful sequence is made of. -/
theorem exists_of_bind_ok {ε α β : Type} {first : Except ε α} {next : α → Except ε β} {result : β}
    (done : first >>= next = .ok result) :
    ∃ value, first = .ok value ∧ next value = .ok result := by
  cases first with
  | error fault => cases done
  | ok value => exact ⟨value, rfl, done⟩

/-- Where a sequence fails. -/
theorem or_of_bind_error {ε α β : Type} {first : Except ε α} {next : α → Except ε β} {fault : ε}
    (failed : first >>= next = .error fault) :
    first = .error fault ∨ ∃ value, first = .ok value ∧ next value = .error fault := by
  cases first with
  | error other =>
    cases failed
    exact .inl rfl
  | ok value => exact .inr ⟨value, rfl, failed⟩

theorem spelled_of_readString {opened : Nat} {body rest : Text} {symbols : WideText}
    (read : readString opened body = .ok (symbols, rest)) : Spelled body symbols rest := by
  fun_induction readString opened body generalizing symbols rest with
  | case1 => cases read
  | case2 =>
    cases read
    exact .close _
  | case3 => cases read
  | case4 => cases read
  | case5 a b c d e body unit known ih =>
    obtain ⟨later, first, last⟩ := exists_of_bind_ok read
    cases last
    exact .unit known (ih first)
  | case6 => cases read
  | case7 => cases read
  | case8 c body _ _ symbol known ih =>
    obtain ⟨later, first, last⟩ := exists_of_bind_ok read
    cases last
    exact .escaped known (ih first)
  | case9 => cases read
  | case10 c body unquoted final _ _ escape printable ih =>
    have unescaped : c ≠ '\\' := by
      rintro rfl
      cases body with
      | nil => exact final rfl rfl
      | cons d body => exact escape d body rfl rfl
    obtain ⟨later, first, last⟩ := exists_of_bind_ok read
    cases last
    exact .plain unquoted unescaped (Nat.lt_of_not_le printable) (ih first)

theorem readString_plain {opened : Nat} {c : Char} {body rest : Text} {symbols : WideText}
    (unquoted : c ≠ '"') (unescaped : c ≠ '\\') (printable : 0x1f < c.toNat)
    (read : readString opened body = .ok (symbols, rest)) :
    readString opened (c :: body) = .ok (.char c :: symbols, rest) := by
  rw [readString.eq_def]
  split
  next same => cases same
  next same => cases same; exact absurd rfl unquoted
  next same => cases same; exact absurd rfl unescaped
  next same => cases same; exact absurd rfl unescaped
  next same => cases same; exact absurd rfl unescaped
  next same => cases same; exact absurd rfl unescaped
  next same =>
    cases same
    rw [if_neg (Nat.not_le.mpr printable), read]
    rfl

theorem readString_escaped {opened : Nat} {c symbol : Char} {body rest : Text} {symbols : WideText}
    (known : escaped? c = some symbol) (read : readString opened body = .ok (symbols, rest)) :
    readString opened ('\\' :: c :: body) = .ok (.char symbol :: symbols, rest) := by
  have single : c ≠ 'u' := by
    rintro rfl
    cases known
  rw [readString.eq_def]
  split
  next same => cases same
  next same => cases same
  next same => cases same
  next same => cases same; exact absurd rfl single
  next same => cases same; exact absurd rfl single
  next same =>
    cases same
    rw [known]
    dsimp only
    rw [read]
    rfl
  next other same =>
    cases same
    exact (other _ _ rfl rfl).elim

/-- A string is read as what it says. -/
theorem readString_of_spelled (opened : Nat) {body rest : Text} {symbols : WideText}
    (spelled : Spelled body symbols rest) : readString opened body = .ok (symbols, rest) := by
  induction spelled with
  | close rest => rfl
  | plain unquoted unescaped printable _ ih =>
    exact readString_plain unquoted unescaped printable ih
  | escaped known _ ih => exact readString_escaped known ih
  | @unit a b c d unit body symbols rest known later ih =>
    -- The reader asks for a character behind the four digits; the closing quote at least is there.
    cases body with
    | nil => cases later
    | cons e body =>
      rw [readString, known]
      dsimp only
      rw [ih]
      rfl

/-! ### Surrogate pairs -/

/-- A unit that is no surrogate is a character. -/
theorem push_ofUnit (c : Char) (symbols : WideText) :
    (Symbol.ofUnit c.toNat).push symbols = .char c :: symbols := by
  have valid : c.toNat < 0xd800 ∨ 0xdfff < c.toNat ∧ c.toNat < 0x110000 := c.valid
  rw [Symbol.ofUnit, dif_neg (by omega), Char.ofNat_toNat]
  cases symbols <;> rfl

theorem ofUnit_half (offset : Fin 0x800) : Symbol.ofUnit (0xd800 + offset) = .half offset := by
  rw [Symbol.ofUnit, dif_pos (by omega)]
  exact congrArg Symbol.half (Fin.ext (by dsimp only; omega))

/-- A low half joins nothing that follows it. -/
theorem push_low (low : Fin 0x800) (late : 0x400 ≤ low.val) (symbols : WideText) :
    (Symbol.half low).push symbols = .half low :: symbols := by
  have bound : ¬ low < 0x400 := Nat.not_lt.mpr late
  unfold Symbol.push
  split
  next same =>
    cases same
    rw [if_neg fun both => bound both.1]
  · rfl

theorem push_high (high low : Fin 0x800) (early : high.val < 0x400) (late : 0x400 ≤ low.val)
    (symbols : WideText) :
    (Symbol.half high).push (.half low :: symbols) =
      .char (Char.ofNat (0x10000 + high * 0x400 + (low - 0x400))) :: symbols := by
  have early' : high < 0x400 := early
  have late' : 0x400 ≤ low := late
  rw [Symbol.push, if_pos ⟨early', late'⟩]

/-- The two units of a character above U+FFFF make the character again. -/
theorem push_pair (c : Char) (above : 0x10000 ≤ c.toNat) (symbols : WideText) :
    (Symbol.ofUnit (0xd800 + (c.toNat - 0x10000) / 0x400)).push
        ((Symbol.ofUnit (0xdc00 + (c.toNat - 0x10000) % 0x400)).push symbols) =
      .char c :: symbols := by
  have valid : c.toNat < 0xd800 ∨ 0xdfff < c.toNat ∧ c.toNat < 0x110000 := c.valid
  have same : Char.ofNat c.toNat = c := Char.ofNat_toNat c
  obtain ⟨part, bound, whole⟩ : ∃ part, part < 0x100000 ∧ c.toNat = 0x10000 + part :=
    ⟨c.toNat - 0x10000, by omega, by omega⟩
  rw [whole] at same ⊢
  rw [Nat.add_sub_cancel_left]
  have high : Symbol.ofUnit (0xd800 + part / 0x400) = .half ⟨part / 0x400, by omega⟩ :=
    ofUnit_half ⟨part / 0x400, by omega⟩
  have low : Symbol.ofUnit (0xdc00 + part % 0x400) = .half ⟨0x400 + part % 0x400, by omega⟩ := by
    rw [← ofUnit_half]
    exact congrArg Symbol.ofUnit (by dsimp only; omega)
  have joined : 0x10000 + part / 0x400 * 0x400 + (0x400 + part % 0x400 - 0x400) =
      0x10000 + part := by omega
  rw [high, low, push_low ⟨0x400 + part % 0x400, _⟩ (Nat.le_add_right _ _),
    push_high _ _ (by dsimp only; omega) (Nat.le_add_right _ _)]
  dsimp only
  rw [joined, same]

end FormWatch.Json

namespace FormWatch

/-- Whether two halves of surrogate pairs make a character when the one comes right before the
other. -/
def Symbol.Joins : Symbol → Symbol → Prop
  | .half high, .half low => high.val < 0x400 ∧ 0x400 ≤ low.val
  | _, _ => False

/-- Whether no character is split into the two halves of its pair. -/
def WideText.IsUnsplit : WideText → Prop
  | symbol :: next :: rest => ¬ symbol.Joins next ∧ IsUnsplit (next :: rest)
  | _ => True

theorem WideText.IsUnsplit.tail {symbol : Symbol} {rest : WideText}
    (unsplit : WideText.IsUnsplit (symbol :: rest)) : WideText.IsUnsplit rest := by
  cases rest with
  | nil => trivial
  | cons next rest => exact unsplit.2

/-- A symbol that joins nothing is put before the others. -/
theorem WideText.IsUnsplit.push {symbol : Symbol} {rest : WideText}
    (unsplit : WideText.IsUnsplit (symbol :: rest)) : symbol.push rest = symbol :: rest := by
  unfold Symbol.push
  split
  · exact if_neg unsplit.1
  · rfl

theorem Text.isUnsplit_wide (text : Text) : text.wide.IsUnsplit := by
  induction text with
  | nil => trivial
  | cons c rest ih =>
    cases rest with
    | nil => trivial
    | cons d rest =>
      -- A text has characters alone, and they join nothing.
      exact ⟨id, ih⟩

namespace Json

/-! ### Strings as they are written -/

theorem units_of_narrow (c : Char) (narrow : c.toNat < 0x10000) :
    (Symbol.char c).units = [c.toNat] := by
  rw [Symbol.units, show (Symbol.char c).code = c.toNat from rfl, if_pos narrow]

theorem units_of_wide (c : Char) (wide : ¬ c.toNat < 0x10000) :
    (Symbol.char c).units = [0xd800 + (c.toNat - 0x10000) / 0x400,
      0xdc00 + (c.toNat - 0x10000) % 0x400] := by
  rw [Symbol.units, show (Symbol.char c).code = c.toNat from rfl, if_neg wide]

def escapeUnit (unit : Nat) : Text :=
  '\\' :: 'u' :: Text.hex 4 unit

variable {body rest : Text} {symbols : WideText}

theorem Spelled.escapeUnit (later : Spelled body symbols rest) (unit : Nat)
    (small : unit < 0x10000) :
    Spelled (Json.escapeUnit unit ++ body) ((Symbol.ofUnit unit).push symbols) rest := by
  rw [Json.escapeUnit, hex_four unit small]
  exact .unit (unit?_hex unit small) later

/-- The units of a character, escaped one by one, say the character. -/
theorem Spelled.units (later : Spelled body symbols rest) (c : Char) :
    Spelled ((Symbol.char c).units.flatMap Json.escapeUnit ++ body) (.char c :: symbols) rest := by
  by_cases narrow : c.toNat < 0x10000
  · rw [units_of_narrow c narrow, List.flatMap_singleton, ← push_ofUnit]
    exact later.escapeUnit c.toNat narrow
  · have valid : c.toNat < 0xd800 ∨ 0xdfff < c.toNat ∧ c.toNat < 0x110000 := c.valid
    -- Neither unit is a character by itself; only `push` makes the two one.
    rw [units_of_wide c narrow, List.flatMap_cons, List.flatMap_singleton, List.append_assoc,
      ← push_pair c (Nat.le_of_not_lt narrow)]
    exact (later.escapeUnit _ (by omega)).escapeUnit _ (by omega)

theorem Spelled.escape_char (later : Spelled body symbols rest) (c : Char) :
    Spelled (escape (.char c) ++ body) (.char c :: symbols) rest := by
  unfold escape
  split
  next same => cases same; exact .escaped rfl later
  next same => cases same; exact .escaped rfl later
  next same => cases same; exact .escaped rfl later
  next same => cases same; exact .escaped rfl later
  next same => cases same; exact .escaped rfl later
  next same => cases same; exact .escaped rfl later
  next same => cases same; exact .escaped rfl later
  next other unquoted unescaped _ _ _ _ _ same =>
    cases same
    split
    next printable =>
      refine .plain ?_ ?_ ?_ later
      · rintro rfl
        exact unquoted rfl
      · rintro rfl
        exact unescaped rfl
      · have low : ' '.toNat ≤ c.toNat := printable.1
        exact Nat.lt_of_lt_of_le (by decide) low
    · exact later.units c
  next same => cases same

/-- Whatever the printer writes for a symbol says the symbol. -/
theorem Spelled.escape (later : Spelled body symbols rest) (symbol : Symbol) :
    Spelled (Json.escape symbol ++ body) (symbol.push symbols) rest := by
  cases symbol with
  | char c =>
    have pushed : (Symbol.char c).push symbols = .char c :: symbols := by cases symbols <;> rfl
    rw [pushed]
    exact later.escape_char c
  | half offset =>
    have half := later.escapeUnit (0xd800 + offset) (by omega)
    rwa [ofUnit_half] at half

/-- A string that is written says what it was written for, if that splits no character. -/
theorem spelled_write (symbols : WideText) (unsplit : symbols.IsUnsplit) (rest : Text) :
    Spelled (symbols.flatMap escape ++ '"' :: rest) symbols rest := by
  induction symbols with
  | nil => exact .close rest
  | cons symbol tail ih =>
    rw [List.flatMap_cons, List.append_assoc, ← unsplit.push]
    exact (ih unsplit.tail).escape symbol

end Json

end FormWatch
