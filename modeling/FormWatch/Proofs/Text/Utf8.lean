import FormWatch.Text.Utf8

/-!
UTF-8 there and back: the bytes of a text are decoded to the text, and no other bytes are
(`decode_eq_ok_iff`). The bytes of one character are one piece, whatever comes after them, so the
bytes of a text are cut into its characters; and a piece that is a character holds the bytes of it.
-/

namespace FormWatch.Utf8

/-! ### First bytes -/

theorem lead?_one (byte : Nat) (short : byte < 0x80) : lead? byte = some ⟨0, 0, 0, byte⟩ := by
  simp [lead?, short]

theorem lead?_two (byte : Nat) (low : 0xc2 ≤ byte) (high : byte < 0xe0) :
    lead? byte = some ⟨1, 0x80, 0xbf, byte - 0xc0⟩ := by
  rw [lead?, if_neg (by omega), if_neg (by omega), if_pos high]

/-- A first byte of three shuts out overlong forms and surrogates. -/
theorem lead?_three (byte : Nat) (low : 0xe0 ≤ byte) (high : byte < 0xf0) :
    lead? byte = some ⟨2, if byte = 0xe0 then 0xa0 else 0x80, if byte = 0xed then 0x9f else 0xbf,
      byte - 0xe0⟩ := by
  rw [lead?, if_neg (by omega), if_neg (by omega), if_neg (by omega)]
  by_cases first : byte = 0xe0
  · simp [first]
  · by_cases surrogate : byte = 0xed
    · simp [surrogate]
    · simp [first, surrogate, high]

/-- A first byte of four shuts out overlong forms and what lies above all characters. -/
theorem lead?_four (byte : Nat) (low : 0xf0 ≤ byte) (high : byte ≤ 0xf4) :
    lead? byte = some ⟨3, if byte = 0xf0 then 0x90 else 0x80, if byte = 0xf4 then 0x8f else 0xbf,
      byte - 0xf0⟩ := by
  rw [lead?, if_neg (by omega), if_neg (by omega), if_neg (by omega), if_neg (by omega),
    if_neg (by omega), if_neg (by omega)]
  by_cases first : byte = 0xf0
  · simp [first]
  · by_cases last : byte = 0xf4
    · simp [last]
    · have inner : byte < 0xf4 := by omega
      simp [first, last, inner]

/-! ### One character -/

theorem complete_zero (low high code : Nat) (bytes : Bytes) :
    complete 0 low high code bytes = (.ok code, 0) := by
  cases bytes <;> rfl

theorem complete_succ (more low high code : Nat) (byte : Nat) (rest : Bytes) (small : byte < 256)
    (above : low ≤ byte) (below : byte ≤ high) :
    complete (more + 1) low high code (UInt8.ofNat byte :: rest) =
      ((complete more 0x80 0xbf (code * 64 + (byte - 0x80)) rest).1,
        (complete more 0x80 0xbf (code * 64 + (byte - 0x80)) rest).2 + 1) := by
  have value : (UInt8.ofNat byte).toNat = byte := by
    rw [UInt8.toNat_ofNat']
    exact Nat.mod_eq_of_lt small
  rw [complete, value, if_pos ⟨above, below⟩]

theorem extent_of_lead (byte : Nat) (small : byte < 256) (lead : Lead)
    (leads : lead? byte = some lead) (rest : Bytes) :
    extent (UInt8.ofNat byte) rest =
      ((complete lead.following lead.low lead.high lead.bits rest).1.map Char.ofNat,
        (complete lead.following lead.low lead.high lead.bits rest).2) := by
  have value : (UInt8.ofNat byte).toNat = byte := by
    rw [UInt8.toNat_ofNat']
    exact Nat.mod_eq_of_lt small
  rw [extent, value, leads]

/-- No character is a surrogate, and none lies above U+10FFFF. -/
theorem code_bounds (c : Char) :
    c.val.toNat < 0xd800 ∨ 0xdfff < c.val.toNat ∧ c.val.toNat < 0x110000 :=
  c.valid

/-- The bytes of a character are the character again, whatever comes after them. -/
theorem extent_encode (c : Char) (rest : Bytes) :
    ∃ byte more, String.utf8EncodeChar c = byte :: more ∧
      extent byte (more ++ rest) = (.ok c, more.length) := by
  have valid := code_bounds c
  have same : Char.ofNat c.val.toNat = c := Char.ofNat_toNat c
  rw [String.utf8EncodeChar]
  generalize c.val.toNat = code at valid same
  by_cases one : code ≤ 127
  · rw [if_pos one]
    refine ⟨_, _, rfl, ?_⟩
    rw [extent_of_lead code (by omega) _ (lead?_one code (by omega)), complete_zero]
    simp [Except.map, same]
  rw [if_neg one]
  by_cases two : code ≤ 2047
  · rw [if_pos two]
    refine ⟨_, _, rfl, ?_⟩
    rw [extent_of_lead _ (by omega) _ (lead?_two _ (by omega) (by omega))]
    dsimp only [List.cons_append, List.nil_append]
    rw [complete_succ 0 _ _ _ _ _ (by omega) (by omega) (by omega), complete_zero]
    have joined : (code / 64 % 32 + 192 - 0xc0) * 64 + (code % 64 + 128 - 0x80) = code := by omega
    simp only [Except.map, joined, same]
    rfl
  rw [if_neg two]
  by_cases three : code ≤ 65535
  · rw [if_pos three]
    refine ⟨_, _, rfl, ?_⟩
    rw [extent_of_lead _ (by omega) _ (lead?_three _ (by omega) (by omega))]
    dsimp only [List.cons_append, List.nil_append]
    rw [complete_succ 1 _ _ _ _ _ (by omega) (by split <;> omega) (by split <;> omega),
      complete_succ 0 _ _ _ _ _ (by omega) (by omega) (by omega), complete_zero]
    have joined : ((code / 4096 % 16 + 224 - 0xe0) * 64 + (code / 64 % 64 + 128 - 0x80)) * 64 +
        (code % 64 + 128 - 0x80) = code := by omega
    simp only [Except.map, joined, same]
    rfl
  · rw [if_neg three]
    refine ⟨_, _, rfl, ?_⟩
    rw [extent_of_lead _ (by omega) _ (lead?_four _ (by omega) (by omega))]
    dsimp only [List.cons_append, List.nil_append]
    rw [complete_succ 2 _ _ _ _ _ (by omega) (by split <;> omega) (by split <;> omega),
      complete_succ 1 _ _ _ _ _ (by omega) (by omega) (by omega),
      complete_succ 0 _ _ _ _ _ (by omega) (by omega) (by omega), complete_zero]
    have joined : (((code / 262144 % 8 + 240 - 0xf0) * 64 + (code / 4096 % 64 + 128 - 0x80)) * 64 +
        (code / 64 % 64 + 128 - 0x80)) * 64 + (code % 64 + 128 - 0x80) = code := by omega
    simp only [Except.map, joined, same]
    rfl

/-! ### Texts -/

theorem pieces_encode_cons (c : Char) (text : Text) :
    pieces (encode (c :: text)) = ⟨.ok c, String.utf8EncodeChar c⟩ :: pieces (encode text) := by
  obtain ⟨byte, more, bytes, covered⟩ := extent_encode c (encode text)
  have start : encode (c :: text) = byte :: (more ++ encode text) := by
    simp [encode, bytes]
  rw [start, pieces, covered, bytes]
  simp

/-- The bytes of a text are decoded to the text. -/
theorem decode_encode (text : Text) : decode (encode text) = .ok text := by
  have whole (position : Nat) : textOf position (pieces (encode text)) = .ok text := by
    induction text generalizing position with
    | nil => simp [encode, pieces, textOf]
    | cons c rest ih => simp [pieces_encode_cons, textOf, ih, Except.map]
  exact whole 0

/-! ### Bytes of characters -/

/-- The code point is complete, and no byte was taken. -/
theorem complete_zero_ok {low high code result taken : Nat} {bytes : Bytes}
    (completed : complete 0 low high code bytes = (.ok result, taken)) :
    result = code ∧ taken = 0 := by
  rw [complete_zero] at completed
  cases completed
  exact ⟨rfl, rfl⟩

/-- One more byte of a code point was taken. -/
theorem complete_succ_ok {more low high code result taken : Nat} {bytes : Bytes}
    (completed : complete (more + 1) low high code bytes = (.ok result, taken)) :
    ∃ byte rest before, bytes = byte :: rest ∧ low ≤ byte.toNat ∧ byte.toNat ≤ high ∧
      taken = before + 1 ∧
      complete more 0x80 0xbf (code * 64 + (byte.toNat - 0x80)) rest = (.ok result, before) := by
  cases bytes with
  | nil => simp [complete] at completed
  | cons byte rest =>
    rw [complete] at completed
    split at completed
    next bounds =>
      obtain ⟨answer, count⟩ := Prod.mk.inj completed
      exact ⟨byte, rest, _, rfl, bounds.1, bounds.2, count.symm, Prod.ext answer rfl⟩
    · cases completed

theorem lead?_bounds {byte : Nat} {lead : Lead} (leads : lead? byte = some lead) :
    byte < 0x80 ∨ 0xc2 ≤ byte ∧ byte ≤ 0xf4 := by
  refine Decidable.byContradiction fun outside => ?_
  by_cases low : byte < 0xc2
  · rw [lead?, if_neg (by omega), if_pos low] at leads
    cases leads
  · rw [lead?, if_neg (by omega), if_neg (by omega), if_neg (by omega), if_neg (by omega),
      if_neg (by omega), if_neg (by omega), if_neg (by omega), if_neg (by omega),
      if_neg (by omega)] at leads
    cases leads

theorem val_ofNat (code : Nat) (valid : code.isValidChar) : (Char.ofNat code).val.toNat = code := by
  rw [Char.ofNat, dif_pos valid]
  rfl

theorem ofNat_eq (byte : UInt8) {n : Nat} (same : n = byte.toNat) : UInt8.ofNat n = byte := by
  rw [same, UInt8.ofNat_toNat]

theorem encodeChar_one {byte : UInt8} (short : byte.toNat < 0x80) :
    String.utf8EncodeChar (Char.ofNat byte.toNat) = [byte] := by
  rw [String.utf8EncodeChar, val_ofNat _ (.inl (by omega)), if_pos (by omega), ofNat_eq byte rfl]

theorem encodeChar_two {byte b : UInt8} (low : 0xc2 ≤ byte.toNat) (high : byte.toNat < 0xe0)
    (above : 0x80 ≤ b.toNat) (below : b.toNat ≤ 0xbf) :
    String.utf8EncodeChar (Char.ofNat ((byte.toNat - 0xc0) * 64 + (b.toNat - 0x80))) =
      [byte, b] := by
  rw [String.utf8EncodeChar, val_ofNat _ (.inl (by omega)), if_neg (by omega), if_pos (by omega)]
  rw [ofNat_eq byte (by omega), ofNat_eq b (by omega)]

/-- The bounds of the second byte keep out overlong forms and surrogates. -/
theorem encodeChar_three {byte b c : UInt8} (low : 0xe0 ≤ byte.toNat) (high : byte.toNat < 0xf0)
    (above : (if byte.toNat = 0xe0 then 0xa0 else 0x80) ≤ b.toNat)
    (below : b.toNat ≤ if byte.toNat = 0xed then 0x9f else 0xbf)
    (above' : 0x80 ≤ c.toNat) (below' : c.toNat ≤ 0xbf) :
    String.utf8EncodeChar (Char.ofNat
      (((byte.toNat - 0xe0) * 64 + (b.toNat - 0x80)) * 64 + (c.toNat - 0x80))) = [byte, b, c] := by
  have tail : 0x80 ≤ b.toNat ∧ b.toNat ≤ 0xbf := by split at above <;> split at below <;> omega
  have long : 0x800 ≤ ((byte.toNat - 0xe0) * 64 + (b.toNat - 0x80)) * 64 + (c.toNat - 0x80) := by
    split at above <;> omega
  have valid : Nat.isValidChar
      (((byte.toNat - 0xe0) * 64 + (b.toNat - 0x80)) * 64 + (c.toNat - 0x80)) := by
    unfold Nat.isValidChar
    split at below <;> omega
  clear above below
  rw [String.utf8EncodeChar, val_ofNat _ valid, if_neg (by omega), if_neg (by omega),
    if_pos (by omega), ofNat_eq byte (by omega), ofNat_eq b (by omega),
    ofNat_eq c (by omega)]

/-- The bounds of the second byte keep out overlong forms and what lies above all characters. -/
theorem encodeChar_four {byte b c d : UInt8} (low : 0xf0 ≤ byte.toNat) (high : byte.toNat ≤ 0xf4)
    (above : (if byte.toNat = 0xf0 then 0x90 else 0x80) ≤ b.toNat)
    (below : b.toNat ≤ if byte.toNat = 0xf4 then 0x8f else 0xbf)
    (above' : 0x80 ≤ c.toNat) (below' : c.toNat ≤ 0xbf)
    (above'' : 0x80 ≤ d.toNat) (below'' : d.toNat ≤ 0xbf) :
    String.utf8EncodeChar (Char.ofNat ((((byte.toNat - 0xf0) * 64 + (b.toNat - 0x80)) * 64 +
      (c.toNat - 0x80)) * 64 + (d.toNat - 0x80))) = [byte, b, c, d] := by
  have tail : 0x80 ≤ b.toNat ∧ b.toNat ≤ 0xbf := by split at above <;> split at below <;> omega
  have long : 0x10000 ≤ (((byte.toNat - 0xf0) * 64 + (b.toNat - 0x80)) * 64 +
      (c.toNat - 0x80)) * 64 + (d.toNat - 0x80) := by
    split at above <;> omega
  have valid : Nat.isValidChar ((((byte.toNat - 0xf0) * 64 + (b.toNat - 0x80)) * 64 +
      (c.toNat - 0x80)) * 64 + (d.toNat - 0x80)) := by
    unfold Nat.isValidChar
    split at below <;> omega
  clear above below
  rw [String.utf8EncodeChar, val_ofNat _ valid, if_neg (by omega), if_neg (by omega),
    if_neg (by omega), ofNat_eq byte (by omega), ofNat_eq b (by omega),
    ofNat_eq c (by omega), ofNat_eq d (by omega)]

/-- The bytes that are taken for a character are those it is encoded by. -/
theorem encode_of_extent {byte : UInt8} {rest : Bytes} {c : Char} {more : Nat}
    (covered : extent byte rest = (.ok c, more)) :
    byte :: rest.take more = String.utf8EncodeChar c := by
  unfold extent at covered
  split at covered
  · cases covered
  next lead leads =>
    obtain ⟨answer, taken⟩ := Prod.mk.inj covered
    have completed : ∃ code, c = Char.ofNat code ∧
        complete lead.following lead.low lead.high lead.bits rest = (.ok code, more) := by
      cases result : (complete lead.following lead.low lead.high lead.bits rest).1 with
      | error reason =>
        rw [result] at answer
        cases answer
      | ok code =>
        rw [result] at answer
        cases answer
        exact ⟨code, rfl, Prod.ext result taken⟩
    obtain ⟨code, rfl, completed⟩ := completed
    have bounds := lead?_bounds leads
    -- The first byte tells how many follow, and each of these was checked as it was taken.
    by_cases one : byte.toNat < 0x80
    · rw [lead?_one _ one] at leads
      cases leads
      obtain ⟨rfl, rfl⟩ := complete_zero_ok completed
      exact (encodeChar_one one).symm
    by_cases two : byte.toNat < 0xe0
    · rw [lead?_two _ (by omega) two] at leads
      cases leads
      obtain ⟨b, _, _, rfl, above, below, rfl, last⟩ := complete_succ_ok completed
      obtain ⟨same, none⟩ := complete_zero_ok last
      rw [same, none, List.take_succ_cons, List.take_zero]
      exact (encodeChar_two (by omega) two above below).symm
    by_cases three : byte.toNat < 0xf0
    · rw [lead?_three _ (by omega) three] at leads
      cases leads
      obtain ⟨b, _, _, rfl, above, below, rfl, second⟩ := complete_succ_ok completed
      obtain ⟨d, _, _, rfl, above', below', rfl, last⟩ := complete_succ_ok second
      obtain ⟨same, none⟩ := complete_zero_ok last
      rw [same, none, List.take_succ_cons, List.take_succ_cons, List.take_zero]
      exact (encodeChar_three (by omega) three above below above' below').symm
    · rw [lead?_four _ (by omega) (by omega)] at leads
      cases leads
      obtain ⟨b, _, _, rfl, above, below, rfl, second⟩ := complete_succ_ok completed
      obtain ⟨d, _, _, rfl, above', below', rfl, third⟩ := complete_succ_ok second
      obtain ⟨e, _, _, rfl, above'', below'', rfl, last⟩ := complete_succ_ok third
      obtain ⟨same, none⟩ := complete_zero_ok last
      rw [same, none, List.take_succ_cons, List.take_succ_cons, List.take_succ_cons, List.take_zero]
      exact (encodeChar_four (by omega) (by omega) above below above' below' above'' below'').symm

/-- Pieces that are all characters cut the bytes of a text. -/
theorem encode_of_textOf {position : Nat} {bytes : Bytes} {text : Text}
    (read : textOf position (pieces bytes) = .ok text) : bytes = encode text := by
  induction bytes using pieces.induct generalizing position text with
  | case1 =>
    rw [pieces] at read
    cases read
    rfl
  | case2 byte rest content more covered ih =>
    rw [pieces, covered] at read
    dsimp only [textOf] at read
    cases content with
    | error reason => cases read
    | ok c =>
      have taken := encode_of_extent covered
      cases later :
          textOf (position + (byte :: rest.take more).length) (pieces (rest.drop more)) with
      | error fault =>
        rw [later] at read
        cases read
      | ok after =>
        rw [later] at read
        cases read
        have split : byte :: rest = (byte :: rest.take more) ++ rest.drop more := by
          rw [List.cons_append, List.take_append_drop]
        rw [split, taken, ih later]
        rfl

theorem length_le_encode (text : Text) : text.length ≤ (encode text).length := by
  induction text with
  | nil => exact Nat.le_refl _
  | cons c rest ih =>
    obtain ⟨byte, more, bytes, _⟩ := extent_encode c []
    have start : encode (c :: rest) = byte :: (more ++ encode rest) := by
      simp [encode, bytes]
    rw [start]
    simp only [List.length_cons, List.length_append]
    omega

/-- The bytes that are decoded to a text are its bytes. -/
theorem decode_eq_ok_iff (bytes : Bytes) (text : Text) :
    decode bytes = .ok text ↔ bytes = encode text := by
  constructor
  · exact encode_of_textOf
  · rintro rfl
    exact decode_encode text

end FormWatch.Utf8
