import FormWatch.Proofs.Json.Numbers
import FormWatch.Proofs.Json.Strings

/-!
What stands at the head of a text, as rules: `Begins text part rest` if a part of JSON does and
`rest` follows it. A part is a value, or what is left of a list or an object from an item or a
member on. Main statements: the reader gives exactly what the rules say (`read_eq_ok_iff`), and what
follows a part does not matter to it, a number apart (`Begins.append`).
-/

namespace FormWatch.Json

/-! ### Space between signs -/

theorem skipSpace_cons (c : Char) (rest : Text) (dark : isSpace c = false) :
    skipSpace (c :: rest) = c :: rest := by
  simp [skipSpace, dark]

theorem length_skipSpace_le (text : Text) : (skipSpace text).length ≤ text.length :=
  (List.dropWhile_suffix isSpace).length_le

theorem length_lt_of_sign {text body : Text} {c : Char} (head : skipSpace text = c :: body) :
    body.length < text.length := by
  have shorter := length_skipSpace_le text
  rw [head, List.length_cons] at shorter
  omega

/-- What stands behind a sign is shorter than what stands before it. -/
theorem length_skipSpace_lt_of_sign {text body : Text} {c : Char}
    (head : skipSpace text = c :: body) : (skipSpace body).length < text.length :=
  Nat.lt_of_le_of_lt (length_skipSpace_le body) (length_lt_of_sign head)

theorem skipSpace_append {text : Text} (filled : skipSpace text ≠ []) (more : Text) :
    skipSpace (text ++ more) = skipSpace text ++ more := by
  unfold skipSpace at filled ⊢
  rw [List.dropWhile_append, if_neg (by simpa using filled)]

theorem skipSpace_append_of_eq {text tail : Text} {c : Char} (head : skipSpace text = c :: tail)
    (more : Text) : skipSpace (text ++ more) = c :: (tail ++ more) := by
  rw [skipSpace_append (by simp [head]) more, head, List.cons_append]

/-- A number does not go on where, space apart, a sign of the language stands. -/
theorem endsNumber_of_sign {rest after : Text} {c : Char} (head : skipSpace rest = c :: after)
    (sign : c ∈ [',', ']', '}']) : rest ≠ [] ∧ EndsNumber rest := by
  cases rest with
  | nil => cases head
  | cons d tail =>
    refine ⟨List.cons_ne_nil _ _, ?_⟩
    intro first same
    cases same
    by_cases space : isSpace d = true
    · simp only [isSpace, Bool.or_eq_true, beq_iff_eq] at space
      rcases space with ((rfl | rfl) | rfl) | rfl <;> decide
    · rw [skipSpace_cons d tail (by simpa using space)] at head
      cases head
      simp only [List.mem_cons, List.not_mem_nil, or_false] at sign
      rcases sign with rfl | rfl | rfl <;> decide

/-! ### Rules -/

/-- A key, the colon after it, and the place of the value. -/
inductive Named : Text → WideText → Text → Prop
  | key {body rest after : Text} {symbols : WideText} (spelled : Spelled body symbols rest)
      (colon : skipSpace rest = ':' :: after) : Named ('"' :: body) symbols (skipSpace after)

/-- A value, or the items of a list or the members of an object up to the sign that closes it. -/
inductive Part where
  | value (value : Value)
  | items (items : List Value)
  | members (members : List (WideText × Value))

inductive Begins : Text → Part → Text → Prop
  | word {text rest : Text} {value : Value} (word : readWord? text = some (value, rest)) :
      Begins text (.value value) rest
  | number {text rest : Text} {value : Value} (number : readNumber text = .ok (value, rest)) :
      Begins text (.value value) rest
  | string {body rest : Text} {symbols : WideText} (spelled : Spelled body symbols rest) :
      Begins ('"' :: body) (.value (.string symbols)) rest
  | emptyList {body rest : Text} (closed : skipSpace body = ']' :: rest) :
      Begins ('[' :: body) (.value (.list [])) rest
  | list {body rest : Text} {items : List Value}
      (filled : Begins (skipSpace body) (.items items) rest) :
      Begins ('[' :: body) (.value (.list items)) rest
  | lastItem {text rest after : Text} {item : Value} (first : Begins text (.value item) rest)
      (closed : skipSpace rest = ']' :: after) : Begins text (.items [item]) after
  | nextItem {text rest body after : Text} {item : Value} {items : List Value}
      (first : Begins text (.value item) rest) (comma : skipSpace rest = ',' :: body)
      (later : Begins (skipSpace body) (.items items) after) :
      Begins text (.items (item :: items)) after
  | emptyObject {body rest : Text} (closed : skipSpace body = '}' :: rest) :
      Begins ('{' :: body) (.value (.object [])) rest
  | object {body rest : Text} {members : List (WideText × Value)}
      (filled : Begins (skipSpace body) (.members members) rest) :
      Begins ('{' :: body) (.value (.object (membersOf members))) rest
  | lastMember {text place rest after : Text} {key : WideText} {value : Value}
      (named : Named text key place) (first : Begins place (.value value) rest)
      (closed : skipSpace rest = '}' :: after) : Begins text (.members [(key, value)]) after
  | nextMember {text place rest body after : Text} {key : WideText} {value : Value}
      {members : List (WideText × Value)} (named : Named text key place)
      (first : Begins place (.value value) rest) (comma : skipSpace rest = ',' :: body)
      (later : Begins (skipSpace body) (.members members) after) :
      Begins text (.members ((key, value) :: members)) after

/-! ### How far a part reaches -/

theorem Named.length_lt {text place : Text} {key : WideText} (named : Named text key place) :
    place.length < text.length := by
  obtain @⟨body, rest, after, symbols, spelled, colon⟩ := named
  have behind := length_skipSpace_lt_of_sign colon
  have string := spelled.length_lt
  rw [List.length_cons]
  omega

theorem Named.head {text place : Text} {key : WideText} (named : Named text key place) :
    text.head? = some '"' := by
  cases named
  rfl

theorem length_lt_of_readWord? {text rest : Text} {value : Value}
    (word : readWord? text = some (value, rest)) : rest.length < text.length := by
  unfold readWord? at word
  split at word <;> cases word <;> simp only [List.length_cons] <;> omega

theorem Begins.length_lt {text rest : Text} {part : Part} (begins : Begins text part rest) :
    rest.length < text.length := by
  induction begins with
  | word word => exact length_lt_of_readWord? word
  | number number => exact length_lt_of_readNumber number
  | string spelled => simpa using Nat.lt_succ_of_lt spelled.length_lt
  | emptyList closed => simpa using Nat.lt_succ_of_lt (length_lt_of_sign closed)
  | @list body _ _ _ ih =>
    have before := length_skipSpace_le body
    rw [List.length_cons]
    omega
  | lastItem _ closed ih => exact (length_lt_of_sign closed).trans ih
  | nextItem _ comma _ first later =>
    have behind := length_skipSpace_lt_of_sign comma
    omega
  | emptyObject closed => simpa using Nat.lt_succ_of_lt (length_lt_of_sign closed)
  | @object body _ _ _ ih =>
    have before := length_skipSpace_le body
    rw [List.length_cons]
    omega
  | lastMember named _ closed ih =>
    exact (length_lt_of_sign closed).trans (ih.trans named.length_lt)
  | nextMember named _ comma _ first later =>
    have behind := length_skipSpace_lt_of_sign comma
    have key := named.length_lt
    omega

/-! ### What follows a part -/

/-- Whether what follows a part leaves no doubt about where the part ends. Numbers alone could go
on. -/
def Part.EndsAt (rest : Text) : Part → Prop
  | .value (.integer _) | .value (.number _) => rest ≠ [] ∧ EndsNumber rest
  | _ => True

theorem Part.endsAt_of_sign {rest after : Text} {c : Char} (head : skipSpace rest = c :: after)
    (sign : c ∈ [',', ']', '}']) (value : Value) : (Part.value value).EndsAt rest := by
  have ends := endsNumber_of_sign head sign
  cases value <;> first | exact ends | trivial

theorem Named.append {text place : Text} {key : WideText} (named : Named text key place)
    (followed : place ≠ []) (more : Text) : Named (text ++ more) key (place ++ more) := by
  obtain @⟨body, rest, after, symbols, spelled, colon⟩ := named
  rw [← skipSpace_append followed]
  exact .key (spelled.append more) (skipSpace_append_of_eq colon more)

theorem readWord?_append {text rest : Text} {value : Value}
    (word : readWord? text = some (value, rest)) (more : Text) :
    readWord? (text ++ more) = some (value, rest ++ more) := by
  unfold readWord? at word
  split at word <;> cases word <;> rfl

theorem endsAt_of_readNumber {text rest : Text} {value : Value}
    (number : readNumber text = .ok (value, rest)) (ends : (Part.value value).EndsAt rest) :
    rest ≠ [] ∧ EndsNumber rest := by
  obtain ⟨negative, whole, after, _, number, _⟩ := numeral_of_readNumber number
  unfold numberOf at number
  dsimp only at number
  split at number
  · split at number <;> cases number
    exact ends
  · cases number
    exact ends

theorem Begins.append {text rest : Text} {part : Part} (begins : Begins text part rest)
    (ends : part.EndsAt rest) (more : Text) : Begins (text ++ more) part (rest ++ more) := by
  have filled {text rest : Text} {part : Part} (begins : Begins text part rest) : text ≠ [] := by
    rintro rfl
    exact absurd begins.length_lt (Nat.not_lt_zero _)
  -- Inside a list or an object a sign follows every value, so only the outermost part needs `ends`.
  induction begins with
  | word word => exact .word (readWord?_append word more)
  | number number =>
    obtain ⟨followed, ends⟩ := endsAt_of_readNumber number ends
    exact .number (readNumber_append number followed ends more)
  | string spelled => exact .string (spelled.append more)
  | emptyList closed => exact .emptyList (skipSpace_append_of_eq closed more)
  | list items ih =>
    rw [List.cons_append]
    refine .list ?_
    rw [skipSpace_append (filled items)]
    exact ih trivial
  | lastItem first closed ih =>
    exact .lastItem (ih (Part.endsAt_of_sign closed (by decide) _))
      (skipSpace_append_of_eq closed more)
  | nextItem first comma later item items =>
    refine .nextItem (item (Part.endsAt_of_sign comma (by decide) _))
      (skipSpace_append_of_eq comma more) ?_
    rw [skipSpace_append (filled later)]
    exact items trivial
  | emptyObject closed => exact .emptyObject (skipSpace_append_of_eq closed more)
  | object members ih =>
    rw [List.cons_append]
    refine .object ?_
    rw [skipSpace_append (filled members)]
    exact ih trivial
  | lastMember named first closed ih =>
    exact .lastMember (named.append (filled first) more)
      (ih (Part.endsAt_of_sign closed (by decide) _)) (skipSpace_append_of_eq closed more)
  | nextMember named first comma later value members =>
    refine .nextMember (named.append (filled first) more)
      (value (Part.endsAt_of_sign comma (by decide) _)) (skipSpace_append_of_eq comma more) ?_
    rw [skipSpace_append (filled later)]
    exact members trivial

/-! ### The reader keeps to the rules -/

theorem readKey_eq_ok_iff (text : Text) (key : WideText) (place : Text) :
    readKey text = .ok (key, place) ↔ Named text key place := by
  constructor
  · intro read
    unfold readKey at read
    split at read
    next body =>
      obtain ⟨⟨symbols, rest⟩, string, read⟩ := exists_of_bind_ok read
      dsimp only at read
      split at read
      next after colon =>
        cases read
        exact .key (spelled_of_readString string) colon
      · cases read
    · cases read
  · rintro ⟨spelled, colon⟩
    simp only [readKey, readString_of_spelled _ spelled, bind, Except.bind, colon]
    rfl

/-- Whether what is read in a number of steps stands there by the rules. -/
structure Sound (steps : Nat) : Prop where
  value : ∀ {text rest value}, readValue steps text = .ok (value, rest) →
    Begins text (.value value) rest
  items : ∀ {text rest items}, readItems steps text = .ok (items, rest) →
    Begins text (.items items) rest
  members : ∀ {text rest members}, readPairs steps text = .ok (members, rest) →
    Begins text (.members members) rest

theorem Sound.value_succ {steps : Nat} (sound : Sound steps) {text rest : Text} {value : Value}
    (read : readValue (steps + 1) text = .ok (value, rest)) : Begins text (.value value) rest := by
  rw [readValue.eq_def] at read
  dsimp only at read
  split at read
  · cases read
  next body =>
    obtain ⟨string, spelled, last⟩ := exists_of_bind_ok read
    cases last
    exact .string (spelled_of_readString spelled)
  next body =>
    split at read
    next closed =>
      cases read
      exact .emptyList closed
    next =>
      obtain ⟨items, filled, last⟩ := exists_of_bind_ok read
      cases last
      exact .list (sound.items filled)
  next body =>
    split at read
    next closed =>
      cases read
      exact .emptyObject closed
    next =>
      obtain ⟨members, filled, last⟩ := exists_of_bind_ok read
      cases last
      exact .object (sound.members filled)
  next =>
    split at read
    next word =>
      cases read
      exact .word word
    next => exact .number read

theorem Sound.items_succ {steps : Nat} (sound : Sound steps) {text rest : Text} {items : List Value}
    (read : readItems (steps + 1) text = .ok (items, rest)) : Begins text (.items items) rest := by
  rw [readItems] at read
  obtain ⟨item, first, read⟩ := exists_of_bind_ok read
  dsimp only at read
  split at read
  next closed =>
    cases read
    exact .lastItem (sound.value first) closed
  next comma =>
    obtain ⟨later, rest, last⟩ := exists_of_bind_ok read
    cases last
    exact .nextItem (sound.value first) comma (sound.items rest)
  · cases read

theorem Sound.members_succ {steps : Nat} (sound : Sound steps) {text rest : Text}
    {members : List (WideText × Value)}
    (read : readPairs (steps + 1) text = .ok (members, rest)) :
    Begins text (.members members) rest := by
  rw [readPairs] at read
  obtain ⟨key, named, read⟩ := exists_of_bind_ok read
  obtain ⟨value, first, read⟩ := exists_of_bind_ok read
  have named := (readKey_eq_ok_iff _ _ _).mp named
  dsimp only at read
  split at read
  next closed =>
    cases read
    exact .lastMember named (sound.value first) closed
  next comma =>
    obtain ⟨later, rest, last⟩ := exists_of_bind_ok read
    cases last
    exact .nextMember named (sound.value first) comma (sound.members rest)
  · cases read

theorem sound (steps : Nat) : Sound steps := by
  induction steps with
  | zero =>
    constructor
    · intro text rest value read
      cases read
    · intro text rest items read
      cases read
    · intro text rest members read
      cases read
  | succ steps ih => exact ⟨ih.value_succ, ih.items_succ, ih.members_succ⟩

/-! ### The reader follows the rules -/

/-- Steps that are enough to read a part of a text. -/
def Part.steps (text : Text) : Part → Nat
  | .value _ => 2 * text.length + 1
  | .items _ | .members _ => 2 * text.length + 2

/-- Whether a part is read in a number of steps. -/
def Part.IsRead (steps : Nat) (text rest : Text) : Part → Prop
  | .value content => readValue steps text = .ok (content, rest)
  | .items content => readItems steps text = .ok (content, rest)
  | .members content => readPairs steps text = .ok (content, rest)

/-- What begins with none of these signs is a word or a number. -/
theorem readValue_other (steps : Nat) (c : Char) (rest : Text) (quote : c ≠ '"')
    (bracket : c ≠ '[') (brace : c ≠ '{') :
    readValue (steps + 1) (c :: rest) =
      match readWord? (c :: rest) with
      | some word => .ok word
      | none => readNumber (c :: rest) := by
  rw [readValue.eq_def]
  dsimp only
  split
  next same => cases same
  next same => cases same; exact absurd rfl quote
  next same => cases same; exact absurd rfl bracket
  next same => cases same; exact absurd rfl brace
  next => rfl

theorem readValue_word {text rest : Text} {value : Value} (steps : Nat)
    (word : readWord? text = some (value, rest)) :
    readValue (steps + 1) text = .ok (value, rest) := by
  unfold readWord? at word
  split at word <;> cases word <;> rfl

/-- No word begins as a number does. -/
theorem readValue_numeral {text whole after : Text} {negative : Bool}
    (numeral : Numeral text negative whole after) (steps : Nat) :
    readValue (steps + 1) text = readNumber text := by
  have other : ∃ c rest, text = c :: rest ∧ c ≠ '"' ∧ c ≠ '[' ∧ c ≠ '{' ∧
      readWord? text = none := by
    obtain ⟨digit, tail, isDigit, rfl | rfl⟩ := numeral.head
    · have apart (d : Char) (silent : Json.isDigit d = false) : digit ≠ d := by
        rintro rfl
        simp [isDigit] at silent
      refine ⟨digit, tail, rfl, apart _ rfl, apart _ rfl, apart _ rfl, ?_⟩
      unfold readWord?
      split <;> first | rfl | (next same => cases same; cases isDigit)
    · refine ⟨'-', digit :: tail, rfl, by decide, by decide, by decide, ?_⟩
      unfold readWord?
      split <;> first | rfl | (next same => cases same <;> cases isDigit)
  obtain ⟨c, rest, rfl, quote, bracket, brace, wordless⟩ := other
  rw [readValue_other steps c rest quote bracket brace, wordless]

theorem readValue_bracket (steps : Nat) (body : Text) (filled : (skipSpace body).head? ≠ some ']') :
    readValue (steps + 1) ('[' :: body) =
      (readItems steps (skipSpace body)).map fun read => (.list read.1, read.2) := by
  rw [readValue]
  split
  next same => simp [same] at filled
  next => cases readItems steps (skipSpace body) <;> rfl

theorem readValue_brace (steps : Nat) (body : Text)
    (filled : (skipSpace body).head? ≠ some '\x7d') :
    readValue (steps + 1) ('{' :: body) =
      (readPairs steps (skipSpace body)).map fun read => (.object (membersOf read.1), read.2) := by
  rw [readValue]
  split
  next same => simp [same] at filled
  next => cases readPairs steps (skipSpace body) <;> rfl

/-- No part begins with a space or with a sign that closes one. -/
theorem Begins.exists_head {text rest : Text} {part : Part} (begins : Begins text part rest) :
    ∃ c tail, text = c :: tail ∧ isSpace c = false ∧ c ≠ ']' ∧ c ≠ '\x7d' := by
  induction begins with
  | word word =>
    unfold readWord? at word
    split at word <;> cases word <;> exact ⟨_, _, rfl, by decide⟩
  | number number =>
    obtain ⟨negative, whole, after, numeral, _⟩ := numeral_of_readNumber number
    obtain ⟨digit, tail, isDigit, rfl | rfl⟩ := numeral.head
    · have apart (d : Char) (silent : Json.isDigit d = false) : digit ≠ d := by
        rintro rfl
        simp [isDigit] at silent
      refine ⟨digit, tail, rfl, ?_, apart _ rfl, apart _ rfl⟩
      simp [isSpace, apart ' ' rfl, apart '\t' rfl, apart '\n' rfl, apart '\r' rfl]
    · exact ⟨_, _, rfl, by decide⟩
  | string => exact ⟨_, _, rfl, by decide⟩
  | emptyList => exact ⟨_, _, rfl, by decide⟩
  | list => exact ⟨_, _, rfl, by decide⟩
  | lastItem _ _ ih => exact ih
  | nextItem _ _ _ ih => exact ih
  | emptyObject => exact ⟨_, _, rfl, by decide⟩
  | object => exact ⟨_, _, rfl, by decide⟩
  | lastMember named =>
    cases named
    exact ⟨_, _, rfl, by decide⟩
  | nextMember named =>
    cases named
    exact ⟨_, _, rfl, by decide⟩

theorem Begins.head {text rest : Text} {part : Part} (begins : Begins text part rest) :
    text.head? ≠ some ']' ∧ text.head? ≠ some '\x7d' := by
  obtain ⟨c, tail, rfl, _, bracket, brace⟩ := begins.exists_head
  simp [bracket, brace]

theorem Begins.skipSpace_eq {text rest : Text} {part : Part} (begins : Begins text part rest) :
    skipSpace text = text := by
  obtain ⟨c, tail, rfl, dark, _⟩ := begins.exists_head
  exact skipSpace_cons c tail dark

theorem Begins.isRead {text rest : Text} {part : Part} (begins : Begins text part rest) :
    ∀ steps, part.steps text ≤ steps → part.IsRead steps text rest := by
  -- Each part in a part stands in a shorter text, or is the value of an item in the same text, for
  -- which one step less is enough.
  induction begins with
  | word word =>
    rintro (_ | steps) enough
    · cases enough
    · exact readValue_word steps word
  | number number =>
    rintro (_ | steps) enough
    · cases enough
    · obtain ⟨negative, whole, after, numeral, _⟩ := numeral_of_readNumber number
      exact (readValue_numeral numeral steps).trans number
  | string spelled =>
    rintro (_ | steps) enough
    · cases enough
    · simp only [Part.IsRead, readValue, readString_of_spelled _ spelled]
      rfl
  | emptyList closed =>
    rintro (_ | steps) enough
    · cases enough
    · simp only [Part.IsRead, readValue, closed]
  | @list body rest items filled ih =>
    rintro (_ | steps) enough
    · cases enough
    · have before := length_skipSpace_le body
      simp only [Part.steps, List.length_cons] at enough ih
      have read : readItems steps (skipSpace body) = .ok (items, rest) := ih steps (by omega)
      rw [Part.IsRead, readValue_bracket steps body filled.head.1, read]
      rfl
  | lastItem first closed ih =>
    rintro (_ | steps) enough
    · cases enough
    · have read := ih steps (Nat.le_of_succ_le_succ enough)
      simp only [Part.IsRead] at read ⊢
      rw [readItems, read]
      simp only [bind, Except.bind, closed]
      rfl
  | nextItem first comma later item' items' =>
    rintro (_ | steps) enough
    · cases enough
    · have behind := length_skipSpace_lt_of_sign comma
      have shorter := first.length_lt
      have read := item' steps (Nat.le_of_succ_le_succ enough)
      have more := items' steps (by simp only [Part.steps] at enough ⊢; omega)
      simp only [Part.IsRead] at read more ⊢
      rw [readItems, read]
      simp only [bind, Except.bind, comma, more]
      rfl
  | emptyObject closed =>
    rintro (_ | steps) enough
    · cases enough
    · simp only [Part.IsRead, readValue, closed]
  | @object body rest members filled ih =>
    rintro (_ | steps) enough
    · cases enough
    · have before := length_skipSpace_le body
      simp only [Part.steps, List.length_cons] at enough ih
      have read : readPairs steps (skipSpace body) = .ok (members, rest) := ih steps (by omega)
      rw [Part.IsRead, readValue_brace steps body filled.head.2, read]
      rfl
  | lastMember named first closed ih =>
    rintro (_ | steps) enough
    · cases enough
    · have key := named.length_lt
      have read := ih steps (by simp only [Part.steps] at enough ⊢; omega)
      simp only [Part.IsRead] at read ⊢
      rw [readPairs, (readKey_eq_ok_iff _ _ _).mpr named]
      simp only [bind, Except.bind, read, closed]
      rfl
  | nextMember named first comma later value' members' =>
    rintro (_ | steps) enough
    · cases enough
    · have behind := length_skipSpace_lt_of_sign comma
      have shorter := first.length_lt
      have key := named.length_lt
      have read := value' steps (by simp only [Part.steps] at enough ⊢; omega)
      have more := members' steps (by simp only [Part.steps] at enough ⊢; omega)
      simp only [Part.IsRead] at read more ⊢
      rw [readPairs, (readKey_eq_ok_iff _ _ _).mpr named]
      simp only [bind, Except.bind, read, comma, more]
      rfl

/-- What is read is what stands at the head by the rules. -/
theorem read_eq_ok_iff (text rest : Text) (value : Value) :
    read text = .ok (value, rest) ↔ Begins text (.value value) rest :=
  ⟨(sound _).value, fun begins => begins.isRead _ (Nat.le_refl _)⟩

end FormWatch.Json
