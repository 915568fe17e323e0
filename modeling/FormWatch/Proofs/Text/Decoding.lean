import FormWatch.Proofs.Text.LineBounds
import FormWatch.Text.Symbol

/-!
Positions read back. A decoder cuts the text at its newlines, takes the line that a position names
and walks the units of the position on it. It comes to the place that the position was made for
(`place?_position`). A character put in front of a text moves its positions in one way, whatever is
behind it (`position_cons`), and the decoder follows (`place?_behind`).
-/

namespace FormWatch

namespace Text

/-- The UTF-16 code units of a text. -/
def utf16 (text : Text) : List Nat :=
  text.wide.flatMap Symbol.units

/-- The number of characters at the start of a line that take a number of units. There is none if
the line is too short or the units end within a character. -/
def along? : Text → Nat → Option Nat
  | _, 0 => some 0
  | [], _ + 1 => none
  | c :: rest, count + 1 =>
    if unitsOf c ≤ count + 1 then (along? rest (count + 1 - unitsOf c)).map (· + 1) else none

/-- The place of a character on one of the lines of a text, given by its number. Each line before it
has a newline behind it. -/
def placeOn (character : Nat) : List Text → Nat → Option Nat
  | [], _ => none
  | line :: _, 0 => along? line character
  | line :: rest, number + 1 => (placeOn character rest number).map (· + (line.length + 1))

/-- The place of a position in a text. -/
def place? (text : Text) (position : Position) : Option Nat :=
  placeOn position.character (text.splitAt '\n') position.line

/-! ### Code units -/

theorem utf16_append (text more : Text) : utf16 (text ++ more) = utf16 text ++ utf16 more := by
  rw [utf16, wide, List.map_append, List.flatMap_append]
  rfl

theorem utf16_cons (c : Char) (rest : Text) :
    utf16 (c :: rest) = (Symbol.char c).units ++ utf16 rest := rfl

theorem length_units (c : Char) : (Symbol.char c).units.length = unitsOf c := by
  unfold Symbol.units unitsOf
  dsimp only [Symbol.code]
  split <;> rfl

theorem length_utf16 (text : Text) : text.utf16.length = units text := by
  induction text with
  | nil => rfl
  | cons c rest ih => rw [utf16_cons, List.length_append, length_units, ih, units]

/-- No character begins with the low half of a pair. -/
theorem head_units (c : Char) {unit : Nat} (first : (Symbol.char c).units.head? = some unit) :
    ¬ (0xdc00 ≤ unit ∧ unit < 0xe000) := by
  have bound : c.toNat < 0xd800 ∨ 0xdfff < c.toNat ∧ c.toNat < 0x110000 := c.valid
  unfold Symbol.units at first
  dsimp only [Symbol.code] at first
  split at first
  · cases first
    omega
  · cases first
    omega

/-! ### Walking a line -/

theorem along?_zero (line : Text) : along? line 0 = some 0 := by
  cases line <;> rfl

/-- The units of a character are walked at once. -/
theorem along?_cons (c : Char) (rest : Text) (count : Nat) :
    along? (c :: rest) (unitsOf c + count) = (along? rest count).map (· + 1) := by
  obtain ⟨more, same⟩ := Nat.exists_eq_succ_of_ne_zero (Nat.ne_of_gt (unitsOf_pos c))
  have further : unitsOf c + count = (more + count) + 1 := by omega
  rw [further, along?, if_pos (by omega), ← further, Nat.add_sub_cancel_left]

/-- The walk is over the units of the characters it counts. -/
theorem length_of_along? {line : Text} {count along : Nat}
    (walked : along? line count = some along) :
    (utf16 (line.take along)).length = count := by
  fun_induction along? line count generalizing along with
  | case1 line =>
    cases walked
    rfl
  | case2 => cases walked
  | case3 c rest count fits ih =>
    obtain ⟨before, found, rfl⟩ := Option.map_eq_some_iff.mp walked
    rw [List.take_succ_cons, utf16_cons, List.length_append, length_units, ih found]
    omega
  | case4 => cases walked

/-! ### A character in front -/

theorem splitAt_cons (mark c : Char) (rest : Text) :
    ∃ part parts, splitAt mark rest = part :: parts ∧
      splitAt mark (c :: rest) =
        if c = mark then [] :: part :: parts else (c :: part) :: parts := by
  cases cut : splitAt mark rest with
  | nil =>
    cases rest with
    | nil => cases cut
    | cons d rest =>
      rw [splitAt] at cut
      split at cut
      · cases cut
      · split at cut <;> cases cut
  | cons part parts => exact ⟨part, parts, rfl, by rw [splitAt, cut]⟩

end Text

namespace Position

/-- The position when a character is put in front of the text. -/
def behind (c : Char) (position : Position) : Position :=
  if c = '\n' then ⟨position.line + 1, position.character⟩
  else if position.line = 0 then ⟨0, unitsOf c + position.character⟩
  else position

/-- The position on the other side of the character at it. -/
def past (c : Char) (position : Position) : Position :=
  if c = '\n' then ⟨position.line + 1, 0⟩
  else ⟨position.line, position.character + unitsOf c⟩

theorem past_behind (first c : Char) (position : Position) :
    (position.behind first).past c = (position.past c).behind first := by
  obtain ⟨line, character⟩ := position
  unfold past behind
  by_cases newline : c = '\n'
  · simp only [if_pos newline, Nat.succ_ne_zero, if_false]
    split
    · rfl
    · split
      next top => rw [show line = 0 from top]
      · rfl
  · simp only [if_neg newline]
    split
    · rfl
    · split
      · rw [Nat.add_assoc]
      · rfl

end Position

namespace Text

theorem position_zero (text : Text) : text.position (0 : Nat) = ⟨0, 0⟩ := by
  rw [position_of_le text (Nat.zero_le _), lineStart_zero]
  rfl

theorem position_cons (c : Char) (rest : Text) {place : Nat} (inside : place ≤ rest.length) :
    position (c :: rest) (place + 1 : Nat) = (rest.position place).behind c := by
  induction place with
  | zero =>
    have here : (c :: rest)[0]? = some c := rfl
    rw [position_succ (c :: rest) here, position_zero, position_zero, Position.behind]
    split
    · rfl
    · rw [if_pos rfl, Nat.add_comm]
  | succ place ih =>
    -- The next character moves both positions on in the same way.
    have here : rest[place]? = some rest[place] := List.getElem?_eq_getElem inside
    have there : (c :: rest)[place + 1]? = some rest[place] := here
    rw [position_succ (c :: rest) there, position_succ rest here, ih (Nat.le_of_succ_le inside)]
    exact Position.past_behind c rest[place] (rest.position place)

theorem place?_behind (c : Char) (rest : Text) (position : Position) :
    place? (c :: rest) (position.behind c) = (rest.place? position).map (· + 1) := by
  obtain ⟨number, character⟩ := position
  obtain ⟨line, later, cut, cut'⟩ := splitAt_cons '\n' c rest
  rw [place?, place?, cut, cut', Position.behind]
  by_cases newline : c = '\n'
  · rw [if_pos newline, if_pos newline]
    rfl
  · rw [if_neg newline, if_neg newline]
    cases number with
    | zero => exact along?_cons c line character
    | succ number =>
      show (placeOn character later number).map (· + ((c :: line).length + 1)) =
        ((placeOn character later number).map (· + (line.length + 1))).map (· + 1)
      rw [Option.map_map]
      rfl

/-- The position of a place is read back. -/
theorem place?_position (text : Text) {place : Nat} (inside : place ≤ text.length) :
    text.place? (text.position place) = some place := by
  -- Over the characters in front: it moves the position and the decoded place alike.
  induction text generalizing place with
  | nil =>
    obtain rfl : place = 0 := Nat.le_zero.mp inside
    rfl
  | cons c rest ih =>
    cases place with
    | zero =>
      obtain ⟨line, later, _, cut⟩ := splitAt_cons '\n' c rest
      rw [position_zero, place?, cut]
      split <;> exact along?_zero _
    | succ place =>
      have within : place ≤ rest.length := Nat.le_of_succ_le_succ inside
      rw [position_cons c rest within, place?_behind, ih within]
      rfl

/-- A position that can be decoded is that of the start of the text, or one in the text behind its
first character. -/
theorem exists_of_place?_cons {c : Char} {rest : Text} {position : Position} {place : Nat}
    (found : place? (c :: rest) position = some place) :
    position = ⟨0, 0⟩ ∧ place = 0 ∨
      ∃ position' place', position = position'.behind c ∧ place = place' + 1 ∧
        rest.place? position' = some place' := by
  obtain ⟨number, character⟩ := position
  obtain ⟨line, later, cut, cut'⟩ := splitAt_cons '\n' c rest
  rw [place?, cut'] at found
  unfold Position.behind
  by_cases newline : c = '\n'
  · rw [if_pos newline] at found
    cases number with
    | zero =>
      cases character with
      | zero => exact .inl ⟨rfl, (Option.some.inj found).symm⟩
      | succ count => cases found
    | succ number =>
      obtain ⟨before, earlier, rfl⟩ := Option.map_eq_some_iff.mp found
      refine .inr ⟨⟨number, character⟩, before, by rw [if_pos newline], rfl, ?_⟩
      rw [place?, cut]
      exact earlier
  · rw [if_neg newline] at found
    cases number with
    | zero =>
      -- The character is on the line that is walked, so it takes units of its own.
      cases character with
      | zero => exact .inl ⟨rfl, (Option.some.inj found).symm⟩
      | succ count =>
        rw [placeOn, along?] at found
        split at found
        next fits =>
          obtain ⟨before, walked, rfl⟩ := Option.map_eq_some_iff.mp found
          refine .inr ⟨⟨0, count + 1 - unitsOf c⟩, before, ?_, rfl, ?_⟩
          · rw [if_neg newline, if_pos rfl, Nat.add_sub_of_le fits]
          · rw [place?, cut]
            exact walked
        · cases found
    | succ number =>
      -- The walk is on a later line, and the line in front is only longer.
      obtain ⟨before, earlier, rfl⟩ := Option.map_eq_some_iff.mp found
      refine .inr ⟨⟨number + 1, character⟩, before + (line.length + 1), ?_, rfl, ?_⟩
      · rw [if_neg newline, if_neg (Nat.succ_ne_zero number)]
      · rw [place?, cut, placeOn, earlier]
        rfl

/-- Only the position of a place is decoded to it. -/
theorem place?_eq_some_iff (text : Text) {position : Position} {place : Nat} :
    text.place? position = some place ↔ place ≤ text.length ∧ text.position place = position := by
  constructor
  · intro found
    induction text generalizing position place with
    | nil =>
      obtain ⟨number, character⟩ := position
      cases number with
      | zero =>
        cases character with
        | zero =>
          cases found
          exact ⟨Nat.le_refl _, rfl⟩
        | succ count => cases found
      | succ number => cases found
    | cons c rest ih =>
      rcases exists_of_place?_cons found with ⟨rfl, rfl⟩ | ⟨position', place', rfl, rfl, earlier⟩
      · exact ⟨Nat.zero_le _, position_zero _⟩
      · obtain ⟨within, same⟩ := ih earlier
        rw [position_cons c rest within, same]
        exact ⟨Nat.succ_le_succ within, rfl⟩
  · rintro ⟨inside, rfl⟩
    exact place?_position text inside

/-- At the end of a line all of its units have been walked. -/
theorem exists_line_of_end {text : Text} {place : Nat}
    (ends : text[place]? = some '\n' ∨ place = text.length) :
    ∃ line, (text.splitAt '\n')[(text.position place).line]? = some line ∧
      (text.position place).character = line.utf16.length := by
  induction text generalizing place with
  | nil =>
    obtain rfl : place = 0 := ends.resolve_left (by simp)
    exact ⟨[], rfl, rfl⟩
  | cons c rest ih =>
    obtain ⟨line, later, cut, cut'⟩ := splitAt_cons '\n' c rest
    cases place with
    | zero =>
      obtain rfl : c = '\n' := Option.some.inj (ends.resolve_right (Ne.symm (Nat.succ_ne_zero _)))
      rw [position_zero, cut', if_pos rfl]
      exact ⟨[], rfl, rfl⟩
    | succ place =>
      have ends' : rest[place]? = some '\n' ∨ place = rest.length := ends.imp_right Nat.succ.inj
      have within : place ≤ rest.length := by
        rcases ends' with here | rfl
        · exact Nat.le_of_lt (List.getElem?_eq_some_iff.mp here).1
        · exact Nat.le_refl _
      obtain ⟨line', listed, character⟩ := ih ends'
      rw [position_cons c rest within, cut']
      rw [cut] at listed
      -- Only the line that the character begins is longer than in the rest of the text.
      generalize position rest place = position at listed character ⊢
      obtain ⟨number, count⟩ := position
      unfold Position.behind
      by_cases newline : c = '\n'
      · rw [if_pos newline, if_pos newline]
        exact ⟨line', listed, character⟩
      · rw [if_neg newline, if_neg newline]
        cases number with
        | zero =>
          obtain rfl : line = line' := Option.some.inj listed
          refine ⟨c :: line, rfl, ?_⟩
          rw [utf16_cons, List.length_append, length_units, ← character]
          rfl
        | succ number => exact ⟨line', listed, character⟩

/-! ### Between characters -/

theorem boundary_of_along? {line : Text} {count along : Nat}
    (walked : along? line count = some along) :
    count ≤ line.utf16.length ∧
      ∀ unit, line.utf16[count]? = some unit → ¬ (0xdc00 ≤ unit ∧ unit < 0xe000) := by
  have length := length_of_along? walked
  have cut : line.utf16 = utf16 (line.take along) ++ utf16 (line.drop along) := by
    rw [← utf16_append, List.take_append_drop]
  rw [cut, List.length_append, length]
  refine ⟨Nat.le_add_right _ _, fun unit found => ?_⟩
  -- The unit at the position is the first of the character behind the walk.
  rw [List.getElem?_append_right (Nat.le_of_eq length), length, Nat.sub_self] at found
  cases behind : line.drop along with
  | nil =>
    rw [behind] at found
    cases found
  | cons c rest =>
    have filled : 0 < (Symbol.char c).units.length := by
      rw [length_units]
      exact unitsOf_pos c
    rw [behind, utf16_cons, List.getElem?_append_left filled, ← List.head?_eq_getElem?] at found
    exact head_units c found

theorem exists_along_of_placeOn {character number place : Nat} {lines : List Text}
    (found : placeOn character lines number = some place) :
    ∃ line along, lines[number]? = some line ∧ along? line character = some along := by
  fun_induction placeOn character lines number generalizing place with
  | case1 => cases found
  | case2 line => exact ⟨line, place, rfl, found⟩
  | case3 line rest number ih =>
    obtain ⟨before, earlier, _⟩ := Option.map_eq_some_iff.mp found
    exact ih earlier

end Text

/-- Whether a position is on a line of a text and between two of its characters: within the line,
and not before the low half of a pair. -/
def Position.OnBoundary (text : Text) (position : Position) : Prop :=
  ∃ line, (text.splitAt '\n')[position.line]? = some line ∧
    position.character ≤ line.utf16.length ∧
    ∀ unit, line.utf16[position.character]? = some unit → ¬ (0xdc00 ≤ unit ∧ unit < 0xe000)

namespace Text

theorem onBoundary_position (text : Text) (offset : Int) :
    (text.position offset).OnBoundary text := by
  have found := place?_position text (text.clamp_le_length offset)
  rw [position_clamp] at found
  obtain ⟨line, along, listed, walked⟩ := exists_along_of_placeOn found
  exact ⟨line, listed, boundary_of_along? walked⟩

/-! ### Offsets and positions -/

/-- Places and positions of a text correspond: a later place has a later position, and a position is
decoded to the place whose position it is. An offset beyond the text has the position of the end it
is beyond. Along a line a position moves by code units. A range does not run backwards, and it
starts and stops between characters of the text. -/
theorem positions_of_text (text : Text) :
    (∀ early late : Nat, early < late → late ≤ text.length →
      (text.position early).Before (text.position late)) ∧
    (∀ (place : Nat) (position : Position), text.place? position = some place ↔
      place ≤ text.length ∧ text.position place = position) ∧
    (∀ offset : Int, text.position offset = text.position (text.clamp offset : Nat)) ∧
    (∀ start stop : Nat, start ≤ stop → stop ≤ text.length → '\n' ∉ text.slice start stop →
      (text.position stop).line = (text.position start).line ∧
        (text.position stop).character =
          (text.position start).character + (text.slice start stop).utf16.length) ∧
    (∀ start stop : Int, start ≤ stop →
      ¬ (text.range start stop).stop.Before (text.range start stop).start) ∧
    (∀ start stop : Int, (text.range start stop).start.OnBoundary text ∧
      (text.range start stop).stop.OnBoundary text) := by
  refine ⟨?_, ?_, ?_, ?_, ?_, ?_⟩
  · intro early late order inside
    exact position_before text order inside
  · intro place position
    exact place?_eq_some_iff text
  · intro offset
    exact (position_clamp text offset).symm
  · intro start stop order inside unbroken
    rw [position_of_unbroken text order inside unbroken, length_utf16]
    exact ⟨rfl, rfl⟩
  · -- Clamped offsets are in the same order, and a later place is not before an earlier one.
    intro start stop order
    have before : text.clamp start ≤ text.clamp stop := clamp_mono text order
    show ¬ (text.position stop).Before (text.position start)
    rw [← position_clamp text start, ← position_clamp text stop]
    rcases Nat.eq_or_lt_of_le before with same | earlier
    · rw [same]
      exact Position.Before.irrefl _
    · intro inverted
      have forward := position_before text earlier (text.clamp_le_length stop)
      exact (forward.trans inverted).irrefl
  · intro start stop
    exact ⟨onBoundary_position text start, onBoundary_position text stop⟩

/-- Places before, behind and past the newline after a character of two units. -/
theorem positions_around_pair :
    (Text.position "a😀\nb".toList 1).Before (Text.position "a😀\nb".toList 3) ∧
      Text.place? "a😀\nb".toList ⟨0, 3⟩ = some 2 ∧
      Text.position "a😀\nb".toList 9 = Text.position "a😀\nb".toList 4 ∧
      (Text.position "a😀\nb".toList 2).character =
        (Text.position "a😀\nb".toList 1).character + 2 ∧
      ¬ (Text.range "a😀\nb".toList (-1) 9).stop.Before
        (Text.range "a😀\nb".toList (-1) 9).start ∧
      (Text.range "a😀\nb".toList 2 3).start.OnBoundary "a😀\nb".toList := by
  obtain ⟨increasing, decoded, clamped, along, forward, between⟩ :=
    positions_of_text "a😀\nb".toList
  refine ⟨?_, ?_, clamped 9, ?_, ?_, (between 2 3).1⟩
  · exact increasing 1 3 (by decide) (by decide +kernel)
  · exact (decoded 2 ⟨0, 3⟩).mpr (by decide +kernel)
  · exact (along 1 2 (by decide) (by decide +kernel) (by decide +kernel)).2
  · exact forward (-1) 9 (by decide)

end Text

end FormWatch
