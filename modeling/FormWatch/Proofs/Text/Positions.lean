import FormWatch.Text.Position

/-!
Positions in a text, one character at a time. A newline begins a line, and any other character takes
its units on the line it is on; so a later place always has a later position (`position_before`).
-/

namespace FormWatch

/-- Whether a position comes before another: on an earlier line, or earlier on the same line. -/
def Position.Before (first second : Position) : Prop :=
  first.line < second.line ∨ first.line = second.line ∧ first.character < second.character

theorem Position.Before.trans {first second third : Position} (early : first.Before second)
    (late : second.Before third) : first.Before third := by
  unfold Before at *
  omega

theorem Position.Before.irrefl (position : Position) : ¬ position.Before position := by
  unfold Before
  omega

theorem unitsOf_pos (c : Char) : 0 < unitsOf c := by
  unfold unitsOf
  split
  · exact Nat.one_pos
  · exact Nat.two_pos

namespace Text

variable (text : Text)

theorem clamp_of_le {place : Nat} (inside : place ≤ text.length) :
    text.clamp (place : Int) = place := by
  rw [clamp, Int.toNat_natCast]
  exact Nat.min_eq_left inside

theorem clamp_mono {start stop : Int} (order : start ≤ stop) :
    text.clamp start ≤ text.clamp stop := by
  unfold clamp
  omega

theorem units_append (before after : Text) : units (before ++ after) = units before + units after := by
  induction before with
  | nil => exact (Nat.zero_add _).symm
  | cons c rest ih => rw [List.cons_append, units, units, ih, Nat.add_assoc]

/-! ### Lines -/

theorem lineStart_le (place : Nat) : text.lineStart place ≤ place :=
  Nat.sub_le _ _

theorem le_lineEnd (place : Nat) : place ≤ text.lineEnd place :=
  Nat.le_add_right _ _

theorem lineEnd_le_length {place : Nat} (inside : place ≤ text.length) :
    text.lineEnd place ≤ text.length := by
  have rest := (List.takeWhile_prefix (· ≠ '\n') (l := text.drop place)).length_le
  rw [List.length_drop] at rest
  unfold lineEnd
  omega

/-- A character that is no newline is on the line of its place. -/
theorem lt_lineEnd {place : Nat} {c : Char} (here : text[place]? = some c) (visible : c ≠ '\n') :
    place < text.lineEnd place := by
  obtain ⟨inside, rfl⟩ := List.getElem?_eq_some_iff.mp here
  unfold lineEnd
  rw [List.drop_eq_getElem_cons inside, List.takeWhile_cons_of_pos (by simpa using visible)]
  apply Nat.lt_add_of_pos_right
  exact Nat.succ_pos _

theorem take_succ_eq {place : Nat} {c : Char} (here : text[place]? = some c) :
    text.take (place + 1) = text.take place ++ [c] := by
  rw [List.take_add_one, here]
  rfl

/-- A newline begins a line behind it, and any other character is on the line of its place. -/
theorem lineStart_succ {place : Nat} {c : Char} (here : text[place]? = some c) :
    text.lineStart (place + 1) = if c = '\n' then place + 1 else text.lineStart place := by
  unfold lineStart sinceNewline
  rw [take_succ_eq text here, List.reverse_append, List.reverse_singleton, List.singleton_append]
  by_cases newline : c = '\n'
  · rw [if_pos newline, List.takeWhile_cons_of_neg (by simp [newline])]
    exact Nat.sub_zero _
  · rw [if_neg newline, List.takeWhile_cons_of_pos (by simpa using newline), List.length_cons]
    exact Nat.add_sub_add_right _ _ _

/-! ### Positions -/

theorem position_of_le {place : Nat} (inside : place ≤ text.length) :
    text.position place =
      ⟨(text.take place).count '\n', units ((text.take place).drop (text.lineStart place))⟩ := by
  unfold position
  rw [clamp_of_le text inside]

theorem position_clamp (offset : Int) :
    text.position (text.clamp offset : Nat) = text.position offset := by
  unfold position
  rw [clamp_of_le text (text.clamp_le_length offset)]

/-- The position behind a character: at the start of the next line, or further on the line. -/
theorem position_succ {place : Nat} {c : Char} (here : text[place]? = some c) :
    text.position (place + 1 : Nat) =
      if c = '\n' then ⟨(text.position place).line + 1, 0⟩
      else ⟨(text.position place).line, (text.position place).character + unitsOf c⟩ := by
  obtain ⟨inside, _⟩ := List.getElem?_eq_some_iff.mp here
  rw [position_of_le text inside, position_of_le text (Nat.le_of_lt inside), lineStart_succ text here,
    take_succ_eq text here]
  have length : (text.take place).length = place := List.length_take_of_le (Nat.le_of_lt inside)
  by_cases newline : c = '\n'
  · have behind : (text.take place ++ [c]).drop (place + 1) = [] :=
      List.drop_eq_nil_of_le (by simp [length])
    rw [if_pos newline, if_pos newline, behind, newline, List.count_append,
      List.count_singleton_self]
    rfl
  · have before : text.lineStart place ≤ (text.take place).length := by
      rw [length]
      exact lineStart_le text place
    have none : [c].count '\n' = 0 := List.count_eq_zero_of_not_mem (by simpa using Ne.symm newline)
    rw [if_neg newline, if_neg newline, List.drop_append_of_le_length before, units_append,
      List.count_append, none]
    rfl

/-- A later place has a later position. -/
theorem position_before {early late : Nat} (order : early < late) (inside : late ≤ text.length) :
    (text.position early).Before (text.position late) := by
  -- One character more is one step further; the rest is transitivity.
  have step {place : Nat} (inside : place < text.length) :
      (text.position place).Before (text.position (place + 1 : Nat)) := by
    rw [position_succ text (List.getElem?_eq_getElem inside)]
    split
    · exact .inl (Nat.lt_succ_self _)
    · exact .inr ⟨rfl, Nat.lt_add_of_pos_right (unitsOf_pos _)⟩
  induction order with
  | refl => exact step inside
  | step _ ih => exact (ih (Nat.le_of_succ_le inside)).trans (step inside)

/-- A range in the text is empty on the screen only if it is empty in the text. -/
theorem range_before_iff {start stop : Nat} (order : start ≤ stop) (inside : stop ≤ text.length) :
    (text.range start stop).start.Before (text.range start stop).stop ↔ start < stop := by
  constructor
  · intro before
    apply Nat.lt_of_le_of_ne order
    rintro rfl
    exact before.irrefl
  · exact fun filled => position_before text filled inside

end Text

end FormWatch
