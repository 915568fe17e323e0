import FormWatch.Proofs.Text.Positions

/-!
Lines. The bounds of the line of a place are found by a search for the newlines around it, and its
number by counting the newlines before it. Both tell lines apart in the same way: a line is a
stretch without a newline that nothing longer contains, every place is in exactly one
(`isLine_bounds`, `IsLine.unique`), and two places have the same bounds exactly if they have the
same number (`lineBounds_eq_iff`).
-/

namespace FormWatch.Text

/-- The part of a text between two places. -/
def slice (text : Text) (start stop : Nat) : Text :=
  (text.take stop).drop start

/-- Whether a line is between two places: no newline is there, but one is on either side, or an end
of the text. -/
structure IsLine (text : Text) (start stop : Nat) : Prop where
  order : start ≤ stop
  within : stop ≤ text.length
  unbroken : ∀ place, start ≤ place → place < stop → text[place]? ≠ some '\n'
  begins : start = 0 ∨ text[start - 1]? = some '\n'
  ends : stop = text.length ∨ text[stop]? = some '\n'

/-- A place is in one line only. -/
theorem IsLine.unique {text : Text} {start stop start' stop' place : Nat}
    (line : text.IsLine start stop) (line' : text.IsLine start' stop')
    (inside : start ≤ place ∧ place ≤ stop) (inside' : start' ≤ place ∧ place ≤ stop') :
    start = start' ∧ stop = stop' := by
  -- Where one line began or ended within the other, a newline would be in the other.
  have begins {start stop start' stop' : Nat} (line : text.IsLine start stop)
      (line' : text.IsLine start' stop') (inside : start ≤ place ∧ place ≤ stop)
      (inside' : start' ≤ place ∧ place ≤ stop') : ¬ start < start' := by
    intro later
    rcases line'.begins with first | newline
    · omega
    · exact line.unbroken _ (by omega) (by omega) newline
  have ends {start stop start' stop' : Nat} (line : text.IsLine start stop)
      (line' : text.IsLine start' stop') (inside : start ≤ place ∧ place ≤ stop)
      (inside' : start' ≤ place ∧ place ≤ stop') : ¬ stop' < stop := by
    intro earlier
    have within := line.within
    rcases line'.ends with last | newline
    · omega
    · exact line.unbroken _ (by omega) earlier newline
  constructor
  · exact Nat.le_antisymm (Nat.not_lt.mp (begins line' line inside' inside))
      (Nat.not_lt.mp (begins line line' inside inside'))
  · exact Nat.le_antisymm (Nat.not_lt.mp (ends line line' inside inside'))
      (Nat.not_lt.mp (ends line' line inside' inside))

variable (text : Text) {place : Nat}

/-! ### The line of a place -/

theorem lineStart_zero : text.lineStart 0 = 0 :=
  Nat.le_zero.mp (text.lineStart_le 0)

/-- From the start of the line of a place to the place there is no newline. -/
theorem unbroken_before (inside : place ≤ text.length) :
    (text.lineStart place = 0 ∨ text[text.lineStart place - 1]? = some '\n') ∧
      ∀ between, text.lineStart place ≤ between → between < place →
        text[between]? ≠ some '\n' := by
  induction place with
  | zero =>
    exact ⟨.inl text.lineStart_zero, fun between _ early => absurd early (Nat.not_lt_zero between)⟩
  | succ place ih =>
    obtain ⟨begins, unbroken⟩ := ih (Nat.le_of_succ_le inside)
    have here : text[place]? = some text[place] := List.getElem?_eq_getElem inside
    rw [lineStart_succ text here]
    by_cases newline : text[place] = '\n'
    · rw [if_pos newline]
      refine ⟨.inr ?_, fun between late early => absurd early (Nat.not_lt.mpr late)⟩
      rw [Nat.add_sub_cancel, here, newline]
    · rw [if_neg newline]
      refine ⟨begins, fun between late early => ?_⟩
      rcases Nat.lt_succ_iff_lt_or_eq.mp early with before | rfl
      · exact unbroken between late before
      · rw [here]
        simpa using newline

theorem lineEnd_length : text.lineEnd text.length = text.length :=
  Nat.le_antisymm (text.lineEnd_le_length (Nat.le_refl _)) (text.le_lineEnd _)

/-- A newline ends the line of its place, and any other character is on one line with what follows
it. -/
theorem lineEnd_of_getElem? {c : Char} (here : text[place]? = some c) :
    text.lineEnd place = if c = '\n' then place else text.lineEnd (place + 1) := by
  obtain ⟨inside, rfl⟩ := List.getElem?_eq_some_iff.mp here
  unfold lineEnd
  rw [List.drop_eq_getElem_cons inside]
  by_cases newline : text[place] = '\n'
  · rw [if_pos newline, List.takeWhile_cons_of_neg (by simp [newline])]
    rfl
  · rw [if_neg newline, List.takeWhile_cons_of_pos (by simpa using newline), List.length_cons,
      Nat.add_right_comm, Nat.add_assoc]

/-- From a place to the end of its line there is no newline. -/
theorem unbroken_behind (inside : place ≤ text.length) :
    (text.lineEnd place = text.length ∨ text[text.lineEnd place]? = some '\n') ∧
      ∀ between, place ≤ between → between < text.lineEnd place → text[between]? ≠ some '\n' := by
  -- From the end of the text to its start, as the search goes on from the place.
  induction rest : text.length - place generalizing place with
  | zero =>
    obtain rfl : place = text.length := by omega
    rw [lineEnd_length]
    exact ⟨.inl rfl, fun between late early => absurd early (Nat.not_lt.mpr late)⟩
  | succ rest ih =>
    have filled : place < text.length := by omega
    have here : text[place]? = some text[place] := List.getElem?_eq_getElem filled
    obtain ⟨ends, unbroken⟩ := ih filled (by omega)
    rw [lineEnd_of_getElem? text here]
    by_cases newline : text[place] = '\n'
    · rw [if_pos newline]
      refine ⟨.inr ?_, fun between late early => absurd early (Nat.not_lt.mpr late)⟩
      rw [here, newline]
    · rw [if_neg newline]
      refine ⟨ends, fun between late early => ?_⟩
      rcases Nat.eq_or_lt_of_le late with rfl | behind
      · rw [here]
        simpa using newline
      · exact unbroken between behind early

/-- The bounds of the line of a place are those of a line. -/
theorem isLine_bounds (inside : place ≤ text.length) :
    text.IsLine (text.lineStart place) (text.lineEnd place) where
  order := Nat.le_trans (text.lineStart_le place) (text.le_lineEnd place)
  within := text.lineEnd_le_length inside
  unbroken between late early := by
    rcases Nat.lt_or_ge between place with before | behind
    · exact (text.unbroken_before inside).2 between late before
    · exact (text.unbroken_behind inside).2 between behind early
  begins := (text.unbroken_before inside).1
  ends := (text.unbroken_behind inside).1

/-- All places of a line have its bounds. -/
theorem IsLine.bounds_eq {text : Text} {start stop place : Nat} (line : text.IsLine start stop)
    (inside : start ≤ place ∧ place ≤ stop) :
    text.lineStart place = start ∧ text.lineEnd place = stop :=
  (text.isLine_bounds (Nat.le_trans inside.2 line.within)).unique line
    ⟨text.lineStart_le place, text.le_lineEnd place⟩ inside

/-! ### Parts of a text -/

theorem slice_self (place : Nat) : text.slice place place = [] :=
  List.drop_eq_nil_of_le (List.length_take_le place text)

theorem slice_succ {start : Nat} {c : Char} (order : start ≤ place) (here : text[place]? = some c) :
    text.slice start (place + 1) = text.slice start place ++ [c] := by
  obtain ⟨inside, _⟩ := List.getElem?_eq_some_iff.mp here
  have within : start ≤ (text.take place).length := by
    rwa [List.length_take_of_le (Nat.le_of_lt inside)]
  rw [slice, take_succ_eq text here, List.drop_append_of_le_length within]
  rfl

theorem mem_slice_iff {start stop : Nat} (c : Char) :
    c ∈ text.slice start stop ↔ ∃ place, start ≤ place ∧ place < stop ∧ text[place]? = some c := by
  rw [slice, List.mem_iff_getElem?]
  constructor
  · rintro ⟨place, found⟩
    rw [List.getElem?_drop, List.getElem?_take] at found
    split at found
    next early => exact ⟨start + place, Nat.le_add_right _ _, early, found⟩
    · cases found
  · rintro ⟨place, late, early, found⟩
    refine ⟨place - start, ?_⟩
    rw [List.getElem?_drop, Nat.add_sub_of_le late, List.getElem?_take_of_lt early, found]

/-- A place and the one before it have one character between them. -/
theorem slice_of_mem {c : Char} (member : c ∈ text.slice (place - 1) place) :
    text.slice (place - 1) place = [c] ∧ place - 1 + 1 = place := by
  obtain ⟨other, late, early, here⟩ := (mem_slice_iff text c).mp member
  obtain rfl : place - 1 = other := by omega
  have next : place - 1 + 1 = place := by omega
  have single := slice_succ text (Nat.le_refl (place - 1)) here
  rw [slice_self, next] at single
  exact ⟨single, next⟩

/-! ### The number of a line -/

/-- On a line each character moves the position on by its units. -/
theorem position_of_unbroken {early late : Nat} (order : early ≤ late) (inside : late ≤ text.length)
    (unbroken : '\n' ∉ text.slice early late) :
    text.position late =
      ⟨(text.position early).line,
        (text.position early).character + units (text.slice early late)⟩ := by
  induction order with
  | refl =>
    rw [slice_self]
    rfl
  | @step late order ih =>
    have here : text[late]? = some text[late] := List.getElem?_eq_getElem inside
    rw [slice_succ text order here, List.mem_append, not_or, List.mem_singleton] at unbroken
    rw [position_succ text here, if_neg (Ne.symm unbroken.2),
      ih (Nat.le_of_succ_le inside) unbroken.1, slice_succ text order here, units_append,
      Nat.add_assoc]
    rfl

theorem line_mono {early late : Nat} (order : early ≤ late) (inside : late ≤ text.length) :
    (text.position early).line ≤ (text.position late).line := by
  rcases Nat.eq_or_lt_of_le order with rfl | before
  · exact Nat.le_refl _
  · rcases position_before text before inside with earlier | ⟨same, _⟩
    · exact Nat.le_of_lt earlier
    · exact Nat.le_of_eq same

/-- Two places are on the same line exactly if no newline is between them. -/
theorem line_eq_iff {early late : Nat} (order : early ≤ late) (inside : late ≤ text.length) :
    (text.position early).line = (text.position late).line ↔ '\n' ∉ text.slice early late := by
  constructor
  · -- A newline begins a line, and the number does not go back.
    intro same newline
    obtain ⟨place, behind, before, here⟩ := (mem_slice_iff text '\n').mp newline
    have further : (text.position (place + 1 : Nat)).line = (text.position place).line + 1 := by
      rw [position_succ text here, if_pos rfl]
    have first := line_mono text behind (by omega)
    have last := line_mono text (show place + 1 ≤ late from before) inside
    omega
  · intro unbroken
    rw [position_of_unbroken text order inside unbroken]

/-- Two places have the same bounds exactly if they have the same number. -/
theorem bounds_eq_iff {place place' : Nat} (inside : place ≤ text.length)
    (inside' : place' ≤ text.length) :
    (text.lineStart place = text.lineStart place' ∧ text.lineEnd place = text.lineEnd place') ↔
      (text.position place).line = (text.position place').line := by
  have ordered {early late : Nat} (order : early ≤ late) (inside : late ≤ text.length) :
      (text.lineStart early = text.lineStart late ∧ text.lineEnd early = text.lineEnd late) ↔
        (text.position early).line = (text.position late).line := by
    have line := text.isLine_bounds (Nat.le_trans order inside)
    have first := text.lineStart_le early
    rw [line_eq_iff text order inside, mem_slice_iff]
    constructor
    · -- A newline between the places would be within the line that both are in.
      rintro ⟨_, ends⟩ ⟨place, behind, before, newline⟩
      have last := text.le_lineEnd late
      exact line.unbroken place (by omega) (by omega) newline
    · -- No newline before the later place, so the line of the earlier one reaches it.
      intro unbroken
      have reached : late ≤ text.lineEnd early := by
        apply Nat.not_lt.mp
        intro beyond
        rcases line.ends with last | newline
        · omega
        · exact unbroken ⟨_, text.le_lineEnd early, beyond, newline⟩
      obtain ⟨starts, ends⟩ := line.bounds_eq ⟨Nat.le_trans first order, reached⟩
      exact ⟨starts.symm, ends.symm⟩
  rcases Nat.le_total place place' with order | order
  · exact ordered order inside'
  · rw [eq_comm, @eq_comm _ (text.lineEnd place), eq_comm (a := (text.position place).line)]
    exact ordered order inside

/-- Any place within the bounds of a line has its number. -/
theorem line_of_bounds {other : Nat} (inside : place ≤ text.length)
    (late : text.lineStart place ≤ other) (early : other ≤ text.lineEnd place) :
    (text.position other).line = (text.position place).line := by
  have line := text.isLine_bounds inside
  rw [← bounds_eq_iff text (Nat.le_trans early line.within) inside]
  exact line.bounds_eq ⟨late, early⟩

theorem lineBounds_eq_iff (offset offset' : Int) :
    text.lineBounds offset = text.lineBounds offset' ↔
      (text.position offset).line = (text.position offset').line := by
  rw [← position_clamp text offset, ← position_clamp text offset',
    ← bounds_eq_iff text (text.clamp_le_length offset) (text.clamp_le_length offset'), lineBounds,
    lineBounds, Prod.mk.injEq]

/-- The bounds of two offsets are the same or share no place. -/
theorem lineBounds_apart {offset offset' : Int}
    (differ : text.lineBounds offset ≠ text.lineBounds offset') (place : Nat) :
    ¬ ((text.lineBounds offset).1 ≤ place ∧ place ≤ (text.lineBounds offset).2 ∧
      (text.lineBounds offset').1 ≤ place ∧ place ≤ (text.lineBounds offset').2) := by
  rintro ⟨late, early, late', early'⟩
  obtain ⟨starts, ends⟩ := (text.isLine_bounds (text.clamp_le_length offset)).unique
    (text.isLine_bounds (text.clamp_le_length offset')) ⟨late, early⟩ ⟨late', early'⟩
  exact differ (Prod.ext starts ends)

end FormWatch.Text
