import FormWatch.Proofs.Form.Accounting
import FormWatch.Proofs.Span.Resolving
import FormWatch.Proofs.Text.LineBounds

/-!
How far a place is shown. What is around a place holds it, and the place is on its line or at the
end of it; so the two have characters in common unless the line is empty, for what is around a place
does not begin with a newline (`overlap_of_around`). In all other cases the place is shown by the
character before it (`resolve_of_isAlone`).
-/

namespace FormWatch.Span

/-- Whether nothing can be shown around a place on its line: no closed form and no atom holds it, or
the line is empty. -/
def IsAlone (text : Text) (place : Nat) : Prop :=
  enclosing? text place = none ∨ text.lineStart place = text.lineEnd place

variable {text : Text} {place : Nat} {bounds : Span}

theorem resolve_clamp (text : Text) (offset : Int) :
    resolve text (text.clamp offset : Nat) = resolve text offset := by
  unfold resolve
  rw [text.clamp_of_le (text.clamp_le_length offset)]

theorem visible_of_enclosing? {offset : Int} (found : enclosing? text offset = some bounds) :
    ∃ c, text[bounds.start]? = some c ∧ c ≠ '\n' := by
  obtain ⟨node, member, rfl, _⟩ := node_of_enclosing? found
  obtain ⟨lexeme, scanned, start⟩ := Form.lexeme_of_node member
  rw [Node.span, ← start]
  exact Lexeme.visible_of_mem scanned

/-- What is around a place and the line of the place have a character in common. -/
theorem overlap_of_around (inside : place ≤ text.length)
    (found : enclosing? text place = some bounds)
    (filled : text.lineStart place < text.lineEnd place) :
    max (text.lineStart place) bounds.start < min (text.lineEnd place) bounds.stop := by
  obtain ⟨holds, within⟩ := contains_of_enclosing? found
  obtain ⟨before, behind⟩ := (contains_iff bounds place).mp holds
  have first := text.lineStart_le place
  have last := text.le_lineEnd place
  rcases Nat.eq_or_lt_of_le last with atEnd | onLine
  · -- At the end of its line the place is a newline, and what is around it began before.
    have newline : text[place]? = some '\n' := by
      rcases (text.isLine_bounds inside).ends with final | newline
      · omega
      · rwa [← atEnd] at newline
    have earlier : bounds.start ≠ place := by
      intro same
      obtain ⟨c, here, visible⟩ := visible_of_enclosing? found
      rw [same, newline] at here
      exact visible (Option.some.inj here).symm
    omega
  · omega

/-- What shows a place with something around it is the part of that on the line of the place. -/
theorem resolve_of_around (inside : place ≤ text.length)
    (found : enclosing? text place = some bounds)
    (filled : text.lineStart place < text.lineEnd place) :
    resolve text place =
      ⟨max (text.lineStart place) bounds.start, min (text.lineEnd place) bounds.stop⟩ := by
  have apart := Nat.ne_of_lt (overlap_of_around inside found filled)
  simp only [resolve, text.clamp_of_le inside, found, Option.getD_some, if_neg apart]

/-- It holds what both hold, is in the text around the place and has no newline. -/
theorem extent_of_around (inside : place ≤ text.length)
    (found : enclosing? text place = some bounds)
    (filled : text.lineStart place < text.lineEnd place) :
    (∀ offset : Int, (resolve text place).contains offset =
      (bounds.contains offset &&
        (Span.mk (text.lineStart place) (text.lineEnd place)).contains offset)) ∧
    (resolve text place).start ≤ place ∧ place ≤ (resolve text place).stop ∧
    (resolve text place).stop ≤ text.length ∧
    (resolve text place).start < (resolve text place).stop ∧
    '\n' ∉ text.slice (resolve text place).start (resolve text place).stop := by
  have overlap := overlap_of_around inside found filled
  have line := text.isLine_bounds inside
  have first := text.lineStart_le place
  have last := text.le_lineEnd place
  obtain ⟨before, behind⟩ := (contains_iff bounds place).mp (contains_of_enclosing? found).1
  rw [resolve_of_around inside found filled]
  dsimp only
  refine ⟨?_, by omega, by omega, ?_, overlap, ?_⟩
  · intro offset
    rw [Bool.eq_iff_iff, Bool.and_eq_true, contains_iff, contains_iff, contains_iff]
    dsimp only
    omega
  · exact Nat.le_trans (Nat.min_le_left _ _) line.within
  · rw [Text.mem_slice_iff]
    rintro ⟨other, late, early, newline⟩
    exact line.unbroken other (by omega) (by omega) newline

/-- Any other place is shown by the character before it. -/
theorem resolve_of_isAlone (inside : place ≤ text.length)
    (alone : IsAlone text place) : resolve text place = ⟨place - 1, place⟩ := by
  cases found : enclosing? text place with
  | none => exact resolve_of_bare inside found
  | some bounds =>
    have empty : text.lineStart place = text.lineEnd place :=
      alone.resolve_left (by rw [found]; exact Option.some_ne_none bounds)
    obtain ⟨before, behind⟩ :=
      (contains_iff bounds place).mp (contains_of_enclosing? found).1
    have first := text.lineStart_le place
    have last := text.le_lineEnd place
    -- Both bounds of the line are the place, so nothing is left of what is around it.
    have start : max (text.lineStart place) bounds.start = place := by omega
    have stop : min (text.lineEnd place) bounds.stop = place := by omega
    simp only [resolve, text.clamp_of_le inside, found, Option.getD_some, start, stop, if_true]

theorem around_or_isAlone (text : Text) (place : Nat) :
    (∃ bounds, enclosing? text place = some bounds ∧
      text.lineStart place < text.lineEnd place) ∨ IsAlone text place := by
  cases found : enclosing? text place with
  | none => exact .inr (.inl found)
  | some bounds =>
    have order := Nat.le_trans (text.lineStart_le place) (text.le_lineEnd place)
    rcases Nat.eq_or_lt_of_le order with empty | filled
    · exact .inr (.inr empty)
    · exact .inl ⟨bounds, rfl, filled⟩

/-- Where something is around the start of a text, the first line is not empty. -/
theorem not_holds_of_isAlone (alone : IsAlone text 0) :
    ¬ Node.Holds (0 : Nat) (Form.read text).1 := by
  rw [← enclosing?_eq_none_iff]
  cases found : enclosing? text (0 : Nat) with
  | none => rfl
  | some bounds =>
    have empty : text.lineStart 0 = text.lineEnd 0 :=
      alone.resolve_left (by rw [found]; exact Option.some_ne_none bounds)
    obtain ⟨before, _⟩ := (contains_iff bounds (0 : Nat)).mp (contains_of_enclosing? found).1
    obtain ⟨c, here, visible⟩ := visible_of_enclosing? found
    have first : bounds.start = 0 := by omega
    -- Its first character is not a newline, so the line reaches over it.
    rw [first] at here
    have onLine := text.lt_lineEnd here visible
    rw [← empty, text.lineStart_zero] at onLine
    exact absurd onLine (Nat.lt_irrefl 0)

/-- What shows an offset reaches from a place no later than the clamped offset to one no earlier. It
is the part on the line of the offset of what is around the offset, or else the character before it,
the only one that can be a newline; so it is empty only at the start of the text. -/
theorem extent_of_resolved (text : Text) (offset : Int) :
    let place := text.clamp offset
    let line : Span := ⟨text.lineStart place, text.lineEnd place⟩
    let shown := resolve text offset
    ((place : Int) = max 0 (min offset text.length) ∧ text.IsLine line.start line.stop ∧
      line.start ≤ place ∧ place ≤ line.stop) ∧
    (shown.start ≤ place ∧ place ≤ shown.stop ∧ shown.stop ≤ text.length) ∧
    (∀ bounds, enclosing? text place = some bounds → line.start < line.stop →
      (∀ other : Int, shown.contains other = (bounds.contains other && line.contains other)) ∧
        shown.start < shown.stop ∧ '\n' ∉ text.slice shown.start shown.stop) ∧
    (enclosing? text place = none ∨ line.start = line.stop → shown = ⟨place - 1, place⟩) ∧
    (shown.start = shown.stop ↔ place = 0 ∧ ¬ Node.Holds 0 (Form.read text).1) ∧
    ('\n' ∈ text.slice shown.start shown.stop →
      text.slice shown.start shown.stop = ['\n'] ∧ shown.start + 1 = place ∧
        shown.stop = place) := by
  intro place line shown
  have inside : place ≤ text.length := text.clamp_le_length offset
  have same : shown = resolve text place := (resolve_clamp text offset).symm
  refine ⟨⟨?_, text.isLine_bounds inside, text.lineStart_le place, text.le_lineEnd place⟩, ?_⟩
  · show ((min offset.toNat text.length : Nat) : Int) = max 0 (min offset text.length)
    omega
  have around (bounds : Span) (found : enclosing? text place = some bounds)
      (filled : text.lineStart place < text.lineEnd place) :=
    extent_of_around inside found filled
  rw [same]
  rcases around_or_isAlone text place with ⟨bounds, found, filled⟩ | alone
  · obtain ⟨_, before, behind, within, order, unbroken⟩ := around bounds found filled
    refine ⟨⟨before, behind, within⟩, ?_, resolve_of_isAlone inside, ?_, ?_⟩
    · intro bounds found filled
      obtain ⟨both, _, _, _, order, unbroken⟩ := around bounds found filled
      exact ⟨both, order, unbroken⟩
    · apply iff_of_false (Nat.ne_of_lt order)
      rintro ⟨first, bare⟩
      rw [first, (enclosing?_eq_none_iff text (0 : Nat)).mpr bare] at found
      cases found
    · exact fun newline => absurd newline unbroken
  · rw [resolve_of_isAlone inside alone]
    -- One character is shown, or none if the place has no character before it.
    refine ⟨⟨Nat.sub_le _ _, Nat.le_refl _, inside⟩, ?_, fun _ => rfl, ?_, ?_⟩
    · intro bounds found filled
      rcases alone with bare | empty
      · rw [found] at bare
        cases bare
      · exact absurd empty (Nat.ne_of_lt filled)
    · constructor
      · intro empty
        have first : place = 0 := by
          dsimp only at empty
          omega
        rw [first] at alone
        exact ⟨first, not_holds_of_isAlone alone⟩
      · rintro ⟨first, _⟩
        rw [first]
    · intro newline
      obtain ⟨single, next⟩ := text.slice_of_mem newline
      exact ⟨single, next, rfl⟩

/-- A form over two lines is shown on the line of the offset, up to its newline and no further. -/
theorem extent_of_first_line :
    enclosing? "(a\nb)".toList 2 = some ⟨0, 5⟩ ∧
      Text.lineStart "(a\nb)".toList 2 < Text.lineEnd "(a\nb)".toList 2 ∧
      (resolve "(a\nb)".toList 2).contains 1 = true ∧
      (resolve "(a\nb)".toList 2).contains 3 = false ∧
      resolve "(a\n\nb)".toList 3 = ⟨2, 3⟩ ∧
      Text.slice "(a\n\nb)".toList 2 3 = ['\n'] := by
  have found : enclosing? "(a\nb)".toList 2 = some ⟨0, 5⟩ := by decide +kernel
  have filled : Text.lineStart "(a\nb)".toList 2 < Text.lineEnd "(a\nb)".toList 2 := by
    decide +kernel
  obtain ⟨_, _, around, _⟩ := extent_of_resolved "(a\nb)".toList 2
  obtain ⟨both, _, _⟩ := around ⟨0, 5⟩ found filled
  obtain ⟨_, _, _, alone, _, newline⟩ := extent_of_resolved "(a\n\nb)".toList 3
  have shown : resolve "(a\n\nb)".toList 3 = ⟨2, 3⟩ := alone (.inr (by decide +kernel))
  rw [shown] at newline
  refine ⟨found, filled, ?_, ?_, shown, ?_⟩
  · exact (both 1).trans (by decide +kernel)
  · exact (both 3).trans (by decide +kernel)
  · exact (newline (by decide +kernel)).1

end FormWatch.Span
