import FormWatch.Diagnostic
import FormWatch.Proofs.Span.Extent
import FormWatch.Proofs.Text.Decoding

/-!
The lines of diagnostics. What shows a record is on the line of the record, so the range an editor
gets starts and stops there. Only the newline before an otherwise empty span is on another line, the
one before; such a range reaches from the end of that line to the start of the record's
(`lines_of_diagnostic`).
-/

namespace FormWatch

/-- Whether a place is shown by the newline before it. -/
def Span.IsWidened (text : Text) (place : Nat) : Prop :=
  IsAlone text place ∧ text.slice (place - 1) place = ['\n']

namespace Span

variable {text : Text} {place : Nat}

/-- What shows a place is on the line of the place if it is not the newline before. -/
theorem lines_of_resolved (inside : place ≤ text.length) (plain : ¬ IsWidened text place) :
    (text.position (resolve text place).start).line = (text.position place).line ∧
      (text.position (resolve text place).stop).line = (text.position place).line := by
  have first := text.lineStart_le place
  have last := text.le_lineEnd place
  rcases around_or_isAlone text place with ⟨bounds, found, filled⟩ | alone
  · obtain ⟨_, before, behind, _⟩ := extent_of_around inside found filled
    rw [resolve_of_around inside found filled] at before behind ⊢
    constructor
    · exact text.line_of_bounds inside (Nat.le_max_left _ _) (Nat.le_trans before last)
    · exact text.line_of_bounds inside (Nat.le_trans first behind) (Nat.min_le_left _ _)
  · -- The character before is on the same line unless it is the newline.
    have unbroken : '\n' ∉ text.slice (place - 1) place := by
      intro newline
      exact plain ⟨alone, (text.slice_of_mem newline).1⟩
    rw [resolve_of_isAlone inside alone]
    exact ⟨(text.line_eq_iff (Nat.sub_le place 1) inside).mpr unbroken, rfl⟩

/-- The newline that shows a place ends the line before. -/
theorem lines_of_isWidened (widened : IsWidened text place) :
    text.position place = ⟨(text.position (place - 1 : Nat)).line + 1, 0⟩ ∧
      ∃ line, (text.splitAt '\n')[(text.position (place - 1 : Nat)).line]? = some line ∧
        (text.position (place - 1 : Nat)).character = line.utf16.length := by
  have newline : '\n' ∈ text.slice (place - 1) place := by
    rw [widened.2]
    exact List.mem_singleton_self '\n'
  obtain ⟨other, late, early, here⟩ := (text.mem_slice_iff '\n').mp newline
  obtain rfl : place - 1 = other := by omega
  have behind := text.position_succ here
  rw [if_pos rfl, (text.slice_of_mem newline).2] at behind
  exact ⟨behind, Text.exists_line_of_end (.inl here)⟩

end Span

/-- The two ways to tell lines apart, by bounds and by number, agree. The range of a diagnostic is
on the line of its record unless it shows the newline before; then it reaches from the end of the
line before to the start of the record's line. -/
theorem lines_of_diagnostic (text uri : Text) :
    (∀ offset offset' : Int, text.lineBounds offset = text.lineBounds offset' ↔
      (text.position offset).line = (text.position offset').line) ∧
    (∀ offset offset' : Int, text.lineBounds offset ≠ text.lineBounds offset' → ∀ place : Nat,
      ¬ ((text.lineBounds offset).1 ≤ place ∧ place ≤ (text.lineBounds offset).2 ∧
        (text.lineBounds offset').1 ≤ place ∧ place ≤ (text.lineBounds offset').2)) ∧
    (∀ record : Record,
      let place := text.clamp record.position
      let line := (text.position record.position).line
      let range := ((record.resolve uri text).diagnostic text).range
      (range.start.line = line ∧ range.stop.line = line ↔ ¬ Span.IsWidened text place) ∧
      (Span.IsWidened text place →
        (record.resolve uri text).span = ⟨place - 1, place⟩ ∧
        range.start.line + 1 = line ∧ range.stop = ⟨line, 0⟩ ∧
        ∃ before, (text.splitAt '\n')[range.start.line]? = some before ∧
          range.start.character = before.utf16.length)) := by
  refine ⟨text.lineBounds_eq_iff, fun _ _ differ => text.lineBounds_apart differ, ?_⟩
  intro record place line range
  have inside : place ≤ text.length := text.clamp_le_length record.position
  have shown : (record.resolve uri text).span = Span.resolve text place :=
    (Span.resolve_clamp text record.position).symm
  have start : range.start = text.position (Span.resolve text place).start := by
    rw [← shown]
    rfl
  have stop : range.stop = text.position (Span.resolve text place).stop := by
    rw [← shown]
    rfl
  have number : line = (text.position place).line := by
    rw [text.position_clamp]
  rw [start, stop, shown, number]
  by_cases widened : Span.IsWidened text place
  · obtain ⟨behind, before⟩ := Span.lines_of_isWidened widened
    rw [Span.resolve_of_isAlone inside widened.1]
    dsimp only
    have further : (text.position (place - 1 : Nat)).line + 1 = (text.position place).line := by
      rw [behind]
    refine ⟨iff_of_false ?_ (not_not_intro widened), fun _ => ⟨rfl, further, ?_, before⟩⟩
    · rintro ⟨same, _⟩
      omega
    · rw [behind]
  · constructor
    · exact iff_of_true (Span.lines_of_resolved inside widened) widened
    · exact fun back => absurd back widened

/-- A record on an empty line within a form is shown from the end of the line before. -/
theorem lines_of_empty_line :
    let text : Text := "(ab\n\n)".toList
    let resolved := Record.resolve [] text ⟨[], 4, .null, []⟩
    let range := (resolved.diagnostic text).range
    (text.lineBounds 3 ≠ text.lineBounds 4 ∧
      ¬ ((text.lineBounds 3).1 ≤ 3 ∧ 3 ≤ (text.lineBounds 3).2 ∧
        (text.lineBounds 4).1 ≤ 3 ∧ 3 ≤ (text.lineBounds 4).2)) ∧
    Span.IsWidened text (text.clamp 4) ∧ resolved.span = ⟨3, 4⟩ ∧ range.start.line + 1 = 1 ∧
      range.stop = ⟨1, 0⟩ := by
  intro text resolved range
  have differ : text.lineBounds 3 ≠ text.lineBounds 4 := by decide +kernel
  have widened : Span.IsWidened text (text.clamp 4) :=
    ⟨.inr (by decide +kernel), by decide +kernel⟩
  obtain ⟨_, apart, lines⟩ := lines_of_diagnostic text []
  obtain ⟨_, back⟩ := lines ⟨[], 4, .null, []⟩
  obtain ⟨span, number, stop, _⟩ := back widened
  refine ⟨⟨differ, apart 3 4 differ 3⟩, widened, ?_, ?_, ?_⟩
  · exact span.trans (by decide +kernel)
  · exact number.trans (by decide +kernel)
  · exact stop.trans (by decide +kernel)

end FormWatch
