import FormWatch.Text.Blank
import FormWatch.Text.Line

/-!
Lines of texts put together. A text within a line is cut off where its ending is, a newline always
ends a line, and what is added at the end of a text changes no line of it but the last.
-/

namespace FormWatch.Text

/-! ### Texts put together -/

theorem lines_ne_nil (text : Text) (filled : text ≠ []) : text.lines ≠ [] := by
  intro none
  have whole := flatten_lines text
  rw [none] at whole
  exact filled whole.symm

/-- The lines up to a newline do not depend on what follows it. -/
theorem lines_append_newline (before after : Text) :
    lines (before ++ '\n' :: after) = lines (before ++ ['\n']) ++ lines after := by
  induction before with
  | nil => rfl
  | cons c rest ih =>
    have same : (rest ++ '\n' :: after).head? = (rest ++ ['\n']).head? := by cases rest <;> rfl
    rw [List.cons_append, List.cons_append, lines, lines, same, ih]
    split
    · rfl
    · cases filled : lines (rest ++ ['\n']) with
      | nil => exact absurd filled (lines_ne_nil _ (by simp))
      | cons line more => rfl

/-- All lines but the last stay as they are when a text goes on. -/
theorem lines_append {text : Text} {before after : List Text} (cut : text.lines = before ++ after)
    (more : after ≠ []) (extra : Text) :
    lines (text ++ extra) = before ++ lines (after.flatten ++ extra) := by
  induction text generalizing before with
  | nil => exact absurd (List.append_eq_nil_iff.mp cut.symm).2 more
  | cons c rest ih =>
    cases before with
    | nil =>
      rw [List.nil_append] at cut
      rw [← cut, flatten_lines, List.nil_append]
    | cons first before =>
      have same (filled : rest ≠ []) : (rest ++ extra).head? = rest.head? := by
        cases rest with
        | nil => exact absurd rfl filled
        | cons d rest => rfl
      -- The first line ends within the text, so it is cut off at the same place.
      rw [lines] at cut
      rw [List.cons_append, lines]
      split at cut
      next ends =>
        obtain ⟨rfl, later⟩ := List.cons.inj cut
        have filled : rest ≠ [] := by
          rintro rfl
          exact more (List.append_eq_nil_iff.mp later.symm).2
        rw [same filled, if_pos ends, ih later, List.cons_append]
      next goesOn =>
        split at cut
        next =>
          obtain ⟨_, later⟩ := List.cons.inj cut
          exact absurd (List.append_eq_nil_iff.mp later.symm).2 more
        next line later inner =>
          obtain ⟨rfl, rfl⟩ := List.cons.inj cut
          have filled : rest ≠ [] := by
            rintro rfl
            cases inner
          have cut : lines rest = (line :: before) ++ after := inner
          rw [same filled, if_neg goesOn, ih cut]
          rfl

/-! ### Single lines -/

/-- The endings that a line of a report may have. -/
def lineEndings : List Text :=
  [['\n'], ['\r', '\n'], ['\r']]

/-- A line on its own, up to its ending. A carriage return ends it unless a newline follows. -/
theorem lines_of_unbroken (line ending after : Text) (unbroken : line.any endsLine = false)
    (listed : ending ∈ lineEndings) (apart : after.head? ≠ some '\n') :
    lines (line ++ (ending ++ after)) = (line ++ ending) :: lines after := by
  induction line with
  | nil =>
    simp only [lineEndings, List.mem_cons, List.not_mem_nil, or_false] at listed
    rcases listed with rfl | rfl | rfl
    · rfl
    · rfl
    · have single : (after.head? == some '\n') = false := by simpa using apart
      rw [List.nil_append, List.cons_append, List.nil_append, lines, single]
      rfl
  | cons c rest ih =>
    rw [List.any_cons, Bool.or_eq_false_iff] at unbroken
    rw [List.cons_append, lines, unbroken.1, ih unbroken.2]
    rfl

/-- A text within a line is one. -/
theorem lines_of_unended (line : Text) (filled : line ≠ [])
    (unbroken : line.any endsLine = false) : lines line = [line] := by
  induction line with
  | nil => exact absurd rfl filled
  | cons c rest ih =>
    rw [List.any_cons, Bool.or_eq_false_iff] at unbroken
    rw [lines, unbroken.1]
    cases rest with
    | nil => rfl
    | cons d rest =>
      rw [ih (List.cons_ne_nil d rest) unbroken.2]
      rfl

/-! ### Parts of lines -/

/-- What a line ends with are carriage returns and newlines. -/
theorem exists_ending (line : Text) :
    ∃ ending, line = withoutEnding line ++ ending ∧ ∀ c ∈ ending, c = '\r' ∨ c = '\n' := by
  refine ⟨(line.reverse.takeWhile fun c => c == '\n' || c == '\r').reverse, ?_, fun c member => ?_⟩
  · rw [withoutEnding, ← List.reverse_append, List.takeWhile_append_dropWhile, List.reverse_reverse]
  · have taken := List.all_eq_true.mp List.all_takeWhile c (List.mem_reverse.mp member)
    simpa [or_comm] using taken

theorem withoutEnding_append {line ending : Text} (ends : ∀ c ∈ ending, c = '\r' ∨ c = '\n')
    (plain : withoutEnding line = line) : withoutEnding (line ++ ending) = line := by
  rw [withoutEnding, List.reverse_append, List.dropWhile_append_of_pos, ← withoutEnding, plain]
  intro c member
  simpa [or_comm] using ends c (List.mem_reverse.mp member)

/-- A line is part of the text it was cut from. -/
theorem infix_of_mem_lines {text line : Text} (member : line ∈ text.lines) : line <:+: text := by
  obtain ⟨before, after, cut⟩ := List.append_of_mem member
  refine ⟨before.flatten, after.flatten, ?_⟩
  rw [← flatten_lines text, cut]
  simp

theorem trimStart_append {text : Text} (filled : text.trimStart ≠ []) (more : Text) :
    trimStart (text ++ more) = text.trimStart ++ more := by
  unfold trimStart at filled ⊢
  rw [List.dropWhile_append, if_neg (by simpa using filled)]

end FormWatch.Text
