import FormWatch.Text.Line

/-!
Texts with unified newlines. Only a carriage return and the newline after it make such a text
shorter, so every place in it comes from a place in the text as it was.
-/

namespace FormWatch.Text

theorem unifyNewlines_pair (rest : Text) :
    unifyNewlines ('\r' :: '\n' :: rest) = '\n' :: unifyNewlines rest := by
  rw [unifyNewlines]

theorem unifyNewlines_return (rest : Text) (lone : rest.head? ≠ some '\n') :
    unifyNewlines ('\r' :: rest) = '\n' :: unifyNewlines rest := by
  rw [unifyNewlines]
  rintro tail rfl
  exact lone rfl

theorem unifyNewlines_cons (c : Char) (rest : Text) (other : c ≠ '\r') :
    unifyNewlines (c :: rest) = c :: unifyNewlines rest := by
  rw [unifyNewlines]
  · rintro tail rfl
    exact absurd rfl other
  · exact other

/-- A text without carriage returns is left as it is. -/
theorem unifyNewlines_of_plain (text : Text) (plain : '\r' ∉ text) :
    text.unifyNewlines = text := by
  induction text with
  | nil => rfl
  | cons c rest ih =>
    simp only [List.mem_cons, not_or] at plain
    rw [unifyNewlines_cons c rest (Ne.symm plain.1), ih plain.2]

/-- Every place in a text with unified newlines comes from a place in the text: what stands before
it comes from what stands before, and what follows it from what follows. -/
theorem exists_origin (text : Text) (position : Nat) (within : position < text.unifyNewlines.length) :
    ∃ origin, origin < text.length ∧ (unifyNewlines (text.take origin)).length = position ∧
      unifyNewlines (text.drop origin) = text.unifyNewlines.drop position := by
  fun_induction unifyNewlines text generalizing position with
  | case1 => simp at within
  | case2 rest ih =>
    cases position with
    | zero => exact ⟨0, by simp, rfl, unifyNewlines_pair rest⟩
    | succ position =>
      obtain ⟨origin, inside, before, after⟩ := ih position (by simpa using within)
      refine ⟨origin + 2, by simpa using inside, ?_, by simpa using after⟩
      rw [List.take_succ_cons, List.take_succ_cons, unifyNewlines_pair, List.length_cons, before]
  | case3 rest lone ih =>
    have single : rest.head? ≠ some '\n' := by
      cases rest with
      | nil => simp
      | cons c tail =>
        intro same
        cases same
        exact lone tail rfl
    cases position with
    | zero => exact ⟨0, by simp, rfl, unifyNewlines_return rest single⟩
    | succ position =>
      obtain ⟨origin, inside, before, after⟩ := ih position (by simpa using within)
      refine ⟨origin + 1, by simpa using inside, ?_, by simpa using after⟩
      have still : (rest.take origin).head? ≠ some '\n' := by
        cases origin with
        | zero => simp
        | succ origin =>
          cases rest with
          | nil => simp
          | cons c tail => exact single
      rw [List.take_succ_cons, unifyNewlines_return _ still, List.length_cons, before]
  | case4 c rest _ other ih =>
    have apart : c ≠ '\r' := other
    cases position with
    | zero => exact ⟨0, by simp, rfl, unifyNewlines_cons c rest apart⟩
    | succ position =>
      obtain ⟨origin, inside, before, after⟩ := ih position (by simpa using within)
      refine ⟨origin + 1, by simpa using inside, ?_, by simpa using after⟩
      rw [List.take_succ_cons, unifyNewlines_cons c _ apart, List.length_cons, before]

/-! ### Pairs -/

/-- The number of carriage returns with a newline after them. -/
def pairs : Text → Nat
  | [] => 0
  | '\r' :: '\n' :: rest => pairs rest + 1
  | _ :: rest => pairs rest

/-- Each pair makes a text one character shorter when its newlines are unified. -/
theorem length_unifyNewlines (text : Text) :
    text.unifyNewlines.length + text.pairs = text.length := by
  fun_induction unifyNewlines text with
  | case1 => rfl
  | case2 rest ih =>
    rw [pairs, List.length_cons, List.length_cons, List.length_cons]
    omega
  | case3 rest lone ih =>
    rw [pairs, List.length_cons, List.length_cons]
    · omega
    · intro tail _ same
      exact lone tail same
  | case4 c rest _ other ih =>
    rw [pairs, List.length_cons, List.length_cons]
    · omega
    · intro tail same _
      exact other same

/-- What begins a text with unified newlines and has no newline begins the text as it was. -/
theorem begins_of_unified {token text : Text} (unbroken : '\n' ∉ token)
    (first : token <+: text.unifyNewlines) : token <+: text := by
  cases token with
  | nil => exact List.nil_prefix
  | cons d token =>
    fun_induction unifyNewlines text generalizing d token with
    | case1 => exact first
    | case2 rest ih => exact absurd (by simp [(List.cons_prefix_cons.mp first).1]) unbroken
    | case3 rest lone ih => exact absurd (by simp [(List.cons_prefix_cons.mp first).1]) unbroken
    | case4 c rest _ other ih =>
      obtain ⟨same, later⟩ := List.cons_prefix_cons.mp first
      refine List.cons_prefix_cons.mpr ⟨same, ?_⟩
      cases token with
      | nil => exact List.nil_prefix
      | cons e token => exact ih e token (fun member => unbroken (List.mem_cons_of_mem _ member)) later

end FormWatch.Text
