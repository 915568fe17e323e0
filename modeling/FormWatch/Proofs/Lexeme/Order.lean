import FormWatch.Lexeme

/-!
Where lexemes are. The lexemes of a text come one behind the other, none of them empty, within the
text.
-/

namespace FormWatch

/-! ### How far a lexeme reaches -/

theorem Quote.length_read_le (body : Text) : (read body).2 ≤ body.length := by
  fun_induction read body with
  | case1 | case2 | case3 | case4 => simp
  | case5 c rest _ ending length same ih | case6 c rest _ _ _ _ ending length same ih =>
    rw [same] at ih
    simp only [List.length_cons] at ih ⊢
    omega

namespace Lexeme

theorem restOfLine_le (text : Text) : restOfLine text ≤ text.length :=
  (List.takeWhile_prefix _).length_le

theorem extent_le (c : Char) (rest : Text) : (extent c rest).2 ≤ rest.length := by
  have line := restOfLine_le rest
  have quote := Quote.length_read_le rest
  have name := (List.takeWhile_prefix (!endsAtom ·) (l := rest)).length_le
  unfold extent
  split
  · exact line
  split
  · split
    next same => simpa [same] using quote
    next same => simpa [same] using quote
    next => exact line
  split
  · exact Nat.zero_le _
  split
  · exact Nat.zero_le _
  split
  · exact Nat.zero_le _
  split
  · exact Nat.zero_le _
  split
  · exact Nat.zero_le _
  · exact name

/-! ### Order -/

/-- Whether lexemes come one behind the other between two places, none of them empty. -/
def InOrder (low high : Nat) : List Lexeme → Prop
  | [] => low ≤ high
  | lexeme :: rest =>
    low ≤ lexeme.start ∧ lexeme.start < lexeme.stop ∧ InOrder lexeme.stop high rest

theorem InOrder.from_earlier {low low' high : Nat} {lexemes : List Lexeme}
    (inOrder : InOrder low high lexemes) (earlier : low' ≤ low) : InOrder low' high lexemes := by
  cases lexemes with
  | nil => exact Nat.le_trans earlier inOrder
  | cons lexeme rest => exact ⟨Nat.le_trans earlier inOrder.1, inOrder.2⟩

/-- What follows a lexeme or a dropped run ends where the text does. -/
theorem end_behind {c : Char} {rest : Text} {kind : Option Kind} {more : Nat} (place : Nat)
    (covered : extent c rest = (kind, more)) :
    place + more + 1 + (rest.drop more).length = place + (c :: rest).length := by
  have within := extent_le c rest
  rw [covered] at within
  simp only [List.length_drop, List.length_cons] at within ⊢
  omega

theorem inOrder_scanAt (place : Nat) (text : Text) :
    InOrder place (place + text.length) (scanAt place text) := by
  fun_induction scanAt place text with
  | case1 place => exact Nat.le_refl _
  | case2 place c rest more following kind covered ih =>
    rw [end_behind place covered] at ih
    exact ⟨Nat.le_refl _, by dsimp only; omega, ih⟩
  | case3 place c rest more following covered ih =>
    rw [end_behind place covered] at ih
    exact ih.from_earlier (by omega)

theorem inOrder_scan (text : Text) : InOrder 0 text.length (scan text) := by
  have all := inOrder_scanAt 0 text
  rwa [Nat.zero_add] at all

end Lexeme

end FormWatch
