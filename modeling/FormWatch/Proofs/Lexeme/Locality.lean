import FormWatch.Proofs.Lexeme.Tokens

/-!
Locality of lexemes. What is read of a text up to a newline does not depend on what is behind it,
unless a string is still open there, and places count from where a text begins. So the lexemes of
two texts with a newline between them are those of the first and, further on, those of the second
(`scan_append_newline`).
-/

namespace FormWatch

/-- Where places go: those where lexemes start, and those where they stop. -/
structure Relocation where
  start : Nat → Nat
  stop : Nat → Nat

/-- All places further on by a distance. -/
def Relocation.shift (distance : Nat) : Relocation where
  start place := place + distance
  stop place := place + distance

namespace Lexeme

def relocate (move : Relocation) (lexeme : Lexeme) : Lexeme :=
  { lexeme with start := move.start lexeme.start, stop := move.stop lexeme.stop }

variable {place : Nat} {text : Text} {lexemes later : List Lexeme}

/-- A cut of a text that stands further on. -/
theorem Cut.shift (cut : Cut place text lexemes) (distance : Nat) :
    Cut (place + distance) text (lexemes.map (relocate (.shift distance))) := by
  induction cut with
  | done => exact .done
  | @lexeme place kind value rest later spelled ends _ ih =>
    rw [Nat.add_right_comm] at ih
    have here : relocate (.shift distance) ⟨kind, value, place, place + value.length⟩ =
        ⟨kind, value, place + distance, place + distance + value.length⟩ := by
      simp only [relocate, Relocation.shift, Nat.add_right_comm]
    rw [List.map_cons, here]
    exact .lexeme spelled ends ih
  | blank blank _ ih =>
    rw [Nat.add_right_comm] at ih
    exact .blank blank ih
  | swallowed loose unbroken ends _ ih =>
    rw [Nat.add_right_comm] at ih
    exact .swallowed loose unbroken ends ih

/-- Where a lexeme ends, it ends if a newline and more come behind the text. -/
theorem Kind.EndsBefore.append_newline {kind : Kind} {rest : Text} (ends : kind.EndsBefore rest)
    (terminated : kind ≠ .unterminated) (more : Text) : kind.EndsBefore (rest ++ '\n' :: more) := by
  cases rest with
  | nil => exact endsBefore_newline terminated more
  | cons c tail =>
    cases kind with
    | unterminated => exact (terminated rfl).elim
    | comment | atom => exact ends
    | string | opening | closing => trivial

/-- A loose quote stays loose, since its body is broken off before the text ends. -/
theorem IsLoose.append (loose : IsLoose text) (more : Text) : IsLoose (text ++ more) := by
  obtain ⟨body, rest, isBody, rfl⟩ := loose.exists_body
  rw [List.cons_append, List.append_assoc]
  exact isLoose_of_body isBody (rest ++ more)

/-- A text whose strings have an end is cut the same with a newline and more behind it. -/
theorem Cut.append_newline (cut : Cut place text lexemes)
    (terminated : ∀ lexeme ∈ lexemes, lexeme.kind ≠ .unterminated) {more : Text}
    (behind : Cut (place + text.length) ('\n' :: more) later) :
    Cut place (text ++ '\n' :: more) (lexemes ++ later) := by
  induction cut with
  | done => exact behind
  | @lexeme place kind value rest tail spelled ends _ ih =>
    obtain ⟨here, terminated⟩ := List.forall_mem_cons.mp terminated
    rw [List.length_append, ← Nat.add_assoc] at behind
    rw [List.append_assoc, List.cons_append]
    exact .lexeme spelled (ends.append_newline here more) (ih terminated behind)
  | @blank place c rest tail blank _ ih =>
    rw [List.length_cons, Nat.add_comm rest.length, ← Nat.add_assoc] at behind
    exact .blank blank (ih terminated behind)
  | @swallowed place line rest tail loose unbroken ends _ ih =>
    rw [List.length_append, ← Nat.add_assoc] at behind
    have loose := loose.append ('\n' :: more)
    rw [List.append_assoc] at loose ⊢
    -- The line ends at its own newline, or else at the one that is added.
    have ends : ∀ c ∈ (rest ++ '\n' :: more).head?, c = '\n' := by
      cases rest with
      | nil => simp
      | cons c tail => exact ends
    exact .swallowed loose unbroken ends (ih terminated behind)

/-- The lexemes of two texts with a newline between them. -/
theorem scan_append_newline {text : Text}
    (terminated : ∀ lexeme ∈ scan text, lexeme.kind ≠ .unterminated) (more : Text) :
    scan (text ++ '\n' :: more) =
      scan text ++ (scan more).map (relocate (.shift (text.length + 1))) := by
  have behind := (cut_scanAt 0 more).shift (text.length + 1)
  rw [Nat.zero_add] at behind
  have newline : Cut (0 + text.length) ('\n' :: more)
      ((scan more).map (relocate (.shift (text.length + 1)))) := by
    rw [Nat.zero_add]
    exact .blank (by decide) behind
  exact ((cut_scanAt 0 text).append_newline terminated newline).scanAt_eq

end Lexeme

end FormWatch
