import FormWatch.Proofs.Lexeme.Tokens

/-!
Values of lexemes put together. With a newline between neighbours they are cut again into what they
were, from whatever texts they come, if none but the last is a string without an end
(`map_token_scan_join`). In a text only the last lexeme can be such a string, so the lexemes of a
text, each on lines of its own, are what they were (`rescan_of_text`).
-/

namespace FormWatch

namespace Lexeme

/-! ### Strings without an end -/

theorem InOrder.stop_lt {low high : Nat} {lexemes : List Lexeme}
    (inOrder : InOrder low high lexemes) : ∀ lexeme ∈ lexemes.dropLast, lexeme.stop < high := by
  induction lexemes generalizing low with
  | nil => simp
  | cons first later ih =>
    cases later with
    | nil => simp
    | cons next rest =>
      obtain ⟨_, _, behind⟩ := inOrder
      rw [List.dropLast_cons_cons]
      refine List.forall_mem_cons.mpr ⟨?_, ih behind⟩
      have next_behind := behind.within next List.mem_cons_self
      omega

/-- None of the lexemes of a text but the last is a string without an end. -/
theorem terminated_of_mem_dropLast (text : Text) :
    ∀ lexeme ∈ (scan text).dropLast, lexeme.kind ≠ .unterminated := by
  intro lexeme early unterminated
  have piece := piece_of_mem ((scan text).dropLast_subset early)
  have before := (inOrder_scan text).stop_lt lexeme early
  exact Nat.ne_of_lt before (piece.stop_eq_length unterminated)

/-! ### Tokens with newlines between them -/

theorem endsBefore_nil (kind : Kind) : kind.EndsBefore [] := by
  cases kind with
  | unterminated => rfl
  | comment | atom =>
    rintro c ⟨⟩
  | string | opening | closing => trivial

/-- Tokens with newlines between them are the lexemes of one way to cut the text, at any place. -/
theorem exists_cut_join (tokens : List Token)
    (spelled : ∀ token ∈ tokens, token.kind.Spells token.value)
    (terminated : ∀ token ∈ tokens.dropLast, token.kind ≠ .unterminated) (place : Nat) :
    ∃ lexemes, Cut place (Text.join ['\n'] (tokens.map Token.value)) lexemes ∧
      lexemes.map token = tokens := by
  match tokens with
  | [] => exact ⟨[], .done, rfl⟩
  | [token] =>
    -- The last may be a string without an end: it ends where the text does.
    have here := spelled token List.mem_cons_self
    have done : Cut (place + token.value.length) [] [] := .done
    have cut := Cut.lexeme here (endsBefore_nil _) done
    rw [List.append_nil] at cut
    exact ⟨_, cut, rfl⟩
  | token :: next :: rest =>
    obtain ⟨here, spelled⟩ := List.forall_mem_cons.mp spelled
    rw [List.dropLast_cons_cons] at terminated
    obtain ⟨ends, terminated⟩ := List.forall_mem_cons.mp terminated
    obtain ⟨lexemes, cut, same⟩ :=
      exists_cut_join (next :: rest) spelled terminated (place + token.value.length + 1)
    refine ⟨⟨token.kind, token.value, place, place + token.value.length⟩ :: lexemes, ?_, ?_⟩
    · have split : Text.join ['\n'] ((token :: next :: rest).map Token.value) =
          token.value ++ '\n' :: Text.join ['\n'] ((next :: rest).map Token.value) := by
        simp [Text.join]
      rw [split]
      exact token.cut_line here ends cut
    · rw [List.map_cons, same]
      rfl

theorem map_token_scan_join {tokens : List Token}
    (spelled : ∀ token ∈ tokens, token.kind.Spells token.value)
    (terminated : ∀ token ∈ tokens.dropLast, token.kind ≠ .unterminated) :
    (scan (Text.join ['\n'] (tokens.map Token.value))).map token = tokens := by
  obtain ⟨lexemes, cut, same⟩ := exists_cut_join tokens spelled terminated 0
  rw [scan, cut.scanAt_eq, same]

/-- The lexemes of a text with newlines between them make a text with the same lexemes, places
apart. The same goes for lexemes of different texts, of whatever kinds, if none but the last is a
string without an end. -/
theorem rescan_of_text (text : Text) :
    (scan (Text.join ['\n'] ((scan text).map value))).map token = (scan text).map token ∧
    ∀ tokens : List Token, (∀ token ∈ tokens, ∃ source, token ∈ (scan source).map Lexeme.token) →
      (∀ token ∈ tokens.dropLast, token.kind ≠ .unterminated) →
      (scan (Text.join ['\n'] (tokens.map Token.value))).map token = tokens := by
  constructor
  · have values : (scan text).map value = ((scan text).map token).map Token.value := by
      rw [List.map_map]
      rfl
    rw [values]
    refine map_token_scan_join (fun token member => spelled_of_mem_map member) ?_
    rw [← List.map_dropLast]
    intro token member
    obtain ⟨lexeme, early, rfl⟩ := List.mem_map.mp member
    exact terminated_of_mem_dropLast text lexeme early
  · intro tokens sources terminated
    refine map_token_scan_join ?_ terminated
    intro token member
    obtain ⟨source, listed⟩ := sources token member
    exact spelled_of_mem_map listed

theorem rescan_of_loose_quote :
    let text := "a;b\n(\"c\n;\"\"\\\nd\n\"e\\".toList
    let tokens : List Token := [⟨.comment, ";b".toList⟩, ⟨.atom, "a".toList⟩, ⟨.atom, "d".toList⟩,
      ⟨.unterminated, "\"e\\".toList⟩]
    (scan (Text.join ['\n'] ((scan text).map value))).map token =
      [⟨.atom, "a".toList⟩, ⟨.comment, ";b".toList⟩, ⟨.opening .round, "(".toList⟩,
        ⟨.string, "\"c\n;\"".toList⟩, ⟨.atom, "d".toList⟩, ⟨.unterminated, "\"e\\".toList⟩] ∧
    (scan (Text.join ['\n'] (tokens.map Token.value))).map token = tokens := by
  intro text tokens
  have kept : (scan text).map token =
      [⟨.atom, "a".toList⟩, ⟨.comment, ";b".toList⟩, ⟨.opening .round, "(".toList⟩,
        ⟨.string, "\"c\n;\"".toList⟩, ⟨.atom, "d".toList⟩, ⟨.unterminated, "\"e\\".toList⟩] := by
    decide +kernel
  obtain ⟨same, others⟩ := rescan_of_text text
  refine ⟨same.trans kept, others tokens ?_ (by decide)⟩
  intro token member
  refine ⟨text, ?_⟩
  rw [kept]
  revert token
  decide

end Lexeme

end FormWatch
