import FormWatch.Proofs.Lexeme.Partition

/-!
Tokens: lexemes without their places, and without the comments. Tokens that are spelled as their
kinds are, and of which none is a string without an end, are those of a text in which each has its
own line (`exists_cut`).
-/

namespace FormWatch

namespace Lexeme

/-- A lexeme without its place. -/
structure Token where
  kind : Kind
  value : Text
  deriving DecidableEq, Repr

def token (lexeme : Lexeme) : Token := ⟨lexeme.kind, lexeme.value⟩

def isComment (lexeme : Lexeme) : Bool := lexeme.kind = .comment

/-- The lexemes that are no comments, without their places. -/
def tokens (lexemes : List Lexeme) : List Token :=
  (lexemes.filter (!·.isComment)).map token

theorem tokens_append (lexemes later : List Lexeme) :
    tokens (lexemes ++ later) = tokens lexemes ++ tokens later := by
  simp [tokens]

theorem spelled_of_mem_map {text : Text} {token : Token}
    (member : token ∈ (scan text).map Lexeme.token) : token.kind.Spells token.value := by
  obtain ⟨lexeme, listed, rfl⟩ := List.mem_map.mp member
  exact (piece_of_mem listed).spelled

theorem spelled_tokens (text : Text) :
    ∀ token ∈ tokens (scan text), token.kind.Spells token.value := by
  intro token member
  exact spelled_of_mem_map (List.filter_sublist.map Lexeme.token |>.subset member)

theorem inline_tokens (lexemes : List Lexeme) :
    ∀ token ∈ tokens lexemes, token.kind ≠ .comment := by
  intro token member
  obtain ⟨lexeme, listed, rfl⟩ := List.mem_map.mp member
  have inline := (List.mem_filter.mp listed).2
  exact of_decide_eq_false (Bool.not_eq_true' _ |>.mp inline)

/-! ### Texts with given tokens -/

/-- Tokens one behind the other, each with a newline behind it. -/
def onLines (tokens : List Token) : Text :=
  tokens.flatMap fun token => token.value ++ ['\n']

theorem endsBefore_newline {kind : Kind} (terminated : kind ≠ .unterminated) (rest : Text) :
    kind.EndsBefore ('\n' :: rest) := by
  cases kind with
  | unterminated => exact (terminated rfl).elim
  | comment =>
    rintro c ⟨⟩
    rfl
  | atom =>
    rintro c ⟨⟩
    exact .inl rfl
  | string | opening | closing => trivial

/-- A token that has an end is the first lexeme of a text that goes on with a newline behind it. -/
theorem Token.cut_line {token : Token} {place : Nat} {rest : Text} {later : List Lexeme}
    (spelled : token.kind.Spells token.value) (terminated : token.kind ≠ .unterminated)
    (behind : Cut (place + token.value.length + 1) rest later) :
    Cut place (token.value ++ '\n' :: rest)
      (⟨token.kind, token.value, place, place + token.value.length⟩ :: later) := by
  have newline : Cut (place + token.value.length) ('\n' :: rest) later := .blank (by decide) behind
  exact .lexeme spelled (endsBefore_newline terminated _) newline

theorem exists_cut (tokens : List Token) (spelled : ∀ token ∈ tokens, token.kind.Spells token.value)
    (terminated : ∀ token ∈ tokens, token.kind ≠ .unterminated) (place : Nat) :
    ∃ lexemes, Cut place (onLines tokens) lexemes ∧ lexemes.map token = tokens := by
  induction tokens generalizing place with
  | nil => exact ⟨[], .done, rfl⟩
  | cons token rest ih =>
    obtain ⟨here, spelled⟩ := List.forall_mem_cons.mp spelled
    obtain ⟨ends, terminated⟩ := List.forall_mem_cons.mp terminated
    obtain ⟨lexemes, cut, same⟩ := ih spelled terminated (place + token.value.length + 1)
    refine ⟨⟨token.kind, token.value, place, place + token.value.length⟩ :: lexemes, ?_, ?_⟩
    · have split : onLines (token :: rest) = token.value ++ '\n' :: onLines rest := by
        simp [onLines]
      rw [split]
      exact token.cut_line here ends cut
    · rw [List.map_cons, same]
      rfl

end Lexeme

end FormWatch
