import FormWatch.Text.Basic

/-!
Patterns of texts. A pattern can begin a text in several ways; they are tried one after the other,
repetitions first and alternatives in order, and the first way that all of the pattern can go is
taken. `rests` lists what is left of the text by each way, in the order in which they are tried.
-/

namespace FormWatch

inductive Pattern where
  | empty
  | char (among : Char → Bool)
  -- The text ends here.
  | stop
  | seq (first second : Pattern)
  | either (first second : Pattern)
  | many (body : Pattern)

namespace Pattern

/-- What is left behind a step made any number of times, as often as possible first. A step that
takes nothing is not repeated. -/
def repeated (step : Text → List Text) (text : Text) : List Text :=
  ((step text).flatMap fun rest =>
    if _ : rest.length < text.length then repeated step rest else []) ++ [text]
  termination_by text.length

/-- What is left of a text by each way in which a pattern can begin it. -/
def rests : Pattern → Text → List Text
  | empty, text => [text]
  | char _, [] => []
  | char among, c :: rest => if among c then [rest] else []
  | stop, [] => [[]]
  | stop, _ :: _ => []
  | seq first second, text => (rests first text).flatMap (rests second)
  | either first second, text => rests first text ++ rests second text
  | many body, text => repeated (rests body) text

/-- What is left of a text behind a pattern, if the pattern begins it. -/
def rest? (pattern : Pattern) (text : Text) : Option Text :=
  (pattern.rests text).head?

/-- A pattern at least once. -/
def oneOrMore (pattern : Pattern) : Pattern :=
  seq pattern (many pattern)

/-- A pattern or nothing. -/
def optional (pattern : Pattern) : Pattern :=
  either pattern empty

/-! ### Repetitions -/

variable {step : Text → List Text} {text rest : Text}

theorem repeated_of_none (none : step text = []) : repeated step text = [text] := by
  rw [repeated, none]
  rfl

theorem repeated_of_single (single : step text = [rest]) (shorter : rest.length < text.length) :
    repeated step text = repeated step rest ++ [text] := by
  rw [repeated, single, List.flatMap_singleton, dif_pos shorter]

/-! ### Single characters -/

variable {among : Char → Bool} {c : Char}

theorem rests_char (inside : among c = true) (rest : Text) :
    rests (char among) (c :: rest) = [rest] :=
  if_pos inside

theorem rests_char_of_not (outside : among c = false) (rest : Text) :
    rests (char among) (c :: rest) = [] := by
  simp [rests, outside]

/-- Characters of a class are repeated to the first of another. -/
theorem head?_repeated_char (among : Char → Bool) (text : Text) :
    (repeated (rests (char among)) text).head? = some (text.dropWhile among) := by
  induction text with
  | nil => rw [repeated_of_none rfl]; rfl
  | cons c rest ih =>
    cases inside : among c with
    | true =>
      rw [repeated_of_single (rests_char inside rest) (Nat.lt_succ_self _), List.head?_append, ih,
        List.dropWhile_cons_of_pos inside]
      rfl
    | false =>
      rw [repeated_of_none (rests_char_of_not inside rest),
        List.dropWhile_cons_of_neg (by simp [inside])]
      rfl

/-! ### Patterns that begin with a character -/

theorem rest?_char (inside : among c = true) (rest : Text) :
    rest? (char among) (c :: rest) = some rest := by
  rw [rest?, rests_char inside]
  rfl

theorem rest?_char_of_not (outside : among c = false) (rest : Text) :
    rest? (char among) (c :: rest) = none := by
  rw [rest?, rests_char_of_not outside]
  rfl

theorem rest?_seq_char (inside : among c = true) (later : Pattern) (rest : Text) :
    rest? (seq (char among) later) (c :: rest) = rest? later rest := by
  rw [rest?, rests, rests_char inside, List.flatMap_singleton, rest?]

theorem rest?_seq_char_of_not (outside : among c = false) (later : Pattern) (rest : Text) :
    rest? (seq (char among) later) (c :: rest) = none := by
  rw [rest?, rests, rests_char_of_not outside]
  rfl

theorem rest?_run (inside : among c = true) (among' : Char → Bool) (rest : Text) :
    rest? (seq (char among) (many (char among'))) (c :: rest) = some (rest.dropWhile among') := by
  rw [rest?_seq_char inside]
  exact head?_repeated_char among' rest

end Pattern

end FormWatch
