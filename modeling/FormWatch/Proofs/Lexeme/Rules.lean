import FormWatch.Proofs.Lexeme.Partition
import FormWatch.Proofs.Lexeme.Pattern

/-!
The rules of lexemes. Each rule is a pattern, and at every place of a text the first rule whose
pattern fits is taken. The scanner, which never goes back, finds the lexemes that the rules give.

The body of a quote is made of units, and behind the units that can be read one after the other it
is settled how the quote ends: none of the ways in which the patterns could cut it otherwise leads
anywhere (`flatMap_units`). So a string, an unterminated string and a quote that begins neither are
told apart by the one place where no unit can be read (`quotes_of_text`).
-/

namespace FormWatch

namespace Quote

/-! ### Units -/

/-- What is left of a text behind one unit: a backslash and a character other than a newline, or a
character other than a quote and a backslash. -/
def unit? : Text → Option Text
  | '\\' :: c :: rest => if c = '\n' then none else some rest
  | c :: rest => if c = '"' ∨ c = '\\' then none else some rest
  | [] => none

theorem length_lt_of_unit? {text rest : Text} (unit : unit? text = some rest) :
    rest.length < text.length := by
  unfold unit? at unit
  split at unit <;> grind

/-- What is left of a text behind its units, where no further one can be read. -/
def pastUnits (text : Text) : Text :=
  match _ : unit? text with
  | some rest => pastUnits rest
  | none => text
  termination_by text.length
  decreasing_by exact length_lt_of_unit? ‹_›

theorem pastUnits_of_none {text : Text} (none : unit? text = none) : pastUnits text = text := by
  rw [pastUnits]
  split
  next some => rw [none] at some; cases some
  next => rfl

theorem pastUnits_of_some {text rest : Text} (some : unit? text = some rest) :
    pastUnits text = pastUnits rest := by
  rw [pastUnits]
  split
  next some' => rw [some] at some'; cases some'; rfl
  next none => rw [some] at none; cases none

theorem Body.pastUnits_append {body : Text} (isBody : Body body) (rest : Text) :
    pastUnits (body ++ rest) = pastUnits rest := by
  induction isBody with
  | nil => rfl
  | @plain c body unquoted unescaped _ ih =>
    have unit : unit? (c :: (body ++ rest)) = some (body ++ rest) := by
      rw [unit?]
      · simp [unquoted, unescaped]
      · exact fun _ _ escape _ => unescaped escape
    rw [List.cons_append, pastUnits_of_some unit, ih]
  | @escaped c body inline _ ih =>
    have unit : unit? ('\\' :: c :: (body ++ rest)) = some (body ++ rest) := if_neg inline
    rw [List.cons_append, List.cons_append, pastUnits_of_some unit, ih]

theorem Stop.pastUnits_eq {ending : Ending} {tail : Text} (stop : Stop ending tail) :
    pastUnits tail = tail := by
  apply pastUnits_of_none
  cases stop <;> rfl

/-! ### Units as a pattern -/

def mark : Pattern := .char (· = '"')

def escape : Pattern := .char (· = '\\')

def unit : Pattern :=
  .either (.seq escape (.char (· ≠ '\n'))) (.char fun c => c ≠ '"' && c ≠ '\\')

/-- A unit can be read in one way at most. -/
theorem rests_unit (text : Text) : unit.rests text = (unit? text).toList := by
  unfold unit?
  split
  next c rest =>
    by_cases newline : c = '\n' <;> simp [unit, escape, Pattern.rests, newline]
  next c rest alone =>
    by_cases quoted : c = '"'
    · subst quoted
      rfl
    · by_cases escaped : c = '\\'
      · subst escaped
        cases rest with
        | nil => rfl
        | cons next tail => exact (alone next tail rfl rfl).elim
      · simp [unit, escape, Pattern.rests, quoted, escaped]
  next => rfl

/-- What follows units and comes to nothing where a unit can be read follows all of them. -/
theorem flatMap_units {follow : Text → List Text}
    (waits : ∀ text, (unit? text).isSome = true → follow text = []) (text : Text) :
    ((Pattern.many unit).rests text).flatMap follow = follow (pastUnits text) := by
  have ways (text : Text) : (Pattern.many unit).rests text = Pattern.repeated unit.rests text := rfl
  fun_induction pastUnits text with
  | case1 text rest some ih =>
    -- One more unit or none: what follows none of them comes to nothing here.
    have single : unit.rests text = [rest] := by
      rw [rests_unit, some]
      rfl
    rw [ways, Pattern.repeated_of_single single (length_lt_of_unit? some), List.flatMap_append,
      ← ways, ih, List.flatMap_singleton, waits text (by rw [some]; rfl), List.append_nil]
  | case2 text none =>
    have nothing : unit.rests text = [] := by
      rw [rests_unit, none]
      rfl
    rw [ways, Pattern.repeated_of_none nothing, List.flatMap_singleton]

end Quote

namespace Lexeme

/-- The rules by which a text is cut, in the order in which they are tried. -/
inductive Rule where
  | comment
  | string
  | unterminated
  | opening
  | closing
  | atom
  | blank
  | newline
  | space
  | invalid
  deriving DecidableEq, Repr

namespace Rule

def all : List Rule :=
  [comment, string, unterminated, opening, closing, atom, blank, newline, space, invalid]

def pattern : Rule → Pattern
  | comment => .seq (.char (· = ';')) (.many (.char (· ≠ '\n')))
  | string => .seq Quote.mark (.seq (.many Quote.unit) Quote.mark)
  | unterminated => .seq Quote.mark (.seq (.many Quote.unit) (.seq (.optional Quote.escape) .stop))
  | opening => .char (· ∈ ['(', '['])
  | closing => .char (· ∈ [')', ']'])
  | atom =>
    .oneOrMore (.char fun c => !isBlank c && c ∉ ['(', ')', '[', ']', '"', ';'])
  | blank => .oneOrMore (.char fun c => isBlank c && c ∉ [' ', '\t', '\n'])
  | newline => .seq (.optional (.char (· = '\r'))) (.char (· = '\n'))
  | space => .oneOrMore (.char (· ∈ [' ', '\t']))
  | invalid => .oneOrMore (.char (· ≠ '\n'))

/-- The kind of the lexemes that a rule gives; what the last four rules find is dropped. -/
def kind? : Rule → Text → Option Kind
  | comment, _ => some .comment
  | string, _ => some .string
  | unterminated, _ => some .unterminated
  | opening, value => some (.opening (if value = ['('] then .round else .square))
  | closing, value => some (.closing (if value = [')'] then .round else .square))
  | atom, _ => some .atom
  | blank, _ | newline, _ | space, _ | invalid, _ => none

/-- The first rule that fits at the beginning of a text, and what it leaves of the text. -/
def first? (text : Text) : Option (Rule × Text) :=
  all.findSome? fun rule => (rule.pattern.rest? text).map (rule, ·)

/-- The lexeme that a rule gives for a piece of a text. -/
def lexeme? (rule : Rule) (value : Text) (place : Nat) : Option Lexeme :=
  (rule.kind? value).map fun kind => ⟨kind, value, place, place + value.length⟩

/-- The lexemes that the rules give for a text that stands at an offset. -/
def scanAt (place : Nat) (text : Text) : List Lexeme :=
  match first? text with
  | none => []
  | some (rule, rest) =>
    if _ : rest.length < text.length then
      let value := text.take (text.length - rest.length)
      (rule.lexeme? value place).toList ++ scanAt (place + value.length) rest
    else []
  termination_by text.length

/-- The lexemes that the rules give for a text. -/
def scan (text : Text) : List Lexeme :=
  scanAt 0 text

/-! ### The first rule -/

theorem pattern_atom : atom.pattern = .oneOrMore (.char (!endsAtom ·)) := by
  simp only [pattern, endsAtom, Bool.not_or, decide_not]

/-- Whether what a rule fits can begin with a character. -/
def begins : Rule → Char → Bool
  | comment, c => c = ';'
  | string, c | unterminated, c => c = '"'
  | opening, c => c ∈ ['(', '[']
  | closing, c => c ∈ [')', ']']
  | atom, c => !endsAtom c
  | blank, c => isBlank c && c ∉ [' ', '\t', '\n']
  | newline, c => c ∈ ['\r', '\n']
  | space, c => c ∈ [' ', '\t']
  | invalid, c => c ≠ '\n'

theorem rest?_of_not_begins {rule : Rule} {c : Char} (outside : rule.begins c = false)
    (rest : Text) : rule.pattern.rest? (c :: rest) = none := by
  cases rule with
  | comment | string | unterminated | blank | space | invalid =>
    exact Pattern.rest?_seq_char_of_not outside _ rest
  | atom =>
    rw [pattern_atom]
    exact Pattern.rest?_seq_char_of_not outside _ rest
  | opening | closing => exact Pattern.rest?_char_of_not outside rest
  | newline =>
    simp only [begins, List.mem_cons, List.not_mem_nil, or_false, decide_eq_false_iff_not,
      not_or] at outside
    simp [Pattern.rest?, pattern, Pattern.optional, Pattern.rests, outside]

theorem first?_of_skipped {before after : List Rule} {rule : Rule} {text behind : Text}
    (cut : all = before ++ rule :: after)
    (skipped : ∀ earlier ∈ before, earlier.pattern.rest? text = none)
    (fits : rule.pattern.rest? text = some behind) : first? text = some (rule, behind) := by
  have none : before.findSome? (fun rule => (rule.pattern.rest? text).map (rule, ·)) = none := by
    rw [List.findSome?_eq_none_iff]
    intro earlier member
    rw [skipped earlier member]
    rfl
  rw [first?, cut, List.findSome?_append, none, Option.none_or, List.findSome?_cons, fits]
  rfl

/-- A rule is the first that fits if those before it begin otherwise. -/
theorem first?_of_begins {before after : List Rule} {rule : Rule} {c : Char} {rest behind : Text}
    (cut : all = before ++ rule :: after) (others : ∀ earlier ∈ before, earlier.begins c = false)
    (fits : rule.pattern.rest? (c :: rest) = some behind) :
    first? (c :: rest) = some (rule, behind) :=
  first?_of_skipped cut
    (fun earlier member => rest?_of_not_begins (others earlier member) rest) fits

/-! ### Quotes -/

theorem rest?_string (rest : Text) :
    string.pattern.rest? ('"' :: rest) = (Quote.mark.rests (Quote.pastUnits rest)).head? := by
  -- A quote is no unit, so the closing one is behind all units.
  have waits : ∀ text, (Quote.unit? text).isSome = true → Quote.mark.rests text = [] := by
    intro text unit
    match text with
    | [] => rfl
    | c :: tail =>
      refine Pattern.rests_char_of_not (decide_eq_false ?_) tail
      rintro rfl
      cases unit
  have behind : string.pattern.rest? ('"' :: rest) =
      (Pattern.seq (.many Quote.unit) Quote.mark).rest? rest := Pattern.rest?_seq_char rfl _ rest
  rw [behind, Pattern.rest?, Pattern.rests, Quote.flatMap_units waits]

theorem rest?_unterminated (rest : Text) :
    unterminated.pattern.rest? ('"' :: rest) =
      ((Pattern.seq (.optional Quote.escape) .stop).rests (Quote.pastUnits rest)).head? := by
  -- A backslash that ends the text is no unit either.
  have waits : ∀ text, (Quote.unit? text).isSome = true →
      (Pattern.seq (.optional Quote.escape) .stop).rests text = [] := by
    intro text unit
    match text with
    | [] => cases unit
    | [c] =>
      by_cases escaped : c = '\\'
      · rw [escaped] at unit
        cases unit
      · simp [Pattern.optional, Quote.escape, Pattern.rests, escaped]
    | c :: next :: tail =>
      by_cases escaped : c = '\\' <;>
        simp [Pattern.optional, Quote.escape, Pattern.rests, escaped]
  have behind : unterminated.pattern.rest? ('"' :: rest) =
      (Pattern.seq (.many Quote.unit) (.seq (.optional Quote.escape) .stop)).rest? rest :=
    Pattern.rest?_seq_char rfl _ rest
  rw [behind, Pattern.rest?, Pattern.rests, Quote.flatMap_units waits]

theorem rest?_invalid {c : Char} (inline : c ≠ '\n') (rest : Text) :
    invalid.pattern.rest? (c :: rest) = some (rest.drop (restOfLine rest)) := by
  rw [restOfLine, drop_takeWhile]
  exact Pattern.rest?_run (decide_eq_true inline) _ rest

theorem of_begins_quote {rule : Rule} (begun : rule.begins '"' = true) :
    rule = string ∨ rule = unterminated ∨ rule = invalid := by
  cases rule with
  | string => exact .inl rfl
  | unterminated => exact .inr (.inl rfl)
  | invalid => exact .inr (.inr rfl)
  | comment | opening | closing | atom | blank | newline | space => exact absurd begun (by decide)

/-- At a quote only the rules of strings can come before another. -/
theorem first?_of_quote {before after : List Rule} {rule : Rule} {rest behind : Text}
    (cut : all = before ++ rule :: after) (early : invalid ∉ before)
    (unclosed : string ∈ before → string.pattern.rest? ('"' :: rest) = none)
    (terminated : unterminated ∈ before → unterminated.pattern.rest? ('"' :: rest) = none)
    (fits : rule.pattern.rest? ('"' :: rest) = some behind) :
    first? ('"' :: rest) = some (rule, behind) := by
  refine first?_of_skipped cut (fun earlier member => ?_) fits
  cases begun : earlier.begins '"' with
  | false => exact rest?_of_not_begins begun rest
  | true =>
    obtain rfl | rfl | rfl := of_begins_quote begun
    · exact unclosed member
    · exact terminated member
    · exact absurd member early

theorem rest?_string_of_unclosed {rest : Text}
    (unclosed : (Quote.pastUnits rest).head? ≠ some '"') :
    string.pattern.rest? ('"' :: rest) = none := by
  rw [rest?_string]
  generalize Quote.pastUnits rest = tail at unclosed ⊢
  match tail with
  | [] => rfl
  | c :: behind => exact Pattern.rest?_char_of_not (by simpa using unclosed) behind

theorem first?_closed {rest behind : Text} (past : Quote.pastUnits rest = '"' :: behind) :
    first? ('"' :: rest) = some (string, behind) := by
  have cut : all = [comment] ++ string ::
    [unterminated, opening, closing, atom, blank, newline, space, invalid] := rfl
  have fits : string.pattern.rest? ('"' :: rest) = some behind := by
    rw [rest?_string, past]
    rfl
  exact first?_of_quote cut (by decide) (absurd · (by decide)) (absurd · (by decide)) fits

theorem first?_unterminated {rest : Text}
    (past : Quote.pastUnits rest = [] ∨ Quote.pastUnits rest = ['\\']) :
    first? ('"' :: rest) = some (unterminated, []) := by
  have cut : all = [comment, string] ++ unterminated ::
    [opening, closing, atom, blank, newline, space, invalid] := rfl
  have unclosed : string.pattern.rest? ('"' :: rest) = none :=
    rest?_string_of_unclosed (by rcases past with past | past <;> simp [past])
  have fits : unterminated.pattern.rest? ('"' :: rest) = some [] := by
    rw [rest?_unterminated]
    rcases past with past | past <;>
      · rw [past]
        rfl
  exact first?_of_quote cut (by decide) (fun _ => unclosed) (absurd · (by decide)) fits

theorem first?_broken {rest behind : Text} (past : Quote.pastUnits rest = '\\' :: '\n' :: behind) :
    first? ('"' :: rest) = some (invalid, rest.drop (restOfLine rest)) := by
  have cut : all = [comment, string, unterminated, opening, closing, atom, blank, newline, space] ++
    [invalid] := rfl
  have unclosed : string.pattern.rest? ('"' :: rest) = none :=
    rest?_string_of_unclosed (by simp [past])
  have terminated : unterminated.pattern.rest? ('"' :: rest) = none := by
    rw [rest?_unterminated, past]
    rfl
  exact first?_of_quote cut (by decide) (fun _ => unclosed) (fun _ => terminated)
    (rest?_invalid (by decide) rest)

/-! ### The scanner follows the rules -/

/-- What the first rule that fits at the beginning of a text takes, the scanner takes as well. -/
def Agrees (text : Text) : Prop :=
  ∃ rule value behind, first? text = some (rule, behind) ∧ value ≠ [] ∧ text = value ++ behind ∧
    ∀ place, Lexeme.scanAt place text =
      (rule.lexeme? value place).toList ++ Lexeme.scanAt (place + value.length) behind

theorem agrees_of_extent {c : Char} {rest : Text} {kind : Option Kind} {more : Nat} {rule : Rule}
    (covered : extent c rest = (kind, more))
    (first : first? (c :: rest) = some (rule, rest.drop more))
    (same : rule.kind? (c :: rest.take more) = kind) : Agrees (c :: rest) := by
  refine ⟨rule, c :: rest.take more, rest.drop more, first, List.cons_ne_nil _ _, ?_, ?_⟩
  · rw [List.cons_append, List.take_append_drop]
  · intro place
    rw [length_covered covered, lexeme?, length_covered covered, same]
    cases kind with
    | none => rw [scanAt_dropped covered]; rfl
    | some kind => rw [scanAt_lexeme covered]; rfl

/-- A run of white space is dropped at once by a rule, and one by one by the scanner. -/
theorem agrees_of_blanks {run behind : Text} {rule : Rule} (filled : run ≠ [])
    (blank : ∀ c ∈ run, isBlank c = true) (first : first? (run ++ behind) = some (rule, behind))
    (dropped : rule.kind? run = none) : Agrees (run ++ behind) := by
  refine ⟨rule, run, behind, first, filled, rfl, fun place => ?_⟩
  rw [lexeme?, dropped, (Cut.blanks blank (cut_scanAt _ behind)).scanAt_eq]
  rfl

theorem agrees_of_run {c : Char} {rest : Text} {among : Char → Bool} {rule : Rule}
    (blank : ∀ c, among c = true → isBlank c = true) (inside : among c = true)
    (first : first? (c :: rest) = some (rule, rest.dropWhile among))
    (dropped : ∀ value, rule.kind? value = none) : Agrees (c :: rest) := by
  have whole : c :: rest = (c :: rest.takeWhile among) ++ rest.dropWhile among := by
    rw [List.cons_append, List.takeWhile_append_dropWhile]
  rw [whole] at first ⊢
  refine agrees_of_blanks (List.cons_ne_nil _ _) ?_ first (dropped _)
  rintro c' member
  rcases List.mem_cons.mp member with rfl | member
  · exact blank _ inside
  · exact blank _ (List.all_eq_true.mp List.all_takeWhile c' member)

theorem agrees_quote (rest : Text) : Agrees ('"' :: rest) := by
  -- Where no further unit can be read, the scanner and the rules both settle what the quote begins.
  obtain ⟨body, tail, isBody, stop, rfl⟩ := Quote.exists_body rest
  have past : Quote.pastUnits (body ++ tail) = tail := by
    rw [isBody.pastUnits_append, stop.pastUnits_eq]
  generalize (Quote.read (body ++ tail)).1 = ending at stop
  cases stop with
  | quote behind =>
    have covered : extent '"' (body ++ '"' :: behind) =
        (some .string, (body ++ ['"']).length) := by
      rw [extent_quote, Quote.read_of_closed isBody]
    have first : first? ('"' :: (body ++ '"' :: behind)) =
        some (string, (body ++ '"' :: behind).drop (body ++ ['"']).length) := by
      rw [first?_closed past, List.append_cons body '"' behind, List.drop_left]
    exact agrees_of_extent covered first rfl
  | nil =>
    have covered : extent '"' (body ++ []) = (some .unterminated, (body ++ []).length) := by
      rw [extent_quote, Quote.read_of_unterminated isBody (.inl rfl)]
    have first : first? ('"' :: (body ++ [])) =
        some (unterminated, (body ++ []).drop (body ++ []).length) := by
      rw [List.drop_length]
      exact first?_unterminated (.inl past)
    exact agrees_of_extent covered first rfl
  | backslash =>
    have covered : extent '"' (body ++ ['\\']) = (some .unterminated, (body ++ ['\\']).length) := by
      rw [extent_quote, Quote.read_of_unterminated isBody (.inr rfl)]
    have first : first? ('"' :: (body ++ ['\\'])) =
        some (unterminated, (body ++ ['\\']).drop (body ++ ['\\']).length) := by
      rw [List.drop_length]
      exact first?_unterminated (.inr past)
    exact agrees_of_extent covered first rfl
  | newline behind =>
    have covered : extent '"' (body ++ '\\' :: '\n' :: behind) =
        (none, restOfLine (body ++ '\\' :: '\n' :: behind)) := by
      rw [extent_quote, isBody.read_append]
      rfl
    exact agrees_of_extent covered (first?_broken past) rfl

/-- The rules before those of atoms and white space begin with signs, which are neither. -/
theorem sign_of_begins {rule : Rule} {c : Char} (begun : rule.begins c = true)
    (early : rule ∈ [comment, string, unterminated, opening, closing]) :
    endsAtom c = true ∧ isBlank c = false := by
  cases rule with
  | comment =>
    obtain rfl : c = ';' := of_decide_eq_true begun
    decide
  | string | unterminated =>
    obtain rfl : c = '"' := of_decide_eq_true begun
    decide
  | opening =>
    have listed : c ∈ ['(', '['] := of_decide_eq_true begun
    simp only [List.mem_cons, List.not_mem_nil, or_false] at listed
    rcases listed with rfl | rfl <;> decide
  | closing =>
    have listed : c ∈ [')', ']'] := of_decide_eq_true begun
    simp only [List.mem_cons, List.not_mem_nil, or_false] at listed
    rcases listed with rfl | rfl <;> decide
  | atom | blank | newline | space | invalid => exact absurd early (by decide)

theorem begins_of_visible {rule : Rule} {c : Char} (plain : endsAtom c = false ∨ isBlank c = true)
    (early : rule ∈ [comment, string, unterminated, opening, closing]) :
    rule.begins c = false := by
  rw [← Bool.not_eq_true]
  intro begun
  obtain ⟨ends, visible⟩ := sign_of_begins begun early
  rcases plain with inside | blank
  · rw [inside] at ends
    cases ends
  · rw [blank] at visible
    cases visible

theorem agrees_blank {c : Char} (blank : isBlank c = true) (rest : Text) : Agrees (c :: rest) := by
  have skipped : ∀ earlier ∈ [comment, string, unterminated, opening, closing] ++ [atom],
      earlier.begins c = false := by
    intro earlier member
    rcases List.mem_append.mp member with early | last
    · exact begins_of_visible (.inr blank) early
    · rw [List.mem_singleton.mp last]
      simp [begins, endsAtom, blank]
  -- A newline is dropped alone; a run of spaces and tabs and a run of other white space at once.
  by_cases newline : c = '\n'
  · subst newline
    have cut : all = [comment, string, unterminated, opening, closing, atom, Rule.blank] ++
      Rule.newline :: [space, invalid] := rfl
    have first : first? ('\n' :: rest) = some (.newline, rest) := by
      refine first?_of_begins cut (by decide) ?_
      simp [Pattern.rest?, pattern, Pattern.optional, Pattern.rests]
    exact agrees_of_blanks (List.cons_ne_nil _ []) (by simp [blank]) first rfl
  by_cases spaced : c ∈ [' ', '\t']
  · have cut : all = [comment, string, unterminated, opening, closing, atom, Rule.blank,
      Rule.newline] ++ space :: [invalid] := rfl
    have others : ∀ earlier ∈ [comment, string, unterminated, opening, closing, atom, Rule.blank,
        Rule.newline], earlier.begins c = false := by
      simp only [List.mem_cons, List.not_mem_nil, or_false] at spaced
      rcases spaced with rfl | rfl <;> decide
    have among : ∀ c, decide (c ∈ [' ', '\t']) = true → isBlank c = true := by
      intro c inside
      have listed : c ∈ [' ', '\t'] := of_decide_eq_true inside
      simp only [List.mem_cons, List.not_mem_nil, or_false] at listed
      rcases listed with rfl | rfl <;> decide
    exact agrees_of_run among (decide_eq_true spaced)
      (first?_of_begins cut others (Pattern.rest?_run (decide_eq_true spaced) _ rest)) fun _ => rfl
  · have cut : all = ([comment, string, unterminated, opening, closing] ++ [atom]) ++
      Rule.blank :: [Rule.newline, space, invalid] := rfl
    have among : ∀ c, (isBlank c && decide (c ∉ [' ', '\t', '\n'])) = true → isBlank c = true :=
      fun c inside => (Bool.and_eq_true _ _ ▸ inside).1
    have other : c ∉ [' ', '\t', '\n'] := by grind
    have inside : (isBlank c && decide (c ∉ [' ', '\t', '\n'])) = true := by
      rw [blank, decide_eq_true other]
      rfl
    exact agrees_of_run among inside
      (first?_of_begins cut skipped (Pattern.rest?_run inside _ rest)) fun _ => rfl

theorem agrees_atom {c : Char} (inside : endsAtom c = false) (rest : Text) :
    Agrees (c :: rest) := by
  have cut : all = [comment, string, unterminated, opening, closing] ++
    atom :: [blank, newline, space, invalid] := rfl
  have begun : (!endsAtom c) = true := by simp [inside]
  have fits : atom.pattern.rest? (c :: rest) =
      some (rest.drop (rest.takeWhile (!endsAtom ·)).length) := by
    rw [pattern_atom, drop_takeWhile]
    exact Pattern.rest?_run begun _ rest
  exact agrees_of_extent (extent_atom inside rest)
    (first?_of_begins cut (fun _ => begins_of_visible (.inl inside)) fits) rfl

theorem agrees (c : Char) (rest : Text) : Agrees (c :: rest) := by
  rcases first_cases c with rfl | rfl | ⟨bracket, rfl⟩ | ⟨bracket, rfl⟩ | blank | inside
  · have cut : all = [] ++ comment :: [string, unterminated, opening, closing, atom, blank, newline,
      space, invalid] := rfl
    have fits : comment.pattern.rest? (';' :: rest) = some (rest.drop (restOfLine rest)) := by
      rw [restOfLine, drop_takeWhile]
      exact Pattern.rest?_run rfl _ rest
    exact agrees_of_extent (extent_semicolon rest) (first?_of_begins cut (by simp) fits) rfl
  · exact agrees_quote rest
  · have cut : all = [comment, string, unterminated] ++ opening :: [closing, atom, blank, newline,
      space, invalid] := rfl
    have others : ∀ earlier ∈ [comment, string, unterminated],
        earlier.begins bracket.opening = false := by
      cases bracket <;> decide
    have fits : opening.pattern.rest? (bracket.opening :: rest) = some rest :=
      Pattern.rest?_char (by cases bracket <;> rfl) rest
    exact agrees_of_extent (extent_opening bracket rest) (first?_of_begins cut others fits)
      (by cases bracket <;> rfl)
  · have cut : all = [comment, string, unterminated, opening] ++ closing :: [atom, blank, newline,
      space, invalid] := rfl
    have others : ∀ earlier ∈ [comment, string, unterminated, opening],
        earlier.begins bracket.closing = false := by
      cases bracket <;> decide
    have fits : closing.pattern.rest? (bracket.closing :: rest) = some rest :=
      Pattern.rest?_char (by cases bracket <;> rfl) rest
    exact agrees_of_extent (extent_closing bracket rest) (first?_of_begins cut others fits)
      (by cases bracket <;> rfl)
  · exact agrees_blank blank rest
  · exact agrees_atom inside rest

/-- What the first rule takes, the scanner takes. -/
theorem scanAt_of_first? {rule : Rule} {text value behind : Text}
    (first : first? text = some (rule, behind)) (cut : text = value ++ behind) (place : Nat) :
    Lexeme.scanAt place text =
      (rule.lexeme? value place).toList ++ Lexeme.scanAt (place + value.length) behind := by
  cases text with
  | nil => cases first
  | cons c rest =>
    obtain ⟨rule', value', behind', first', _, cut', same⟩ := agrees c rest
    obtain ⟨rfl, rfl⟩ := Prod.mk.inj (Option.some.inj (first.symm.trans first'))
    obtain rfl := (List.append_left_inj behind).mp (cut.symm.trans cut')
    exact same place

/-- A rule takes the beginning of a text, and not nothing; some rule fits unless the text ends. -/
theorem exists_value_of_first? {rule : Rule} {text behind : Text}
    (first : first? text = some (rule, behind)) : ∃ value, value ≠ [] ∧ text = value ++ behind := by
  cases text with
  | nil => cases first
  | cons c rest =>
    obtain ⟨rule', value, behind', first', filled, cut, _⟩ := agrees c rest
    obtain ⟨rfl, rfl⟩ := Prod.mk.inj (Option.some.inj (first.symm.trans first'))
    exact ⟨value, filled, cut⟩

/-- The scanner finds the lexemes that the rules give. -/
theorem scanAt_eq (place : Nat) (text : Text) : scanAt place text = Lexeme.scanAt place text := by
  fun_induction scanAt place text with
  | case1 place text none =>
    cases text with
    | nil => rw [Lexeme.scanAt]
    | cons c rest =>
      obtain ⟨rule, value, behind, first, _⟩ := agrees c rest
      rw [none] at first
      cases first
  | case2 place text rule rest first shorter value ih =>
    obtain ⟨value', _, cut⟩ := exists_value_of_first? first
    have taken : value = value' := by
      rw [show value = text.take (text.length - rest.length) from rfl, cut]
      simp
    rw [scanAt_of_first? first cut, ih, taken]
  | case3 place text rule rest first longer =>
    obtain ⟨value, filled, cut⟩ := exists_value_of_first? first
    have more := List.length_pos_iff.mpr filled
    rw [cut, List.length_append] at longer
    omega

end Rule

/-! ### Where lexemes are looked for -/

/-- The places of a text at which a rule is looked for: the first and those behind what a rule
takes. -/
inductive Tried (text : Text) : Nat → Prop where
  | start : Tried text 0
  | behind {place : Nat} {rule : Rule} {rest : Text} (tried : Tried text place)
    (taken : Rule.first? (text.drop place) = some (rule, rest)) :
    Tried text (text.length - rest.length)

/-- The lexemes of a text are those found before a place that is tried and those found from there
on. -/
theorem Tried.exists_before {text : Text} {place : Nat} (tried : Tried text place) :
    ∃ before, (∀ lexeme ∈ before, lexeme.stop ≤ place) ∧
      scan text = before ++ scanAt place (text.drop place) := by
  induction tried with
  | start => exact ⟨[], by simp, rfl⟩
  | @behind place rule rest tried taken ih =>
    obtain ⟨before, early, whole⟩ := ih
    obtain ⟨value, filled, cut⟩ := Rule.exists_value_of_first? taken
    have stop : text.length - rest.length = place + value.length := by
      have more := List.length_pos_iff.mpr filled
      have sized := congrArg List.length cut
      rw [List.length_drop, List.length_append] at sized
      omega
    have left : text.drop (place + value.length) = rest := by
      rw [← List.drop_drop, cut, List.drop_left]
    refine ⟨before ++ (rule.lexeme? value place).toList, ?_, ?_⟩
    · intro lexeme member
      rw [stop]
      rcases List.mem_append.mp member with earlier | last
      · exact Nat.le_trans (early lexeme earlier) (Nat.le_add_right _ _)
      · rw [Option.mem_toList, Rule.lexeme?, Option.map_eq_some_iff] at last
        obtain ⟨kind, _, rfl⟩ := last
        exact Nat.le_refl _
    · rw [whole, Rule.scanAt_of_first? taken cut, stop, left, List.append_assoc]

/-- The lexemes of a text are those that the rules give. Where one is looked for and a quote stands,
units are read behind the quote as long as there is one. A quote that follows them ends a string; if
the text ends there, or its last character is a backslash there, the quote begins an unterminated
string; else a backslash and a newline follow, and nothing up to the next newline is a lexeme. The
first rule that fits says the same. -/
theorem quotes_of_text (text : Text) :
    Rule.scan text = scan text ∧
    ∀ place rest, Tried text place → text.drop place = '"' :: rest →
      ∃ before, (∀ lexeme ∈ before, lexeme.stop ≤ place) ∧
        match Quote.pastUnits rest with
        | '"' :: behind =>
          ∃ body, rest = body ++ '"' :: behind ∧
            Rule.first? ('"' :: rest) = some (.string, behind) ∧
            scan text = before ++
              ⟨.string, '"' :: (body ++ ['"']), place, place + (body.length + 2)⟩ ::
                scanAt (place + (body.length + 2)) behind
        | [] | ['\\'] =>
          Rule.first? ('"' :: rest) = some (.unterminated, []) ∧
            scan text = before ++ [⟨.unterminated, '"' :: rest, place, text.length⟩]
        | other =>
          other.take 2 = ['\\', '\n'] ∧ ∃ line later, rest = line ++ '\n' :: later ∧ '\n' ∉ line ∧
            Rule.first? ('"' :: rest) = some (.invalid, '\n' :: later) ∧
            scan text = before ++ scanAt (place + (line.length + 1)) ('\n' :: later) := by
  refine ⟨Rule.scanAt_eq 0 text, fun place rest tried here => ?_⟩
  obtain ⟨before, early, whole⟩ := tried.exists_before
  rw [here] at whole
  refine ⟨before, early, ?_⟩
  obtain ⟨body, tail, isBody, stop, rfl⟩ := Quote.exists_body rest
  have past : Quote.pastUnits (body ++ tail) = tail := by
    rw [isBody.pastUnits_append, stop.pastUnits_eq]
  generalize (Quote.read (body ++ tail)).1 = ending at stop
  rw [past]
  have unterminated (first : Rule.first? ('"' :: (body ++ tail)) = some (.unterminated, [])) :
      Rule.first? ('"' :: (body ++ tail)) = some (.unterminated, []) ∧
        scan text = before ++ [⟨.unterminated, '"' :: (body ++ tail), place, text.length⟩] := by
    have sized : place + ('"' :: (body ++ tail)).length = text.length := by
      have sized := congrArg List.length here
      rw [List.length_drop, List.length_cons] at sized
      rw [List.length_cons]
      omega
    refine ⟨first, ?_⟩
    rw [whole, Rule.scanAt_of_first? first (List.append_nil _).symm, sized, scanAt, ← sized]
    rfl
  cases stop with
  | quote behind =>
    have first := Rule.first?_closed past
    have cut : '"' :: (body ++ '"' :: behind) = '"' :: (body ++ ['"']) ++ behind := by simp
    refine ⟨body, rfl, first, ?_⟩
    rw [whole, Rule.scanAt_of_first? first cut]
    simp [Rule.lexeme?, Rule.kind?]
  | nil => exact unterminated (Rule.first?_unterminated (.inl past))
  | backslash => exact unterminated (Rule.first?_unterminated (.inr past))
  | newline behind =>
    -- The body may have newlines of its own; the line of the quote ends at the first of them.
    have newline : '\n' ∈ body ++ '\\' :: '\n' :: behind := by simp
    obtain ⟨line, later, same, unbroken⟩ := List.eq_append_cons_of_mem newline
    have first := Rule.first?_broken past
    rw [same] at first ⊢
    have ends : ∀ c ∈ ('\n' :: later).head?, c = '\n' := by simp
    rw [restOfLine_run unbroken ends, List.drop_left] at first
    refine ⟨rfl, line, later, rfl, unbroken, first, ?_⟩
    rw [whole, same, Rule.scanAt_of_first? first (List.cons_append ..).symm]
    rfl

/-- A quote behind a backslash ends no string, and neither does a backslash at the end. -/
theorem quotes_of_escapes :
    let text := "[] \"a\\\"\\".toList
    Tried text 3 ∧ Rule.scan text = scan text ∧
      ∃ before, (∀ lexeme ∈ before, lexeme.stop ≤ 3) ∧
        scan text = before ++ [⟨.unterminated, "\"a\\\"\\".toList, 3, 8⟩] := by
  intro text
  have opened : Tried text 1 :=
    .behind .start (by decide +kernel : Rule.first? text = some (.opening, text.drop 1))
  have closed : Tried text 2 :=
    .behind opened (by decide +kernel : Rule.first? (text.drop 1) = some (.closing, text.drop 2))
  have spaced : Tried text 3 :=
    .behind closed (by decide +kernel : Rule.first? (text.drop 2) = some (.space, text.drop 3))
  obtain ⟨same, quotes⟩ := quotes_of_text text
  obtain ⟨before, early, found⟩ := quotes 3 "a\\\"\\".toList spaced (by decide +kernel)
  have past : Quote.pastUnits "a\\\"\\".toList = ['\\'] := by decide +kernel
  rw [past] at found
  exact ⟨spaced, same, before, early, found.2⟩

end Lexeme

end FormWatch
