import FormWatch.Proofs.Lexeme.Order

/-!
Cuts of a text. What a lexeme of each kind is spelled like, what may follow it, and when a quote is
loose, so that neither a string nor an unterminated string begins with it, are said here without the
scanner. They leave one way to cut a text, and the scanner finds it (`cut_iff`).
-/

namespace FormWatch

namespace Quote

/-! ### What stands between quotes -/

/-- Texts that can stand between two quotes: characters other than a quote and a backslash, and
pairs of a backslash and a character other than a newline. -/
inductive Body : Text → Prop where
  | nil : Body []
  | plain {c : Char} {rest : Text} (unquoted : c ≠ '"') (unescaped : c ≠ '\\') (body : Body rest) :
    Body (c :: rest)
  | escaped {c : Char} {rest : Text} (inline : c ≠ '\n') (body : Body rest) :
    Body ('\\' :: c :: rest)

/-- How a text goes on where a body can go on no further. -/
inductive Stop : Ending → Text → Prop where
  | quote (rest : Text) : Stop .closed ('"' :: rest)
  | nil : Stop .unterminated []
  | backslash : Stop .unterminated ['\\']
  | newline (rest : Text) : Stop .broken ('\\' :: '\n' :: rest)

theorem read_plain {c : Char} (unquoted : c ≠ '"') (unescaped : c ≠ '\\') (rest : Text) :
    read (c :: rest) = ((read rest).1, (read rest).2 + 1) := by
  rw [read]
  · exact unquoted
  · exact fun escape _ => unescaped escape
  · exact fun _ escape _ => unescaped escape
  · exact fun _ _ escape _ => unescaped escape

theorem read_escaped {c : Char} (inline : c ≠ '\n') (rest : Text) :
    read ('\\' :: c :: rest) = ((read rest).1, (read rest).2 + 2) := by
  rw [read]
  exact inline

/-- A body is read to its end. -/
theorem Body.read_append {body : Text} (isBody : Body body) (rest : Text) :
    read (body ++ rest) = ((read rest).1, (read rest).2 + body.length) := by
  induction isBody with
  | nil => rfl
  | plain unquoted unescaped _ ih =>
    rw [List.cons_append, read_plain unquoted unescaped, ih]
    rfl
  | escaped inline _ ih =>
    rw [List.cons_append, List.cons_append, read_escaped inline, ih]
    rfl

/-- Every text goes on as a body as far as it can. -/
theorem exists_body (text : Text) :
    ∃ body rest, Body body ∧ Stop (read text).1 rest ∧ text = body ++ rest := by
  fun_induction read text with
  | case1 => exact ⟨[], [], .nil, .nil, rfl⟩
  | case2 rest => exact ⟨[], '"' :: rest, .nil, .quote rest, rfl⟩
  | case3 => exact ⟨[], ['\\'], .nil, .backslash, rfl⟩
  | case4 rest => exact ⟨[], '\\' :: '\n' :: rest, .nil, .newline rest, rfl⟩
  | case5 c rest inline ending length same ih =>
    obtain ⟨body, tail, isBody, stop, rfl⟩ := ih
    rw [same] at stop
    exact ⟨'\\' :: c :: body, tail, .escaped inline isBody, stop, rfl⟩
  | case6 c rest unquoted bare _ escaped ending length same ih =>
    have unescaped : c ≠ '\\' := by
      intro escape
      cases rest with
      | nil => exact bare escape rfl
      | cons next tail => exact escaped next tail escape rfl
    obtain ⟨body, tail, isBody, stop, rfl⟩ := ih
    rw [same] at stop
    exact ⟨c :: body, tail, .plain unquoted unescaped isBody, stop, rfl⟩

theorem read_of_closed {body : Text} (isBody : Body body) (rest : Text) :
    read (body ++ '"' :: rest) = (.closed, (body ++ ['"']).length) := by
  rw [isBody.read_append, List.length_append, Nat.add_comm body.length]
  rfl

theorem read_of_unterminated {body last : Text} (isBody : Body body)
    (ends : last = [] ∨ last = ['\\']) :
    read (body ++ last) = (.unterminated, (body ++ last).length) := by
  rw [isBody.read_append, List.length_append, Nat.add_comm body.length]
  rcases ends with rfl | rfl <;> rfl

end Quote

namespace Lexeme

/-! ### Shapes -/

/-- Whether a text is spelled as lexemes of a kind are. -/
def Kind.Spells : Kind → Text → Prop
  | comment, value => ∃ line, value = ';' :: line ∧ '\n' ∉ line
  | string, value => ∃ body, value = '"' :: (body ++ ['"']) ∧ Quote.Body body
  | unterminated, value =>
    ∃ body last, value = '"' :: (body ++ last) ∧ Quote.Body body ∧ (last = [] ∨ last = ['\\'])
  | opening bracket, value => value = [bracket.opening]
  | closing bracket, value => value = [bracket.closing]
  | atom, value =>
    value ≠ [] ∧ ∀ c ∈ value, isBlank c = false ∧ c ∉ ['(', ')', '[', ']', '"', ';']

/-- Whether a lexeme of a kind may end where a text goes on. -/
def Kind.EndsBefore : Kind → Text → Prop
  | comment, rest => ∀ c ∈ rest.head?, c = '\n'
  | unterminated, rest => rest = []
  | atom, rest => ∀ c ∈ rest.head?, isBlank c = true ∨ c ∈ ['(', ')', '[', ']', '"', ';']
  | string, _ | opening _, _ | closing _, _ => True

/-- Whether a text begins with a quote from which neither a string nor an unterminated string can
be read. -/
structure IsLoose (text : Text) : Prop where
  quoted : text.head? = some '"'
  no_string : ∀ value, value <+: text → ¬ Kind.string.Spells value
  not_unterminated : ¬ Kind.unterminated.Spells text

/-- A text at a place, cut into lexemes. White space between them is dropped, and so is the rest of
a line from a loose quote on. -/
inductive Cut : Nat → Text → List Lexeme → Prop where
  | done {place : Nat} : Cut place [] []
  | lexeme {place : Nat} {kind : Kind} {value rest : Text} {later : List Lexeme}
    (spelled : kind.Spells value) (ends : kind.EndsBefore rest)
    (behind : Cut (place + value.length) rest later) :
    Cut place (value ++ rest) (⟨kind, value, place, place + value.length⟩ :: later)
  | blank {place : Nat} {c : Char} {rest : Text} {later : List Lexeme} (blank : isBlank c = true)
    (behind : Cut (place + 1) rest later) : Cut place (c :: rest) later
  | swallowed {place : Nat} {line rest : Text} {later : List Lexeme}
    (loose : IsLoose (line ++ rest)) (unbroken : '\n' ∉ line)
    (ends : ∀ c ∈ rest.head?, c = '\n') (behind : Cut (place + line.length) rest later) :
    Cut place (line ++ rest) later

theorem Kind.Spells.ne_nil {kind : Kind} {value : Text} (spelled : kind.Spells value) :
    value ≠ [] := by
  cases kind with
  | comment => obtain ⟨line, rfl, _⟩ := spelled; exact List.cons_ne_nil _ _
  | string => obtain ⟨body, rfl, _⟩ := spelled; exact List.cons_ne_nil _ _
  | unterminated => obtain ⟨body, last, rfl, _⟩ := spelled; exact List.cons_ne_nil _ _
  | opening bracket => rw [spelled]; exact List.cons_ne_nil _ _
  | closing bracket => rw [spelled]; exact List.cons_ne_nil _ _
  | atom => exact spelled.1

/-! ### Loose quotes -/

/-- A quote is loose if its body is broken off. -/
theorem isLoose_iff (rest : Text) : IsLoose ('"' :: rest) ↔ (Quote.read rest).1 = .broken := by
  constructor
  · intro loose
    obtain ⟨body, tail, isBody, stop, rfl⟩ := Quote.exists_body rest
    generalize (Quote.read (body ++ tail)).1 = ending at stop ⊢
    cases stop with
    | quote tail =>
      have found : '"' :: (body ++ ['"']) <+: '"' :: (body ++ '"' :: tail) := ⟨tail, by simp⟩
      exact absurd ⟨body, rfl, isBody⟩ (loose.no_string _ found)
    | nil => exact absurd ⟨body, [], rfl, isBody, .inl rfl⟩ loose.not_unterminated
    | backslash => exact absurd ⟨body, ['\\'], rfl, isBody, .inr rfl⟩ loose.not_unterminated
    | newline tail => rfl
  · intro broken
    refine ⟨rfl, ?_, ?_⟩
    · rintro value ⟨tail, same⟩ ⟨body, rfl, isBody⟩
      have split : rest = body ++ '"' :: tail := by simpa using same.symm
      rw [split, Quote.read_of_closed isBody] at broken
      cases broken
    · rintro ⟨body, last, same, isBody, ends⟩
      have split : rest = body ++ last := by simpa using same
      rw [split, Quote.read_of_unterminated isBody ends] at broken
      cases broken

/-- Behind a loose quote come a body and then a backslash before a newline. -/
theorem IsLoose.exists_body {text : Text} (loose : IsLoose text) :
    ∃ body rest, Quote.Body body ∧ text = '"' :: (body ++ '\\' :: '\n' :: rest) := by
  obtain ⟨behind, rfl⟩ := List.head?_eq_some_iff.mp loose.quoted
  have broken := (isLoose_iff behind).mp loose
  obtain ⟨body, tail, isBody, stop, rfl⟩ := Quote.exists_body behind
  rw [broken] at stop
  cases stop with
  | newline rest => exact ⟨body, rest, isBody, rfl⟩

theorem isLoose_of_body {body : Text} (isBody : Quote.Body body) (rest : Text) :
    IsLoose ('"' :: (body ++ '\\' :: '\n' :: rest)) := by
  apply (isLoose_iff _).mpr
  rw [isBody.read_append]
  rfl

/-! ### Where atoms end -/

theorem endsAtom_eq_true_iff (c : Char) :
    endsAtom c = true ↔ isBlank c = true ∨ c ∈ ['(', ')', '[', ']', '"', ';'] := by
  rw [endsAtom, Bool.or_eq_true, decide_eq_true_eq]

theorem endsAtom_eq_false_iff (c : Char) :
    endsAtom c = false ↔ isBlank c = false ∧ c ∉ ['(', ')', '[', ']', '"', ';'] := by
  rw [endsAtom, Bool.or_eq_false_iff, decide_eq_false_iff_not]

/-! ### How far a lexeme reaches -/

theorem drop_takeWhile (among : Char → Bool) (text : Text) :
    text.drop (text.takeWhile among).length = text.dropWhile among := by
  have same : text.takeWhile among ++ text.dropWhile among = text :=
    List.takeWhile_append_dropWhile
  calc text.drop (text.takeWhile among).length
      = (text.takeWhile among ++ text.dropWhile among).drop (text.takeWhile among).length := by
        rw [same]
    _ = text.dropWhile among := List.drop_left

/-- A run of characters that ends where the text goes on with another kind of character. -/
theorem run_of_takeWhile (among : Char → Bool) (text : Text) :
    (∀ c ∈ text.take (text.takeWhile among).length, among c = true) ∧
      ∀ c ∈ (text.drop (text.takeWhile among).length).head?, among c = false := by
  have taken : text.take (text.takeWhile among).length = text.takeWhile among :=
    (List.prefix_iff_eq_take.mp (List.takeWhile_prefix among)).symm
  rw [taken, drop_takeWhile]
  refine ⟨List.all_eq_true.mp List.all_takeWhile, ?_⟩
  intro c first
  have stopped := List.head?_dropWhile_not among text
  rw [first] at stopped
  simpa using stopped

theorem length_takeWhile_run {among : Char → Bool} {run rest : Text}
    (inside : ∀ c ∈ run, among c = true) (ends : ∀ c ∈ rest.head?, among c = false) :
    ((run ++ rest).takeWhile among).length = run.length := by
  have stops : rest.takeWhile among = [] := by
    cases rest with
    | nil => rfl
    | cons c tail => exact List.takeWhile_cons_of_neg (by simp [ends c rfl])
  rw [List.takeWhile_append_of_pos inside, stops, List.append_nil]

theorem run_of_restOfLine (text : Text) :
    '\n' ∉ text.take (restOfLine text) ∧ ∀ c ∈ (text.drop (restOfLine text)).head?, c = '\n' := by
  obtain ⟨inside, ends⟩ := run_of_takeWhile (· ≠ '\n') text
  refine ⟨fun member => ?_, fun c first => ?_⟩
  · simpa using inside '\n' member
  · simpa using ends c first

theorem restOfLine_run {line rest : Text} (unbroken : '\n' ∉ line)
    (ends : ∀ c ∈ rest.head?, c = '\n') : restOfLine (line ++ rest) = line.length := by
  refine length_takeWhile_run (fun c member => ?_) fun c first => ?_
  · have inline : c ≠ '\n' := by
      rintro rfl
      exact unbroken member
    simpa using inline
  · simpa using ends c first

/-! ### The scanner, by what it meets -/

theorem extent_semicolon (rest : Text) : extent ';' rest = (some .comment, restOfLine rest) := rfl

theorem extent_quote (rest : Text) :
    extent '"' rest = match Quote.read rest with
      | (.closed, length) => (some .string, length)
      | (.unterminated, length) => (some .unterminated, length)
      | (.broken, _) => (none, restOfLine rest) := rfl

theorem extent_opening (bracket : Bracket) (rest : Text) :
    extent bracket.opening rest = (some (.opening bracket), 0) := by
  cases bracket <;> rfl

theorem extent_closing (bracket : Bracket) (rest : Text) :
    extent bracket.closing rest = (some (.closing bracket), 0) := by
  cases bracket <;> rfl

theorem extent_blank {c : Char} (blank : isBlank c = true) (rest : Text) :
    extent c rest = (none, 0) := by
  have apart (sign : Char) (visible : isBlank sign = false) : c ≠ sign := by
    rintro rfl
    rw [visible] at blank
    cases blank
  have semicolon := apart ';' (by decide)
  have quote := apart '"' (by decide)
  have round := apart '(' (by decide)
  have square := apart '[' (by decide)
  have round' := apart ')' (by decide)
  have square' := apart ']' (by decide)
  simp [extent, *]

theorem extent_atom {c : Char} (inside : endsAtom c = false) (rest : Text) :
    extent c rest = (some .atom, (rest.takeWhile (!endsAtom ·)).length) := by
  simp only [endsAtom, Bool.or_eq_false_iff, decide_eq_false_iff_not, List.mem_cons,
    List.not_mem_nil, or_false, not_or] at inside
  obtain ⟨visible, round, round', square, square', quote, semicolon⟩ := inside
  simp [extent, *]

theorem first_cases (c : Char) :
    c = ';' ∨ c = '"' ∨ (∃ bracket : Bracket, c = bracket.opening) ∨
      (∃ bracket : Bracket, c = bracket.closing) ∨ isBlank c = true ∨ endsAtom c = false := by
  cases ends : endsAtom c with
  | false => simp
  | true =>
    simp only [endsAtom, Bool.or_eq_true, decide_eq_true_eq, List.mem_cons, List.not_mem_nil,
      or_false] at ends
    rcases ends with blank | rfl | rfl | rfl | rfl | rfl | rfl
    · simp [blank]
    · exact .inr (.inr (.inl ⟨.round, rfl⟩))
    · exact .inr (.inr (.inr (.inl ⟨.round, rfl⟩)))
    · exact .inr (.inr (.inl ⟨.square, rfl⟩))
    · exact .inr (.inr (.inr (.inl ⟨.square, rfl⟩)))
    · exact .inr (.inl rfl)
    · exact .inl rfl

/-! ### The scanner cuts -/

variable {c : Char} {rest : Text} {more place : Nat}

/-- What is covered is spelled and ended as its kind is. -/
theorem spells_of_extent {kind : Kind} (covered : extent c rest = (some kind, more)) :
    kind.Spells (c :: rest.take more) ∧ kind.EndsBefore (rest.drop more) := by
  rcases first_cases c with rfl | rfl | ⟨bracket, rfl⟩ | ⟨bracket, rfl⟩ | blank | inside
  · cases covered
    obtain ⟨unbroken, ends⟩ := run_of_restOfLine rest
    exact ⟨⟨_, rfl, unbroken⟩, ends⟩
  · obtain ⟨body, tail, isBody, stop, rfl⟩ := Quote.exists_body rest
    generalize (Quote.read (body ++ tail)).1 = ending at stop
    cases stop with
    | quote tail =>
      rw [extent_quote, Quote.read_of_closed isBody] at covered
      cases covered
      rw [List.append_cons body '"' tail, List.take_left]
      exact ⟨⟨body, rfl, isBody⟩, trivial⟩
    | nil =>
      rw [extent_quote, Quote.read_of_unterminated isBody (.inl rfl)] at covered
      cases covered
      exact ⟨⟨body, [], by rw [List.take_length], isBody, .inl rfl⟩, List.drop_length⟩
    | backslash =>
      rw [extent_quote, Quote.read_of_unterminated isBody (.inr rfl)] at covered
      cases covered
      exact ⟨⟨body, ['\\'], by rw [List.take_length], isBody, .inr rfl⟩, List.drop_length⟩
    | newline tail =>
      rw [extent_quote, isBody.read_append] at covered
      cases covered
  · rw [extent_opening] at covered
    cases covered
    exact ⟨rfl, trivial⟩
  · rw [extent_closing] at covered
    cases covered
    exact ⟨rfl, trivial⟩
  · rw [extent_blank blank] at covered
    cases covered
  · rw [extent_atom inside] at covered
    cases covered
    obtain ⟨run, ends⟩ := run_of_takeWhile (!endsAtom ·) rest
    refine ⟨⟨List.cons_ne_nil _ _, fun c' member => ?_⟩, fun c' first => ?_⟩
    · rw [← endsAtom_eq_false_iff]
      rcases List.mem_cons.mp member with rfl | member
      · exact inside
      · simpa using run c' member
    · rw [← endsAtom_eq_true_iff]
      simpa using ends c' first

/-- What is dropped is white space or the rest of a line from a loose quote on. -/
theorem dropped_of_extent (covered : extent c rest = (none, more)) :
    (isBlank c = true ∧ more = 0) ∨
      (IsLoose (c :: rest) ∧ '\n' ∉ c :: rest.take more ∧
        ∀ c ∈ (rest.drop more).head?, c = '\n') := by
  rcases first_cases c with rfl | rfl | ⟨bracket, rfl⟩ | ⟨bracket, rfl⟩ | blank | inside
  · cases covered
  · right
    rw [isLoose_iff]
    rw [extent_quote] at covered
    split at covered
    · cases covered
    · cases covered
    next broken =>
      cases covered
      obtain ⟨unbroken, ends⟩ := run_of_restOfLine rest
      refine ⟨by rw [broken], ?_, ends⟩
      simpa using unbroken
  · rw [extent_opening] at covered
    cases covered
  · rw [extent_closing] at covered
    cases covered
  · rw [extent_blank blank] at covered
    cases covered
    exact .inl ⟨blank, rfl⟩
  · rw [extent_atom inside] at covered
    cases covered

theorem extent_of_spells {kind : Kind} {value : Text} (spelled : kind.Spells (c :: value))
    (ends : kind.EndsBefore rest) : extent c (value ++ rest) = (some kind, value.length) := by
  cases kind with
  | comment =>
    obtain ⟨line, same, unbroken⟩ := spelled
    cases same
    rw [extent_semicolon, restOfLine_run unbroken ends]
  | string =>
    obtain ⟨body, same, isBody⟩ := spelled
    cases same
    rw [extent_quote, List.append_assoc, List.singleton_append, Quote.read_of_closed isBody]
  | unterminated =>
    obtain ⟨body, last, same, isBody, stops⟩ := spelled
    cases same
    rw [ends, List.append_nil, extent_quote, Quote.read_of_unterminated isBody stops]
  | opening bracket =>
    cases spelled
    exact extent_opening bracket rest
  | closing bracket =>
    cases spelled
    exact extent_closing bracket rest
  | atom =>
    obtain ⟨_, run⟩ := spelled
    have inside (c' : Char) (member : c' ∈ c :: _) : endsAtom c' = false :=
      (endsAtom_eq_false_iff c').mpr (run c' member)
    rw [extent_atom (inside c List.mem_cons_self), length_takeWhile_run]
    · intro c' member
      simpa using inside c' (List.mem_cons_of_mem c member)
    · intro c' first
      simpa using (endsAtom_eq_true_iff c').mpr (ends c' first)

theorem extent_of_loose {line : Text} (loose : IsLoose ('"' :: (line ++ rest)))
    (unbroken : '\n' ∉ line) (ends : ∀ c ∈ rest.head?, c = '\n') :
    extent '"' (line ++ rest) = (none, line.length) := by
  have broken := (isLoose_iff (line ++ rest)).mp loose
  rw [extent_quote]
  split
  next same => rw [same] at broken; cases broken
  next same => rw [same] at broken; cases broken
  next => rw [restOfLine_run unbroken ends]

theorem scanAt_lexeme {kind : Kind} (covered : extent c rest = (some kind, more)) :
    scanAt place (c :: rest) =
      ⟨kind, c :: rest.take more, place, place + more + 1⟩ ::
        scanAt (place + more + 1) (rest.drop more) := by
  rw [scanAt, covered]

theorem scanAt_dropped (covered : extent c rest = (none, more)) :
    scanAt place (c :: rest) = scanAt (place + more + 1) (rest.drop more) := by
  rw [scanAt, covered]

theorem length_covered {kind : Option Kind} (covered : extent c rest = (kind, more))
    (place : Nat) : place + (c :: rest.take more).length = place + more + 1 := by
  have within := extent_le c rest
  rw [covered] at within
  rw [List.length_cons, List.length_take, Nat.min_eq_left within, Nat.add_assoc]

theorem cut_scanAt (place : Nat) (text : Text) : Cut place text (scanAt place text) := by
  fun_induction scanAt place text with
  | case1 => exact .done
  | case2 place c rest more following kind covered ih =>
    obtain ⟨spelled, ends⟩ := spells_of_extent covered
    have behind : Cut (place + (c :: rest.take more).length) (rest.drop more) following := by
      rw [length_covered covered]
      exact ih
    have cut := Cut.lexeme spelled ends behind
    rwa [length_covered covered, List.cons_append, List.take_append_drop] at cut
  | case3 place c rest more following covered ih =>
    rcases dropped_of_extent covered with ⟨blank, rfl⟩ | ⟨loose, unbroken, ends⟩
    · exact .blank blank ih
    · have whole : c :: rest = (c :: rest.take more) ++ rest.drop more := by
        rw [List.cons_append, List.take_append_drop]
      have behind : Cut (place + (c :: rest.take more).length) (rest.drop more) following := by
        rw [length_covered covered]
        exact ih
      rw [whole] at loose ⊢
      exact .swallowed loose unbroken ends behind

/-- Blanks in front change nothing. -/
theorem Cut.blanks {part : Text} {lexemes : List Lexeme} (blank : ∀ c ∈ part, isBlank c = true)
    (behind : Cut (place + part.length) rest lexemes) : Cut place (part ++ rest) lexemes := by
  induction part generalizing place with
  | nil => exact behind
  | cons c part ih =>
    obtain ⟨here, blank⟩ := List.forall_mem_cons.mp blank
    rw [List.length_cons, Nat.add_comm part.length, ← Nat.add_assoc] at behind
    exact .blank here (ih blank behind)

/-- There is one way to cut a text. -/
theorem Cut.scanAt_eq {place : Nat} {text : Text} {lexemes : List Lexeme}
    (cut : Cut place text lexemes) : scanAt place text = lexemes := by
  induction cut with
  | done => rw [scanAt]
  | @lexeme place kind value rest later spelled ends _ ih =>
    obtain ⟨c, more, rfl⟩ := List.exists_cons_of_ne_nil spelled.ne_nil
    rw [List.cons_append, scanAt_lexeme (extent_of_spells spelled ends)]
    simp only [List.take_left, List.drop_left]
    rw [List.length_cons, ← Nat.add_assoc] at ih
    rw [ih, List.length_cons, ← Nat.add_assoc]
  | @blank place c rest later blank _ ih => rw [scanAt_dropped (extent_blank blank rest)]; exact ih
  | @swallowed place line rest later loose unbroken ends _ ih =>
    cases line with
    | nil => cases ends '"' loose.quoted
    | cons c line =>
      cases loose.quoted
      have covered := extent_of_loose loose (List.not_mem_of_not_mem_cons unbroken) ends
      rw [List.cons_append, scanAt_dropped covered, List.drop_left]
      rwa [List.length_cons, ← Nat.add_assoc] at ih

/-- The lexemes of a text are those that it can be cut into. -/
theorem cut_iff (place : Nat) (text : Text) (lexemes : List Lexeme) :
    Cut place text lexemes ↔ scanAt place text = lexemes := by
  constructor
  · exact Cut.scanAt_eq
  · rintro rfl
    exact cut_scanAt place text

end Lexeme

end FormWatch
