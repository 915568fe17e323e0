import FormWatch.Proofs.Json.RoundTrip
import FormWatch.Proofs.Text.Lines
import FormWatch.Report

/-!
Reports there and back. Whole lines before the sentinel line are passed over if none of them is the
sentinel; the list after it is read as it was written, and its entries are the records.
-/

namespace FormWatch

namespace Text

/-! ### Tokens in texts put together -/

/-- A token is not found where its first character is not. -/
theorem infix_right {c : Char} {token before after : Text} (absent : c ∉ before)
    (part : c :: token <:+: before ++ after) : c :: token <:+: after := by
  induction before with
  | nil => exact part
  | cons d rest ih =>
    simp only [List.mem_cons, not_or] at absent
    rw [List.cons_append, List.infix_cons_iff] at part
    cases part with
    | inl here => exact absurd (List.cons_prefix_cons.mp here).1 absent.1
    | inr later => exact ih absent.2 later

theorem begins_apart {c : Char} {token before after : Text} (absent : c ∉ token)
    (first : token <+: before ++ c :: after) : token <+: before := by
  induction before generalizing token with
  | nil =>
    cases token with
    | nil => exact List.nil_prefix
    | cons d rest => exact absurd (by simp [(List.cons_prefix_cons.mp first).1]) absent
  | cons d before ih =>
    cases token with
    | nil => exact List.nil_prefix
    | cons e token =>
      obtain ⟨same, later⟩ := List.cons_prefix_cons.mp first
      exact List.cons_prefix_cons.mpr
        ⟨same, ih (fun member => absent (List.mem_cons_of_mem e member)) later⟩

/-- A token does not reach over a character that it does not have. -/
theorem infix_apart {c : Char} {token before after : Text} (absent : c ∉ token)
    (part : token <:+: before ++ c :: after) : token <:+: before ∨ token <:+: after := by
  induction before with
  | nil =>
    rw [List.nil_append, List.infix_cons_iff] at part
    cases part with
    | inl here =>
      have within : token <+: [] ++ c :: after := here
      exact .inl (begins_apart absent within).isInfix
    | inr later => exact .inr later
  | cons d rest ih =>
    rw [List.cons_append, List.infix_cons_iff] at part
    cases part with
    | inl here => exact .inl (begins_apart absent here).isInfix
    | inr later => exact (ih later).imp List.infix_cons id

end Text

namespace Report

/-! ### The sentinel -/

/-- Whether a line is the sentinel, with carriage returns and newlines behind it. -/
def IsSentinel (line : Text) : Prop :=
  ∃ ending, line = sentinel ++ ending ∧ ∀ c ∈ ending, c = '\r' ∨ c = '\n'

theorem isSentinel_iff (line : Text) : IsSentinel line ↔ Text.withoutEnding line = sentinel := by
  constructor
  · rintro ⟨ending, rfl, ends⟩
    exact Text.withoutEnding_append ends (by decide +kernel)
  · intro same
    obtain ⟨ending, cut, ends⟩ := Text.exists_ending line
    exact ⟨ending, same ▸ cut, ends⟩

instance (line : Text) : Decidable (IsSentinel line) :=
  decidable_of_iff _ (isSentinel_iff line).symm

/-- Whether no line of a text is the sentinel. -/
def Unmarked (text : Text) : Prop :=
  ∀ line ∈ text.lines, ¬ IsSentinel line

theorem unmarked_of_not_infix {text : Text} (absent : ¬ sentinel <:+: text) : Unmarked text := by
  rintro line member ⟨ending, rfl, _⟩
  exact absent ((List.prefix_append _ _).isInfix.trans (Text.infix_of_mem_lines member))

/-- Whether a payload follows the first sentinel line of an output, white space at its start
apart. -/
def Follows (output payload : Text) : Prop :=
  ∃ before line after, output.lines = before ++ line :: after ∧
    (∀ earlier ∈ before, ¬ IsSentinel earlier) ∧ IsSentinel line ∧
    payload = Text.trimStart after.flatten

theorem payload?_eq_some_iff (output payload : Text) :
    payload? output = some payload ↔ Follows output payload := by
  simp only [payload?, Follows, isSentinel_iff]
  constructor
  · intro found
    split at found
    · cases found
    next line after cut =>
      cases found
      refine ⟨output.lines.takeWhile fun line => Text.withoutEnding line ≠ sentinel, line, after,
        ?_, ?_, ?_, rfl⟩
      · rw [← cut, List.takeWhile_append_dropWhile]
      · intro earlier member
        have passed := List.mem_takeWhile_imp member
        simpa using passed
      · have first := List.head?_dropWhile_not (fun line => Text.withoutEnding line ≠ sentinel)
          output.lines
        rw [cut] at first
        simpa using first
  · rintro ⟨before, line, after, cut, passed, marked, rfl⟩
    rw [cut,
      List.dropWhile_append_of_pos fun earlier member => decide_eq_true (passed earlier member),
      List.dropWhile_cons_of_neg (by simpa using marked)]

/-- What follows the sentinel line is found behind any whole lines of which none is the sentinel. -/
theorem follows_of_unmarked (preamble ending body : Text)
    (whole : preamble = [] ∨ preamble.getLast? = some '\n') (unmarked : Unmarked preamble)
    (listed : ending ∈ Text.lineEndings) (apart : body.head? ≠ some '\n') :
    Follows (preamble ++ (sentinel ++ (ending ++ body))) body.trimStart := by
  have marked : Text.lines (sentinel ++ (ending ++ body)) =
      (sentinel ++ ending) :: Text.lines body :=
    Text.lines_of_unbroken sentinel ending body (by decide) listed apart
  refine ⟨preamble.lines, sentinel ++ ending, body.lines, ?_, unmarked, ?_, ?_⟩
  · rcases whole with rfl | last
    · exact marked
    · obtain ⟨before, rfl⟩ := List.getLast?_eq_some_iff.mp last
      rw [List.append_assoc, List.singleton_append, Text.lines_append_newline, marked]
  · refine ⟨ending, rfl, ?_⟩
    simp only [Text.lineEndings, List.mem_cons, List.not_mem_nil, or_false] at listed
    rcases listed with rfl | rfl | rfl <;> simp
  · rw [Text.flatten_lines]

/-! ### Entries -/

end Report

/-- The entry that is read as a record. -/
def Record.entry (record : Record) : Json.Value :=
  .list [.string record.message, .integer record.position, record.reserved, .string record.level]

/-- The record of a finding. -/
def Finding.record (finding : Finding) : Record :=
  ⟨finding.problem.message.wide, finding.position, .null, finding.problem.level.name.wide⟩

namespace Report

theorem records_entries (list : List Record) : records (list.map Record.entry) = .ok list := by
  induction list with
  | nil => rfl
  | cons record rest ih =>
    rw [List.map_cons, records, ih]
    rfl

/-- Entries of findings whose positions are short enough are read as they were written. -/
theorem allPlain_entries (findings : List Finding)
    (short : ∀ finding ∈ findings, finding.position < 10 ^ Text.maxDigits) :
    Json.AllPlain (findings.map entry) := by
  induction findings with
  | nil => trivial
  | cons finding rest ih =>
    refine ⟨?_, ih fun later member => short later (List.mem_cons_of_mem finding member)⟩
    have digits : Json.IsShort finding.position :=
      (Nat.length_toDigits_le_iff (by decide) (by decide)).mpr (short finding List.mem_cons_self)
    exact ⟨Text.isUnsplit_wide _, digits, trivial, Text.isUnsplit_wide _, trivial⟩

/-! ### Reports -/

/-- The lines before the sentinel, the last newline left out. -/
def heading (path : Text) (count : Nat) : Text :=
  "Compiling ".toList ++ (path ++ '\n' ::
    ("Found ".toList ++ (Text.ofNat count ++ " diagnostics".toList)))

theorem print_eq (path : Text) (findings : List Finding) :
    print path findings = heading path findings.length ++ '\n' :: (sentinel ++ '\n' ::
      (Json.write (.list (findings.map entry)) ++ ['\n'])) := by
  have first : "\nFound ".toList = '\n' :: "Found ".toList := rfl
  have last : " diagnostics\n".toList = " diagnostics".toList ++ ['\n'] := rfl
  unfold print heading
  rw [first, last]
  simp only [List.append_assoc, List.cons_append, List.nil_append]

/-- The lines before the sentinel mark nothing unless the path does. -/
theorem unmarked_heading (path : Text) (count : Nat) (absent : ¬ sentinel <:+: path) :
    Unmarked (heading path count ++ ['\n']) := by
  apply unmarked_of_not_infix
  intro part
  unfold heading at part
  simp only [List.append_assoc, List.cons_append] at part
  -- The sentinel has no newline and neither `Found` nor a count has its colon.
  have behind := Text.infix_right (by decide) part
  cases Text.infix_apart (by decide) behind with
  | inl within => exact absent within
  | inr counted =>
    have colon := counted.subset (show ':' ∈ sentinel by decide)
    simp only [List.mem_append] at colon
    obtain first | digits | last | newline := colon
    · exact absurd first (by decide)
    · exact absurd (Json.isDigit_of_mem_ofNat count ':' digits) (by decide)
    · exact absurd last (by decide)
    · exact absurd newline (by decide)

/-- A line that begins as no sentinel does is none. -/
theorem not_isSentinel {line : Text} {c : Char} (first : line.head? = some c) (other : c ≠ ':') :
    ¬ IsSentinel line := by
  rintro ⟨ending, rfl, _⟩
  have start : sentinel.head? = some ':' := by decide
  rw [List.head?_append, start] at first
  exact other (Option.some.inj first).symm

/-- The lines before the sentinel mark nothing if the path is within its line. -/
theorem unmarked_heading_of_unbroken (path : Text) (count : Nat)
    (unbroken : path.any Text.endsLine = false) : Unmarked (heading path count ++ ['\n']) := by
  have counted : (Text.ofNat count).any Text.endsLine = false := by
    rw [List.any_eq_false]
    intro c member ends
    have digit := Json.isDigit_of_mem_ofNat count c member
    simp only [Text.endsLine, List.mem_cons, List.not_mem_nil, or_false, decide_eq_true_eq] at ends
    rcases ends with rfl | rfl | rfl | rfl | rfl | rfl | rfl | rfl | rfl | rfl <;> cases digit
  have first : ("Compiling ".toList ++ path).any Text.endsLine = false := by
    rw [List.any_append, unbroken]
    rfl
  have second : ("Found ".toList ++ (Text.ofNat count ++ " diagnostics".toList)).any Text.endsLine =
      false := by
    rw [List.any_append, List.any_append, counted]
    rfl
  have cut : Text.lines (heading path count ++ ['\n']) = ["Compiling ".toList ++ path ++ ['\n'],
      "Found ".toList ++ (Text.ofNat count ++ " diagnostics".toList) ++ ['\n']] := by
    have whole : heading path count ++ ['\n'] = "Compiling ".toList ++ path ++ (['\n'] ++
        ("Found ".toList ++ (Text.ofNat count ++ " diagnostics".toList) ++ (['\n'] ++ []))) := by
      unfold heading
      simp only [List.append_assoc, List.cons_append, List.nil_append]
    rw [whole, Text.lines_of_unbroken _ _ _ first (by decide),
      Text.lines_of_unbroken _ _ _ second (by decide)]
    · rfl
    · exact fun same => absurd same (by decide)
    · exact fun same => absurd (Option.some.inj same) (by decide)
  -- A sentinel begins with a colon, and neither line does.
  intro line member
  rw [cut] at member
  simp only [List.mem_cons, List.not_mem_nil, or_false] at member
  rcases member with rfl | rfl
  · exact not_isSentinel (c := 'C') rfl (by decide)
  · exact not_isSentinel (c := 'F') rfl (by decide)

/-- A list that is written right behind the sentinel line follows it. -/
theorem follows_list (preamble ending : Text) (items : List Json.Value) (trailing : Text)
    (whole : preamble = [] ∨ preamble.getLast? = some '\n') (unmarked : Unmarked preamble)
    (listed : ending ∈ Text.lineEndings) :
    Follows (preamble ++ (sentinel ++ (ending ++ (Json.write (.list items) ++ trailing))))
      (Json.write (.list items) ++ trailing) := by
  rw [Json.write]
  exact follows_of_unmarked preamble ending _ whole unmarked listed (by simp)

/-- A list of entries behind the sentinel line is read as their records. -/
theorem parse_of_follows {output payload rest : Text} {list : List Record}
    (follows : Follows output payload)
    (begins : Json.Begins payload (.value (.list (list.map Record.entry))) rest) :
    parse output = .ok list := by
  simp only [parse, (payload?_eq_some_iff _ _).mpr follows, (Json.read_eq_ok_iff _ _ _).mpr begins,
    records_entries]
  rfl

/-- The report of findings is read as their records. -/
theorem parse_print (path : Text) (findings : List Finding)
    (unmarked : Unmarked (heading path findings.length ++ ['\n']))
    (short : ∀ finding ∈ findings, finding.position < 10 ^ Text.maxDigits) :
    parse (print path findings) = .ok (findings.map Finding.record) := by
  have entries : findings.map entry = (findings.map Finding.record).map Record.entry := by
    rw [List.map_map]
    rfl
  have begins := Json.begins_write (.list (findings.map entry)) (allPlain_entries findings short)
    ['\n'] (by intro n same; cases same)
  have follows := follows_list (heading path findings.length ++ ['\n']) ['\n']
    (findings.map entry) ['\n'] (.inr (by simp)) unmarked (by decide)
  rw [entries] at begins
  refine parse_of_follows ?_ begins
  rw [print_eq, ← entries]
  simpa using follows

end Report

end FormWatch
