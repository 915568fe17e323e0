import FormWatch.Proofs.Json.Oversized
import FormWatch.Proofs.Report.Framing

/-!
The protocol of reports. An output is a report exactly if behind its first sentinel line stands a
list of entries; its records are the entries, in order and whole. What else can go wrong is told
apart: a number with too many digits where the list is read, or a malformed report. Lines before the
sentinel line do not matter, nor does anything behind the list.
-/

namespace FormWatch

namespace Report

/-! ### Outputs put together -/

variable {output payload : Text}

/-- A payload is found behind whole lines of which none is the sentinel as it is without them. -/
theorem payload?_append_unmarked {preamble : Text}
    (whole : preamble = [] ∨ preamble.getLast? = some '\n') (unmarked : Unmarked preamble)
    (output : Text) : payload? (preamble ++ output) = payload? output := by
  rcases whole with rfl | last
  · rfl
  · obtain ⟨before, rfl⟩ := List.getLast?_eq_some_iff.mp last
    have cut : Text.lines (before ++ ['\n'] ++ output) =
        Text.lines (before ++ ['\n']) ++ output.lines := by
      rw [List.append_assoc, List.singleton_append, Text.lines_append_newline]
    -- None of these lines is the sentinel, so all of them are passed over.
    unfold payload?
    rw [cut, List.dropWhile_append_of_pos fun line member =>
      decide_eq_true ((isSentinel_iff line).not.mp (unmarked line member))]

theorem Follows.append (follows : Follows output payload) (filled : payload ≠ []) (extra : Text) :
    Follows (output ++ extra) (payload ++ extra) := by
  obtain ⟨before, line, after, cut, passed, marked, rfl⟩ := follows
  have more : after ≠ [] := by
    rintro rfl
    exact filled rfl
  refine ⟨before, line, Text.lines (after.flatten ++ extra), ?_, passed, marked, ?_⟩
  · have cut : output.lines = (before ++ [line]) ++ after := by simpa using cut
    rw [Text.lines_append cut more, List.append_assoc, List.singleton_append]
  · rw [Text.flatten_lines, Text.trimStart_append filled]

/-! ### Entries -/

theorem record?_eq_ok_iff (value : Json.Value) (record : Record) :
    record? value = .ok record ↔ value = record.entry := by
  constructor
  · intro read
    unfold record? at read
    split at read
    · split at read
      · split at read <;> cases read
        rfl
      · cases read
    · cases read
  · rintro rfl
    rfl

theorem records_eq_ok_iff (entries : List Json.Value) (list : List Record) :
    records entries = .ok list ↔ entries = list.map Record.entry := by
  constructor
  · intro read
    induction entries generalizing list with
    | nil =>
      cases read
      rfl
    | cons value rest ih =>
      obtain ⟨record, first, read⟩ := Json.exists_of_bind_ok read
      obtain ⟨later, others, last⟩ := Json.exists_of_bind_ok read
      cases last
      rw [(record?_eq_ok_iff value record).mp first, ih later others, List.map_cons]
  · rintro rfl
    exact records_entries list

/-! ### The protocol -/

/-- Whether an output is a report of records: behind its sentinel line stands a list of their
entries. -/
def Reports (output : Text) (list : List Record) : Prop :=
  ∃ payload rest, Follows output payload ∧
    Json.Begins payload (.value (.list (list.map Record.entry))) rest

/-- Whether the payload of an output cannot be read for a number of so many digits. -/
def Overflows (output : Text) (digits : Nat) : Prop :=
  ∃ payload, Follows output payload ∧ Json.Reaches payload digits

theorem parse_eq_ok_iff (output : Text) (list : List Record) :
    parse output = .ok list ↔ Reports output list := by
  constructor
  · intro parsed
    unfold parse at parsed
    split at parsed
    · cases parsed
    next payload found =>
      split at parsed
      · cases parsed
      · cases parsed
      next entries rest read =>
        have taken : records entries = .ok list := by
          cases given : records entries with
          | error cause =>
            rw [given] at parsed
            cases parsed
          | ok taken =>
            rw [given] at parsed
            cases parsed
            rfl
        refine ⟨payload, rest, (payload?_eq_some_iff _ _).mp found, ?_⟩
        rw [← (records_eq_ok_iff entries list).mp taken]
        exact (Json.read_eq_ok_iff _ _ _).mp read
      · cases parsed
  · rintro ⟨payload, rest, follows, begins⟩
    exact parse_of_follows follows begins

theorem parse_eq_oversized_iff (output : Text) (digits : Nat) :
    parse output = .error (.oversized digits) ↔ Overflows output digits := by
  constructor
  · intro failed
    unfold parse at failed
    split at failed
    · cases failed
    next payload found =>
      split at failed
      next digits read =>
        cases failed
        exact ⟨payload, (payload?_eq_some_iff _ _).mp found,
          (Json.read_eq_oversized_iff _ _).mp read⟩
      · cases failed
      next entries rest read =>
        cases given : records entries <;> rw [given] at failed <;> cases failed
      · cases failed
  · rintro ⟨payload, follows, reaches⟩
    simp only [parse, (payload?_eq_some_iff _ _).mpr follows,
      (Json.read_eq_oversized_iff _ _).mpr reaches]

/-- What is left to a report that is neither read nor stopped at a number. -/
theorem parse_eq_malformed_iff (output : Text) :
    (∃ cause, parse output = .error (.malformed cause)) ↔
      (¬ ∃ list, Reports output list) ∧ ¬ ∃ digits, Overflows output digits := by
  simp only [← parse_eq_ok_iff, ← parse_eq_oversized_iff]
  rcases parse output with (cause | digits) | list <;> simp

/-- The protocol of reports: what is read, what is refused and how, and what of an output does not
matter. -/
theorem parse_protocol (output : Text) :
    (∀ list, parse output = .ok list ↔ Reports output list) ∧
    (∀ digits, parse output = .error (.oversized digits) ↔ Overflows output digits) ∧
    ((∃ cause, parse output = .error (.malformed cause)) ↔
      (¬ ∃ list, Reports output list) ∧ ¬ ∃ digits, Overflows output digits) ∧
    (∀ preamble, preamble = [] ∨ preamble.getLast? = some '\n' → Unmarked preamble →
      parse (preamble ++ output) = parse output) ∧
    ∀ list extra, parse output = .ok list → parse (output ++ extra) = .ok list := by
  refine ⟨parse_eq_ok_iff output, parse_eq_oversized_iff output, parse_eq_malformed_iff output,
    ?_, ?_⟩
  · intro preamble whole unmarked
    unfold parse
    rw [payload?_append_unmarked whole unmarked]
  · intro list extra parsed
    -- The list is closed by a bracket, so more text behind it is not read.
    obtain ⟨payload, rest, follows, begins⟩ := (parse_eq_ok_iff output list).mp parsed
    have filled : payload ≠ [] := by
      obtain ⟨c, tail, rfl, _⟩ := begins.exists_head
      exact List.cons_ne_nil c tail
    exact parse_of_follows (follows.append filled extra) (begins.append trivial extra)

/-! ### Reports there and back -/

end Report

/-- Whether the entry of a record is read as it was written. -/
structure Record.IsPlain (record : Record) : Prop where
  message : record.message.IsUnsplit
  position : Json.IsShort record.position
  reserved : record.reserved.IsPlain
  level : record.level.IsUnsplit

namespace Report

theorem allPlain_of_records (list : List Record) (plain : ∀ record ∈ list, record.IsPlain) :
    Json.AllPlain (list.map Record.entry) := by
  induction list with
  | nil => trivial
  | cons record rest ih =>
    have first := plain record List.mem_cons_self
    exact ⟨⟨first.message, first.position, first.reserved, first.level, trivial⟩,
      ih fun later member => plain later (List.mem_cons_of_mem record member)⟩

/-- A list of entries written behind a sentinel line is read as their records, whatever whole lines
stand before and whatever follows. -/
theorem parse_write (preamble ending trailing : Text) (list : List Record)
    (whole : preamble = [] ∨ preamble.getLast? = some '\n') (unmarked : Unmarked preamble)
    (listed : ending ∈ Text.lineEndings) (plain : ∀ record ∈ list, record.IsPlain) :
    parse (preamble ++ (sentinel ++ (ending ++
      (Json.write (.list (list.map Record.entry)) ++ trailing)))) = .ok list :=
  parse_of_follows (follows_list preamble ending _ trailing whole unmarked listed)
    (Json.begins_write (.list (list.map Record.entry)) (allPlain_of_records list plain) trailing
      (by intro n same; cases same))

/-- A list written behind a line that ends with a line separator, its sentinel line ended by a pair,
with more of the same behind it. -/
theorem parse_write_behind_separator :
    parse ("Compiling a\u2028:lisp\n".toList ++ (sentinel ++ (['\r', '\n'] ++
      (("[[\"say \\\"\\\\\\ud83d\\ude00\\u2028\\\"\", -12, " ++
          "\x7b\"a\": [null, true, 0]\x7d, \"\"]]").toList ++
        "]\n:lisp-compile-output-start\n[]".toList)))) =
      .ok [⟨Text.wide "say \"\\😀\u2028\"".toList, -12,
        .object [(Text.wide ['a'], .list [.null, .bool true, .integer 0])], []⟩] := by
  have text : ("[[\"say \\\"\\\\\\ud83d\\ude00\\u2028\\\"\", -12, " ++
      "\x7b\"a\": [null, true, 0]\x7d, \"\"]]").toList =
      Json.write (.list (List.map Record.entry [⟨Text.wide "say \"\\😀\u2028\"".toList, -12,
        .object [(Text.wide ['a'], .list [.null, .bool true, .integer 0])], []⟩])) := by
    decide +kernel
  rw [text]
  refine parse_write "Compiling a\u2028:lisp\n".toList ['\r', '\n'] _ _ (.inr (by decide))
    (by unfold Unmarked; decide +kernel) (by decide) ?_
  intro record member
  rw [List.mem_singleton] at member
  subst member
  have zero : Json.IsShort 0 := by unfold Json.IsShort; decide
  exact ⟨Text.isUnsplit_wide _, by unfold Json.IsShort; decide,
    ⟨⟨Text.isUnsplit_wide _, ⟨trivial, trivial, zero, trivial⟩, trivial⟩, by decide⟩, trivial⟩

end Report

end FormWatch
