import FormWatch.Proofs.Json.Grammar

/-!
Where a reader stops at a number that is too long. `Comes text site here` says that the reader of a
text comes to read a value at `here`: all that stands before it in the lists and objects around it
is well formed. Main statement: reading a text reports a number with too many digits exactly if the
reader comes to one (`read_eq_oversized_iff`).
-/

namespace FormWatch.Json

/-! ### Where the reader comes by -/

/-- As what a value is read: the whole of a text, an item of a list or the value of a member. -/
inductive Site where
  | whole
  | item
  | member

inductive Comes (text : Text) : Site → Text → Prop
  | start : Comes text .whole text
  | firstItem {site : Site} {body : Text} (here : Comes text site ('[' :: body))
      (filled : (skipSpace body).head? ≠ some ']') : Comes text .item (skipSpace body)
  | nextItem {here rest body : Text} {item : Value} (first : Comes text .item here)
      (begins : Begins here (.value item) rest) (comma : skipSpace rest = ',' :: body) :
      Comes text .item (skipSpace body)
  | firstMember {site : Site} {body place : Text} {key : WideText}
      (here : Comes text site ('{' :: body)) (named : Named (skipSpace body) key place) :
      Comes text .member place
  | nextMember {here rest body place : Text} {key : WideText} {value : Value}
      (first : Comes text .member here) (begins : Begins here (.value value) rest)
      (comma : skipSpace rest = ',' :: body) (named : Named (skipSpace body) key place) :
      Comes text .member place

/-- Whether the reader of a text comes to a whole number of so many digits, and those are too
many. -/
def Reaches (text : Text) (digits : Nat) : Prop :=
  ∃ site here, Comes text site here ∧ Oversized here digits

/-! ### A report comes from a number -/

/-- No string is at fault for a number. -/
theorem readString_ne_oversized (opened : Nat) (body : Text) (digits : Nat) :
    readString opened body ≠ .error (.oversized digits) := by
  intro failed
  -- A string fails for faults of its own, or as the rest of it does.
  fun_induction readString opened body with
  | case1 | case2 | case3 | case4 | case6 | case7 | case9 => cases failed
  | case5 _ _ _ _ _ _ _ _ ih | case8 _ _ _ _ _ _ ih | case10 _ _ _ _ _ _ _ _ ih =>
    rcases or_of_bind_error failed with first | ⟨_, _, last⟩
    · exact ih first
    · cases last

theorem readKey_ne_oversized (text : Text) (digits : Nat) :
    readKey text ≠ .error (.oversized digits) := by
  intro failed
  unfold readKey at failed
  split at failed
  · rcases or_of_bind_error failed with string | ⟨_, _, last⟩
    · exact readString_ne_oversized _ _ _ string
    · dsimp only at last
      split at last <;> cases last
  · cases failed

/-- Whether what is reported in a number of steps is a number that the reader of a text comes to. -/
structure Reported (text : Text) (digits steps : Nat) : Prop where
  value : ∀ {site here}, Comes text site here →
    readValue steps here = .error (.oversized digits) → Reaches text digits
  items : ∀ {here}, Comes text .item here →
    readItems steps here = .error (.oversized digits) → Reaches text digits
  members : ∀ {here}, (∀ key place, Named here key place → Comes text .member place) →
    readPairs steps here = .error (.oversized digits) → Reaches text digits

variable {text : Text} {digits : Nat}

theorem Reported.value_succ {steps : Nat} (reported : Reported text digits steps) {site : Site}
    {here : Text} (comes : Comes text site here)
    (failed : readValue (steps + 1) here = .error (.oversized digits)) : Reaches text digits := by
  rw [readValue.eq_def] at failed
  dsimp only at failed
  split at failed
  · cases failed
  next body =>
    rcases or_of_bind_error failed with string | ⟨_, _, last⟩
    · exact absurd string (readString_ne_oversized _ _ _)
    · cases last
  next body =>
    split at failed
    · cases failed
    next filled =>
      rcases or_of_bind_error failed with inside | ⟨_, _, last⟩
      · have unclosed : (skipSpace body).head? ≠ some ']' := by
          intro first
          obtain ⟨after, closed⟩ := List.head?_eq_some_iff.mp first
          exact filled after closed
        exact reported.items (.firstItem comes unclosed) inside
      · cases last
  next body =>
    split at failed
    · cases failed
    next =>
      rcases or_of_bind_error failed with inside | ⟨_, _, last⟩
      · exact reported.members (fun key place named => .firstMember comes named) inside
      · cases last
  next =>
    split at failed
    · cases failed
    next => exact ⟨site, here, comes, (readNumber_eq_oversized_iff here digits).mp failed⟩

theorem Reported.items_succ {steps : Nat} (reported : Reported text digits steps) {here : Text}
    (comes : Comes text .item here)
    (failed : readItems (steps + 1) here = .error (.oversized digits)) : Reaches text digits := by
  rw [readItems] at failed
  rcases or_of_bind_error failed with first | ⟨⟨item, rest⟩, first, last⟩
  · exact reported.value comes first
  · dsimp only at last
    split at last
    · cases last
    next comma =>
      rcases or_of_bind_error last with later | ⟨_, _, done⟩
      · exact reported.items (.nextItem comes ((sound _).value first) comma) later
      · cases done
    · cases last

theorem Reported.members_succ {steps : Nat} (reported : Reported text digits steps) {here : Text}
    (comes : ∀ key place, Named here key place → Comes text .member place)
    (failed : readPairs (steps + 1) here = .error (.oversized digits)) : Reaches text digits := by
  rw [readPairs] at failed
  rcases or_of_bind_error failed with unnamed | ⟨⟨key, place⟩, named, failed⟩
  · exact absurd unnamed (readKey_ne_oversized _ _)
  have comes := comes key place ((readKey_eq_ok_iff _ _ _).mp named)
  rcases or_of_bind_error failed with first | ⟨⟨value, rest⟩, first, last⟩
  · exact reported.value comes first
  · dsimp only at last
    split at last
    · cases last
    next comma =>
      rcases or_of_bind_error last with later | ⟨_, _, done⟩
      · exact reported.members
          (fun key place named => .nextMember comes ((sound _).value first) comma named) later
      · cases done
    · cases last

theorem reported (text : Text) (digits steps : Nat) : Reported text digits steps := by
  induction steps with
  | zero =>
    constructor
    · intro site here _ failed
      cases failed
    · intro here _ failed
      cases failed
    · intro here _ failed
      cases failed
  | succ steps ih => exact ⟨ih.value_succ, ih.items_succ, ih.members_succ⟩

/-! ### A number is reported -/

/-- Whether reading a value at a site stops the readers around it at a number of so many digits. -/
def Site.Stops (digits : Nat) (here : Text) : Site → Prop
  | .whole => ∀ steps, 2 * here.length + 1 ≤ steps →
      readValue steps here = .error (.oversized digits)
  | .item => ∀ steps, 2 * here.length + 2 ≤ steps →
      readItems steps here = .error (.oversized digits)
  | .member => ∀ before key, Named before key here → ∀ steps, 2 * before.length + 2 ≤ steps →
      readPairs steps before = .error (.oversized digits)

/-- A value that cannot be read stops the readers around it. -/
theorem Site.Stops.of_value {here : Text} (stops : Site.whole.Stops digits here) (site : Site) :
    site.Stops digits here := by
  cases site with
  | whole => exact stops
  | item =>
    rintro (_ | steps) enough
    · cases enough
    · rw [readItems, stops steps (by omega)]
      rfl
  | member =>
    rintro before key named (_ | steps) enough
    · cases enough
    · have shorter := named.length_lt
      rw [readPairs, (readKey_eq_ok_iff _ _ _).mpr named]
      simp only [bind, Except.bind, stops steps (by omega)]

theorem Oversized.stops {here : Text} (long : Oversized here digits) :
    Site.whole.Stops digits here := by
  rintro (_ | steps) enough
  · cases enough
  · obtain ⟨negative, whole, after, numeral, _⟩ := id long
    rw [readValue_numeral numeral, (readNumber_eq_oversized_iff here digits).mpr long]

/-- A reader that is stopped stops the one that called it, up to the reader of the whole text. -/
theorem Comes.stops {site : Site} {here : Text} (comes : Comes text site here)
    (stops : site.Stops digits here) : Site.whole.Stops digits text := by
  -- What stands before `here` takes steps of its own; the bound in `Stops` leaves enough for it.
  induction comes with
  | start => exact stops
  | @firstItem site body _ filled ih =>
    apply ih
    apply Site.Stops.of_value
    rintro (_ | steps) enough
    · cases enough
    · have before := length_skipSpace_le body
      rw [List.length_cons] at enough
      rw [readValue_bracket steps body filled, stops steps (by omega)]
      rfl
  | @nextItem here rest body item _ begins comma ih =>
    apply ih
    rintro (_ | steps) enough
    · cases enough
    · have behind := length_skipSpace_lt_of_sign comma
      have shorter := begins.length_lt
      have read : readValue steps here = .ok (item, rest) :=
        begins.isRead steps (Nat.le_of_succ_le_succ enough)
      rw [readItems, read]
      simp only [bind, Except.bind, comma, stops steps (by omega)]
  | @firstMember site body place key _ named ih =>
    apply ih
    apply Site.Stops.of_value
    rintro (_ | steps) enough
    · cases enough
    · have before := length_skipSpace_le body
      have filled : (skipSpace body).head? ≠ some '\x7d' := by
        rw [named.head]
        decide
      rw [List.length_cons] at enough
      rw [readValue_brace steps body filled, stops _ key named steps (by omega)]
      rfl
  | @nextMember here rest body place key value _ begins comma named ih =>
    apply ih
    rintro outer label labelled (_ | steps) enough
    · cases enough
    · have behind := length_skipSpace_lt_of_sign comma
      have shorter := begins.length_lt
      have key := labelled.length_lt
      have read : readValue steps here = .ok (value, rest) :=
        begins.isRead steps (by simp only [Part.steps]; omega)
      rw [readPairs, (readKey_eq_ok_iff _ _ _).mpr labelled]
      simp only [bind, Except.bind, read, comma, stops _ _ named steps (by omega)]

/-- A number with too many digits is reported exactly if the reader comes to one. -/
theorem read_eq_oversized_iff (text : Text) (digits : Nat) :
    read text = .error (.oversized digits) ↔ Reaches text digits := by
  constructor
  · exact (reported text digits _).value .start
  · rintro ⟨site, here, comes, long⟩
    exact comes.stops (long.stops.of_value site) _ (Nat.le_refl _)

end FormWatch.Json
