import FormWatch.Json.Printer
import FormWatch.Json.Reader
import Mathlib.Data.List.TakeDrop
import Mathlib.Data.List.TakeWhile
import Mathlib.Data.Nat.Digits.Defs

/-!
Numbers of JSON. The parts of a number are runs of digits, each as long as it can be; a number ends
where no part goes on. So what follows the end does not matter to it, and a whole number that is
written is read again.
-/

namespace FormWatch.Json

/-! ### Runs of digits -/

def isDigit (c : Char) : Bool :=
  '0' ≤ c && c ≤ '9'

/-- Digits, at least one, before a text that does not begin with another. -/
structure Run (digits rest : Text) : Prop where
  filled : digits ≠ []
  digits : ∀ c ∈ digits, isDigit c = true
  stops : ∀ c, rest.head? = some c → isDigit c = false

theorem spanDigits_eq (text : Text) :
    spanDigits text = (text.takeWhile isDigit, text.dropWhile isDigit) := by
  rw [spanDigits, List.span_eq_takeWhile_dropWhile]
  rfl

theorem Run.spanDigits_eq {digits rest : Text} (run : Run digits rest) :
    spanDigits (digits ++ rest) = (digits, rest) := by
  rw [Json.spanDigits_eq, List.takeWhile_append_of_pos run.digits,
    List.dropWhile_append_of_pos run.digits]
  cases rest with
  | nil => simp
  | cons c tail =>
    have stop := run.stops c rfl
    simp [stop]

theorem run_of_spanDigits {text digits rest : Text} (spans : spanDigits text = (digits, rest))
    (filled : digits ≠ []) : text = digits ++ rest ∧ Run digits rest := by
  rw [spanDigits_eq, Prod.mk.injEq] at spans
  obtain ⟨rfl, rfl⟩ := spans
  refine ⟨(List.takeWhile_append_dropWhile).symm, filled, ?_, ?_⟩
  · intro c member
    exact List.mem_takeWhile_imp member
  · intro c head
    have stop := List.head?_dropWhile_not isDigit text
    rw [head] at stop
    simpa using stop

theorem Run.length_lt {digits rest : Text} (run : Run digits rest) :
    rest.length < (digits ++ rest).length := by
  have positive := List.length_pos_iff.mpr run.filled
  rw [List.length_append]
  omega

/-- A run that something follows is one whatever comes later. -/
theorem Run.append {digits rest : Text} (run : Run digits rest) (followed : rest ≠ [])
    (more : Text) : Run digits (rest ++ more) := by
  refine ⟨run.filled, run.digits, ?_⟩
  obtain ⟨c, tail, rfl⟩ := List.exists_cons_of_ne_nil followed
  exact run.stops

/-! ### The parts of a number -/

theorem readWhole?_eq_some_iff (text whole rest : Text) :
    readWhole? text = some (whole, rest) ↔
      text = whole ++ rest ∧ (whole = ['0'] ∨ whole.head? ≠ some '0' ∧ Run whole rest) := by
  constructor
  · intro read
    unfold readWhole? at read
    split at read
    · cases read
      exact ⟨rfl, .inl rfl⟩
    next unzero =>
      split at read
      · cases read
      next empty =>
        rw [Option.some.injEq] at read
        have filled : whole ≠ [] := by
          rintro rfl
          exact empty rest read
        obtain ⟨rfl, run⟩ := run_of_spanDigits read filled
        refine ⟨rfl, .inr ⟨?_, run⟩⟩
        intro first
        obtain ⟨tail, rfl⟩ := List.head?_eq_some_iff.mp first
        exact unzero (tail ++ rest) rfl
  · rintro ⟨rfl, rfl | ⟨unzero, run⟩⟩
    · rfl
    · have spans := run.spanDigits_eq
      obtain ⟨c, tail, rfl⟩ := List.exists_cons_of_ne_nil run.filled
      rw [List.cons_append] at spans ⊢
      unfold readWhole?
      split
      next same =>
        cases same
        exact absurd rfl unzero
      next => rw [spans]

theorem readFraction?_eq_some_iff (text decimals rest : Text) :
    readFraction? text = some (decimals, rest) ↔
      text = '.' :: (decimals ++ rest) ∧ Run decimals rest := by
  constructor
  · intro read
    unfold readFraction? at read
    split at read
    · split at read
      · cases read
      next empty =>
        rw [Option.some.injEq] at read
        have filled : decimals ≠ [] := by
          rintro rfl
          exact empty rest read
        obtain ⟨rfl, run⟩ := run_of_spanDigits read filled
        exact ⟨rfl, run⟩
    · cases read
  · rintro ⟨rfl, run⟩
    have spans := run.spanDigits_eq
    obtain ⟨c, tail, rfl⟩ := List.exists_cons_of_ne_nil run.filled
    rw [readFraction?, spans]

theorem readSign_append {text : Text} (filled : text ≠ []) (more : Text) :
    readSign (text ++ more) = ((readSign text).1, (readSign text).2 ++ more) := by
  obtain ⟨c, tail, rfl⟩ := List.exists_cons_of_ne_nil filled
  rw [List.cons_append]
  unfold readSign
  split <;> split <;> simp_all

theorem length_readSign_le (text : Text) : (readSign text).2.length ≤ text.length := by
  unfold readSign
  split <;> simp

theorem readExponent?_eq_some_iff (text rest : Text) (power : Int) :
    readExponent? text = some (power, rest) ↔
      ∃ letter body digits, text = letter :: body ∧ (letter = 'e' ∨ letter = 'E') ∧
        (readSign body).2 = digits ++ rest ∧ Run digits rest ∧
        power = if (readSign body).1 then -(natOf digits : Int) else natOf digits := by
  constructor
  · intro read
    unfold readExponent? at read
    split at read
    next letter body =>
      split at read
      next marked =>
        dsimp only at read
        split at read
        · cases read
        next digits after empty spans =>
          have filled : digits ≠ [] := by
            rintro rfl
            exact empty rfl
          rw [Option.some.injEq, Prod.mk.injEq] at read
          obtain ⟨power, rfl⟩ := read
          obtain ⟨same, run⟩ := run_of_spanDigits spans filled
          exact ⟨letter, body, digits, rfl, marked, same, run, power.symm⟩
      · cases read
    · cases read
  · rintro ⟨letter, body, digits, rfl, marked, same, run, rfl⟩
    have spans := run.spanDigits_eq
    have filled := run.filled
    rw [readExponent?, if_pos marked]
    dsimp only
    rw [same, spans]
    split
    next empty =>
      cases empty
      exact absurd rfl filled
    next same =>
      cases same
      rfl

/-! ### Where a number ends -/

/-- Whether a number ends where a text begins: no digit goes on with it, and no point or exponent
makes it a decimal fraction. -/
def EndsNumber (text : Text) : Prop :=
  ∀ c, text.head? = some c → isDigit c = false ∧ c ≠ '.' ∧ c ≠ 'e' ∧ c ≠ 'E'

theorem EndsNumber.append {rest : Text} (ends : EndsNumber rest) (followed : rest ≠ [])
    (more : Text) : EndsNumber (rest ++ more) := by
  obtain ⟨c, tail, rfl⟩ := List.exists_cons_of_ne_nil followed
  exact ends

theorem readFraction?_of_ends (rest : Text) (ends : EndsNumber rest) :
    readFraction? rest = none := by
  unfold readFraction?
  split
  · exact absurd rfl (ends '.' rfl).2.1
  · rfl

theorem readExponent?_of_ends (rest : Text) (ends : EndsNumber rest) :
    readExponent? rest = none := by
  unfold readExponent?
  split
  next letter text =>
    obtain ⟨_, _, lower, upper⟩ := ends letter rfl
    rw [if_neg]
    simp [lower, upper]
  · rfl

theorem readFraction?_append {text decimals rest : Text}
    (read : readFraction? text = some (decimals, rest)) (followed : rest ≠ []) (more : Text) :
    readFraction? (text ++ more) = some (decimals, rest ++ more) := by
  rw [readFraction?_eq_some_iff] at read ⊢
  obtain ⟨rfl, run⟩ := read
  exact ⟨by simp, run.append followed more⟩

theorem readExponent?_append {text rest : Text} {power : Int}
    (read : readExponent? text = some (power, rest)) (followed : rest ≠ []) (more : Text) :
    readExponent? (text ++ more) = some (power, rest ++ more) := by
  rw [readExponent?_eq_some_iff] at read ⊢
  obtain ⟨letter, body, digits, rfl, marked, same, run, power⟩ := read
  have filled : body ≠ [] := by
    rintro rfl
    exact run.filled (List.append_eq_nil_iff.mp same.symm).1
  refine ⟨letter, body ++ more, digits, rfl, marked, ?_, run.append followed more, ?_⟩
  · rw [readSign_append filled, same, List.append_assoc]
  · rwa [readSign_append filled]

/-- An exponent does not begin with a point. -/
theorem readFraction?_of_exponent {text rest : Text} {power : Int}
    (read : readExponent? text = some (power, rest)) : readFraction? text = none := by
  obtain ⟨letter, body, digits, rfl, marked, _⟩ := (readExponent?_eq_some_iff _ _ _).mp read
  unfold readFraction?
  split
  next same =>
    cases same
    simp at marked
  · rfl

/-! ### Numbers -/

theorem length_behindFraction_le (text : Text) : (behindFraction text).length ≤ text.length := by
  unfold behindFraction
  cases fraction : readFraction? text with
  | none => exact Nat.le_refl _
  | some part =>
    obtain ⟨same, run⟩ := (readFraction?_eq_some_iff _ _ _).mp fraction
    have shorter := run.length_lt
    rw [same]
    simp only [Option.map_some, Option.getD_some, List.length_cons]
    omega

theorem length_behindExponent_le (text : Text) : (behindExponent text).length ≤ text.length := by
  unfold behindExponent
  cases exponent : readExponent? text with
  | none => exact Nat.le_refl _
  | some part =>
    obtain ⟨letter, body, digits, rfl, _, same, run, _⟩ :=
      (readExponent?_eq_some_iff _ _ _).mp exponent
    have shorter := run.length_lt
    have behind := length_readSign_le body
    rw [same] at behind
    simp only [Option.map_some, Option.getD_some, List.length_cons]
    omega

section

variable {text : Text} (followed : behindExponent text ≠ [])
  (ends : EndsNumber (behindExponent text)) (more : Text)

include followed ends

theorem readExponent?_extended :
    readExponent? (text ++ more) =
      (readExponent? text).map fun part => (part.1, part.2 ++ more) := by
  unfold behindExponent at followed ends
  cases exponent : readExponent? text with
  | none =>
    rw [exponent] at followed ends
    exact readExponent?_of_ends _ (ends.append followed more)
  | some part =>
    rw [exponent] at followed
    exact readExponent?_append exponent followed more

theorem behindExponent_extended : behindExponent (text ++ more) = behindExponent text ++ more := by
  rw [behindExponent, readExponent?_extended followed ends more, behindExponent]
  cases readExponent? text <;> rfl

end

section

variable {text : Text} (followed : behindExponent (behindFraction text) ≠ [])
  (ends : EndsNumber (behindExponent (behindFraction text))) (more : Text)

include followed ends

theorem readFraction?_extended :
    readFraction? (text ++ more) =
      (readFraction? text).map fun part => (part.1, part.2 ++ more) := by
  cases fraction : readFraction? text with
  | none =>
    have whole : behindFraction text = text := by rw [behindFraction, fraction]; rfl
    rw [whole] at followed ends
    cases exponent : readExponent? (text ++ more) with
    | some part =>
      -- An exponent begins with its letter, so no point stands here.
      exact readFraction?_of_exponent exponent
    | none =>
      have bare : behindExponent text = text := by
        rw [readExponent?_extended followed ends more, Option.map_eq_none_iff] at exponent
        rw [behindExponent, exponent]
        rfl
      rw [bare] at followed ends
      exact readFraction?_of_ends _ (ends.append followed more)
  | some part =>
    refine readFraction?_append fraction ?_ more
    intro none
    apply followed
    rw [behindFraction, fraction]
    simp [none, behindExponent, readExponent?]

theorem behindFraction_extended : behindFraction (text ++ more) = behindFraction text ++ more := by
  rw [behindFraction, readFraction?_extended followed ends more, behindFraction]
  cases readFraction? text <;> rfl

end

theorem numberOf_append {after : Text} (followed : behindExponent (behindFraction after) ≠ [])
    (ends : EndsNumber (behindExponent (behindFraction after))) (negative : Bool)
    (whole more : Text) :
    numberOf negative whole (after ++ more) = numberOf negative whole after := by
  unfold numberOf
  rw [readFraction?_extended followed ends, behindFraction_extended followed ends,
    readExponent?_extended followed ends]
  simp only [Option.isNone_map, Option.map_map]
  rfl

/-- A number at the head of a text: its sign, its whole part, which has no zero before other digits,
and what follows that. -/
structure Numeral (text : Text) (negative : Bool) (whole after : Text) : Prop where
  shape : text = (if negative then ['-'] else []) ++ (whole ++ after)
  plain : whole = ['0'] ∨ whole.head? ≠ some '0' ∧ Run whole after

namespace Numeral

variable {text : Text} {negative : Bool} {whole after : Text}

theorem exists_digit (numeral : Numeral text negative whole after) :
    ∃ c tail, whole = c :: tail ∧ isDigit c = true := by
  obtain ⟨_, rfl | ⟨_, run⟩⟩ := numeral
  · exact ⟨'0', [], rfl, rfl⟩
  · obtain ⟨c, tail, rfl⟩ := List.exists_cons_of_ne_nil run.filled
    exact ⟨c, tail, rfl, run.digits c List.mem_cons_self⟩

theorem length_lt (numeral : Numeral text negative whole after) : after.length < text.length := by
  obtain ⟨c, tail, rfl, _⟩ := numeral.exists_digit
  rw [numeral.shape]
  simp only [List.length_append, List.length_cons]
  omega

theorem append (numeral : Numeral text negative whole after) (followed : after ≠ []) (more : Text) :
    Numeral (text ++ more) negative whole (after ++ more) := by
  refine ⟨?_, numeral.plain.imp id fun run => ⟨run.1, run.2.append followed more⟩⟩
  rw [numeral.shape]
  simp only [List.append_assoc]

/-- A number begins with a digit, or with a minus before one. -/
theorem head (numeral : Numeral text negative whole after) :
    ∃ c tail, isDigit c = true ∧ (text = c :: tail ∨ text = '-' :: c :: tail) := by
  obtain ⟨c, tail, rfl, digit⟩ := numeral.exists_digit
  refine ⟨c, tail ++ after, digit, ?_⟩
  rw [numeral.shape]
  cases negative with
  | false => exact .inl rfl
  | true => exact .inr rfl

theorem readNumber_eq (numeral : Numeral text negative whole after) :
    readNumber text =
      (numberOf negative whole after).map (·, behindExponent (behindFraction after)) := by
  have found := (readWhole?_eq_some_iff _ _ _).mpr ⟨rfl, numeral.plain⟩
  obtain ⟨c, tail, rfl, digit⟩ := numeral.exists_digit
  rw [numeral.shape]
  have unsigned : ∀ body, c :: (tail ++ after) ≠ '-' :: body := by
    rintro body same
    cases same
    cases digit
  cases negative with
  | true =>
    change readUnsigned true _ (c :: tail ++ after) = _
    rw [readUnsigned, found]
  | false =>
    change readNumber (c :: (tail ++ after)) = _
    unfold readNumber
    split
    next body same => exact absurd same (unsigned body)
    next =>
      change readUnsigned false _ (c :: tail ++ after) = _
      rw [readUnsigned, found]

end Numeral

/-- Where no number stands, nothing is read. -/
theorem numeral_or_malformed (text : Text) :
    (∃ negative whole after, Numeral text negative whole after) ∨
      readNumber text = .error (.malformed .value text.length) := by
  unfold readNumber
  split
  next body =>
    cases found : readWhole? body with
    | none => exact .inr (by rw [readUnsigned, found]; rfl)
    | some part =>
      obtain ⟨rfl, plain⟩ := (readWhole?_eq_some_iff _ _ _).mp found
      exact .inl ⟨true, part.1, part.2, rfl, plain⟩
  next =>
    cases found : readWhole? text with
    | none => exact .inr (by rw [readUnsigned, found])
    | some part =>
      obtain ⟨rfl, plain⟩ := (readWhole?_eq_some_iff _ _ _).mp found
      exact .inl ⟨false, part.1, part.2, rfl, plain⟩

theorem numeral_of_readNumber {text rest : Text} {value : Value}
    (read : readNumber text = .ok (value, rest)) :
    ∃ negative whole after, Numeral text negative whole after ∧
      numberOf negative whole after = .ok value ∧ rest = behindExponent (behindFraction after) := by
  rcases numeral_or_malformed text with ⟨negative, whole, after, numeral⟩ | malformed
  · rw [numeral.readNumber_eq] at read
    refine ⟨negative, whole, after, numeral, ?_⟩
    cases number : numberOf negative whole after with
    | error fault =>
      rw [number] at read
      cases read
    | ok value' =>
      rw [number] at read
      cases read
      exact ⟨rfl, rfl⟩
  · rw [malformed] at read
    cases read

theorem length_lt_of_readNumber {text rest : Text} {value : Value}
    (read : readNumber text = .ok (value, rest)) : rest.length < text.length := by
  obtain ⟨negative, whole, after, numeral, _, rfl⟩ := numeral_of_readNumber read
  calc (behindExponent (behindFraction after)).length
      ≤ (behindFraction after).length := length_behindExponent_le _
    _ ≤ after.length := length_behindFraction_le _
    _ < text.length := numeral.length_lt

/-- What comes after the end of a number does not matter to it. -/
theorem readNumber_append {text rest : Text} {value : Value}
    (read : readNumber text = .ok (value, rest)) (followed : rest ≠ []) (ends : EndsNumber rest)
    (more : Text) : readNumber (text ++ more) = .ok (value, rest ++ more) := by
  obtain ⟨negative, whole, after, numeral, number, rfl⟩ := numeral_of_readNumber read
  have filled : after ≠ [] := by
    rintro rfl
    exact followed rfl
  have behind := behindFraction_extended followed ends more
  rw [(numeral.append filled more).readNumber_eq, numberOf_append followed ends, number, behind,
    behindExponent_extended followed ends]
  rfl

/-- A whole number at the head of a text with more digits than can be read. -/
def Oversized (text : Text) (digits : Nat) : Prop :=
  ∃ negative whole after, Numeral text negative whole after ∧ readFraction? after = none ∧
    readExponent? after = none ∧ whole.length = digits ∧ Text.maxDigits < digits

theorem readNumber_eq_oversized_iff (text : Text) (digits : Nat) :
    readNumber text = .error (.oversized digits) ↔ Oversized text digits := by
  constructor
  · intro failed
    rcases numeral_or_malformed text with ⟨negative, whole, after, numeral⟩ | malformed
    · rw [numeral.readNumber_eq, numberOf] at failed
      split at failed
      next bare =>
        split at failed
        next long =>
          cases failed
          obtain ⟨fraction, exponent⟩ := bare
          rw [Option.isNone_iff_eq_none] at fraction exponent
          rw [behindFraction, fraction] at exponent
          exact ⟨negative, whole, after, numeral, fraction, exponent, rfl, long⟩
        · cases failed
      · cases failed
    · rw [malformed] at failed
      cases failed
  · rintro ⟨negative, whole, after, numeral, fraction, exponent, rfl, long⟩
    have bare : behindFraction after = after := by
      rw [behindFraction, fraction]
      rfl
    rw [numeral.readNumber_eq, numberOf, bare, fraction, exponent, if_pos ⟨rfl, rfl⟩, if_pos long]
    rfl

/-! ### Whole numbers there and back -/

theorem isDigit_of_mem_ofNat (n : Nat) (c : Char) (member : c ∈ Text.ofNat n) :
    isDigit c = true := by
  have digit := Nat.isDigit_of_mem_toDigits (by decide) (by decide) member
  simp only [Char.isDigit, Bool.and_eq_true, decide_eq_true_eq] at digit
  simp only [isDigit, Bool.and_eq_true, decide_eq_true_eq]
  exact digit

theorem ofNat_ne_nil (n : Nat) : Text.ofNat n ≠ [] :=
  Nat.toDigits_ne_nil

theorem natOf_ofNat (n : Nat) : natOf (Text.ofNat n) = n := by
  have value : Nat.ofDigitChars 10 (Nat.toDigits 10 n) 0 = n := Nat.ofDigitChars_ten_toDigits
  rw [natOf, Text.ofDigits, List.foldl_map, Text.ofNat]
  exact value

/-- Only zero begins with a zero. -/
theorem head?_ofNat (n : Nat) (positive : 0 < n) : (Text.ofNat n).head? ≠ some '0' := by
  induction n using Nat.strongRecOn with
  | ind n ih =>
    by_cases small : n < 10
    · have digits : ∀ digit < 10, 0 < digit → [Nat.digitChar digit].head? ≠ some '0' := by decide
      rw [Text.ofNat, Nat.toDigits_of_lt_base small]
      exact digits n small positive
    · have rest := ih (n / 10) (by omega) (by omega)
      rw [Text.ofNat, Nat.toDigits_of_base_le (by decide) (by omega)]
      cases digits : Nat.toDigits 10 (n / 10) with
      | nil => exact absurd digits Nat.toDigits_ne_nil
      | cons c tail => rwa [Text.ofNat, digits] at rest

/-- Whether a whole number has no more digits than can be read. -/
def IsShort (n : Int) : Prop :=
  (Text.ofNat n.natAbs).length ≤ Text.maxDigits

theorem numeral_ofInt (n : Int) (rest : Text) (ends : EndsNumber rest) :
    Numeral (Text.ofInt n ++ rest) (n < 0) (Text.ofNat n.natAbs) rest := by
  constructor
  · unfold Text.ofInt
    by_cases negative : n < 0
    · simp [negative]
    · simp [negative]
  · rcases Nat.eq_zero_or_pos n.natAbs with zero | positive
    · exact .inl (by rw [zero]; rfl)
    · exact .inr ⟨head?_ofNat _ positive, ofNat_ne_nil _, isDigit_of_mem_ofNat _,
        fun c head => (ends c head).1⟩

theorem readNumber_ofInt (n : Int) (rest : Text) (ends : EndsNumber rest) (short : IsShort n) :
    readNumber (Text.ofInt n ++ rest) = .ok (.integer n, rest) := by
  have fraction := readFraction?_of_ends rest ends
  have exponent := readExponent?_of_ends rest ends
  have bare : behindFraction rest = rest := by
    rw [behindFraction, fraction]
    rfl
  have value : (if n < 0 then -(n.natAbs : Int) else n.natAbs) = n := by
    split <;> omega
  rw [(numeral_ofInt n rest ends).readNumber_eq, numberOf, bare, behindExponent, fraction, exponent,
    if_pos ⟨rfl, rfl⟩, if_neg (Nat.not_lt.mpr short), natOf_ofNat]
  simp only [decide_eq_true_eq, value]
  rfl

end FormWatch.Json
