import FormWatch.Check
import FormWatch.Proofs.Form.Accounting

/-!
Lost characters. A character that is neither white space nor part of a lexeme is lost, and only a
quote whose body is broken off by a backslash before a newline loses any: the rest of its line. The
reader does not report the loss. A text is read and checked just as if its lost characters were
blanks (`loss_of_text`), so a text can be called clean although part of it was ignored
(`loss_of_broken_quote`).
-/

namespace FormWatch

namespace Lexeme

instance (lexeme : Lexeme) (place : Nat) : Decidable (lexeme.Covers place) :=
  inferInstanceAs (Decidable (_ ∧ _))

instance (lexemes : List Lexeme) (place : Nat) : Decidable (Free lexemes place) :=
  inferInstanceAs (Decidable (∀ lexeme ∈ lexemes, ¬ lexeme.Covers place))

/-! ### Blanks for what is lost -/

/-- A text that stands at an offset, with a blank for every character that belongs to none of the
lexemes. White space is left as it is. -/
def mask (offset : Nat) (lexemes : List Lexeme) (text : Text) : Text :=
  text.mapIdx fun place c =>
    if isBlank c = false ∧ Free lexemes (offset + place) then ' ' else c

variable {offset : Nat} {lexemes later : List Lexeme} {text rest : Text}

@[simp]
theorem length_mask : (mask offset lexemes text).length = text.length := by
  simp [mask]

theorem getElem?_mask (place : Nat) :
    (mask offset lexemes text)[place]? = text[place]?.map fun c =>
      if isBlank c = false ∧ Free lexemes (offset + place) then ' ' else c := by
  rw [mask, List.getElem?_mapIdx]

theorem mask_append (part : Text) :
    mask offset lexemes (part ++ rest) =
      mask offset lexemes part ++ mask (offset + part.length) lexemes rest := by
  simp only [mask, List.mapIdx_append, Nat.add_assoc, Nat.add_comm part.length]

theorem mask_congr (same : ∀ place, offset ≤ place → (Free lexemes place ↔ Free later place)) :
    mask offset lexemes text = mask offset later text := by
  apply List.ext_getElem?
  intro place
  simp only [getElem?_mask, same (offset + place) (Nat.le_add_right _ _)]

theorem mask_of_covered
    (covered : ∀ place, place < text.length → ¬ Free lexemes (offset + place)) :
    mask offset lexemes text = text := by
  apply List.ext_getElem?
  intro place
  rw [getElem?_mask]
  cases found : text[place]? with
  | none => rfl
  | some c =>
    have inside := (List.getElem?_eq_some_iff.mp found).1
    exact congrArg some (if_neg fun lost => covered place inside lost.2)

/-- What belongs to no lexeme is blank when it is masked. -/
theorem isBlank_of_mem_mask
    (free : ∀ place, place < text.length → Free lexemes (offset + place)) :
    ∀ c ∈ mask offset lexemes text, isBlank c = true := by
  intro c member
  obtain ⟨place, found⟩ := List.mem_iff_getElem?.mp member
  rw [getElem?_mask, Option.map_eq_some_iff] at found
  obtain ⟨before, here, rfl⟩ := found
  have inside := (List.getElem?_eq_some_iff.mp here).1
  split
  · decide
  next kept =>
    by_contra visible
    exact kept ⟨Bool.not_eq_true _ ▸ visible, free place inside⟩

/-- A blank for a lost character ends what ends before that character, and newlines are kept. -/
theorem Kind.EndsBefore.mask {kind : Kind} (ends : kind.EndsBefore rest) :
    kind.EndsBefore (Lexeme.mask offset lexemes rest) := by
  cases rest with
  | nil => exact ends
  | cons c tail =>
    have first : (Lexeme.mask offset lexemes (c :: tail)).head? =
        some (if isBlank c = false ∧ Free lexemes offset then ' ' else c) := by
      rw [List.head?_eq_getElem?, getElem?_mask]
      rfl
    cases kind with
    | string | opening | closing => trivial
    | unterminated => cases ends
    | comment =>
      obtain rfl : c = '\n' := ends c rfl
      have kept : ¬ (isBlank '\n' = false ∧ Free lexemes offset) := by
        rintro ⟨visible, _⟩
        cases visible
      rw [if_neg kept] at first
      intro c' head
      exact (Option.some.inj (first.symm.trans head)).symm
    | atom =>
      intro c' head
      obtain rfl := Option.some.inj (first.symm.trans head)
      -- The new first character is a blank or the one that ended the atom.
      split
      · decide
      · exact ends c rfl

theorem Cut.mask (cut : Cut offset text lexemes) :
    Cut offset (Lexeme.mask offset lexemes text) lexemes := by
  induction cut with
  | done => exact .done
  | @lexeme offset kind value rest later spelled ends behind ih =>
    -- The lexeme keeps its characters, and it covers none of those behind it.
    have value_kept : Lexeme.mask offset
        (⟨kind, value, offset, offset + value.length⟩ :: later) value = value := by
      apply mask_of_covered
      intro place inside free
      exact free _ List.mem_cons_self ⟨Nat.le_add_right _ _, Nat.add_lt_add_left inside offset⟩
    have rest_same : Lexeme.mask (offset + value.length)
        (⟨kind, value, offset, offset + value.length⟩ :: later) rest =
          Lexeme.mask (offset + value.length) later rest := by
      apply mask_congr
      intro place beyond
      refine List.forall_mem_cons.trans (and_iff_right ?_)
      exact fun covers => Nat.not_le.mpr covers.2 beyond
    rw [mask_append, value_kept, rest_same]
    exact .lexeme spelled ends.mask ih
  | @blank offset c rest later blank _ ih =>
    have kept : Lexeme.mask offset later [c] = [c] := by
      simp [Lexeme.mask, blank]
    rw [← List.singleton_append, mask_append, kept]
    exact .blank blank ih
  | @swallowed offset line rest later loose unbroken ends behind ih =>
    rw [mask_append]
    apply Cut.blanks
    · apply isBlank_of_mem_mask
      intro place inside
      exact behind.free_before (Nat.add_lt_add_left inside offset)
    · rw [length_mask]
      exact ih

end Lexeme

/-! ### The characters of a text that are lost -/

namespace Text

/-- Whether a character of a text is neither white space nor part of a lexeme. -/
def Loses (text : Text) (place : Nat) : Prop :=
  ∃ c, text[place]? = some c ∧ isBlank c = false ∧ Lexeme.Free (Lexeme.scan text) place

/-- A text with blanks for the characters that it loses. -/
def withoutLoss (text : Text) : Text :=
  Lexeme.mask 0 (Lexeme.scan text) text

variable (text : Text)

theorem scan_withoutLoss : Lexeme.scan text.withoutLoss = Lexeme.scan text :=
  (Lexeme.cut_scanAt 0 text).mask.scanAt_eq

theorem not_loses_withoutLoss (place : Nat) : ¬ text.withoutLoss.Loses place := by
  rintro ⟨c, found, visible, free⟩
  rw [scan_withoutLoss] at free
  rw [withoutLoss, Lexeme.getElem?_mask, Option.map_eq_some_iff, Nat.zero_add] at found
  obtain ⟨before, _, rfl⟩ := found
  split at visible
  · cases visible
  next kept => exact kept ⟨visible, free⟩

theorem getElem?_withoutLoss {place : Nat} (kept : ¬ text.Loses place) :
    text.withoutLoss[place]? = text[place]? := by
  rw [withoutLoss, Lexeme.getElem?_mask, Nat.zero_add]
  cases found : text[place]? with
  | none => rfl
  | some c => exact congrArg some (if_neg fun lost => kept ⟨c, found, lost⟩)

theorem read_withoutLoss : Form.read text.withoutLoss = Form.read text := by
  rw [Form.read, Form.read, scan_withoutLoss, withoutLoss, Lexeme.length_mask]

/-- What is lost is on a line behind a quote whose body is broken off. -/
theorem Loses.exists_quote {text : Text} {place : Nat} (lost : text.Loses place) :
    ∃ quote body rest, text.drop quote = '"' :: (body ++ '\\' :: '\n' :: rest) ∧
      Quote.Body body ∧ quote ≤ place ∧
      place < quote + Lexeme.restOfLine (text.drop quote) := by
  obtain ⟨c, found, visible, free⟩ := lost
  rw [← Nat.zero_add place] at free
  rcases (Lexeme.cut_scanAt 0 text).blankOrSwallowed place c found free with blank | swallowed
  · rw [visible] at blank
    cases blank
  -- On a swallowed line, the quote that begins it is loose.
  · obtain ⟨quote, loose, after, before, _⟩ := swallowed
    obtain ⟨body, rest, isBody, split⟩ := loose.exists_body
    exact ⟨quote, body, rest, split, isBody, after, before⟩

end Text

/-- A string without an end is reported where it begins. -/
theorem Form.unterminated_reported (text : Text) :
    ∀ lexeme ∈ Lexeme.scan text, lexeme.kind = .unterminated →
      ⟨.unterminatedString, lexeme.start⟩ ∈ (Form.read text).2 := by
  intro lexeme member kind
  rw [findings_read]
  apply List.mem_append_left
  refine List.mem_filterMap.mpr ⟨lexeme, member, ?_⟩
  unfold Lexeme.finding?
  rw [kind]

/-- A text loses characters only on a line behind a quote whose body is broken off by a backslash
before a newline, and none if no backslash stands before a newline. What is lost is not reported:
with blanks in its place nothing is lost, and the text is read and checked all the same. A string
that goes on to the end of the text is reported. -/
theorem loss_of_text (text : Text) :
    (∀ place, text.Loses place →
      ∃ quote body rest, text.drop quote = '"' :: (body ++ '\\' :: '\n' :: rest) ∧
        Quote.Body body ∧ quote ≤ place ∧
        place < quote + Lexeme.restOfLine (text.drop quote)) ∧
    (¬ ['\\', '\n'] <:+: text → ∀ place, ¬ text.Loses place) ∧
    (∀ place, ¬ text.Loses place → text.withoutLoss[place]? = text[place]?) ∧
    (∀ place, ¬ text.withoutLoss.Loses place) ∧
    Form.read text.withoutLoss = Form.read text ∧ check text.withoutLoss = check text ∧
    ∀ lexeme ∈ Lexeme.scan text, lexeme.kind = .unterminated →
      ⟨.unterminatedString, lexeme.start⟩ ∈ (Form.read text).2 := by
  refine ⟨fun place lost => lost.exists_quote, ?_, fun place => text.getElem?_withoutLoss,
    text.not_loses_withoutLoss, text.read_withoutLoss, ?_, Form.unterminated_reported text⟩
  · intro unescaped place lost
    obtain ⟨quote, body, rest, split, _⟩ := lost.exists_quote
    apply unescaped
    refine List.IsInfix.trans ⟨'"' :: body, rest, ?_⟩ (List.drop_suffix quote text).isInfix
    rw [split]
    simp
  · rw [check, text.read_withoutLoss]
    rfl

/-- A quote before a backslash and a newline is lost with the backslash, and the text is clean. -/
theorem loss_of_broken_quote :
    Text.Loses ['"', '\\', '\n'] 0 ∧ Text.Loses ['"', '\\', '\n'] 1 ∧
      (Form.read ['"', '\\', '\n']).2 = [] ∧ check ['"', '\\', '\n'] = [] := by
  have none : Lexeme.scan ['"', '\\', '\n'] = [] := by decide +kernel
  have free (place : Nat) : Lexeme.Free (Lexeme.scan ['"', '\\', '\n']) place := by
    rw [none]
    exact List.forall_mem_nil _
  refine ⟨⟨'"', rfl, by decide, free 0⟩, ⟨'\\', rfl, by decide, free 1⟩, ?_, ?_⟩
  · decide +kernel
  · decide +kernel

end FormWatch
