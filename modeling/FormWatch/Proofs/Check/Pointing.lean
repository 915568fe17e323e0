import FormWatch.Proofs.Form.Accounting

/-!
What findings point at. A finding of the reader is made at a lexeme, and one of the checks at a node
that a lexeme has made, so the text at the position of a finding is the bracket, the quote or the
name that its message is about (`pointsInto_of_mem_check`).
-/

namespace FormWatch

/-- The character that a message has between its first quotes. -/
def Text.quotedFirst? (message : Text) : Option Char :=
  match message.dropWhile (· ≠ '\'') with
  | _ :: c :: '\'' :: _ => some c
  | _ => none

/-- Whether the text at the position of a finding is what its message names. -/
def Finding.PointsInto (text : Text) (finding : Finding) : Prop :=
  match finding.problem with
  | .unmatched found | .mismatched found _ =>
    Text.quotedFirst? finding.problem.message = some found.closing ∧
      text[finding.position]? = some found.closing
  | .unclosed bracket =>
    Text.quotedFirst? finding.problem.message = some bracket.opening ∧
      text[finding.position]? = some bracket.opening
  | .unterminatedString =>
    text[finding.position]? = some '"' ∧
      ∃ lexeme ∈ Lexeme.scan text, lexeme.kind = .unterminated ∧ lexeme.start = finding.position
  | .emptyForm =>
    ∃ bracket stop, text[finding.position]? = some bracket.opening ∧
      .form bracket finding.position stop true [] ∈ (Form.read text).1
  | .redefined name | .unusedVariable name =>
    (text.drop finding.position).take name.length = name ∧
      ∃ lexeme ∈ Lexeme.scan text, lexeme.start = finding.position ∧ lexeme.value = name ∧
        (lexeme.kind = .atom ∨ lexeme.kind = .string ∨ lexeme.kind = .unterminated)

/-! ### Messages -/

namespace Problem

theorem quotedFirst?_unmatched (found : Bracket) :
    Text.quotedFirst? (unmatched found).message = some found.closing := by
  cases found <;> decide

theorem quotedFirst?_mismatched (found expected : Bracket) :
    Text.quotedFirst? (mismatched found expected).message = some found.closing := by
  cases found <;> cases expected <;> decide

theorem quotedFirst?_unclosed (bracket : Bracket) :
    Text.quotedFirst? (unclosed bracket).message = some bracket.opening := by
  cases bracket <;> decide

end Problem

/-! ### Lexemes -/

namespace Lexeme

variable {text : Text} {lexeme : Lexeme}

/-- A lexeme whose kind has a sign begins with it. -/
theorem getElem?_of_sign (member : lexeme ∈ scan text) {sign : Char}
    (signed : lexeme.kind.sign? = some sign) : text[lexeme.start]? = some sign :=
  ((stands_scan text lexeme member).sign sign signed).getElem?

theorem pointsInto_of_finding? {nodes : List Node} {finding : Finding}
    (member : lexeme ∈ scan text) (found : lexeme.finding? nodes = some finding) :
    finding.PointsInto text := by
  unfold finding? at found
  split at found
  next bracket kind =>
    have here : text[lexeme.start]? = some bracket.closing :=
      getElem?_of_sign member (by rw [kind]; rfl)
    split at found
    · cases found
      exact ⟨Problem.quotedFirst?_unmatched bracket, here⟩
    next expected _ _ =>
      split at found
      · cases found
      · cases found
        exact ⟨Problem.quotedFirst?_mismatched bracket expected, here⟩
  next kind =>
    cases found
    exact ⟨getElem?_of_sign member (by rw [kind]; rfl), lexeme, member, kind, rfl⟩
  all_goals cases found

theorem pointsInto_of_unclosed? {nodes : List Node} {finding : Finding}
    (member : lexeme ∈ scan text) (found : lexeme.unclosed? nodes = some finding) :
    finding.PointsInto text := by
  unfold unclosed? at found
  split at found
  next bracket kind =>
    split at found
    · cases found
      constructor
      · exact Problem.quotedFirst?_unclosed bracket
      · exact getElem?_of_sign member (by rw [kind]; rfl)
    · cases found
  all_goals cases found

end Lexeme

/-! ### Nodes -/

/-- Every atom of a tree is a lexeme of the text. -/
theorem Form.lexeme_of_atom {text : Text} {a : Atom}
    (member : .atom a ∈ Node.walkAll (Form.read text).1) :
    ∃ lexeme ∈ Lexeme.scan text, lexeme.start = a.start ∧ lexeme.value = a.value ∧
      (lexeme.kind = .atom ∨ lexeme.kind = .string ∨ lexeme.kind = .unterminated) := by
  -- The labels of the nodes are those of the lexemes, so the atom's comes from one.
  have listed := List.mem_map_of_mem (f := Node.label) member
  rw [labels_read, List.mem_filterMap] at listed
  obtain ⟨lexeme, scanned, made⟩ := listed
  unfold Lexeme.label? at made
  split at made
  · cases made
  next kind => cases made; exact ⟨lexeme, scanned, rfl, rfl, .inr (.inl kind)⟩
  next kind => cases made; exact ⟨lexeme, scanned, rfl, rfl, .inr (.inr kind)⟩
  next kind => cases made; exact ⟨lexeme, scanned, rfl, rfl, .inl kind⟩
  all_goals cases made

theorem Finding.MadeIn.pointsInto {text : Text} {finding : Finding}
    (made : finding.MadeIn (Form.read text).1) : finding.PointsInto text := by
  have named {name : Text} {stop : Nat}
      (member : .atom ⟨name, finding.position, stop⟩ ∈ Node.walkAll (Form.read text).1) :
      (text.drop finding.position).take name.length = name ∧
        ∃ lexeme ∈ Lexeme.scan text, lexeme.start = finding.position ∧ lexeme.value = name ∧
          (lexeme.kind = .atom ∨ lexeme.kind = .string ∨ lexeme.kind = .unterminated) := by
    have holds : Text.Holds text name finding.position := (Form.allStand_read text).1 _ member
    exact ⟨(List.prefix_iff_eq_take.mp holds.2).symm, Form.lexeme_of_atom member⟩
  unfold MadeIn at made
  unfold PointsInto
  split at made
  next empty =>
    obtain ⟨bracket, stop, member⟩ := made
    rw [empty]
    have holds : Text.Holds text [bracket.opening] finding.position :=
      (Form.allStand_read text).1 _ (Node.mem_walkAll_of_mem member)
    exact ⟨bracket, stop, holds.getElem?, member⟩
  next name again =>
    rw [again]
    obtain ⟨stop, member⟩ := made
    exact named member
  next name unused =>
    rw [unused]
    obtain ⟨stop, member⟩ := made
    exact named member
  all_goals exact made.elim

/-! ### The findings of a text -/

/-- Every finding of a text is within it, at what its message names. -/
theorem pointsInto_of_mem_check (text : Text) (finding : Finding) (member : finding ∈ check text) :
    finding.position < text.length ∧ finding.PointsInto text := by
  constructor
  · obtain ⟨token, _, holds⟩ := stands_check text finding member
    exact holds.lt
  · rcases read_or_madeIn member with error | made
    · rw [Form.findings_read, List.mem_append, List.mem_filterMap, List.mem_filterMap] at error
      rcases error with ⟨lexeme, scanned, found⟩ | ⟨lexeme, scanned, found⟩
      · exact Lexeme.pointsInto_of_finding? scanned found
      · exact Lexeme.pointsInto_of_unclosed? scanned found
    · exact made.pointsInto

/-- A name that is a string without an end, bound by a form without an end. -/
theorem pointsInto_unterminated_name :
    ⟨.unusedVariable "\"a b".toList, 6⟩ ∈ check "(let (\"a b".toList ∧
      6 < "(let (\"a b".toList.length ∧
      Finding.PointsInto "(let (\"a b".toList ⟨.unusedVariable "\"a b".toList, 6⟩ := by
  have member : ⟨.unusedVariable "\"a b".toList, 6⟩ ∈ check "(let (\"a b".toList := by
    decide +kernel
  exact ⟨member, pointsInto_of_mem_check _ _ member⟩

end FormWatch
