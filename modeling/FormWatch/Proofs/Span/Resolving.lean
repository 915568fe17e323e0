import FormWatch.Proofs.Span.Enclosing
import FormWatch.Proofs.Text.Positions

/-!
The span that shows a place. If a closed form or an atom holds the place, it is that, cut to the line
of the place, and the place stays in it (`resolve_of_enclosed`); if nothing does, it is the character
before the place, and empty at the start of the text (`resolve_of_bare`).
-/

namespace FormWatch

/-- Whether a closed form or an atom of a forest holds an offset. -/
def Node.Holds (offset : Int) (forest : List Node) : Prop :=
  ∃ node ∈ walkAll forest, (node.isClosed = true ∨ node.isAtom = true) ∧
    node.isAround offset = true

namespace Span

variable {text : Text}

/-! ### What is around a place -/

/-- What is around an offset is a node that was kept because it holds the offset. -/
theorem node_of_enclosing? {offset : Int} {span : Span}
    (found : enclosing? text offset = some span) :
    ∃ node ∈ Node.walkAll (Form.read text).1, node.span = span ∧ span.contains offset = true := by
  have last {holds : Node → Bool}
      (found : (((Node.walkAll (Form.read text).1).filter fun node =>
        holds node && node.isAround offset).getLast?.map Node.span) = some span) :
      ∃ node ∈ Node.walkAll (Form.read text).1, node.span = span ∧
        span.contains offset = true := by
    obtain ⟨node, kept, rfl⟩ := Option.map_eq_some_iff.mp found
    obtain ⟨member, around⟩ := List.mem_filter.mp (List.mem_of_getLast? kept)
    exact ⟨node, member, rfl, (Bool.and_eq_true_iff.mp around).2⟩
  rw [enclosing?_eq, Option.or_eq_some_iff] at found
  rcases found with form | ⟨_, atom⟩
  · exact last form
  · exact last atom

/-- What is around an offset holds it and is in the text. -/
theorem contains_of_enclosing? {offset : Int} {span : Span}
    (found : enclosing? text offset = some span) :
    span.contains offset = true ∧ span.stop ≤ text.length := by
  obtain ⟨node, member, rfl, holds⟩ := node_of_enclosing? found
  exact ⟨holds, ((Form.allFit_read text).walkAll.within node member).2.2⟩

/-- Something is around an offset where a closed form or an atom holds it. -/
theorem enclosing?_eq_none_iff (text : Text) (offset : Int) :
    enclosing? text offset = none ↔ ¬ Node.Holds offset (Form.read text).1 := by
  rw [enclosing?_eq, Option.or_eq_none_iff, Option.map_eq_none_iff, Option.map_eq_none_iff,
    List.getLast?_eq_none_iff, List.getLast?_eq_none_iff, Node.closedAround, Node.atomsAround,
    List.filter_eq_nil_iff, List.filter_eq_nil_iff]
  constructor
  · rintro ⟨forms, atoms⟩ ⟨node, member, closed | atom, holds⟩
    · exact forms node member (by rw [closed, holds]; rfl)
    · exact atoms node member (by rw [atom, holds]; rfl)
  · intro free
    constructor
    · intro node member both
      obtain ⟨closed, holds⟩ := Bool.and_eq_true_iff.mp both
      exact free ⟨node, member, .inl closed, holds⟩
    · intro node member both
      obtain ⟨atom, holds⟩ := Bool.and_eq_true_iff.mp both
      exact free ⟨node, member, .inr atom, holds⟩

/-! ### What a place resolves to -/

/-- A place with nothing around it is shown by the character before it. -/
theorem resolve_of_bare {place : Nat} (inside : place ≤ text.length)
    (bare : enclosing? text place = none) : resolve text place = ⟨place - 1, place⟩ := by
  have start : max (text.lineStart place) place = place := Nat.max_eq_right (text.lineStart_le place)
  have stop : min (text.lineEnd place) place = place := Nat.min_eq_right (text.le_lineEnd place)
  simp only [resolve, text.clamp_of_le inside, bare, Option.getD_none, start, stop, if_true]

/-- A character on a line, with something around it, is shown within its line and what is around
it. -/
theorem resolve_of_enclosed {place : Nat} {bounds : Span} {c : Char}
    (here : text[place]? = some c) (visible : c ≠ '\n')
    (found : enclosing? text place = some bounds) :
    resolve text place =
        ⟨max (text.lineStart place) bounds.start, min (text.lineEnd place) bounds.stop⟩ ∧
      (resolve text place).start ≤ place ∧ place < (resolve text place).stop ∧
      (resolve text place).stop ≤ text.length := by
  obtain ⟨inside, _⟩ := List.getElem?_eq_some_iff.mp here
  obtain ⟨holds, within⟩ := contains_of_enclosing? found
  obtain ⟨before, behind⟩ := (contains_iff bounds place).mp holds
  have first := text.lineStart_le place
  have last := text.lt_lineEnd here visible
  have filled : max (text.lineStart place) bounds.start ≠ min (text.lineEnd place) bounds.stop := by
    omega
  have same : resolve text place =
      ⟨max (text.lineStart place) bounds.start, min (text.lineEnd place) bounds.stop⟩ := by
    simp only [resolve, text.clamp_of_le (Nat.le_of_lt inside), found, Option.getD_some,
      if_neg filled]
  rw [same]
  refine ⟨rfl, ?_, ?_, ?_⟩
  · dsimp only
    omega
  · dsimp only
    omega
  · exact Nat.le_trans (Nat.min_le_right _ _) within

end Span

end FormWatch
