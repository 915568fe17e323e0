import FormWatch.Proofs.Check.Placement
import FormWatch.Proofs.Form.Layout
import FormWatch.Proofs.Span.Resolving

/-!
Where findings are shown. A finding is made at a lexeme. If its problem is that a bracket has no
partner, no closed form and no atom holds the place, and it is shown by the character before it; any
other finding is in the form or the atom around it, and stays in what shows it. So a finding can be
seen unless its bracket has no partner and begins the text (`shown_of_mem_check`).
-/

namespace FormWatch

/-- Whether a problem is that a bracket has no partner. -/
def Problem.isLone : Problem → Bool
  | unmatched _ | unclosed _ => true
  | mismatched _ _ | unterminatedString | emptyForm | redefined _ | unusedVariable _ => false

/-! ### Closing brackets that close nothing -/

namespace Reading

/-- Whether all that has been read is before a place or behind it. -/
structure ClearOf (place : Nat) (reading : Reading) : Prop where
  opened : ∀ start ∈ reading.frames.map Frame.start, place < start
  settled : ∀ node ∈ reading.settled, node.stop ≤ place ∨ place < node.start

variable {reading : Reading} {place : Nat}

theorem ClearOf.add (clear : reading.ClearOf place) {node : Node}
    (apart : ∀ inner ∈ Node.settled [node], inner.stop ≤ place ∨ place < inner.start) :
    (reading.add node).ClearOf place := by
  constructor
  · rw [starts_add]
    exact clear.opened
  · rw [settled_add]
    exact List.forall_mem_append.mpr ⟨clear.settled, apart⟩

/-- What is read behind a place is behind it, and so are the forms that were opened there. -/
theorem ClearOf.step (clear : reading.ClearOf place) (lexeme : Lexeme)
    (behind : place < lexeme.start) : (reading.step lexeme).ClearOf place := by
  have atom : (reading.add (.atom ⟨lexeme.value, lexeme.start, lexeme.stop⟩)).ClearOf place := by
    apply clear.add
    rw [Node.settled_atom]
    exact List.forall_mem_singleton.mpr (.inr behind)
  unfold Reading.step
  split
  · exact clear
  · constructor
    · exact List.forall_mem_cons.mpr ⟨behind, clear.opened⟩
    · rw [settled_open]
      exact clear.settled
  · unfold Reading.close
    split
    · exact ⟨clear.opened, clear.settled⟩
    next frame outer opened =>
      obtain ⟨starts, settled⟩ := clear
      rw [opened] at starts
      rw [settled_of_frame opened, List.forall_mem_append] at settled
      obtain ⟨first, others⟩ := List.forall_mem_cons.mp starts
      have around : ({ reading with frames := outer } : Reading).ClearOf place :=
        ⟨others, settled.1⟩
      -- The form ends at the lexeme, but what counts is that its bracket is behind the place.
      have closed : (({ reading with frames := outer } : Reading).add
          (.form frame.bracket frame.start lexeme.stop true frame.items.reverse)).ClearOf place := by
        apply around.add
        rw [Node.settled_closed]
        exact List.forall_mem_cons.mpr ⟨.inr first, settled.2⟩
      dsimp only
      split
      · exact closed
      · exact ⟨closed.opened, closed.settled⟩
  · exact ⟨atom.opened, atom.settled⟩
  · exact atom
  · exact atom

/-- Whether nothing that has been read is around a closing bracket that closed nothing. -/
def StraysClear (place : Nat) (reading : Reading) : Prop :=
  ∀ found position, ⟨.unmatched found, position⟩ ∈ reading.findings →
    position < place ∧ reading.ClearOf position

/-- A closing bracket is found to close nothing where no form is open. -/
theorem unmatched_of_step {lexeme : Lexeme} {found : Bracket} {position : Nat}
    (member : ⟨.unmatched found, position⟩ ∈ (reading.step lexeme).findings) :
    ⟨.unmatched found, position⟩ ∈ reading.findings ∨
      position = lexeme.start ∧ reading.frames = [] ∧
        reading.step lexeme = reading.report (.unmatched found) lexeme.start := by
  unfold Reading.step at member ⊢
  split at member
  next => exact .inl member
  next => exact .inl member
  next =>
    unfold Reading.close at member ⊢
    split at member
    next opened =>
      rcases List.mem_cons.mp member with same | before
      · cases same
        exact .inr ⟨rfl, opened, rfl⟩
      · exact .inl before
    next frame outer opened =>
      dsimp only at member
      split at member
      · rw [findings_add] at member
        exact .inl member
      · rcases List.mem_cons.mp member with same | before
        · cases same
        · rw [findings_add] at before
          exact .inl before
  next =>
    rcases List.mem_cons.mp member with same | before
    · cases same
    · rw [findings_add] at before
      exact .inl before
  all_goals
    rw [findings_add] at member
    exact .inl member

theorem StraysClear.step (clear : reading.StraysClear place) (fits : reading.FitsTo place)
    (lexeme : Lexeme) (later : place ≤ lexeme.start) (filled : lexeme.start < lexeme.stop) :
    (reading.step lexeme).StraysClear lexeme.stop := by
  intro found position member
  rcases unmatched_of_step member with before | ⟨rfl, opened, stepped⟩
  · obtain ⟨early, apart⟩ := clear found position before
    constructor
    · omega
    · exact apart.step lexeme (by omega)
  · rw [stepped]
    refine ⟨filled, ?_, ?_⟩
    · show ∀ start ∈ reading.frames.map Frame.start, lexeme.start < start
      rw [opened]
      exact List.forall_mem_nil _
    · intro node settled
      exact .inl (Nat.le_trans (fits.settled_within node settled).2 later)

theorem StraysClear.run {low high : Nat} {lexemes : List Lexeme} (clear : reading.StraysClear low)
    (fits : reading.FitsTo low) (inOrder : Lexeme.InOrder low high lexemes) :
    ∃ last, (lexemes.foldl Reading.step reading).StraysClear last := by
  induction lexemes generalizing low reading with
  | nil => exact ⟨low, clear⟩
  | cons lexeme rest ih =>
    obtain ⟨later, filled, following⟩ := inOrder
    exact ih (clear.step fits lexeme later filled) (fits.step lexeme later filled) following

end Reading

/-- Of two nodes of a tree one comes first. -/
theorem Node.AllApart.either {low high : Nat} {nodes : List Node} (apart : AllApart low high nodes)
    {node other : Node} (member : node ∈ nodes) (member' : other ∈ nodes) (differ : node ≠ other) :
    node.Precedes other ∨ other.Precedes node := by
  have either : nodes.Pairwise fun node later => node.Precedes later ∨ later.Precedes node :=
    apart.apart.imp .inl
  have symm : Std.Symm fun node later : Node => node.Precedes later ∨ later.Precedes node :=
    ⟨fun _ _ => Or.symm⟩
  exact either.forall member member' differ

namespace Form

variable {text : Text} {lexeme : Lexeme}

theorem not_holds_of_unmatched {found : Bracket} {place : Nat}
    (member : ⟨.unmatched found, place⟩ ∈
      ((Lexeme.scan text).foldl Reading.step Reading.empty).findings) :
    ¬ Node.Holds place (Form.read text).1 := by
  have start : Reading.empty.StraysClear 0 := fun _ _ member => absurd member List.not_mem_nil
  have empty : Reading.empty.FitsTo 0 := Nat.le_refl 0
  obtain ⟨last, clear⟩ := start.run empty (Lexeme.inOrder_scan text)
  obtain ⟨_, apart⟩ := clear found place member
  rintro ⟨node, listed, known, holds⟩
  have settled : node ∈ Node.settled (Form.read text).1 := by
    apply List.mem_filter.mpr
    exact ⟨listed, by simpa [or_comm] using known⟩
  rw [Form.read, Reading.settled_forest] at settled
  rcases apart.settled node settled with before | behind
  · exact Int.not_lt.mpr (Int.ofNat_le.mpr before) ((Node.isAround_iff _ _).mp holds).2
  · exact Int.not_le.mpr (Int.ofNat_lt.mpr behind) ((Node.isAround_iff _ _).mp holds).1

/-! ### Opening brackets of forms without an end -/

/-- A closed form or atom that held the bracket of an open form would be around it, and the open
form would end before the text does. -/
theorem not_holds_of_open {bracket : Bracket} {start stop : Nat} {items : List Node}
    (member : .form bracket start stop false items ∈ Node.walkAll (Form.read text).1) :
    ¬ Node.Holds start (Form.read text).1 := by
  have apart := (allFit_read text).walkAll
  have last : stop = text.length := ((openTail_read text).form member).2.2 rfl
  have filled : start < stop := (apart.within _ member).2.1
  rintro ⟨node, listed, known, holds⟩
  have within := apart.within node listed
  obtain ⟨before, behind⟩ := (Node.isAround_iff _ _).mp holds
  have differ : node ≠ .form bracket start stop false items := by
    rintro rfl
    rcases known with closed | atom
    · cases closed
    · cases atom
  rcases apart.either listed member differ with first | later
  · rcases first with early | around
    · dsimp only [Node.start] at early
      omega
    · cases node with
      | atom a => exact around
      | form bracket' start' stop' closed items' =>
        obtain rfl : closed = true := known.resolve_right Bool.false_ne_true
        obtain ⟨_, inside⟩ := around
        rw [if_pos rfl] at inside
        dsimp only [Node.start, Node.stop] at inside within
        omega
  · -- The node starts no later than the open form, so it does not come behind it.
    rcases later with early | around
    · dsimp only [Node.stop] at early
      omega
    · have inside : start < node.start := around.1
      omega

end Form

/-! ### Places of findings -/

theorem Lexeme.unclosed?_position {nodes : List Node} {lexeme : Lexeme} {finding : Finding}
    (found : lexeme.unclosed? nodes = some finding) : finding.position = lexeme.start := by
  unfold unclosed? at found
  split at found
  · split at found
    · cases found
      rfl
    · cases found
  all_goals cases found

namespace Finding

variable {text : Text} {finding : Finding}

/-- The checks find at closed forms and atoms. -/
theorem MadeIn.node {forest : List Node} (made : finding.MadeIn forest) :
    ∃ node ∈ Node.walkAll forest, (node.isClosed = true ∨ node.isAtom = true) ∧
      node.start = finding.position := by
  unfold MadeIn at made
  split at made
  · obtain ⟨bracket, stop, member⟩ := made
    exact ⟨_, Node.mem_walkAll_of_mem member, .inl rfl, rfl⟩
  · obtain ⟨stop, member⟩ := made
    exact ⟨_, member, .inr rfl, rfl⟩
  · obtain ⟨stop, member⟩ := made
    exact ⟨_, member, .inr rfl, rfl⟩
  all_goals exact made.elim

/-- A finding of the checks is at the start of a node that can be shown. -/
theorem MadeIn.holds (made : finding.MadeIn (Form.read text).1) :
    Node.Holds finding.position (Form.read text).1 := by
  obtain ⟨node, member, known, start⟩ := made.node
  have filled := ((Form.allFit_read text).walkAll.within node member).2.1
  refine ⟨node, member, known, (Node.isAround_iff _ _).mpr ?_⟩
  rw [← start]
  exact ⟨Int.le_refl _, Int.ofNat_lt.mpr filled⟩

theorem MadeIn.not_isLone {forest : List Node} (made : finding.MadeIn forest) :
    finding.problem.isLone = false := by
  unfold MadeIn at made
  split at made
  next empty => rw [empty]; rfl
  next again => rw [again]; rfl
  next unused => rw [unused]; rfl
  all_goals exact made.elim

end Finding

namespace Lexeme

variable {text : Text} {lexeme : Lexeme}

/-- A closing bracket is in the form that it ends. -/
theorem holds_of_closedAt (member : lexeme ∈ scan text) {found bracket : Bracket}
    (kind : lexeme.kind = .closing found)
    (closes : bracket ∈ Node.closedAt lexeme.stop (Node.walkAll (Form.read text).1)) :
    Node.Holds lexeme.start (Form.read text).1 := by
  obtain ⟨node, listed, ends⟩ := List.mem_filterMap.mp closes
  obtain ⟨start, items, rfl⟩ := Node.form_of_endsAt? ends
  have fits : Node.AllFit (start + 1) (lexeme.stop - 1) items :=
    (Form.allFit_read text).fits_of_mem_walkAll listed
  have length : lexeme.stop = lexeme.start + 1 := by
    obtain ⟨_, _, _, _, stop, spelled, _⟩ := piece_of_mem member
    rw [kind] at spelled
    rw [stop, spelled]
    rfl
  refine ⟨_, listed, .inl rfl, (Node.isAround_iff _ _).mpr ?_⟩
  have inside := fits.le
  dsimp only [Node.span, Node.start, Node.stop]
  omega

/-- A string without an end is an atom. -/
theorem holds_of_unterminated (member : lexeme ∈ scan text) (kind : lexeme.kind = .unterminated) :
    Node.Holds lexeme.start (Form.read text).1 := by
  have made : Node.Label.atom ⟨lexeme.value, lexeme.start, lexeme.stop⟩ ∈
      (Node.walkAll (Form.read text).1).map Node.label := by
    rw [Form.labels_read]
    exact List.mem_filterMap.mpr ⟨lexeme, member, by rw [label?, kind]⟩
  obtain ⟨node, listed, same⟩ := List.mem_map.mp made
  cases node with
  | atom a =>
    cases same
    have filled := ((inOrder_scan text).within lexeme member).2.1
    refine ⟨_, listed, .inr rfl, (Node.isAround_iff _ _).mpr ?_⟩
    exact ⟨Int.le_refl _, Int.ofNat_lt.mpr filled⟩
  | form bracket start stop closed items => cases same

theorem holds_iff_of_finding? (member : lexeme ∈ scan text) {finding : Finding}
    (found : lexeme.finding? (Node.walkAll (Form.read text).1) = some finding) :
    Node.Holds finding.position (Form.read text).1 ↔ finding.problem.isLone = false := by
  have listed : finding ∈ ((scan text).foldl Reading.step Reading.empty).findings := by
    rw [← List.mem_reverse, Form.findings_scanning]
    exact List.mem_filterMap.mpr ⟨lexeme, member, found⟩
  unfold finding? at found
  split at found
  next bracket kind =>
    split at found
    · cases found
      exact iff_of_false (Form.not_holds_of_unmatched listed) Bool.noConfusion
    next expected others closes =>
      split at found
      · cases found
      · cases found
        apply iff_of_true
        · exact holds_of_closedAt member kind (by rw [closes]; exact List.mem_cons_self)
        · rfl
  next kind =>
    cases found
    exact iff_of_true (holds_of_unterminated member kind) rfl
  all_goals cases found

theorem holds_iff_of_unclosed? {finding : Finding}
    (found : lexeme.unclosed? (Node.walkAll (Form.read text).1) = some finding) :
    Node.Holds finding.position (Form.read text).1 ↔ finding.problem.isLone = false := by
  unfold unclosed? at found
  split at found
  · split at found
    next isOpen =>
      cases found
      obtain ⟨node, listed, here⟩ := List.any_eq_true.mp isOpen
      unfold Node.isOpenAt at here
      split at here
      · obtain rfl := of_decide_eq_true here
        exact iff_of_false (Form.not_holds_of_open listed) Bool.noConfusion
      · cases here
    · cases found
  all_goals cases found

end Lexeme

/-! ### The findings of a text -/

section

variable {text : Text} {finding : Finding}

/-- A closed form or an atom holds the place of a finding unless its bracket has no partner. -/
theorem holds_iff_of_mem_check (member : finding ∈ check text) :
    Node.Holds finding.position (Form.read text).1 ↔ finding.problem.isLone = false := by
  rcases read_or_madeIn member with error | made
  · rw [Form.findings_read, List.mem_append, List.mem_filterMap, List.mem_filterMap] at error
    rcases error with ⟨lexeme, scanned, found⟩ | ⟨lexeme, scanned, found⟩
    · exact Lexeme.holds_iff_of_finding? scanned found
    · exact Lexeme.holds_iff_of_unclosed? found
  · exact iff_of_true made.holds made.not_isLone

theorem lexeme_of_mem_check (member : finding ∈ check text) :
    ∃ lexeme ∈ Lexeme.scan text, lexeme.start = finding.position := by
  rcases read_or_madeIn member with error | made
  · rw [Form.findings_read, List.mem_append, List.mem_filterMap, List.mem_filterMap] at error
    rcases error with ⟨lexeme, scanned, found⟩ | ⟨lexeme, scanned, found⟩
    · exact ⟨lexeme, scanned, (Lexeme.finding?_position found).symm⟩
    · exact ⟨lexeme, scanned, (Lexeme.unclosed?_position found).symm⟩
  · obtain ⟨node, listed, _, start⟩ := made.node
    rw [← start]
    exact Form.lexeme_of_node listed

/-- What shows a finding is the character before it if its bracket has no partner, and else holds its
place. -/
theorem resolve_of_mem_check (member : finding ∈ check text) :
    finding.position < text.length ∧
    (finding.problem.isLone = true → Span.resolve text finding.position =
      ⟨finding.position - 1, finding.position⟩) ∧
    (finding.problem.isLone = false →
      (Span.resolve text finding.position).start ≤ finding.position ∧
        finding.position < (Span.resolve text finding.position).stop ∧
        (Span.resolve text finding.position).stop ≤ text.length) := by
  obtain ⟨lexeme, scanned, start⟩ := lexeme_of_mem_check member
  obtain ⟨c, here, visible⟩ := Lexeme.visible_of_mem scanned
  rw [start] at here
  obtain ⟨inside, _⟩ := List.getElem?_eq_some_iff.mp here
  have holds := holds_iff_of_mem_check member
  have bare := Span.enclosing?_eq_none_iff text finding.position
  refine ⟨inside, ?_, ?_⟩
  · intro lone
    apply Span.resolve_of_bare (Nat.le_of_lt inside)
    rw [bare, holds, lone]
    exact Bool.noConfusion
  · intro paired
    cases found : Span.enclosing? text finding.position with
    | none => exact absurd (holds.mpr paired) (bare.mp found)
    | some bounds => exact (Span.resolve_of_enclosed here visible found).2

end

/-- A finding whose bracket has no partner is shown by the character before it, and any other by
what it is in, on its own line. What shows it is in the text, and its range on the screen is empty
only where it is: at the start of the text, where there is no character before it. -/
theorem shown_of_mem_check (text : Text) (finding : Finding) (member : finding ∈ check text) :
    let shown := Span.resolve text finding.position
    let range := text.range shown.start shown.stop
    (finding.problem.isLone = true → shown = ⟨finding.position - 1, finding.position⟩) ∧
    (finding.problem.isLone = false →
      shown.start ≤ finding.position ∧ finding.position < shown.stop) ∧
    shown.stop ≤ text.length ∧
    (shown.start < shown.stop ↔ ¬ (finding.problem.isLone = true ∧ finding.position = 0)) ∧
    (range.start.Before range.stop ↔ shown.start < shown.stop) := by
  intro shown range
  obtain ⟨inside, alone, around⟩ := resolve_of_mem_check member
  have bounds : shown.start ≤ shown.stop ∧ shown.stop ≤ text.length ∧
      (shown.start < shown.stop ↔ ¬ (finding.problem.isLone = true ∧ finding.position = 0)) := by
    cases lone : finding.problem.isLone with
    | true =>
      have same : shown = ⟨finding.position - 1, finding.position⟩ := alone lone
      rw [same, and_iff_right rfl]
      refine ⟨Nat.sub_le _ _, Nat.le_of_lt inside, ?_⟩
      dsimp only
      omega
    | false =>
      obtain ⟨before, behind, within⟩ := around lone
      have filled := Nat.lt_of_le_of_lt before behind
      exact ⟨Nat.le_of_lt filled, within, iff_of_true filled fun both => Bool.noConfusion both.1⟩
  obtain ⟨order, within, filled⟩ := bounds
  refine ⟨alone, ?_, within, filled, text.range_before_iff order within⟩
  intro paired
  exact ⟨(around paired).1, (around paired).2.1⟩

/-- A closing bracket on the second line is shown by the newline before it. -/
theorem shown_of_stray_behind_newline :
    ⟨.unmatched .round, 1⟩ ∈ check "\n)".toList ∧ Span.resolve "\n)".toList 1 = ⟨0, 1⟩ ∧
      (Text.range "\n)".toList 0 1).start.Before (Text.range "\n)".toList 0 1).stop := by
  have member : ⟨.unmatched .round, 1⟩ ∈ check "\n)".toList := by decide +kernel
  obtain ⟨alone, _, _, _, range⟩ := shown_of_mem_check _ _ member
  simp only [alone rfl] at range
  exact ⟨member, alone rfl, range.mpr Nat.one_pos⟩

/-- A closing bracket that begins the text is shown by nothing. -/
theorem hidden_stray_at_start :
    ⟨.unmatched .round, 0⟩ ∈ check ")".toList ∧ Span.resolve ")".toList 0 = ⟨0, 0⟩ ∧
      ¬ (Text.range ")".toList 0 0).start.Before (Text.range ")".toList 0 0).stop := by
  refine ⟨by decide +kernel, by decide +kernel, ?_⟩
  exact Position.Before.irrefl _

end FormWatch
