import FormWatch.Proofs.Form.Listing
import FormWatch.Span

/-!
Spans and trees. A search for the form around an offset keeps the starts of the open forms and the
best closed form so far; it never builds the tree. Still it finds what the tree of the text says:
the innermost closed form around the offset, or else the atom there (`enclosing_of_tree`). The two
run side by side over the lexemes, and a form that closes later than the forms in it comes before
them in pre-order, so the innermost one is the last.
-/

namespace FormWatch

namespace Node

def span (node : Node) : Span :=
  ⟨node.start, node.stop⟩

/-- Whether a node begins at an offset or before it, and ends behind it. -/
def isAround (offset : Int) (node : Node) : Bool :=
  node.start ≤ offset && offset < node.stop

/-- The closed forms among nodes that hold an offset. -/
def closedAround (offset : Int) (nodes : List Node) : List Node :=
  nodes.filter fun node => node.isClosed && node.isAround offset

/-- The atoms among nodes that hold an offset. -/
def atomsAround (offset : Int) (nodes : List Node) : List Node :=
  nodes.filter fun node => node.isAtom && node.isAround offset

theorem isAround_eq_contains (offset : Int) (node : Node) :
    node.isAround offset = node.span.contains offset := rfl

theorem isAround_iff (offset : Int) (node : Node) :
    node.isAround offset = true ↔ node.start ≤ offset ∧ offset < node.stop := by
  simp [isAround]

/-! ### Among nodes whose spans are known -/

theorem closedAround_settled (offset : Int) (forest : List Node) :
    closedAround offset (settled forest) = closedAround offset (walkAll forest) := by
  rw [closedAround, settled, List.filter_filter]
  refine List.filter_congr fun node _ => ?_
  cases node.isClosed <;> simp

theorem atomsAround_settled (offset : Int) (forest : List Node) :
    atomsAround offset (settled forest) = atomsAround offset (walkAll forest) := by
  rw [atomsAround, settled, List.filter_filter]
  refine List.filter_congr fun node _ => ?_
  cases node.isAtom <;> simp

/-! ### The last of them -/

theorem closedAround_append (offset : Int) (nodes later : List Node) :
    closedAround offset (nodes ++ later) = closedAround offset nodes ++ closedAround offset later :=
  List.filter_append _ _

theorem atomsAround_append (offset : Int) (nodes later : List Node) :
    atomsAround offset (nodes ++ later) = atomsAround offset nodes ++ atomsAround offset later :=
  List.filter_append _ _

/-- A form between the nodes before it and those in it is the last around an offset unless one in it
is. -/
theorem last_closedAround (offset : Int) (before inner : List Node) (form : Node)
    (closed : form.isClosed = true) (early : ∀ node ∈ before, node.start ≤ form.start)
    (late : ∀ node ∈ inner, form.start < node.start) :
    (closedAround offset (before ++ form :: inner)).getLast?.map span =
      if form.span.contains offset &&
          ((closedAround offset (before ++ inner)).getLast?.map span).all
            (·.start ≤ form.start) then
        some form.span
      else (closedAround offset (before ++ inner)).getLast?.map span := by
  have cut : closedAround offset (form :: inner) =
      (if form.span.contains offset then [form] else []) ++ closedAround offset inner := by
    rw [closedAround, List.filter_cons, closed, Bool.true_and, isAround_eq_contains]
    split <;> rfl
  rw [closedAround_append, cut, closedAround_append]
  cases contains : form.span.contains offset with
  | false => simp
  | true =>
    simp only [if_true, Bool.true_and, List.getLast?_append]
    -- The best so far is in the form and starts later, or is around it and starts earlier.
    cases inside : (closedAround offset inner).getLast? with
    | some node =>
      have later := late node (List.mem_filter.mp (List.mem_of_getLast? inside)).1
      have starts : ¬ node.span.start ≤ form.start := Nat.not_le.mpr later
      simp [starts]
    | none =>
      cases outside : (closedAround offset before).getLast? with
      | none => rfl
      | some node =>
        have earlier := early node (List.mem_filter.mp (List.mem_of_getLast? outside)).1
        have starts : node.span.start ≤ form.start := earlier
        simp [starts]

theorem atomsAround_form (offset : Int) (before inner : List Node) (form : Node)
    (bracketed : form.isAtom = false) :
    atomsAround offset (before ++ form :: inner) = atomsAround offset (before ++ inner) := by
  simp [atomsAround, bracketed]

end Node

/-! ### Search and reader side by side -/

theorem Reading.starts_add (reading : Reading) (node : Node) :
    (reading.add node).frames.map Frame.start = reading.frames.map Frame.start := by
  unfold Reading.add
  split
  next opened => simp [opened]
  next frame outer opened => simp [opened]

namespace Span

/-- Whether a search knows of all that has been read what it needs. -/
structure Search.Knows (offset : Int) (search : Search) (reading : Reading) : Prop where
  opened : search.opened = reading.frames.map Frame.start
  form : search.form = (Node.closedAround offset reading.settled).getLast?.map Node.span
  atom : search.atom = (Node.atomsAround offset reading.settled).getLast?.map Node.span

variable {offset : Int} {search : Search} {reading : Reading}

theorem Search.offer_opened (offset : Int) (span : Span) (search : Search) :
    (offer offset span search).opened = search.opened := by
  unfold offer
  split <;> rfl

theorem Search.offer_form (offset : Int) (span : Span) (search : Search) :
    (offer offset span search).form =
      if span.contains offset && search.form.all (·.start ≤ span.start) then some span
      else search.form := by
  rw [offer, apply_ite Search.form]

theorem Search.offer_atom (offset : Int) (span : Span) (search : Search) :
    (offer offset span search).atom = search.atom := by
  unfold offer
  split <;> rfl

/-- A form is offered that stands behind all that is settled before it and around what is in it. -/
theorem Search.Knows.close (knows : search.Knows offset reading) {place : Nat}
    (fits : reading.FitsTo place) (found : Bracket) (lexeme : Lexeme)
    (kind : lexeme.kind = .closing found) :
    (search.step offset lexeme).Knows offset (reading.close found lexeme) := by
  have opened := knows.opened
  cases frames : reading.frames with
  | nil =>
    -- A stray bracket: neither knows of an open form.
    rw [frames, List.map_nil] at opened
    have same : search.step offset lexeme = search := by
      simp only [Search.step, kind, opened]
    rw [same, Reading.close, frames]
    exact ⟨knows.opened, knows.form, knows.atom⟩
  | cons frame outer =>
    rw [frames, List.map_cons] at opened
    rw [Reading.FitsTo, frames] at fits
    -- The form goes between what was settled around it and what was settled in it.
    let around : Reading := { reading with frames := outer }
    have outside : around.FitsTo frame.start := fits.2
    let form : Node := .form frame.bracket frame.start lexeme.stop true frame.items.reverse
    have stepped : search.step offset lexeme =
        Search.offer offset form.span { search with opened := outer.map Frame.start } := by
      simp only [Search.step, kind, opened]
      rfl
    have before : reading.settled = around.settled ++ Node.settled frame.items.reverse :=
      Reading.settled_of_frame frames
    have after : (around.add form).settled =
        around.settled ++ form :: Node.settled frame.items.reverse := by
      rw [Reading.settled_add, Node.settled_closed]
    have early : ∀ node ∈ around.settled, node.start ≤ form.start := by
      intro node member
      have within := outside.settled_within node member
      exact Nat.le_of_lt (Nat.lt_of_lt_of_le within.1 within.2)
    have late : ∀ node ∈ Node.settled frame.items.reverse, form.start < node.start := by
      intro node member
      exact (fits.1.walkAll.within node (List.mem_filter.mp member).1).1
    have last := Node.last_closedAround offset around.settled
      (Node.settled frame.items.reverse) form rfl early late
    rw [← before, ← after, ← knows.form] at last
    -- `last` is now the test of the search, word for word.
    have closed : (search.step offset lexeme).Knows offset (around.add form) := by
      rw [stepped]
      refine ⟨?_, ?_, ?_⟩
      · rw [Search.offer_opened, Reading.starts_add]
      · rw [Search.offer_form, last]
        rfl
      · rw [Search.offer_atom, after, Node.atomsAround_form _ _ _ _ rfl, ← before]
        exact knows.atom
    rw [Reading.close, frames]
    dsimp only
    split
    · exact closed
    · exact ⟨closed.opened, closed.form, closed.atom⟩

theorem Search.Knows.add (knows : search.Knows offset reading) (lexeme : Lexeme)
    (kind : lexeme.kind = .string ∨ lexeme.kind = .unterminated ∨ lexeme.kind = .atom) :
    (search.step offset lexeme).Knows offset
      (reading.add (.atom ⟨lexeme.value, lexeme.start, lexeme.stop⟩)) := by
  have stepped : search.step offset lexeme =
      if (Span.mk lexeme.start lexeme.stop).contains offset then
        { search with atom := some ⟨lexeme.start, lexeme.stop⟩ }
      else search := by
    rcases kind with kind | kind | kind <;> simp only [Search.step, kind]
  have settled := reading.settled_add (.atom ⟨lexeme.value, lexeme.start, lexeme.stop⟩)
  rw [Node.settled_atom] at settled
  rw [stepped]
  refine ⟨?_, ?_, ?_⟩
  · rw [Reading.starts_add, ← knows.opened]
    split <;> rfl
  · rw [settled, Node.closedAround_append]
    have none : Node.closedAround offset [.atom ⟨lexeme.value, lexeme.start, lexeme.stop⟩] = [] :=
      rfl
    rw [none, List.append_nil, ← knows.form]
    split <;> rfl
  · rw [settled, Node.atomsAround_append, List.getLast?_append]
    have only : Node.atomsAround offset [.atom ⟨lexeme.value, lexeme.start, lexeme.stop⟩] =
        if (Span.mk lexeme.start lexeme.stop).contains offset then
          [.atom ⟨lexeme.value, lexeme.start, lexeme.stop⟩] else [] := by
      rw [Node.atomsAround, List.filter_cons]
      rfl
    rw [only]
    split
    · rfl
    · exact knows.atom

theorem Search.Knows.step (knows : search.Knows offset reading) {place : Nat}
    (fits : reading.FitsTo place) (lexeme : Lexeme) :
    (search.step offset lexeme).Knows offset (reading.step lexeme) := by
  unfold Reading.step
  split
  next kind =>
    have same : search.step offset lexeme = search := by
      simp only [Search.step, kind]
    rwa [same]
  next bracket kind =>
    -- A form that is only opened is not settled yet.
    have stepped : search.step offset lexeme =
        { search with opened := lexeme.start :: search.opened } := by
      simp only [Search.step, kind]
    have settled := reading.settled_open bracket lexeme.start
    rw [stepped]
    refine ⟨?_, ?_, ?_⟩
    · rw [knows.opened]
      rfl
    · rw [settled]
      exact knows.form
    · rw [settled]
      exact knows.atom
  next found kind => exact knows.close fits found lexeme kind
  next kind =>
    have added := knows.add lexeme (.inr (.inl kind))
    exact ⟨added.opened, added.form, added.atom⟩
  next kind => exact knows.add lexeme (.inl kind)
  next kind => exact knows.add lexeme (.inr (.inr kind))

theorem Search.Knows.run {low high : Nat} {lexemes : List Lexeme}
    (knows : search.Knows offset reading) (fits : reading.FitsTo low)
    (inOrder : Lexeme.InOrder low high lexemes) :
    (lexemes.foldl (Search.step offset) search).Knows offset
      (lexemes.foldl Reading.step reading) := by
  induction lexemes generalizing low search reading with
  | nil => exact knows
  | cons lexeme rest ih =>
    obtain ⟨later, filled, following⟩ := inOrder
    exact ih (knows.step fits lexeme) (fits.step lexeme later filled) following

theorem knows_scan (text : Text) (offset : Int) :
    ((Lexeme.scan text).foldl (Search.step offset) ⟨[], none, none⟩).Knows offset
      ((Lexeme.scan text).foldl Reading.step Reading.empty) := by
  have start : (Search.mk [] none none).Knows offset Reading.empty := ⟨rfl, rfl, rfl⟩
  have empty : Reading.empty.FitsTo 0 := Nat.le_refl 0
  exact start.run empty (Lexeme.inOrder_scan text)

/-- What a search finds is the last closed form around the offset in pre-order, or else the last
atom. -/
theorem enclosing?_eq (text : Text) (offset : Int) :
    enclosing? text offset =
      ((Node.closedAround offset (Node.walkAll (Form.read text).1)).getLast?.map Node.span).or
        ((Node.atomsAround offset (Node.walkAll (Form.read text).1)).getLast?.map Node.span) := by
  have knows := knows_scan text offset
  have settled : Node.settled (Form.read text).1 = _ := Reading.settled_forest _ text.length
  rw [enclosing?, knows.form, knows.atom, ← settled, Node.closedAround_settled,
    Node.atomsAround_settled]

/-! ### The innermost form -/

theorem contains_iff (span : Span) (offset : Int) :
    span.contains offset = true ↔ span.start ≤ offset ∧ offset < span.stop := by
  simp [contains]

/-- A node that holds an offset is around or in every other one that does. -/
theorem surrounds_of_precedes {node later : Node} (precedes : node.Precedes later)
    (holds : node.isAround offset = true) (holds' : later.isAround offset = true) :
    node.Surrounds later := by
  rcases precedes with behind | surrounds
  · obtain ⟨_, inside⟩ := (Node.isAround_iff offset node).mp holds
    obtain ⟨outside, _⟩ := (Node.isAround_iff offset later).mp holds'
    omega
  · exact surrounds

/-- Of closed forms around an offset the last is in all others. -/
theorem inside_of_last {nodes outer : List Node} {form : Node}
    (apart : nodes.Pairwise Node.Precedes)
    (closed : Node.closedAround offset nodes = outer ++ [form]) :
    ∀ other ∈ outer, other.start < form.start ∧ form.stop < other.stop := by
  intro other member
  have sorted : (outer ++ [form]).Pairwise Node.Precedes := closed ▸ apart.filter _
  have precedes := (List.pairwise_append.mp sorted).2.2 other member form List.mem_cons_self
  have around (node : Node) (listed : node ∈ outer ++ [form]) :
      node.isClosed = true ∧ node.isAround offset = true := by
    rw [← closed] at listed
    simpa using (List.mem_filter.mp listed).2
  obtain ⟨bracketed, holds⟩ := around other (List.mem_append_left _ member)
  obtain ⟨_, holds'⟩ := around form (by simp)
  have surrounds := surrounds_of_precedes precedes holds holds'
  obtain ⟨above, below⟩ := (Node.isAround_iff offset form).mp holds'
  cases other with
  | atom a => cases bracketed
  | form bracket start stop shut items =>
    cases shut with
    | false => cases bracketed
    | true =>
      obtain ⟨behind, before⟩ := surrounds
      rw [if_pos rfl] at before
      have within : form.stop < stop := by omega
      exact ⟨behind, within⟩

/-- No two atoms hold an offset. -/
theorem single_of_atoms {nodes others : List Node} {atom : Node}
    (apart : nodes.Pairwise Node.Precedes)
    (atoms : Node.atomsAround offset nodes = atom :: others) : others = [] := by
  have sorted : (atom :: others).Pairwise Node.Precedes := atoms ▸ apart.filter _
  have around (node : Node) (listed : node ∈ atom :: others) :
      node.isAtom = true ∧ node.isAround offset = true := by
    rw [← atoms] at listed
    simpa using (List.mem_filter.mp listed).2
  obtain ⟨plain, holds⟩ := around atom List.mem_cons_self
  rw [List.eq_nil_iff_forall_not_mem]
  intro other member
  obtain ⟨_, holds'⟩ := around other (List.mem_cons_of_mem atom member)
  have precedes := (List.pairwise_cons.mp sorted).1 other member
  have surrounds := surrounds_of_precedes precedes holds holds'
  -- An atom is around nothing.
  cases atom with
  | atom a => exact surrounds
  | form bracket start stop closed items => cases plain

/-- The form around an offset is what the tree of the text says: of the closed forms there the one
in all others, or else the one atom there, or nothing. -/
theorem enclosing_of_tree (text : Text) (offset : Int) :
    (∃ outer form, Node.closedAround offset (Node.walkAll (Form.read text).1) = outer ++ [form] ∧
      (∀ other ∈ outer, other.start < form.start ∧ form.stop < other.stop) ∧
      enclosing? text offset = some form.span) ∨
    (Node.closedAround offset (Node.walkAll (Form.read text).1) = [] ∧
      ∃ atom, Node.atomsAround offset (Node.walkAll (Form.read text).1) = [atom] ∧
        enclosing? text offset = some atom.span) ∨
    (Node.closedAround offset (Node.walkAll (Form.read text).1) = [] ∧
      Node.atomsAround offset (Node.walkAll (Form.read text).1) = [] ∧
      enclosing? text offset = none) := by
  have apart := (Form.allFit_read text).walkAll.apart
  rw [enclosing?_eq]
  generalize Node.walkAll (Form.read text).1 = nodes at apart ⊢
  rcases List.eq_nil_or_concat (Node.closedAround offset nodes) with none | ⟨outer, form, closed⟩
  · right
    rw [none]
    cases atoms : Node.atomsAround offset nodes with
    | nil => exact .inr ⟨rfl, rfl, rfl⟩
    | cons atom others =>
      rw [single_of_atoms apart atoms]
      exact .inl ⟨rfl, atom, rfl, rfl⟩
  · left
    rw [List.concat_eq_append] at closed
    refine ⟨outer, form, closed, inside_of_last apart closed, ?_⟩
    rw [closed]
    simp

/-- A bracket of the wrong kind closes a form, a stray one none, and an open form is none yet. -/
example : enclosing? "] (a [b) [c".toList 5 = some ⟨5, 8⟩ ∧
    enclosing? "] (a [b) [c".toList 3 = some ⟨3, 4⟩ ∧ enclosing? "] (a [b) [c".toList 2 = none := by
  decide +kernel

end Span

end FormWatch
