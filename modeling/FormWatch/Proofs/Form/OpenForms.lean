import FormWatch.Proofs.Form.Listing

/-!
Open forms. A form that has been read whole is closed, and so are the forms in it, so the open forms
of a tree are those that the text leaves open. They are one chain: each reaches to the end of the
text and is the last item of the one around it (`openTail_read`, `openForms_nested`).
-/

namespace FormWatch

namespace Node

def isOpen : Node → Bool
  | .form _ _ _ false _ => true
  | _ => false

/-- The open forms of a forest in pre-order. -/
def openForms (forest : List Node) : List Node :=
  (walkAll forest).filter isOpen

theorem openForms_append (forest later : List Node) :
    openForms (forest ++ later) = openForms forest ++ openForms later := by
  simp [openForms, walkAll_append]

theorem openForms_closed (bracket : Bracket) (start stop : Nat) (items : List Node) :
    openForms [.form bracket start stop true items] = openForms items := by
  rw [openForms, walkAll, walk, walkAll, List.append_nil]
  rfl

def openListing : Listing Node where
  list := openForms
  opened _ _ := []
  list_append := openForms_append

theorem not_open_of_whole {forest : List Node} (whole : openForms forest = []) :
    ∀ node ∈ walkAll forest, node.isOpen = false := by
  simpa [openForms] using whole

/-! ### Chains -/

/-- Forests whose open forms, if there are any, are the last root, then its last item, and so on,
all with one end. -/
inductive OpenTail (stop : Nat) : List Node → Prop where
  | whole {forest : List Node} (whole : openForms forest = []) : OpenTail stop forest
  | tail {before : List Node} {bracket : Bracket} {start : Nat} {items : List Node}
    (whole : openForms before = []) (inner : OpenTail stop items) :
    OpenTail stop (before ++ [.form bracket start stop false items])

variable {stop : Nat} {forest : List Node}

theorem OpenTail.behind {before : List Node} (whole : openForms before = [])
    (tail : OpenTail stop forest) : OpenTail stop (before ++ forest) := by
  cases tail with
  | whole whole' => exact .whole (by rw [openForms_append, whole, whole', List.append_nil])
  | @tail middle bracket start items whole' inner =>
    rw [← List.append_assoc]
    exact .tail (by rw [openForms_append, whole, whole', List.append_nil]) inner

/-- An open root is the last one. -/
theorem OpenTail.last (tail : OpenTail stop forest) :
    ∀ root ∈ forest, root.isOpen = true → forest.getLast? = some root := by
  intro root member isOpen
  have closed {roots : List Node} (whole : openForms roots = []) (member : root ∈ roots) :
      False := by
    have none := not_open_of_whole whole root (mem_walkAll_of_mem member)
    rw [none] at isOpen
    cases isOpen
  cases tail with
  | whole whole => exact (closed whole member).elim
  | tail whole inner =>
    rcases List.mem_append.mp member with before | last
    · exact (closed whole before).elim
    · rw [List.mem_singleton.mp last, List.getLast?_concat]

/-- What is in a closed form of the tree is closed, and an open form has the end of the chain, which
goes on in it. -/
theorem OpenTail.form (tail : OpenTail stop forest) {bracket : Bracket} {start stop' : Nat}
    {closed : Bool} {items : List Node}
    (member : .form bracket start stop' closed items ∈ walkAll forest) :
    OpenTail stop items ∧ (closed = true → openForms items = []) ∧
      (closed = false → stop' = stop) := by
  -- In a part without open forms there is only the first case.
  have closed_part {part : List Node} (whole : openForms part = [])
      (member : .form bracket start stop' closed items ∈ walkAll part) :
      OpenTail stop items ∧ (closed = true → openForms items = []) ∧
        (closed = false → stop' = stop) := by
    have inner : openForms items = [] := by
      rw [openForms, List.filter_eq_nil_iff]
      intro node inside
      rw [not_open_of_whole whole node (walkAll_of_form _ _ _ _ _ _ member node inside)]
      exact Bool.false_ne_true
    refine ⟨.whole inner, fun _ => inner, ?_⟩
    rintro rfl
    cases not_open_of_whole whole _ member
  induction tail with
  | whole whole => exact closed_part whole member
  | @tail before bracket' start' items' whole inner ih =>
    rw [walkAll_append, List.mem_append] at member
    rcases member with early | last
    · exact closed_part whole early
    · rw [walkAll, walk, walkAll, List.append_nil, List.mem_cons] at last
      rcases last with same | inside
      · cases same
        exact ⟨inner, Bool.noConfusion, fun _ => rfl⟩
      · exact ih inside

end Node

/-! ### What has been read -/

namespace Reading

/-- Whether no form that has been read is open, those without an end apart. -/
def IsWhole (reading : Reading) : Prop :=
  reading.listed Node.openListing = []

variable {reading : Reading}

theorem IsWhole.add (whole : reading.IsWhole) {node : Node} (closed : Node.openForms [node] = []) :
    (reading.add node).IsWhole := by
  rw [IsWhole, listed_add, whole, List.nil_append]
  exact closed

theorem IsWhole.step (whole : reading.IsWhole) (lexeme : Lexeme) :
    (reading.step lexeme).IsWhole := by
  have atom : (reading.add (.atom ⟨lexeme.value, lexeme.start, lexeme.stop⟩)).IsWhole :=
    whole.add rfl
  unfold Reading.step
  split
  · exact whole
  · rw [IsWhole, listed_open, whole]
    rfl
  next found kind =>
    unfold Reading.close
    split
    · exact whole
    next frame outer opened =>
      rw [IsWhole, listed_of_frame Node.openListing opened, List.append_eq_nil_iff] at whole
      have around : ({ reading with frames := outer } : Reading).IsWhole := whole.1
      have inner : Node.openForms frame.items.reverse = [] := whole.2
      have closed := around.add
        ((Node.openForms_closed frame.bracket frame.start lexeme.stop _).trans inner)
      dsimp only
      split <;> exact closed
  · exact atom
  · exact atom
  · exact atom

theorem IsWhole.run (whole : reading.IsWhole) (lexemes : List Lexeme) :
    (lexemes.foldl Reading.step reading).IsWhole := by
  induction lexemes generalizing reading with
  | nil => exact whole
  | cons lexeme rest ih => exact ih (whole.step lexeme)

theorem IsWhole.top (whole : reading.IsWhole) : Node.openForms reading.top.reverse = [] :=
  (List.append_eq_nil_iff.mp whole).1

theorem IsWhole.items (whole : reading.IsWhole) :
    ∀ frame ∈ reading.frames, Node.openForms frame.items.reverse = [] := by
  intro frame member
  have none := List.flatMap_eq_nil_iff.mp (List.append_eq_nil_iff.mp whole).2
  exact none frame (List.mem_reverse.mpr member)

theorem IsWhole.forest (whole : reading.IsWhole) (stop : Nat) :
    Node.OpenTail stop (reading.forest stop) := by
  refine Node.OpenTail.behind whole.top ?_
  have chain (frames : List Frame)
      (items : ∀ frame ∈ frames, Node.openForms frame.items.reverse = []) (inner : List Node)
      (tail : Node.OpenTail stop inner) :
      Node.OpenTail stop (frames.foldl
        (fun inner frame =>
          [Node.form frame.bracket frame.start stop false (frame.items.reverse ++ inner)])
        inner) := by
    induction frames generalizing inner with
    | nil => exact tail
    | cons frame outer ih =>
      refine ih (fun other member => items other (List.mem_cons_of_mem _ member)) _ ?_
      have none : Node.openForms [] = [] := rfl
      exact .tail none (.behind (items frame List.mem_cons_self) tail)
  exact chain reading.frames whole.items [] (.whole rfl)

end Reading

theorem Form.isWhole_read (text : Text) :
    ((Lexeme.scan text).foldl Reading.step Reading.empty).IsWhole := by
  have start : Reading.empty.IsWhole := rfl
  exact start.run (Lexeme.scan text)

/-- The open forms of the tree of a text are one chain at its end. -/
theorem Form.openTail_read (text : Text) : Node.OpenTail text.length (Form.read text).1 :=
  (isWhole_read text).forest text.length

/-- Of two open forms of a tree the first is around the other. -/
theorem Form.openForms_nested (text : Text) :
    (Node.openForms (Form.read text).1).Pairwise Node.Surrounds := by
  have apart := (allFit_read text).walkAll
  have stop_eq {node : Node} (member : node ∈ Node.openForms (Form.read text).1) :
      node ∈ Node.walkAll (Form.read text).1 ∧ node.stop = text.length := by
    obtain ⟨listed, isOpen⟩ := List.mem_filter.mp member
    refine ⟨listed, ?_⟩
    cases node with
    | atom a => cases isOpen
    | form bracket start stop closed items =>
      cases closed with
      | true => cases isOpen
      | false => exact ((openTail_read text).form listed).2.2 rfl
  refine (apart.apart.filter Node.isOpen).imp_of_mem fun {node later} member member' precedes => ?_
  rcases precedes with behind | surrounds
  · have stop := (stop_eq member).2
    have within := apart.within later (stop_eq member').1
    omega
  · exact surrounds

end FormWatch
