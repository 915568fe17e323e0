import FormWatch.Check

/-!
Where findings are. Every lexeme stands in the text at its start, so every node of the tree does,
and every finding is placed where the token that its message names stands (`stands_check`). The tree
and the findings are built from the lexemes one by one, and each step puts only what stands in the
text; what the checks find, they find at nodes of the tree (`Finding.MadeIn`).
-/

namespace FormWatch

/-- Whether a token stands in a text at a place. -/
def Text.Holds (text token : Text) (place : Nat) : Prop :=
  token ≠ [] ∧ token <+: text.drop place

namespace Text.Holds

variable {text token : Text} {place : Nat}

theorem lt (holds : Text.Holds text token place) : place < text.length := by
  obtain ⟨filled, rest, split⟩ := holds
  apply Nat.lt_of_not_le
  intro outside
  rw [List.drop_eq_nil_of_le outside] at split
  exact filled (List.append_eq_nil_iff.mp split).1

theorem head (holds : Text.Holds text token place) (sign : Char)
    (first : token.head? = some sign) : Text.Holds text [sign] place := by
  obtain ⟨rest, rfl⟩ := List.head?_eq_some_iff.mp first
  exact ⟨List.cons_ne_nil _ _, (List.prefix_append [sign] rest).trans holds.2⟩

theorem getElem? {sign : Char} (holds : Text.Holds text [sign] place) : text[place]? = some sign := by
  obtain ⟨_, rest, split⟩ := holds
  rw [← Nat.add_zero place, ← List.getElem?_drop, ← split]
  rfl

end Text.Holds

/-! ### Lexemes -/

namespace Lexeme

/-- The character that lexemes of a kind begin with, if it is the same for all. -/
def Kind.sign? : Kind → Option Char
  | comment => some ';'
  | string | unterminated => some '"'
  | opening bracket => some bracket.opening
  | closing bracket => some bracket.closing
  | atom => none

/-- Whether a lexeme of a text that stands at an offset stands there, and begins as its kind
does. -/
structure StandsAt (offset : Nat) (text : Text) (lexeme : Lexeme) : Prop where
  later : offset ≤ lexeme.start
  holds : Text.Holds text lexeme.value (lexeme.start - offset)
  signed : ∀ sign, lexeme.kind.sign? = some sign → lexeme.value.head? = some sign

theorem sign_of_extent (c : Char) (rest : Text) (kind : Kind) (more : Nat)
    (covered : extent c rest = (some kind, more)) (sign : Char) (signed : kind.sign? = some sign) :
    c = sign := by
  unfold extent at covered
  split at covered
  next here => cases covered; cases signed; exact here
  split at covered
  next here => split at covered <;> cases covered <;> cases signed <;> exact here
  split at covered
  next here => cases covered; cases signed; exact here
  split at covered
  next here => cases covered; cases signed; exact here
  split at covered
  next here => cases covered; cases signed; exact here
  split at covered
  next here => cases covered; cases signed; exact here
  split at covered <;> cases covered
  cases signed

/-- A lexeme after the first one stands behind it. -/
theorem StandsAt.behind {offset more : Nat} {c : Char} {rest : Text} {lexeme : Lexeme}
    (stands : StandsAt (offset + more + 1) (rest.drop more) lexeme) :
    StandsAt offset (c :: rest) lexeme where
  later := by
    have later := stands.later
    omega
  holds := by
    have later := stands.later
    have place : lexeme.start - offset = more + (lexeme.start - (offset + more + 1)) + 1 := by omega
    obtain ⟨filled, holds⟩ := stands.holds
    rw [List.drop_drop] at holds
    rw [place]
    exact ⟨filled, holds⟩
  signed := stands.signed

theorem standsAt_scanAt (offset : Nat) (text : Text) (lexeme : Lexeme)
    (member : lexeme ∈ scanAt offset text) : StandsAt offset text lexeme := by
  fun_induction scanAt offset text with
  | case1 => cases member
  | case2 offset c rest more following kind covered ih =>
    rcases List.mem_cons.mp member with rfl | later
    · refine ⟨Nat.le_refl _, ⟨List.cons_ne_nil _ _, ?_⟩, ?_⟩
      · simp [List.take_prefix]
      · intro sign signed
        rw [sign_of_extent c rest kind more covered sign signed]
        rfl
    · exact (ih later).behind
  | case3 offset c rest more following covered ih => exact (ih member).behind

/-- Whether a lexeme stands in a text at its start, and begins as its kind does. -/
abbrev Stands (text : Text) (lexeme : Lexeme) : Prop := StandsAt 0 text lexeme

theorem stands_scan (text : Text) (lexeme : Lexeme) (member : lexeme ∈ scan text) :
    lexeme.Stands text :=
  standsAt_scanAt 0 text lexeme member

/-- What a lexeme of a kind with a sign begins with stands in the text. -/
theorem StandsAt.sign {text : Text} {lexeme : Lexeme} (stands : lexeme.Stands text) (sign : Char)
    (signed : lexeme.kind.sign? = some sign) : Text.Holds text [sign] lexeme.start :=
  stands.holds.head sign (stands.signed sign signed)

end Lexeme

/-! ### Trees -/

namespace Node

/-- Whether a node stands in a text: an atom with its value, a form with its opening bracket. -/
def Stands (text : Text) : Node → Prop
  | atom name => Text.Holds text name.value name.start
  | form bracket start _ _ _ => Text.Holds text [bracket.opening] start

/-- Whether all nodes of a forest stand in a text. -/
def AllStand (text : Text) (forest : List Node) : Prop :=
  ∀ node ∈ walkAll forest, node.Stands text

theorem mem_walkAll_iff (forest : List Node) (node : Node) :
    node ∈ walkAll forest ↔ ∃ root ∈ forest, node ∈ walk root := by
  induction forest with
  | nil => simp [walkAll]
  | cons first rest ih => simp [walkAll, ih]

theorem mem_walk_self (node : Node) : node ∈ walk node := by
  cases node <;> simp [walk]

theorem mem_walkAll_of_mem {forest : List Node} {node : Node} (member : node ∈ forest) :
    node ∈ walkAll forest :=
  (mem_walkAll_iff forest node).mpr ⟨node, member, mem_walk_self node⟩

mutual

/-- What is in a form of a tree is in the tree. -/
theorem walk_of_form (root : Node) (bracket : Bracket) (start stop : Nat) (closed : Bool)
    (items : List Node) (form : .form bracket start stop closed items ∈ walk root) :
    ∀ node ∈ walkAll items, node ∈ walk root := by
  cases root with
  | atom name => simp [walk] at form
  | form bracket' start' stop' closed' items' =>
    rw [walk, List.mem_cons] at form
    rcases form with same | inner
    · cases same
      exact fun node member => List.mem_cons_of_mem _ member
    · exact fun node member =>
        List.mem_cons_of_mem _ (walkAll_of_form items' bracket start stop closed items inner node member)

theorem walkAll_of_form (forest : List Node) (bracket : Bracket) (start stop : Nat) (closed : Bool)
    (items : List Node) (form : .form bracket start stop closed items ∈ walkAll forest) :
    ∀ node ∈ walkAll items, node ∈ walkAll forest := by
  cases forest with
  | nil => simp [walkAll] at form
  | cons first rest =>
    intro node member
    rw [walkAll, List.mem_append] at form ⊢
    exact form.imp
      (fun here => walk_of_form first bracket start stop closed items here node member)
      (fun later => walkAll_of_form rest bracket start stop closed items later node member)

end

namespace AllStand

variable {text : Text} {forest : List Node}

theorem nil : AllStand text [] := by
  intro node member
  cases member

theorem of_subset (all : AllStand text forest) {part : List Node} (within : part ⊆ forest) :
    AllStand text part := by
  intro node member
  obtain ⟨root, listed, inner⟩ := (mem_walkAll_iff part node).mp member
  exact all node ((mem_walkAll_iff forest node).mpr ⟨root, within listed, inner⟩)

theorem reverse (all : AllStand text forest) : AllStand text forest.reverse :=
  all.of_subset fun _ member => List.mem_reverse.mp member

theorem append {later : List Node} (all : AllStand text forest) (all' : AllStand text later) :
    AllStand text (forest ++ later) := by
  intro node member
  obtain ⟨root, listed, inner⟩ := (mem_walkAll_iff _ node).mp member
  rcases List.mem_append.mp listed with early | late
  · exact all node ((mem_walkAll_iff _ node).mpr ⟨root, early, inner⟩)
  · exact all' node ((mem_walkAll_iff _ node).mpr ⟨root, late, inner⟩)

theorem cons_atom (all : AllStand text forest) (name : Atom)
    (holds : Text.Holds text name.value name.start) : AllStand text (.atom name :: forest) := by
  intro node member
  rw [walkAll, walk, List.singleton_append, List.mem_cons] at member
  rcases member with rfl | later
  · exact holds
  · exact all node later

theorem cons_form (all : AllStand text forest) {items : List Node} (inner : AllStand text items)
    (bracket : Bracket) (start stop : Nat) (closed : Bool)
    (holds : Text.Holds text [bracket.opening] start) :
    AllStand text (.form bracket start stop closed items :: forest) := by
  intro node member
  rw [walkAll, walk, List.cons_append, List.mem_cons, List.mem_append] at member
  rcases member with rfl | within | later
  · exact holds
  · exact inner node within
  · exact all node later

end AllStand

end Node

/-! ### Findings -/

/-- The tokens that a message may name: one, or for an empty form, an opening bracket. -/
def Problem.tokens : Problem → List Text
  | unmatched found | mismatched found _ => [[found.closing]]
  | unclosed bracket => [[bracket.opening]]
  | unterminatedString => [['"']]
  | emptyForm => [[Bracket.round.opening], [Bracket.square.opening]]
  | redefined name | unusedVariable name => [name]

/-- Whether a token that the message of a finding names stands in a text at its position. -/
def Finding.Stands (text : Text) (finding : Finding) : Prop :=
  ∃ token ∈ finding.problem.tokens, Text.Holds text token finding.position

namespace Reading

/-- Whether all that has been read stands in a text. -/
structure AllStand (text : Text) (reading : Reading) : Prop where
  frames : ∀ frame ∈ reading.frames,
    Text.Holds text [frame.bracket.opening] frame.start ∧ Node.AllStand text frame.items
  top : Node.AllStand text reading.top
  findings : ∀ finding ∈ reading.findings, finding.Stands text

variable {text : Text} {reading : Reading}

theorem allStand_empty (text : Text) : Reading.empty.AllStand text :=
  ⟨by simp [Reading.empty], .nil, by simp [Reading.empty]⟩

namespace AllStand

theorem add (all : reading.AllStand text) (node : Node)
    (stands : ∀ {forest : List Node}, Node.AllStand text forest →
      Node.AllStand text (node :: forest)) : (reading.add node).AllStand text := by
  obtain ⟨frames, top, findings⟩ := all
  unfold Reading.add
  split
  · exact ⟨frames, stands top, findings⟩
  next frame outer opened =>
    refine ⟨?_, top, findings⟩
    rw [opened] at frames
    intro other member
    rcases List.mem_cons.mp member with rfl | later
    · have here := frames frame List.mem_cons_self
      exact ⟨here.1, stands here.2⟩
    · exact frames other (List.mem_cons_of_mem _ later)

theorem report (all : reading.AllStand text) (problem : Problem) (position : Nat)
    (stands : Finding.Stands text ⟨problem, position⟩) :
    (reading.report problem position).AllStand text := by
  refine ⟨all.frames, all.top, ?_⟩
  intro finding member
  rcases List.mem_cons.mp member with rfl | earlier
  · exact stands
  · exact all.findings finding earlier

theorem close (all : reading.AllStand text) (found : Bracket) (lexeme : Lexeme)
    (stands : Text.Holds text [found.closing] lexeme.start) :
    (reading.close found lexeme).AllStand text := by
  unfold Reading.close
  split
  · exact all.report _ _ ⟨_, List.mem_singleton.mpr rfl, stands⟩
  next frame outer opened =>
    obtain ⟨frames, top, findings⟩ := all
    rw [opened] at frames
    obtain ⟨holds, items⟩ := frames frame List.mem_cons_self
    have rest : ({ reading with frames := outer } : Reading).AllStand text :=
      ⟨fun other member => frames other (List.mem_cons_of_mem _ member), top, findings⟩
    have closed := rest.add
      (.form frame.bracket frame.start lexeme.stop true frame.items.reverse)
      fun forest => forest.cons_form items.reverse frame.bracket frame.start lexeme.stop true holds
    dsimp only
    split
    · exact closed
    · exact closed.report _ _ ⟨_, List.mem_singleton.mpr rfl, stands⟩

theorem step (all : reading.AllStand text) (lexeme : Lexeme) (stands : lexeme.Stands text) :
    (reading.step lexeme).AllStand text := by
  have atom := all.add (.atom ⟨lexeme.value, lexeme.start, lexeme.stop⟩)
    fun forest => forest.cons_atom _ stands.holds
  have sign := stands.sign
  unfold Reading.step
  split
  next => exact all
  next bracket kind =>
    refine ⟨?_, all.top, all.findings⟩
    intro frame member
    rcases List.mem_cons.mp member with rfl | outer
    · exact ⟨sign bracket.opening (by rw [kind]; rfl), .nil⟩
    · exact all.frames frame outer
  next found kind => exact all.close found lexeme (sign found.closing (by rw [kind]; rfl))
  next kind =>
    exact atom.report _ _ ⟨_, List.mem_singleton.mpr rfl, sign '"' (by rw [kind]; rfl)⟩
  next => exact atom
  next => exact atom

theorem forest (all : reading.AllStand text) (stop : Nat) :
    Node.AllStand text (reading.forest stop) := by
  refine all.top.reverse.append ?_
  -- Each open form is closed over what was put inside it.
  have unclosed (frames : List Frame) (inner : List Node)
      (opened : ∀ frame ∈ frames,
        Text.Holds text [frame.bracket.opening] frame.start ∧ Node.AllStand text frame.items)
      (within : Node.AllStand text inner) :
      Node.AllStand text (frames.foldl
        (fun inner frame =>
          [Node.form frame.bracket frame.start stop false (frame.items.reverse ++ inner)])
        inner) := by
    induction frames generalizing inner with
    | nil => exact within
    | cons frame outer ih =>
      obtain ⟨holds, items⟩ := opened frame List.mem_cons_self
      refine ih _ (fun other member => opened other (List.mem_cons_of_mem _ member)) ?_
      exact Node.AllStand.nil.cons_form (items.reverse.append within) _ _ _ _ holds
  exact unclosed reading.frames [] all.frames .nil

theorem allFindings (all : reading.AllStand text) :
    ∀ finding ∈ reading.allFindings, finding.Stands text := by
  intro finding member
  rcases List.mem_append.mp member with reported | unclosed
  · exact all.findings finding (List.mem_reverse.mp reported)
  · obtain ⟨frame, opened, rfl⟩ := List.mem_map.mp unclosed
    exact ⟨_, List.mem_singleton.mpr rfl, (all.frames frame (List.mem_reverse.mp opened)).1⟩

end AllStand

end Reading

/-- The forest of a text stands in it, and so do the reader's findings. -/
theorem Form.allStand_read (text : Text) :
    Node.AllStand text (Form.read text).1 ∧
      ∀ finding ∈ (Form.read text).2, finding.Stands text := by
  have steps (lexemes : List Lexeme) (stand : ∀ lexeme ∈ lexemes, lexeme.Stands text)
      (reading : Reading) (all : reading.AllStand text) :
      (lexemes.foldl Reading.step reading).AllStand text := by
    induction lexemes generalizing reading with
    | nil => exact all
    | cons lexeme rest ih =>
      exact ih (fun other member => stand other (List.mem_cons_of_mem _ member)) _
        (all.step lexeme (stand lexeme List.mem_cons_self))
  have all := steps (Lexeme.scan text) (Lexeme.stands_scan text) _ (Reading.allStand_empty text)
  exact ⟨all.forest text.length, all.allFindings⟩

/-! ### Checks -/

/-- Whether a finding of the checks is made in a forest: at a name in it, or at a closed form
without items among its roots. -/
def Finding.MadeIn (forest : List Node) (finding : Finding) : Prop :=
  match finding.problem with
  | .emptyForm => ∃ bracket stop, .form bracket finding.position stop true [] ∈ forest
  | .redefined name | .unusedVariable name =>
    ∃ stop, .atom ⟨name, finding.position, stop⟩ ∈ Node.walkAll forest
  | .unmatched _ | .mismatched _ _ | .unclosed _ | .unterminatedString => False

namespace Finding.MadeIn

variable {forest : List Node} {finding : Finding}

theorem of_rest {first : Node} (made : finding.MadeIn forest) :
    finding.MadeIn (first :: forest) := by
  unfold MadeIn at made ⊢
  split at made
  · obtain ⟨bracket, stop, member⟩ := made
    exact ⟨bracket, stop, List.mem_cons_of_mem _ member⟩
  · obtain ⟨stop, member⟩ := made
    exact ⟨stop, List.mem_append_right _ member⟩
  · obtain ⟨stop, member⟩ := made
    exact ⟨stop, List.mem_append_right _ member⟩
  all_goals exact made.elim

/-- In a forest that stands in a text, findings are made where a token of theirs stands. -/
theorem stands {text : Text} (all : Node.AllStand text forest) (made : finding.MadeIn forest) :
    finding.Stands text := by
  unfold MadeIn at made
  unfold Finding.Stands
  split at made
  next empty =>
    obtain ⟨bracket, stop, member⟩ := made
    refine ⟨[bracket.opening], ?_, all _ (Node.mem_walkAll_of_mem member)⟩
    rw [empty]
    cases bracket <;> simp [Problem.tokens]
  next name again =>
    obtain ⟨stop, member⟩ := made
    exact ⟨name, by rw [again]; exact List.mem_singleton_self name, all _ member⟩
  next name unused =>
    obtain ⟨stop, member⟩ := made
    exact ⟨name, by rw [unused]; exact List.mem_singleton_self name, all _ member⟩
  all_goals exact made.elim

end Finding.MadeIn

namespace Check

theorem mem_of_head? {items : List Node} {name : Atom} (head : Node.head? items = some name) :
    .atom name ∈ items := by
  unfold Node.head? at head
  split at head
  · cases head
    exact List.mem_cons_self
  · cases head

theorem mem_of_definedName? {items : List Node} {name : Atom}
    (defined : definedName? items = some name) : .atom name ∈ Node.walkAll items := by
  unfold definedName? at defined
  split at defined
  next first name' rest =>
    cases defined
    exact Node.mem_walkAll_of_mem (List.mem_cons_of_mem _ List.mem_cons_self)
  next first bracket start stop closed inner rest =>
    refine Node.walkAll_of_form _ bracket start stop closed inner ?_ _
      (Node.mem_walkAll_of_mem (mem_of_head? defined))
    exact Node.mem_walkAll_of_mem (List.mem_cons_of_mem _ List.mem_cons_self)
  · cases defined

/-- What binds is a name, or a form with a name at its head. -/
theorem mem_of_binding? {node : Node} {binding : Binding} (binds : binding? node = some binding) :
    .atom binding.name ∈ Node.walk node := by
  unfold binding? at binds
  split at binds
  · cases binds
    exact Node.mem_walk_self _
  · cases binds
    exact List.mem_cons_of_mem _ (Node.mem_walkAll_of_mem List.mem_cons_self)
  · cases binds

theorem exists_binding_of_unused {sequential : Bool} {body : List Node} {bindings : List Binding}
    {finding : Finding} (member : finding ∈ unused sequential body bindings) :
    ∃ binding ∈ bindings,
      finding = ⟨.unusedVariable binding.name.value, binding.name.start⟩ := by
  induction bindings with
  | nil => cases member
  | cons binding later ih =>
    have rest (member : finding ∈ unused sequential body later) :
        ∃ other ∈ binding :: later,
          finding = ⟨.unusedVariable other.name.value, other.name.start⟩ := by
      obtain ⟨other, listed, same⟩ := ih member
      exact ⟨other, List.mem_cons_of_mem _ listed, same⟩
    simp only [unused] at member
    generalize mentions _ binding.name.value = used at member
    cases used with
    | true => exact rest member
    | false =>
      rcases List.mem_cons.mp member with same | after
      · exact ⟨binding, List.mem_cons_self, same⟩
      · exact rest after

theorem exists_name_of_bindingFindings {items : List Node} {finding : Finding}
    (member : finding ∈ bindingFindings items) :
    ∃ name, .atom name ∈ Node.walkAll items ∧
      finding = ⟨.unusedVariable name.value, name.start⟩ := by
  unfold bindingFindings bindingsAndBody? at member
  split at member
  next bindings body parts =>
    split at parts
    next first bracket start stop closed inner rest =>
      cases parts
      obtain ⟨binding, listed, same⟩ := exists_binding_of_unused member
      obtain ⟨node, inside, binds⟩ := List.mem_filterMap.mp listed
      refine ⟨binding.name, ?_, same⟩
      refine Node.walkAll_of_form _ bracket start stop closed inner ?_ _ ?_
      · exact Node.mem_walkAll_of_mem (List.mem_cons_of_mem _ List.mem_cons_self)
      · exact (Node.mem_walkAll_iff _ _).mpr ⟨node, inside, mem_of_binding? binds⟩
    · cases parts
  · cases member

theorem madeIn_topFindings (defined : List Text) (forest : List Node) :
    ∀ finding ∈ topFindings defined forest, finding.MadeIn forest := by
  induction forest generalizing defined with
  | nil => simp [topFindings]
  | cons node rest ih =>
    have later (defined : List Text) : ∀ finding ∈ topFindings defined rest,
        finding.MadeIn (node :: rest) := fun finding member => (ih defined finding member).of_rest
    cases node with
    | atom name => exact later defined
    | form bracket start stop closed items =>
      have empty : ∀ finding ∈ (if items.isEmpty && closed then [⟨.emptyForm, start⟩] else [] :
          List Finding), finding.MadeIn (.form bracket start stop closed items :: rest) := by
        intro finding member
        split at member
        next bare =>
          rw [Bool.and_eq_true, List.isEmpty_iff] at bare
          obtain ⟨rfl, rfl⟩ := bare
          rw [List.mem_singleton.mp member]
          exact ⟨bracket, stop, List.mem_cons_self⟩
        · cases member
      intro finding member
      simp only [topFindings] at member
      split at member
      · rcases List.mem_append.mp member with here | after
        · exact empty finding here
        · exact later defined finding after
      next name names =>
        rcases List.mem_append.mp member with here | after
        · rcases List.mem_append.mp here with here | again
          · exact empty finding here
          · split at again
            · rw [List.mem_singleton.mp again]
              unfold definition? at names
              split at names
              · refine ⟨name.stop, List.mem_append_left _ ?_⟩
                exact List.mem_cons_of_mem _ (mem_of_definedName? names)
              · cases names
            · cases again
        · exact later _ finding after

theorem madeIn_variableFindings {forest : List Node} {node : Node}
    (listed : node ∈ Node.walkAll forest) :
    ∀ finding ∈ variableFindings node, finding.MadeIn forest := by
  intro finding member
  cases node with
  | atom name => cases member
  | form bracket start stop closed items =>
    simp only [variableFindings] at member
    split at member
    · obtain ⟨name, inside, rfl⟩ := exists_name_of_bindingFindings member
      exact ⟨name.stop, Node.walkAll_of_form forest bracket start stop closed items listed _ inside⟩
    · cases member

end Check

/-- Every finding of a text is the reader's or is made in the tree of the text. -/
theorem read_or_madeIn {text : Text} {finding : Finding} (member : finding ∈ check text) :
    finding ∈ (Form.read text).2 ∨ finding.MadeIn (Form.read text).1 := by
  simp only [check, List.mem_append, List.mem_flatMap] at member
  rcases member with (error | top) | ⟨node, listed, unused⟩
  · exact .inl error
  · exact .inr (Check.madeIn_topFindings [] _ finding top)
  · exact .inr (Check.madeIn_variableFindings listed finding unused)

/-- Every finding of a text is placed where a token that its message names stands. -/
theorem stands_check (text : Text) : ∀ finding ∈ check text, finding.Stands text := by
  obtain ⟨forest, errors⟩ := Form.allStand_read text
  intro finding member
  rcases read_or_madeIn member with error | made
  · exact errors finding error
  · exact made.stands forest

end FormWatch
