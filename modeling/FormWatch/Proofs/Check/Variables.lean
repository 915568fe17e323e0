import FormWatch.Proofs.Check.Pointing
import FormWatch.Proofs.Form.Layout

/-!
Unused variables. A form that begins with `let` or `let*` and a list of bindings is a scope. A node
of the list binds a name if it is an atom, or begins with one; what follows the name is its initial
value. A variable is used where an atom with its name occurs in the body or, if the bindings are
sequential, in the initial value of a later one. The warnings of a text are the unused variables of
its scopes, one for each binding (`warnings_of_text`). The more of a form a variable is seen in, the
fewer warnings there are (`unused_sublist`).
-/

namespace FormWatch

namespace Node

/-- Whether an atom with a name is in a forest, at any depth. -/
def Occurs (name : Text) (forest : List Node) : Prop :=
  ∃ path a, at? forest path = some (.atom a) ∧ a.value = name

variable {name : Text} {forest : List Node}

theorem mem_walkAll_iff_at? (node : Node) :
    node ∈ walkAll forest ↔ ∃ path, at? forest path = some node := by
  constructor
  · intro member
    obtain ⟨place, path, found⟩ := exists_at? member
    exact ⟨place :: path, found⟩
  · rintro ⟨path, found⟩
    exact mem_walkAll_of_at? found

theorem occurs_iff :
    Occurs name forest ↔ ∃ root ∈ forest, ∃ a, .atom a ∈ walk root ∧ a.value = name := by
  constructor
  · rintro ⟨path, a, found, value⟩
    obtain ⟨root, listed, inside⟩ := (mem_walkAll_iff _ _).mp (mem_walkAll_of_at? found)
    exact ⟨root, listed, a, inside, value⟩
  · rintro ⟨root, listed, a, inside, value⟩
    obtain ⟨path, found⟩ :=
      (mem_walkAll_iff_at? _).mp ((mem_walkAll_iff _ _).mpr ⟨root, listed, inside⟩)
    exact ⟨path, a, found, value⟩

theorem Occurs.of_subset {forest' : List Node} (occurs : Occurs name forest)
    (more : forest ⊆ forest') : Occurs name forest' := by
  obtain ⟨root, listed, here⟩ := occurs_iff.mp occurs
  exact occurs_iff.mpr ⟨root, more listed, here⟩

theorem occurs_append {later : List Node} :
    Occurs name (forest ++ later) ↔ Occurs name forest ∨ Occurs name later := by
  simp only [occurs_iff, List.mem_append, or_and_right, exists_or]

theorem not_occurs_nil : ¬ Occurs name [] := by
  rw [occurs_iff]
  rintro ⟨root, listed, _⟩
  cases listed

end Node

namespace Check

variable {name : Text} {body : List Node}

theorem mentions_iff {forest : List Node} :
    mentions forest name = true ↔ Node.Occurs name forest := by
  rw [mentions, List.any_eq_true]
  constructor
  · rintro ⟨a, listed, value⟩
    obtain ⟨node, member, same⟩ := List.mem_filterMap.mp listed
    obtain ⟨path, found⟩ := (Node.mem_walkAll_iff_at? _).mp member
    cases node with
    | atom a' =>
      cases same
      exact ⟨path, a, found, of_decide_eq_true value⟩
    | form bracket start stop closed items => cases same
  · rintro ⟨path, a, found, value⟩
    refine ⟨a, List.mem_filterMap.mpr ⟨.atom a, Node.mem_walkAll_of_at? found, rfl⟩, ?_⟩
    exact decide_eq_true value

instance (forest : List Node) : Decidable (Node.Occurs name forest) :=
  decidable_of_iff (mentions forest name = true) mentions_iff

/-! ### Scopes -/

/-- The name that a node of a list of bindings binds: the node itself, or the first of its items. -/
def boundName? : Node → Option Atom
  | .atom name => some name
  | .form _ _ _ _ items =>
    match items.head? with
    | some (.atom name) => some name
    | _ => none

/-- The initial value in a node of a list of bindings: the items after the name. -/
def initialValue : Node → List Node
  | .atom _ => []
  | .form _ _ _ _ items => items.drop 1

/-- The list of bindings of a form and the body they are for; if they are sequential, the initial
values see the variables bound before them. -/
structure Scope where
  sequential : Bool
  list : List Node
  body : List Node

/-- The scope of a form whose head is `let` or `let*` and whose second item is a form. -/
def scope? : Node → Option Scope
  | .form _ _ _ _ (.atom head :: .form _ _ _ _ list :: body) =>
    if head.value = "let".toList then some ⟨false, list, body⟩
    else if head.value = "let*".toList then some ⟨true, list, body⟩
    else none
  | _ => none

namespace Scope

variable (scope : Scope)

/-- Whether a name is used where a variable is seen that the list binds at an index: in the body or,
if the bindings are sequential, in the initial value of a later one. -/
def Uses (index : Nat) (name : Text) : Prop :=
  Node.Occurs name scope.body ∨
    scope.sequential = true ∧
      ∃ later ∈ scope.list.drop (index + 1),
        (boundName? later).isSome = true ∧ Node.Occurs name (initialValue later)

instance (index : Nat) (name : Text) : Decidable (scope.Uses index name) :=
  inferInstanceAs (Decidable (_ ∨ _ ∧ ∃ later ∈ scope.list.drop (index + 1), _))

/-- The warning for a node of the list and its index, if it binds a variable that is not used. -/
def warning? (entry : Node × Nat) : Option Finding :=
  (boundName? entry.1).bind fun name =>
    if scope.Uses entry.2 name.value then none
    else some ⟨.unusedVariable name.value, name.start⟩

/-- The warnings for the bindings of a scope, in their order. -/
def warnings : List Finding :=
  scope.list.zipIdx.filterMap scope.warning?

end Scope

/-! ### The warnings of a scope -/

theorem binding?_eq (node : Node) :
    binding? node = (boundName? node).map fun name => ⟨name, initialValue node⟩ := by
  match node with
  | .atom _ | .form _ _ _ _ [] | .form _ _ _ _ (.atom _ :: _) | .form _ _ _ _ (.form .. :: _) => rfl

/-- An atom is in the initial values of the bindings of a list if it is in one of them. -/
theorem occurs_inits {list : List Node} :
    Node.Occurs name ((list.filterMap binding?).flatMap Binding.init) ↔
      ∃ node ∈ list, (boundName? node).isSome = true ∧ Node.Occurs name (initialValue node) := by
  induction list with
  | nil => simp [Node.not_occurs_nil]
  | cons node later ih =>
    rw [List.exists_mem_cons_iff, ← ih]
    cases bound : boundName? node with
    | none => simp [binding?_eq, bound]
    | some a => simp [binding?_eq, bound, Node.occurs_append]

namespace Scope

variable (scope : Scope)

/-- The variable that a node binds is seen in the body and, if the bindings are sequential, in the
initial values after it. -/
theorem mentions_eq {before later : List Node} {node : Node}
    (cut : scope.list = before ++ node :: later) (name : Text) :
    mentions (scope.body ++
        if scope.sequential then (later.filterMap binding?).flatMap Binding.init else []) name =
      decide (scope.Uses before.length name) := by
  have behind : scope.list.drop (before.length + 1) = later := by
    rw [cut, List.drop_append]
    simp
  rw [Bool.eq_iff_iff, mentions_iff, decide_eq_true_iff, Node.occurs_append, Uses, behind]
  cases scope.sequential with
  | true => simp [occurs_inits]
  | false => simp [Node.not_occurs_nil]

theorem unused_eq_of_append {before later : List Node} (cut : scope.list = before ++ later) :
    unused scope.sequential scope.body (later.filterMap binding?) =
      (later.zipIdx before.length).filterMap scope.warning? := by
  induction later generalizing before with
  | nil => rfl
  | cons node later ih =>
    -- The node joins those before; its index is their number.
    have cut' : scope.list = (before ++ [node]) ++ later := by
      rw [cut, List.append_assoc]
      rfl
    have rest := ih cut'
    rw [List.length_append, List.length_singleton] at rest
    rw [List.zipIdx_cons]
    cases bound : boundName? node with
    | none =>
      rw [List.filterMap_cons_none (by rw [binding?_eq, bound, Option.map_none]),
        List.filterMap_cons_none (by rw [warning?, bound, Option.bind_none]), rest]
    | some name =>
      rw [List.filterMap_cons_some (by rw [binding?_eq, bound, Option.map_some]), unused,
        scope.mentions_eq cut, rest]
      by_cases used : scope.Uses before.length name.value
      · rw [List.filterMap_cons_none (by rw [warning?, bound, Option.bind_some, if_pos used])]
        simp [used]
      · rw [List.filterMap_cons_some (by rw [warning?, bound, Option.bind_some, if_neg used])]
        simp [used]

theorem unused_eq_warnings :
    unused scope.sequential scope.body (scope.list.filterMap binding?) = scope.warnings := by
  have whole : scope.list = [] ++ scope.list := rfl
  exact scope.unused_eq_of_append whole

end Scope

/-- What is found at a form whose second item is a form depends on its head. -/
theorem variableFindings_of_list (bracket : Bracket) (start stop : Nat) (closed : Bool)
    (head : Atom) (bracket' : Bracket) (start' stop' : Nat) (closed' : Bool) (list body : List Node) :
    variableFindings (.form bracket start stop closed
        (.atom head :: .form bracket' start' stop' closed' list :: body)) =
      if head.value ∈ binders then
        unused (head.value = sequentialBinder) body (list.filterMap binding?)
      else [] := by
  simp only [variableFindings, Node.head?, Option.any_some, decide_eq_true_eq]
  rfl

/-- The unused variables of a node are the warnings of its scope. -/
theorem variableFindings_eq (node : Node) :
    variableFindings node = ((scope? node).map Scope.warnings).getD [] := by
  cases node with
  | atom a => rfl
  | form bracket start stop closed items =>
    match items with
    | [] | .form .. :: _ => rfl
    | [.atom head] | .atom head :: .atom _ :: _ =>
      -- Without a second item that is a form there are no bindings.
      rw [variableFindings]
      split <;> rfl
    | .atom head :: .form _ _ _ _ list :: body =>
      rw [variableFindings_of_list, scope?]
      by_cases plain : head.value = "let".toList
      · rw [if_pos plain, plain]
        exact Scope.unused_eq_warnings ⟨false, list, body⟩
      · rw [if_neg plain]
        by_cases sequential : head.value = "let*".toList
        · rw [if_pos sequential, sequential]
          exact Scope.unused_eq_warnings ⟨true, list, body⟩
        · have other : head.value ∉ binders := by
            simp only [binders, sequentialBinder, List.mem_cons, List.not_mem_nil, or_false, not_or]
            exact ⟨plain, sequential⟩
          rw [if_neg sequential, if_neg other]
          rfl

/-! ### Fewer warnings -/

/-- The more of a form a variable is seen in, the fewer variables are unused. -/
theorem unused_sublist {sequential sequential' : Bool} {body body' : List Node}
    (more : body ⊆ body') (further : sequential = true → sequential' = true)
    (bindings : List Binding) :
    (unused sequential' body' bindings).Sublist (unused sequential body bindings) := by
  induction bindings with
  | nil => exact .slnil
  | cons binding later ih =>
    have seen : mentions (body ++ if sequential then later.flatMap Binding.init else [])
          binding.name.value = true →
        mentions (body' ++ if sequential' then later.flatMap Binding.init else [])
          binding.name.value = true := by
      rw [mentions_iff, mentions_iff, Node.occurs_append, Node.occurs_append]
      refine Or.imp (·.of_subset more) fun initial => ?_
      cases sequential with
      | true => rwa [further rfl]
      | false => exact absurd initial Node.not_occurs_nil
    -- Of the two answers only one is left out: seen in the smaller scope, but not in the larger.
    simp only [unused]
    generalize mentions (body ++ _) binding.name.value = used at seen ⊢
    generalize mentions (body' ++ _) binding.name.value = used' at seen ⊢
    cases used' with
    | true =>
      cases used with
      | true => exact ih
      | false => exact ih.cons _
    | false =>
      cases used with
      | true => cases seen rfl
      | false => exact ih.cons_cons _

/-- The initial values of later bindings are seen besides the body, so sequential bindings have no
warnings of their own. -/
theorem variableFindings_sequential {head head' : Atom} (sequential : head.value = "let*".toList)
    (plain : head'.value = "let".toList) (bracket : Bracket) (start stop : Nat) (closed : Bool)
    (items : List Node) :
    (variableFindings (.form bracket start stop closed (.atom head :: items))).Sublist
      (variableFindings (.form bracket start stop closed (.atom head' :: items))) := by
  match items with
  | [] | .atom _ :: _ =>
    rw [variableFindings_eq]
    exact List.nil_sublist _
  | .form _ _ _ _ list :: body =>
    have binds : head.value ∈ binders := by
      rw [sequential]
      exact List.mem_cons_of_mem _ List.mem_cons_self
    have binds' : head'.value ∈ binders := by
      rw [plain]
      exact List.mem_cons_self
    have unordered : "let".toList ≠ sequentialBinder := by decide +kernel
    rw [variableFindings_of_list, variableFindings_of_list, if_pos binds, if_pos binds', plain,
      decide_eq_false unordered]
    exact unused_sublist (List.Subset.refl body) Bool.noConfusion _

/-- A longer body does not give a form more warnings. -/
theorem variableFindings_longer (bracket : Bracket) (start stop : Nat) (closed : Bool)
    (head list : Node) {body body' : List Node} (more : body ⊆ body') :
    (variableFindings (.form bracket start stop closed (head :: list :: body'))).Sublist
      (variableFindings (.form bracket start stop closed (head :: list :: body))) := by
  match head, list with
  | .form .., _ | .atom _, .atom _ =>
    rw [variableFindings_eq]
    exact List.nil_sublist _
  | .atom head, .form _ _ _ _ list =>
    rw [variableFindings_of_list, variableFindings_of_list]
    split
    · exact unused_sublist more id _
    · exact List.Sublist.refl _

theorem variableFindings_of_nodes (nodes : List Node) :
    nodes.flatMap variableFindings = (nodes.filterMap scope?).flatMap Scope.warnings := by
  induction nodes with
  | nil => rfl
  | cons node rest ih =>
    rw [List.flatMap_cons, ih, variableFindings_eq, List.filterMap_cons]
    cases scope? node <;> rfl

end Check

/-! ### Messages -/

/-- Texts with other characters behind their first blanks do not begin alike. -/
theorem Text.not_prefix_of_blank {word word' rest rest' : Text} {c d : Char} (unspaced : ' ' ∉ word)
    (unspaced' : ' ' ∉ word') (differ : c ≠ d) :
    ¬ (word ++ ' ' :: c :: rest) <+: (word' ++ ' ' :: d :: rest') := by
  have plain {word : Text} (unspaced : ' ' ∉ word) : ∀ e ∈ word, decide (e ≠ ' ') = true := by
    intro e listed
    exact decide_eq_true fun same => unspaced (same ▸ listed)
  rintro ⟨more, same⟩
  -- Up to the first blank both are dropped, and the characters behind the blanks differ.
  have tails := congrArg (List.dropWhile (decide <| · ≠ ' ')) same
  rw [List.append_assoc, List.dropWhile_append_of_pos (plain unspaced),
    List.dropWhile_append_of_pos (plain unspaced'), List.cons_append,
    List.dropWhile_cons_of_neg (by decide), List.dropWhile_cons_of_neg (by decide)] at tails
  exact differ (List.cons.inj (List.cons.inj tails).2).1

namespace Problem

/-- The message about a name that is defined again does not begin like one about an unused variable:
the name has no blank, or it begins with a quote. -/
theorem not_startsWith_redefined {text name : Text} {start stop : Nat}
    (member : .atom ⟨name, start, stop⟩ ∈ Node.walkAll (Form.read text).1) :
    Text.startsWith (redefined name).message "unused variable ".toList = false := by
  have lead : "unused variable ".toList = "unused".toList ++ ' ' :: 'v' :: "ariable ".toList := by
    decide +kernel
  have behind : " is already defined".toList = ' ' :: 'i' :: "s already defined".toList := by
    decide +kernel
  have same := congrArg₂ Text.startsWith (congrArg (name ++ ·) behind) lead
  -- A name is a symbol, which has no blank, or a string with its opening quote.
  obtain ⟨lexeme, scanned, _, value, kind⟩ := Form.lexeme_of_atom member
  have spelled := (Lexeme.piece_of_mem scanned).spelled
  rw [value] at spelled
  have quoted (quote : ∃ body, name = '"' :: body) :
      Text.startsWith (redefined name).message "unused variable ".toList = false := by
    obtain ⟨body, rfl⟩ := quote
    exact same.trans rfl
  rcases kind with kind | kind | kind
  · rw [kind] at spelled
    have unspaced : ' ' ∉ name := fun listed => absurd (spelled.2 ' ' listed) (by decide)
    refine same.trans (Bool.eq_false_iff.mpr fun begins => ?_)
    exact Text.not_prefix_of_blank (by decide +kernel) unspaced (by decide)
      (List.isPrefixOf_iff_prefix.mp begins)
  · rw [kind] at spelled
    obtain ⟨body, value, _⟩ := spelled
    exact quoted ⟨_, value⟩
  · rw [kind] at spelled
    obtain ⟨body, last, value, _⟩ := spelled
    exact quoted ⟨_, value⟩

theorem not_startsWith_of_error {problem : Problem} (level : problem.level = .error) :
    Text.startsWith problem.message "unused variable ".toList = false := by
  cases problem with
  | unmatched found => cases found <;> decide +kernel
  | mismatched found expected => cases found <;> cases expected <;> decide +kernel
  | unclosed bracket => cases bracket <;> decide +kernel
  | unterminatedString => decide +kernel
  | emptyForm | redefined | unusedVariable => cases level

theorem startsWith_unusedVariable (name : Text) :
    Text.startsWith (unusedVariable name).message "unused variable ".toList = true :=
  List.isPrefixOf_iff_prefix.mpr (List.prefix_append _ _)

end Problem

namespace Form

/-- What the reader finds is an error. -/
theorem level_of_mem_read {text : Text} {finding : Finding}
    (member : finding ∈ (Form.read text).2) :
    finding.problem.level = .error := by
  rw [findings_read, List.mem_append, List.mem_filterMap, List.mem_filterMap] at member
  rcases member with ⟨lexeme, _, found⟩ | ⟨lexeme, _, found⟩
  · unfold Lexeme.finding? at found
    split at found
    · split at found
      · cases found
        rfl
      · split at found
        · cases found
        · cases found
          rfl
    · cases found
      rfl
    all_goals cases found
  · unfold Lexeme.unclosed? at found
    split at found
    · split at found
      · cases found
        rfl
      · cases found
    all_goals cases found

end Form

namespace Check

theorem problem_of_topFindings {defined : List Text} {forest : List Node} {finding : Finding}
    (member : finding ∈ topFindings defined forest) :
    finding.problem = .emptyForm ∨ ∃ name, finding.problem = .redefined name := by
  induction forest generalizing defined with
  | nil => cases member
  | cons node rest ih =>
    cases node with
    | atom name => exact ih member
    | form bracket start stop closed items =>
      have empty (member : finding ∈ (if items.isEmpty && closed then [⟨.emptyForm, start⟩]
          else [] : List Finding)) : finding.problem = .emptyForm := by
        split at member
        · rw [List.mem_singleton.mp member]
        · cases member
      simp only [topFindings] at member
      split at member
      · rcases List.mem_append.mp member with here | later
        · exact .inl (empty here)
        · exact ih later
      next name _ =>
        rcases List.mem_append.mp member with here | later
        · rcases List.mem_append.mp here with here | again
          · exact .inl (empty here)
          · split at again
            · rw [List.mem_singleton.mp again]
              exact .inr ⟨name.value, rfl⟩
            · cases again
        · exact ih later

theorem problem_of_variableFindings {node : Node} {finding : Finding}
    (member : finding ∈ variableFindings node) :
    ∃ name, finding.problem = .unusedVariable name := by
  cases node with
  | atom name => cases member
  | form bracket start stop closed items =>
    simp only [variableFindings] at member
    split at member
    · obtain ⟨name, _, rfl⟩ := exists_name_of_bindingFindings member
      exact ⟨name.value, rfl⟩
    · cases member

end Check

/-! ### The warnings of a text -/

/-- The findings of a text that tell of unused variables are those of its forms. -/
theorem unused_of_check (text : Text) :
    ((check text).filter fun finding =>
        Text.startsWith finding.problem.message "unused variable ".toList) =
      (Node.walkAll (Form.read text).1).flatMap Check.variableFindings := by
  have errors : ∀ finding ∈ (Form.read text).2,
      ¬ Text.startsWith finding.problem.message "unused variable ".toList = true := by
    intro finding member
    rw [Problem.not_startsWith_of_error (Form.level_of_mem_read member)]
    exact Bool.false_ne_true
  have top : ∀ finding ∈ Check.topFindings [] (Form.read text).1,
      ¬ Text.startsWith finding.problem.message "unused variable ".toList = true := by
    intro finding member
    rcases Check.problem_of_topFindings member with empty | ⟨name, again⟩
    · rw [empty]
      decide +kernel
    · have made := Check.madeIn_topFindings [] _ finding member
      unfold Finding.MadeIn at made
      rw [again] at made ⊢
      obtain ⟨stop, listed⟩ := made
      rw [Problem.not_startsWith_redefined listed]
      exact Bool.false_ne_true
  have locals : ∀ finding ∈ (Node.walkAll (Form.read text).1).flatMap Check.variableFindings,
      Text.startsWith finding.problem.message "unused variable ".toList = true := by
    intro finding member
    obtain ⟨node, _, unused⟩ := List.mem_flatMap.mp member
    obtain ⟨name, problem⟩ := Check.problem_of_variableFindings unused
    rw [problem]
    exact Problem.startsWith_unusedVariable name
  show List.filter _ ((Form.read text).2 ++ Check.topFindings [] (Form.read text).1 ++
    (Node.walkAll (Form.read text).1).flatMap Check.variableFindings) = _
  rw [List.filter_append, List.filter_append, List.filter_eq_nil_iff.mpr errors,
    List.filter_eq_nil_iff.mpr top, List.filter_eq_self.mpr locals]
  rfl

/-- The warnings about unused variables of a text are those of its scopes, in pre-order of their
forms and in the order of the bindings, one for each variable that is not used. With the same items,
sequential bindings have some of the warnings of others, and a longer body has some of those of a
shorter. -/
theorem warnings_of_text (text : Text) :
    let forest := (Form.read text).1
    ((∀ node, node ∈ Node.walkAll forest ↔ ∃ path, Node.at? forest path = some node) ∧
      (Node.walkAll forest).Pairwise fun node later => node.start < later.start) ∧
    ((check text).filter fun finding =>
        Text.startsWith finding.problem.message "unused variable ".toList) =
      ((Node.walkAll forest).filterMap Check.scope?).flatMap Check.Scope.warnings ∧
    (∀ bracket start stop closed head head' items,
      head.value = "let*".toList → head'.value = "let".toList →
      (Check.variableFindings (.form bracket start stop closed (.atom head :: items))).Sublist
        (Check.variableFindings (.form bracket start stop closed (.atom head' :: items)))) ∧
    (∀ bracket start stop closed head list body body', body ⊆ body' →
      (Check.variableFindings (.form bracket start stop closed (head :: list :: body'))).Sublist
        (Check.variableFindings (.form bracket start stop closed (head :: list :: body)))) := by
  intro forest
  refine ⟨⟨Node.mem_walkAll_iff_at?, (Form.allFit_read text).walkAll.ascending⟩, ?_, ?_, ?_⟩
  · rw [unused_of_check, Check.variableFindings_of_nodes]
  · intro bracket start stop closed head head' items sequential plain
    exact Check.variableFindings_sequential sequential plain bracket start stop closed items
  · intro bracket start stop closed head list body body' more
    exact Check.variableFindings_longer bracket start stop closed head list more

/-- A variable that only a later initial value uses is unused unless the bindings are sequential,
and one more item in the body can use the other. -/
theorem warnings_of_later_value :
    let list : Node := .form .round 6 15 true [.atom ⟨['a'], 7, 8⟩,
      .form .round 9 14 true [.atom ⟨['b'], 10, 11⟩, .atom ⟨['a'], 12, 13⟩]]
    let sequential : Node := .form .round 0 18 true [.atom ⟨"let*".toList, 1, 5⟩, list]
    let plain : Node := .form .round 0 18 true [.atom ⟨"let".toList, 1, 5⟩, list]
    let longer : Node :=
      .form .round 0 18 true [.atom ⟨"let".toList, 1, 5⟩, list, .atom ⟨['b'], 16, 17⟩]
    Check.variableFindings plain = [⟨.unusedVariable ['a'], 7⟩, ⟨.unusedVariable ['b'], 10⟩] ∧
      Check.variableFindings sequential = [⟨.unusedVariable ['b'], 10⟩] ∧
      Check.variableFindings longer = [⟨.unusedVariable ['a'], 7⟩] ∧
      (Check.variableFindings sequential).Sublist (Check.variableFindings plain) ∧
      (Check.variableFindings longer).Sublist (Check.variableFindings plain) := by
  intro list sequential plain longer
  obtain ⟨_, _, fewer, shorter⟩ := warnings_of_text []
  refine ⟨by decide +kernel, by decide +kernel, by decide +kernel, ?_, ?_⟩
  · exact fewer .round 0 18 true ⟨"let*".toList, 1, 5⟩ ⟨"let".toList, 1, 5⟩ [list] rfl rfl
  · exact shorter .round 0 18 true (.atom ⟨"let".toList, 1, 5⟩) list [] [.atom ⟨['b'], 16, 17⟩]
      (List.nil_subset _)

end FormWatch
