import FormWatch.Proofs.Check.Variables

/-!
The top level. A definition is a form that begins with one of four heads and a name, or a form with
a name at its head. The findings of a text are those of the reader, then those of the top level,
then the unused variables (`blocks_of_check`): a top-level node is told of if it is an empty form,
or if it defines what one before it defines. So of the definitions of a name all but the first are
told of, and those inside other forms do not count.
-/

namespace FormWatch

/-- The nodes at top level stand in the same order among all nodes. -/
theorem Node.sublist_walkAll (forest : List Node) : forest.Sublist (walkAll forest) := by
  induction forest with
  | nil => exact .slnil
  | cons node rest ih =>
    rw [walkAll, ← List.singleton_append]
    refine List.Sublist.append ?_ ih
    cases node <;> simp [walk]

namespace Check

/-! ### Definitions at top level -/

/-- The name that a node defines. -/
def defined? : Node → Option Atom
  | .form _ _ _ _ (.atom head :: .atom name :: _)
  | .form _ _ _ _ (.atom head :: .form _ _ _ _ (.atom name :: _) :: _) =>
    let heads := ["define".toList, "defun".toList, "defvar".toList, "defmacro".toList]
    if heads.contains head.value then some name else none
  | _ => none

def Defines (name : Text) (node : Node) : Prop :=
  (defined? node).map Atom.value = some name

instance (name : Text) (node : Node) : Decidable (Defines name node) :=
  inferInstanceAs (Decidable (_ = _))

/-- The places where a forest defines a name at top level, in their order. -/
def definitions (name : Text) (forest : List Node) : List Atom :=
  (forest.filterMap defined?).filter (·.value = name)

/-- The note about a node, if it is a closed form without items. -/
def note? : Node → Option Finding
  | .form _ start _ true [] => some ⟨.emptyForm, start⟩
  | _ => none

/-- The warning about a node, if it defines a name that a node before it defines. -/
def repeated? (before : List Node) (node : Node) : Option Finding :=
  (defined? node).bind fun name =>
    if ∃ earlier ∈ before, Defines name.value earlier then
      some ⟨.redefined name.value, name.start⟩
    else none

/-- What is told of a node at top level and its place there. -/
def told (forest : List Node) (node : Node × Nat) : List Finding :=
  (note? node.1).toList ++ (repeated? (forest.take node.2) node.1).toList

theorem definition?_eq (bracket : Bracket) (start stop : Nat) (closed : Bool) (items : List Node) :
    definition? items = defined? (.form bracket start stop closed items) := by
  match items with
  | [] | .form .. :: _ => rfl
  | [.atom head] => exact ite_self _
  | .atom head :: .atom name :: _ | .atom head :: .form _ _ _ _ (.atom name :: _) :: _ =>
    simp only [definition?, Node.head?, Option.any_some, decide_eq_true_eq, defined?,
      ← List.contains_iff_mem]
    rfl
  | .atom head :: .form _ _ _ _ [] :: _ | .atom head :: .form _ _ _ _ (.form .. :: _) :: _ =>
    exact ite_self _

theorem note?_form (bracket : Bracket) (start stop : Nat) (closed : Bool) (items : List Node) :
    (note? (.form bracket start stop closed items)).toList =
      if items.isEmpty && closed then [⟨.emptyForm, start⟩] else [] := by
  cases items <;> cases closed <;> rfl

/-! ### What is told of the top level -/

theorem topFindings_eq_of_append {forest before later : List Node} (cut : forest = before ++ later)
    {defined : List Text}
    (same : ∀ name, name ∈ defined ↔ ∃ earlier ∈ before, Defines name earlier) :
    topFindings defined later = (later.zipIdx before.length).flatMap (told forest) := by
  induction later generalizing before defined with
  | nil => rfl
  | cons node later ih =>
    have cut' : forest = (before ++ [node]) ++ later := by
      rw [cut, List.append_assoc]
      rfl
    have taken : forest.take before.length = before := by
      rw [cut, List.take_left]
    -- The node joins those before; what it defines is defined from there on.
    have rest {names : List Text}
        (joined : ∀ name, name ∈ names ↔ name ∈ defined ∨ Defines name node) :
        topFindings names later = (later.zipIdx (before.length + 1)).flatMap (told forest) := by
      have same' : ∀ name, name ∈ names ↔ ∃ earlier ∈ before ++ [node], Defines name earlier := by
        intro name
        rw [joined, same]
        simp [or_and_right, exists_or]
      have further := ih cut' same'
      rwa [List.length_append, List.length_singleton] at further
    rw [List.zipIdx_cons, List.flatMap_cons, told, taken]
    cases node with
    | atom a =>
      rw [topFindings, rest fun name => by simp [Defines, defined?]]
      rfl
    | form bracket start stop closed items =>
      rw [topFindings, note?_form, definition?_eq bracket start stop closed]
      unfold repeated?
      cases names : defined? (.form bracket start stop closed items) with
      | none =>
        rw [rest fun name => by simp [Defines, names]]
        simp
      | some name =>
        dsimp only
        rw [rest fun other => by simp [Defines, names, eq_comm, or_comm], Option.bind_some]
        by_cases again : name.value ∈ defined
        · rw [if_pos again, if_pos ((same _).mp again)]
          rfl
        · rw [if_neg again, if_neg fun earlier => again ((same _).mpr earlier)]
          rfl

theorem topFindings_eq (forest : List Node) :
    topFindings [] forest = forest.zipIdx.flatMap (told forest) := by
  have whole : forest = [] ++ forest := rfl
  exact topFindings_eq_of_append whole (by simp)

/-! ### How often a name is told of -/

def redefinitions (name : Text) (findings : List Finding) : List Finding :=
  findings.filter (·.problem = .redefined name)

theorem redefinitions_append (name : Text) (findings later : List Finding) :
    redefinitions name (findings ++ later) =
      redefinitions name findings ++ redefinitions name later :=
  List.filter_append _ _

theorem redefinitions_eq_nil {name : Text} {findings : List Finding}
    (others : ∀ finding ∈ findings, finding.problem ≠ .redefined name) :
    redefinitions name findings = [] :=
  List.filter_eq_nil_iff.mpr fun finding member => by simpa using others finding member

theorem definitions_cons (name : Text) (node : Node) (rest : List Node) :
    definitions name (node :: rest) =
      ((defined? node).filter (·.value = name)).toList ++ definitions name rest := by
  unfold definitions
  cases names : defined? node with
  | none =>
    rw [List.filterMap_cons_none names, Option.filter_none, Option.toList_none, List.nil_append]
  | some a =>
    rw [List.filterMap_cons_some names, List.filter_cons, Option.filter_some]
    split <;> rfl

/-- All definitions of a name are told of, but for the first if it was not defined before. -/
theorem redefinitions_topFindings (name : Text) (defined : List Text) (forest : List Node) :
    redefinitions name (topFindings defined forest) =
      (if name ∈ defined then definitions name forest else (definitions name forest).tail).map
        fun again => ⟨.redefined name, again.start⟩ := by
  induction forest generalizing defined with
  | nil => simp [redefinitions, topFindings, definitions]
  | cons node rest ih =>
    rw [definitions_cons]
    cases node with
    | atom a => exact ih defined
    | form bracket start stop closed items =>
      have note : redefinitions name
          (if items.isEmpty && closed then [⟨.emptyForm, start⟩] else []) = [] := by
        refine redefinitions_eq_nil fun finding member => ?_
        split at member
        · rw [List.mem_singleton.mp member]
          exact Problem.noConfusion
        · cases member
      rw [topFindings, definition?_eq bracket start stop closed]
      cases names : defined? (.form bracket start stop closed items) with
      | none =>
        dsimp only
        rw [redefinitions_append, note, ih]
        rfl
      | some a =>
        dsimp only
        rw [redefinitions_append, redefinitions_append, note, ih, List.nil_append]
        by_cases same : a.value = name
        · -- One more definition of the name: from here on it is defined.
          subst same
          rw [if_pos List.mem_cons_self]
          by_cases again : a.value ∈ defined
          · simp [redefinitions, again, Option.filter_some]
          · simp [redefinitions, again, Option.filter_some]
        · have other : redefinitions name
              (if a.value ∈ defined then [⟨.redefined a.value, a.start⟩] else []) = [] := by
            refine redefinitions_eq_nil fun finding member => ?_
            split at member
            · rw [List.mem_singleton.mp member]
              exact fun equal => same (Problem.redefined.inj equal)
            · cases member
          have apart : name ∈ a.value :: defined ↔ name ∈ defined := by
            rw [List.mem_cons, or_iff_right (Ne.symm same)]
          rw [other]
          simp [apart, same, Option.filter_some]

end Check

/-- The findings of a text are those of the reader, which are errors, then what is told of the nodes
at top level in their order, then the unused variables. Of the definitions of a name at top level
all but the first are told of, each where it is, so as often as there are definitions but one. -/
theorem blocks_of_check (text : Text) :
    let forest := (Form.read text).1
    let errors := (Form.read text).2
    let unused := ((Node.walkAll forest).filterMap Check.scope?).flatMap Check.Scope.warnings
    check text = errors ++ forest.zipIdx.flatMap (Check.told forest) ++ unused ∧
    (∀ finding ∈ errors, finding.problem.level = .error) ∧
    (∀ finding ∈ unused, ∃ name, finding.problem = .unusedVariable name) ∧
    forest.Pairwise (fun node later => node.start < later.start) ∧
    Problem.emptyForm.level = .note ∧
    ∀ name,
      (Problem.redefined name).level = .warning ∧
      (Problem.redefined name).message = name ++ " is already defined".toList ∧
      Check.redefinitions name (check text) =
        (Check.definitions name forest).tail.map (fun again => ⟨.redefined name, again.start⟩) ∧
      (Check.redefinitions name (check text)).length =
        (Check.definitions name forest).length - 1 := by
  intro forest errors unused
  have last : (Node.walkAll forest).flatMap Check.variableFindings = unused :=
    Check.variableFindings_of_nodes _
  have blocks : check text = errors ++ Check.topFindings [] forest ++ unused := by
    rw [← last]
    rfl
  have error : ∀ finding ∈ errors, finding.problem.level = .error :=
    fun finding => Form.level_of_mem_read
  have locals : ∀ finding ∈ unused, ∃ name, finding.problem = .unusedVariable name := by
    rw [← last]
    intro finding member
    obtain ⟨node, _, found⟩ := List.mem_flatMap.mp member
    exact Check.problem_of_variableFindings found
  have ascending : forest.Pairwise fun node later => node.start < later.start :=
    (Form.allFit_read text).walkAll.ascending.sublist (Node.sublist_walkAll forest)
  refine ⟨?_, error, locals, ascending, rfl, fun name => ⟨rfl, rfl, ?_⟩⟩
  · rw [blocks, Check.topFindings_eq]
  · -- Only the block in the middle has warnings of this kind.
    have first : Check.redefinitions name errors = [] := by
      refine Check.redefinitions_eq_nil fun finding member equal => ?_
      have level := error finding member
      rw [equal] at level
      cases level
    have third : Check.redefinitions name unused = [] := by
      refine Check.redefinitions_eq_nil fun finding member equal => ?_
      obtain ⟨other, problem⟩ := locals finding member
      rw [problem] at equal
      cases equal
    have all : Check.redefinitions name (check text) =
        (Check.definitions name forest).tail.map
          (fun again => ⟨.redefined name, again.start⟩) := by
      rw [blocks, Check.redefinitions_append, Check.redefinitions_append, first, third,
        Check.redefinitions_topFindings, if_neg List.not_mem_nil, List.append_nil, List.nil_append]
    refine ⟨all, ?_⟩
    rw [all, List.length_map, List.length_tail]

/-- Three definitions of a name in different forms, the last of them not closed, and one more that
does not count inside the second. -/
theorem blocks_of_three_definitions :
    let text := "(define x) () (defun (x y) (define x)) [defvar x".toList
    let again : List Finding := [⟨.redefined ['x'], 22⟩, ⟨.redefined ['x'], 47⟩]
    check text = [⟨.unclosed .square, 39⟩, ⟨.emptyForm, 11⟩] ++ again ∧
      (Check.definitions ['x'] (Form.read text).1).map Atom.start = [8, 22, 47] ∧
      Check.redefinitions ['x'] (check text) = again := by
  intro text again
  have listed : Check.definitions ['x'] (Form.read text).1 =
      [⟨['x'], 8, 9⟩, ⟨['x'], 22, 23⟩, ⟨['x'], 47, 48⟩] := by
    decide +kernel
  obtain ⟨_, _, _, _, _, names⟩ := blocks_of_check text
  obtain ⟨_, _, all, _⟩ := names ['x']
  rw [listed] at all ⊢
  exact ⟨by decide +kernel, rfl, all⟩

end FormWatch
