import FormWatch.Proofs.Check.Placement
import FormWatch.Proofs.Form.Flattening
import FormWatch.Proofs.Form.Locality
import Mathlib.Data.List.Basic

/-!
Findings of tokens. The checks compare names and look at the shape of the tree, never at places, so
a tree with other places has the same findings with their places changed likewise
(`ofForest_relocate`). With places in the list of tokens for places in the text, the findings of a
text come from its tokens alone (`check_eq_ofTokens`), and texts with the same tokens have the same
findings at the same tokens, whatever white space, comments and swallowed lines are between them
(`check_of_tokens`).
-/

namespace FormWatch

/-! ### Trees with other places -/

namespace Node

variable (move : Relocation)

theorem head?_relocateAll (items : List Node) :
    head? (relocateAll move items) = (head? items).map (Atom.relocate move) := by
  match items with
  | [] => rfl
  | .atom a :: rest => rfl
  | .form .. :: rest => rfl

/-- What is asked of the name at the head of a form does not depend on places. -/
theorem any_head?_relocateAll (items : List Node) (holds : Text → Bool) :
    (head? (relocateAll move items)).any (fun name => holds name.value) =
      (head? items).any fun name => holds name.value := by
  rw [head?_relocateAll, Option.any_map]
  rfl

mutual

theorem walk_relocate (node : Node) : walk (node.relocate move) = relocateAll move (walk node) := by
  cases node with
  | atom a => rfl
  | form bracket start stop closed items =>
    rw [relocate, walk, walk, relocateAll, relocate, walkAll_relocateAll]

theorem walkAll_relocateAll (forest : List Node) :
    walkAll (relocateAll move forest) = relocateAll move (walkAll forest) := by
  cases forest with
  | nil => rfl
  | cons node rest =>
    rw [relocateAll, walkAll, walkAll, walk_relocate, walkAll_relocateAll, relocateAll_append]

end

theorem atoms_relocateAll (forest : List Node) :
    atoms (relocateAll move forest) = (atoms forest).map (Atom.relocate move) := by
  rw [atoms, walkAll_relocateAll, relocateAll_eq_map, List.filterMap_map, atoms, List.map_filterMap]
  refine List.filterMap_congr fun node _ => ?_
  cases node <;> rfl

end Node

/-! ### Checks with other places -/

namespace Check

variable (move : Relocation)

def Binding.relocate (binding : Binding) : Binding where
  name := binding.name.relocate move
  init := Node.relocateAll move binding.init

theorem mentions_relocateAll (forest : List Node) (name : Text) :
    mentions (Node.relocateAll move forest) name = mentions forest name := by
  rw [mentions, Node.atoms_relocateAll, List.any_map]
  rfl

theorem binding?_relocate (node : Node) :
    binding? (node.relocate move) = (binding? node).map (Binding.relocate move) := by
  match node with
  | .atom name => rfl
  | .form _ _ _ _ [] => rfl
  | .form _ _ _ _ (.atom name :: init) => rfl
  | .form _ _ _ _ (.form .. :: init) => rfl

theorem bindings_relocateAll (items : List Node) :
    (Node.relocateAll move items).filterMap binding? =
      (items.filterMap binding?).map (Binding.relocate move) := by
  rw [Node.relocateAll_eq_map, List.filterMap_map, List.map_filterMap]
  exact List.filterMap_congr fun node _ => binding?_relocate move node

theorem inits_relocate (bindings : List Binding) :
    (bindings.map (Binding.relocate move)).flatMap Binding.init =
      Node.relocateAll move (bindings.flatMap Binding.init) := by
  induction bindings with
  | nil => rfl
  | cons binding later ih =>
    rw [List.map_cons, List.flatMap_cons, List.flatMap_cons, Node.relocateAll_append, ih]
    rfl

/-- Whether a variable is used does not depend on places. -/
theorem unused_relocate (sequential : Bool) (body : List Node) (bindings : List Binding) :
    unused sequential (Node.relocateAll move body) (bindings.map (Binding.relocate move)) =
      (unused sequential body bindings).map (Finding.relocate move) := by
  induction bindings with
  | nil => rfl
  | cons binding later ih =>
    -- A variable is sought in the body and, in a sequence, in what is bound later.
    have scope : (Node.relocateAll move body ++
        if sequential then (later.map (Binding.relocate move)).flatMap Binding.init else []) =
        Node.relocateAll move
          (body ++ if sequential then later.flatMap Binding.init else []) := by
      rw [Node.relocateAll_append, inits_relocate]
      cases sequential <;> rfl
    have name : (binding.relocate move).name.value = binding.name.value := rfl
    rw [List.map_cons]
    simp only [unused, scope, mentions_relocateAll, name, ih]
    generalize mentions _ binding.name.value = used
    cases used <;> rfl

theorem bindingFindings_relocateAll (items : List Node) :
    bindingFindings (Node.relocateAll move items) =
      (bindingFindings items).map (Finding.relocate move) := by
  have sequential : isSequential (Node.relocateAll move items) = isSequential items :=
    Node.any_head?_relocateAll move items fun name => name = sequentialBinder
  rw [bindingFindings, bindingFindings, sequential]
  match items with
  | [] => rfl
  | [_] => rfl
  | _ :: .atom _ :: _ => rfl
  | first :: .form _ _ _ _ inner :: body =>
    simp only [bindingsAndBody?, Node.relocateAll, Node.relocate, bindings_relocateAll]
    exact unused_relocate move _ body _

theorem definition?_relocateAll (items : List Node) :
    definition? (Node.relocateAll move items) = (definition? items).map (Atom.relocate move) := by
  have name : definedName? (Node.relocateAll move items) =
      (definedName? items).map (Atom.relocate move) := by
    match items with
    | [] => rfl
    | [_] => rfl
    | _ :: .atom _ :: _ => rfl
    | _ :: .form _ _ _ _ inner :: _ => exact Node.head?_relocateAll move inner
  have defines : (Node.head? (Node.relocateAll move items)).any (·.value ∈ definers) =
      (Node.head? items).any (·.value ∈ definers) :=
    Node.any_head?_relocateAll move items fun name => name ∈ definers
  rw [definition?, definition?, name, defines]
  split <;> rfl

theorem topFindings_relocateAll (defined : List Text) (forest : List Node) :
    topFindings defined (Node.relocateAll move forest) =
      (topFindings defined forest).map (Finding.relocate move) := by
  induction forest generalizing defined with
  | nil => rfl
  | cons node rest ih =>
    cases node with
    | atom a => exact ih defined
    | form bracket start stop closed items =>
      have filled : (Node.relocateAll move items).isEmpty = items.isEmpty := by cases items <;> rfl
      have note : (if items.isEmpty && closed then [⟨.emptyForm, move.start start⟩] else [] :
          List Finding) =
          (if items.isEmpty && closed then [⟨.emptyForm, start⟩] else []).map
            (Finding.relocate move) := by
        split <;> rfl
      simp only [Node.relocateAll, Node.relocate, topFindings, definition?_relocateAll, filled, note]
      cases definition? items with
      | none => simp only [Option.map_none, ih, List.map_append]
      | some name =>
        -- Names are compared as texts, so `defined` is the same on both sides.
        have again : (if name.value ∈ defined then [⟨.redefined name.value, move.start name.start⟩]
            else [] : List Finding) =
            (if name.value ∈ defined then [⟨.redefined name.value, name.start⟩] else []).map
              (Finding.relocate move) := by
          split <;> rfl
        simp only [Option.map_some, Atom.relocate, again, ih, List.map_append]

theorem variableFindings_relocate (node : Node) :
    variableFindings (node.relocate move) =
      (variableFindings node).map (Finding.relocate move) := by
  cases node with
  | atom a => rfl
  | form bracket start stop closed items =>
    have binds : (Node.head? (Node.relocateAll move items)).any (·.value ∈ binders) =
        (Node.head? items).any (·.value ∈ binders) :=
      Node.any_head?_relocateAll move items fun name => name ∈ binders
    rw [Node.relocate, variableFindings, variableFindings, binds]
    split
    · exact bindingFindings_relocateAll move items
    · rfl

/-- The findings of a forest, behind those of the reader. -/
def ofForest (forest : List Node) (errors : List Finding) : List Finding :=
  errors ++ topFindings [] forest ++ (Node.walkAll forest).flatMap variableFindings

theorem ofForest_relocate (forest : List Node) (errors : List Finding) :
    ofForest (Node.relocateAll move forest) (errors.map (Finding.relocate move)) =
      (ofForest forest errors).map (Finding.relocate move) := by
  have unused : (Node.walkAll (Node.relocateAll move forest)).flatMap variableFindings =
      ((Node.walkAll forest).flatMap variableFindings).map (Finding.relocate move) := by
    rw [Node.walkAll_relocateAll, Node.relocateAll_eq_map, List.flatMap_map, List.map_flatMap]
    simp only [variableFindings_relocate]
  rw [ofForest, topFindings_relocateAll, unused, ← List.map_append, ← List.map_append]
  rfl

end Check

/-! ### Places in the list of tokens -/

namespace Lexeme

/-- Tokens as lexemes, each at its place in the list. -/
def numbered (tokens : List Token) : List Lexeme :=
  tokens.mapIdx fun place token => ⟨token.kind, token.value, place, place + 1⟩

/-- From places in a list of lexemes to their places in a text; behind them the text ends. -/
def intoText (lexemes : List Lexeme) (stop : Nat) : Relocation where
  start place := (lexemes[place]?.map Lexeme.start).getD stop
  stop place := (lexemes[place - 1]?.map Lexeme.stop).getD stop

theorem relocate_numbered (lexemes : List Lexeme) (stop : Nat) :
    (numbered (lexemes.map token)).map (relocate (intoText lexemes stop)) = lexemes := by
  apply List.ext_getElem
  · simp [numbered]
  · intro place _ bound
    simp [numbered, relocate, intoText, token, bound]

/-- The lexemes of a text that are no comments. -/
def codeOf (text : Text) : List Lexeme :=
  (scan text).filter (!·.isComment)

end Lexeme

namespace Check

/-- The findings of tokens, with places in their list. -/
def ofTokens (tokens : List Lexeme.Token) : List Finding :=
  let reading := (Lexeme.numbered tokens).foldl Reading.step Reading.empty
  ofForest (reading.forest (tokens.length + 1)) reading.allFindings

end Check

/-- The findings of a text are those of its tokens, with the places that they have in the text. -/
theorem check_eq_ofTokens (text : Text) :
    check text = (Check.ofTokens (Lexeme.tokens (Lexeme.scan text))).map
      (Finding.relocate (Lexeme.intoText (Lexeme.codeOf text) text.length)) := by
  let code := Lexeme.codeOf text
  let move := Lexeme.intoText code text.length
  let reading := (Lexeme.numbered (code.map Lexeme.token)).foldl Reading.step Reading.empty
  -- Comments do not count, and the numbered tokens put where they stand are the other lexemes.
  have read : (Lexeme.scan text).foldl Reading.step Reading.empty = reading.relocate move [] [] := by
    rw [Reading.run_tokens, Reading.relocate_run, Lexeme.relocate_numbered]
    rfl
  -- Behind all tokens is the end of the text, where the forms that are still open stop.
  have stop : text.length = move.stop ((code.map Lexeme.token).length + 1) := by
    simp [move, Lexeme.intoText]
  have forest := Reading.forest_relocate move [] [] reading ((code.map Lexeme.token).length + 1)
  have errors := Reading.allFindings_relocate move [] [] reading
  rw [← read, ← stop] at forest
  rw [← read] at errors
  have found := Check.ofForest_relocate move (reading.forest ((code.map Lexeme.token).length + 1))
    reading.allFindings
  change Check.ofForest (Form.read text).1 (Form.read text).2 = _
  rw [Form.read, forest, errors]
  exact found

/-- A finding of a text is at one of its lexemes: no place of a token is behind them all. -/
theorem lexeme_of_finding {text : Text} {finding : Finding}
    (member : finding.relocate (Lexeme.intoText (Lexeme.codeOf text) text.length) ∈ check text) :
    ∃ lexeme, (Lexeme.codeOf text)[finding.position]? = some lexeme ∧
      (finding.relocate (Lexeme.intoText (Lexeme.codeOf text) text.length)).position =
        lexeme.start := by
  obtain ⟨token, _, holds⟩ := stands_check text _ member
  have inside := holds.lt
  simp only [Finding.relocate, Lexeme.intoText] at inside ⊢
  cases found : (Lexeme.codeOf text)[finding.position]? with
  | none =>
    rw [found] at inside
    exact (Nat.lt_irrefl _ inside).elim
  | some lexeme => exact ⟨lexeme, rfl, rfl⟩

/-- Texts with the same tokens have as many findings, with the same messages and levels, and at
tokens with the same place in both. -/
theorem check_of_tokens (text other : Text)
    (same : Lexeme.tokens (Lexeme.scan text) = Lexeme.tokens (Lexeme.scan other)) :
    (check text).length = (check other).length ∧
    ∀ (place : Nat) (finding finding' : Finding),
      (check text)[place]? = some finding → (check other)[place]? = some finding' →
        finding.problem.message = finding'.problem.message ∧
        finding.problem.level = finding'.problem.level ∧
        ∃ (index : Nat) (lexeme lexeme' : Lexeme),
          (Lexeme.codeOf text)[index]? = some lexeme ∧
          (Lexeme.codeOf other)[index]? = some lexeme' ∧
          finding.position = lexeme.start ∧ finding'.position = lexeme'.start := by
  have here := check_eq_ofTokens text
  have there := check_eq_ofTokens other
  rw [← same] at there
  constructor
  · rw [here, there, List.length_map, List.length_map]
  · intro place finding finding' found found'
    have member := List.mem_of_getElem? found
    have member' := List.mem_of_getElem? found'
    -- Both are the finding at this place among those of the tokens.
    rw [here, List.getElem?_map, Option.map_eq_some_iff] at found
    rw [there, List.getElem?_map, Option.map_eq_some_iff] at found'
    obtain ⟨base, listed, rfl⟩ := found
    obtain ⟨base', listed', rfl⟩ := found'
    obtain rfl : base = base' := Option.some.inj (listed.symm.trans listed')
    obtain ⟨lexeme, at_index, start⟩ := lexeme_of_finding member
    obtain ⟨lexeme', at_index', start'⟩ := lexeme_of_finding member'
    exact ⟨rfl, rfl, base.position, lexeme, lexeme', at_index, at_index', start, start'⟩

/-- Two definitions of a name and a bracket too many, on two lines and over five. -/
theorem check_over_layouts :
    Lexeme.tokens (Lexeme.scan "(define a)\n(define a) )".toList) =
        Lexeme.tokens (Lexeme.scan "; (\n(define\n a)\"s\\\n(define a ; y\n))".toList) ∧
      (check "(define a)\n(define a) )".toList)[1]? = some ⟨.redefined ['a'], 19⟩ ∧
      (check "; (\n(define\n a)\"s\\\n(define a ; y\n))".toList)[1]? =
        some ⟨.redefined ['a'], 27⟩ ∧
      ∃ (index : Nat) (lexeme lexeme' : Lexeme),
        (Lexeme.codeOf "(define a)\n(define a) )".toList)[index]? = some lexeme ∧
        (Lexeme.codeOf "; (\n(define\n a)\"s\\\n(define a ; y\n))".toList)[index]? =
          some lexeme' ∧
        19 = lexeme.start ∧ 27 = lexeme'.start := by
  have same : Lexeme.tokens (Lexeme.scan "(define a)\n(define a) )".toList) =
      Lexeme.tokens (Lexeme.scan "; (\n(define\n a)\"s\\\n(define a ; y\n))".toList) := by
    decide +kernel
  have found : (check "(define a)\n(define a) )".toList)[1]? = some ⟨.redefined ['a'], 19⟩ := by
    decide +kernel
  have found' : (check "; (\n(define\n a)\"s\\\n(define a ; y\n))".toList)[1]? =
      some ⟨.redefined ['a'], 27⟩ := by
    decide +kernel
  have all := (check_of_tokens _ _ same).2 1 _ _ found found'
  exact ⟨same, found, found', all.2.2⟩

end FormWatch
