import FormWatch.Proofs.Form.OpenForms
import FormWatch.Proofs.Lexeme.Tokens

/-!
Reading and flattening. Brackets that balance, with atoms and strings between them, are read without
findings, and what is read is the one forest, but for its spans, that flattens to them
(`reading_inverts_flattening`).

A run of the reader without findings flattens to the lexemes behind it (`flat_run`); lexemes that a
forest flattens to are read as that forest, whatever stands around them (`run_flatten`); and
balanced lexemes come from a forest (`exists_outline`).
-/

namespace FormWatch

/-! ### Balance -/

namespace Lexeme

/-- Sequences of kinds in which every opening bracket is closed by one of its own kind, in pairs
that stand apart or one in the other. -/
inductive Balanced : List Kind → Prop where
  | nil : Balanced []
  | plain {kind : Kind} {rest : List Kind} (not_opening : ∀ bracket, kind ≠ .opening bracket)
    (not_closing : ∀ bracket, kind ≠ .closing bracket) (behind : Balanced rest) :
    Balanced (kind :: rest)
  | pair {bracket : Bracket} {inner rest : List Kind} (inside : Balanced inner)
    (behind : Balanced rest) :
    Balanced (.opening bracket :: (inner ++ .closing bracket :: rest))

end Lexeme

/-! ### Forests without spans -/

/-- A node without its span. -/
inductive Outline where
  | atom (value : Text)
  | form (bracket : Bracket) (items : List Outline)
  deriving Repr

namespace Outline

/-- The kind of the lexemes with the value of an atom. -/
def kindOf (value : Text) : Lexeme.Kind :=
  if value.head? = some '"' then .string else .atom

mutual

/-- The tokens of a node: its opening bracket, those of its items and the closing bracket that goes
with it, or the atom. -/
def flatten : Outline → List Lexeme.Token
  | .atom value => [⟨kindOf value, value⟩]
  | .form bracket items =>
    ⟨.opening bracket, [bracket.opening]⟩ ::
      (flattenAll items ++ [⟨.closing bracket, [bracket.closing]⟩])

def flattenAll : List Outline → List Lexeme.Token
  | [] => []
  | outline :: rest => flatten outline ++ flattenAll rest

end

theorem flattenAll_append (forest later : List Outline) :
    flattenAll (forest ++ later) = flattenAll forest ++ flattenAll later := by
  induction forest with
  | nil => rfl
  | cons outline rest ih => rw [List.cons_append, flattenAll, flattenAll, ih, List.append_assoc]

/-- Whether every atom of a node is spelled as an atom or a string. -/
inductive Spelled : Outline → Prop where
  | atom {value : Text}
    (spelled : Lexeme.Kind.string.Spells value ∨ Lexeme.Kind.atom.Spells value) :
    Spelled (.atom value)
  | form {bracket : Bracket} {items : List Outline} (spelled : ∀ item ∈ items, Spelled item) :
    Spelled (.form bracket items)

theorem kindOf_eq {kind : Lexeme.Kind} {value : Text} (spelled : kind.Spells value)
    (plain : kind = .string ∨ kind = .atom) : kindOf value = kind := by
  rcases plain with rfl | rfl
  · obtain ⟨body, rfl, _⟩ := spelled
    rfl
  · obtain ⟨_, inside⟩ := spelled
    refine if_neg fun quoted => ?_
    exact (inside '"' (List.mem_of_mem_head? quoted)).2 (by decide)

theorem kindOf_cases (value : Text) : kindOf value = .string ∨ kindOf value = .atom := by
  unfold kindOf
  split
  · exact .inl rfl
  · exact .inr rfl

theorem kindOf_plain (value : Text) :
    (∀ bracket, kindOf value ≠ .opening bracket) ∧ (∀ bracket, kindOf value ≠ .closing bracket) ∧
      kindOf value ≠ .unterminated ∧ kindOf value ≠ .comment := by
  rcases kindOf_cases value with string | atom
  · simp [string]
  · simp [atom]

end Outline

namespace Node

mutual

def outline : Node → Outline
  | .atom a => .atom a.value
  | .form bracket _ _ _ items => .form bracket (outlines items)

def outlines : List Node → List Outline
  | [] => []
  | node :: rest => outline node :: outlines rest

end

theorem outlines_append (forest later : List Node) :
    outlines (forest ++ later) = outlines forest ++ outlines later := by
  induction forest with
  | nil => rfl
  | cons node rest ih => rw [List.cons_append, outlines, outlines, ih, List.cons_append]

/-- What a forest flattens to, with a closing bracket for each form, open or not. -/
def flat (forest : List Node) : List Lexeme.Token :=
  Outline.flattenAll (outlines forest)

def flatListing : Listing Lexeme.Token where
  list := flat
  opened bracket _ := [⟨.opening bracket, [bracket.opening]⟩]
  list_append forest later := by
    rw [flat, outlines_append, Outline.flattenAll_append]
    rfl

end Node

/-! ### Runs without findings -/

namespace Reading

variable {reading : Reading} {lexeme : Lexeme}

/-- A step keeps the findings before it. -/
theorem findings_step (reading : Reading) (lexeme : Lexeme) :
    reading.findings <:+ (reading.step lexeme).findings := by
  have kept (around : Reading) (same : around.findings = reading.findings) (node : Node) :
      reading.findings <:+ (around.add node).findings :=
    ⟨[], by rw [List.nil_append, findings_add, same]⟩
  unfold Reading.step
  split
  · exact List.suffix_rfl
  · exact List.suffix_rfl
  · unfold Reading.close
    split
    · exact List.suffix_cons _ _
    next frame outer _ =>
      have closed := kept { reading with frames := outer } rfl
      dsimp only
      split
      · exact closed _
      · exact (closed _).trans (List.suffix_cons _ _)
  · exact (kept reading rfl _).trans (List.suffix_cons _ _)
  · exact kept reading rfl _
  · exact kept reading rfl _

theorem findings_run (lexemes : List Lexeme) (reading : Reading) :
    reading.findings <:+ (lexemes.foldl Reading.step reading).findings := by
  induction lexemes generalizing reading with
  | nil => exact List.suffix_rfl
  | cons lexeme rest ih => exact (findings_step reading lexeme).trans (ih _)

theorem flat_atom (spelled : lexeme.kind.Spells lexeme.value)
    (plain : lexeme.kind = .string ∨ lexeme.kind = .atom) :
    (reading.add (.atom ⟨lexeme.value, lexeme.start, lexeme.stop⟩)).listed Node.flatListing =
      reading.listed Node.flatListing ++ [lexeme.token] := by
  have same : Node.flatListing.list [.atom ⟨lexeme.value, lexeme.start, lexeme.stop⟩] =
      [⟨Outline.kindOf lexeme.value, lexeme.value⟩] := rfl
  rw [listed_add, same, Outline.kindOf_eq spelled plain]
  rfl

/-- A step without a finding adds the token of its lexeme. -/
theorem flat_step (spelled : lexeme.kind.Spells lexeme.value)
    (clean : (reading.step lexeme).findings = []) :
    (reading.step lexeme).listed Node.flatListing =
      reading.listed Node.flatListing ++ Lexeme.tokens [lexeme] := by
  unfold Reading.step at clean ⊢
  split
  next kind => simp [Lexeme.tokens, Lexeme.isComment, kind]
  next bracket kind =>
    rw [kind] at spelled
    have value : lexeme.value = [bracket.opening] := spelled
    rw [listed_open]
    simp [Lexeme.tokens, Lexeme.isComment, Lexeme.token, kind, value, Node.flatListing]
  next found kind =>
    simp only [kind] at clean
    rw [kind] at spelled
    have value : lexeme.value = [found.closing] := spelled
    unfold Reading.close at clean ⊢
    split
    next opened =>
      simp only [opened] at clean
      cases clean
    next frame outer opened =>
      simp only [opened] at clean
      dsimp only
      split
      next same =>
        rw [listed_add, listed_of_frame Node.flatListing opened, List.append_assoc]
        congr 1
        simp [Lexeme.tokens, Lexeme.isComment, Lexeme.token, kind, value, same, Node.flatListing,
          Node.flat, Node.outlines, Node.outline, Outline.flattenAll, Outline.flatten]
      next differ =>
        rw [if_neg differ] at clean
        cases clean
  next kind =>
    simp only [kind] at clean
    cases clean
  next kind =>
    rw [flat_atom spelled (.inl kind)]
    simp [Lexeme.tokens, Lexeme.isComment, kind]
  next kind =>
    rw [flat_atom spelled (.inr kind)]
    simp [Lexeme.tokens, Lexeme.isComment, kind]

theorem flat_run {lexemes : List Lexeme}
    (spelled : ∀ lexeme ∈ lexemes, lexeme.kind.Spells lexeme.value)
    (clean : (lexemes.foldl Reading.step reading).findings = []) :
    (lexemes.foldl Reading.step reading).listed Node.flatListing =
      reading.listed Node.flatListing ++ Lexeme.tokens lexemes := by
  induction lexemes generalizing reading with
  | nil => exact (List.append_nil _).symm
  | cons lexeme rest ih =>
    obtain ⟨here, later⟩ := List.forall_mem_cons.mp spelled
    -- What a later lexeme leaves without findings had none before it.
    have none : (reading.step lexeme).findings = [] := by
      have kept := findings_run rest (reading.step lexeme)
      rw [List.foldl_cons] at clean
      rw [clean] at kept
      exact List.suffix_nil.mp kept
    rw [List.foldl_cons, ih later clean, flat_step here none, List.append_assoc,
      ← Lexeme.tokens_append, List.singleton_append]

end Reading

/-- A text without findings is read as a forest that flattens to its tokens. -/
theorem Form.flat_read {text : Text} (clean : (Form.read text).2 = []) :
    Lexeme.tokens (Lexeme.scan text) = Node.flat (Form.read text).1 := by
  let reading := (Lexeme.scan text).foldl Reading.step Reading.empty
  have parts : reading.findings.reverse = [] ∧
      reading.frames.reverse.map (fun frame => ⟨.unclosed frame.bracket, frame.start⟩) =
        ([] : List Finding) :=
    List.append_eq_nil_iff.mp clean
  have none : reading.findings = [] := List.reverse_eq_nil_iff.mp parts.1
  have closed : reading.frames = [] := List.reverse_eq_nil_iff.mp (List.map_eq_nil_iff.mp parts.2)
  have spelled : ∀ lexeme ∈ Lexeme.scan text, lexeme.kind.Spells lexeme.value :=
    fun lexeme member => (Lexeme.piece_of_mem member).spelled
  have flat : reading.listed Node.flatListing = Lexeme.tokens (Lexeme.scan text) :=
    Reading.flat_run spelled none
  have forest : (Form.read text).1 = reading.top.reverse := by
    change reading.forest text.length = _
    simp [Reading.forest, closed]
  rw [forest, ← flat, Reading.listed, closed]
  exact List.append_nil _

/-! ### Reading what a forest flattens to -/

namespace Reading

/-- Nodes put one after the other. -/
def addAll (reading : Reading) (nodes : List Node) : Reading :=
  nodes.foldl (fun reading node => reading.add node) reading

theorem addAll_cons (reading : Reading) (node : Node) (nodes : List Node) :
    reading.addAll (node :: nodes) = (reading.add node).addAll nodes := rfl

theorem addAll_frame (reading : Reading) (frame : Frame) (outer : List Frame) (nodes : List Node) :
    ({ reading with frames := frame :: outer } : Reading).addAll nodes =
      { reading with frames := { frame with items := nodes.reverse ++ frame.items } :: outer } := by
  induction nodes generalizing frame with
  | nil => rfl
  | cons node rest ih =>
    rw [addAll_cons, List.reverse_cons, List.append_assoc]
    exact ih { frame with items := node :: frame.items }

theorem addAll_top (top nodes : List Node) (findings : List Finding) :
    (⟨[], top, findings⟩ : Reading).addAll nodes = ⟨[], nodes.reverse ++ top, findings⟩ := by
  induction nodes generalizing top with
  | nil => rfl
  | cons node rest ih =>
    rw [addAll_cons, List.reverse_cons, List.append_assoc]
    exact ih (node :: top)

theorem step_atom {value : Text} {lexeme : Lexeme} (kind : lexeme.kind = Outline.kindOf value)
    (reading : Reading) :
    reading.step lexeme = reading.add (.atom ⟨lexeme.value, lexeme.start, lexeme.stop⟩) := by
  unfold Reading.step
  rw [kind]
  rcases Outline.kindOf_cases value with string | atom
  · rw [string]
  · rw [atom]

/-- A form is put where its opening bracket was read. -/
theorem step_closing {bracket : Bracket} {lexeme : Lexeme} (kind : lexeme.kind = .closing bracket)
    (reading : Reading) (start : Nat) (nodes : List Node) :
    (({ reading with frames := ⟨bracket, start, []⟩ :: reading.frames } : Reading).addAll
      nodes).step lexeme = reading.add (.form bracket start lexeme.stop true nodes) := by
  rw [addAll_frame, List.append_nil]
  unfold Reading.step Reading.close
  simp [kind]

/-- The lexemes that a forest flattens to are read as that forest, whatever has been read. -/
theorem run_flatten (forest : List Outline) (lexemes : List Lexeme)
    (same : lexemes.map Lexeme.token = Outline.flattenAll forest) :
    ∃ nodes, Node.outlines nodes = forest ∧ Node.openForms nodes = [] ∧
      ∀ reading : Reading, lexemes.foldl Reading.step reading = reading.addAll nodes := by
  match forest with
  | [] =>
    rw [List.map_eq_nil_iff.mp same]
    exact ⟨[], rfl, rfl, fun _ => rfl⟩
  | .atom value :: rest =>
    obtain ⟨lexeme, later, rfl, token, same⟩ := List.map_eq_cons_iff.mp same
    obtain ⟨kind, spelling⟩ := Lexeme.Token.mk.inj token
    obtain ⟨nodes, outlines, closed, run⟩ := run_flatten rest later same
    refine ⟨.atom ⟨lexeme.value, lexeme.start, lexeme.stop⟩ :: nodes, ?_, closed, ?_⟩
    · rw [Node.outlines, Node.outline, spelling, outlines]
    · intro reading
      rw [List.foldl_cons, step_atom kind, run, addAll_cons]
  | .form bracket items :: rest =>
    rw [Outline.flattenAll, Outline.flatten, List.cons_append, List.append_assoc] at same
    obtain ⟨first, behind, rfl, token, same⟩ := List.map_eq_cons_iff.mp same
    obtain ⟨inner, last, rfl, inside, same⟩ := List.map_eq_append_iff.mp same
    obtain ⟨closer, later, rfl, token', same⟩ := List.map_eq_cons_iff.mp same
    obtain ⟨opening, _⟩ := Lexeme.Token.mk.inj token
    obtain ⟨closing, _⟩ := Lexeme.Token.mk.inj token'
    obtain ⟨nodes, outlines, closed, run⟩ := run_flatten items inner inside
    obtain ⟨nodes', outlines', closed', run'⟩ := run_flatten rest later same
    -- The opening bracket puts a frame, the items go into it, and its own closing bracket ends it.
    refine ⟨.form bracket first.start closer.stop true nodes :: nodes', ?_, ?_, ?_⟩
    · rw [Node.outlines, Node.outline, outlines, outlines']
    · rw [← List.singleton_append, Node.openForms_append, Node.openForms_closed, closed, closed']
      rfl
    · intro reading
      have opened : reading.step first =
          { reading with frames := ⟨bracket, first.start, []⟩ :: reading.frames } := by
        unfold Reading.step
        rw [opening]
      rw [List.foldl_cons, List.foldl_append, List.foldl_cons, opened, run, step_closing closing,
        run', addAll_cons]

theorem run_tokens (lexemes : List Lexeme) (reading : Reading) :
    lexemes.foldl Reading.step reading =
      (lexemes.filter (!·.isComment)).foldl Reading.step reading := by
  induction lexemes generalizing reading with
  | nil => rfl
  | cons lexeme rest ih =>
    rw [List.foldl_cons, ih]
    by_cases kind : lexeme.kind = .comment
    · have skipped : reading.step lexeme = reading := by
        unfold Reading.step
        rw [kind]
      simp [Lexeme.isComment, kind, skipped]
    · simp [Lexeme.isComment, kind]

end Reading

/-- A text whose tokens a forest flattens to is read as that forest. -/
theorem Form.read_of_flatten {text : Text} {forest : List Outline}
    (same : Lexeme.tokens (Lexeme.scan text) = Outline.flattenAll forest) :
    (Form.read text).2 = [] ∧ Node.outlines (Form.read text).1 = forest ∧
      Node.openForms (Form.read text).1 = [] := by
  obtain ⟨nodes, outlines, closed, run⟩ := Reading.run_flatten forest _ same
  have all : (Lexeme.scan text).foldl Reading.step Reading.empty = ⟨[], nodes.reverse, []⟩ := by
    rw [Reading.run_tokens, run, Reading.empty, Reading.addAll_top, List.append_nil]
  have read : Form.read text = (nodes, []) := by
    rw [Form.read, all]
    simp [Reading.forest, Reading.allFindings]
  rw [read]
  exact ⟨rfl, outlines, closed⟩

/-! ### Balanced tokens -/

namespace Lexeme

/-- What a forest flattens to balances, and no string in it lacks its end. -/
theorem balanced_flattenAll (forest : List Outline) :
    Balanced ((Outline.flattenAll forest).map Token.kind) ∧
      ∀ token ∈ Outline.flattenAll forest, token.kind ≠ .unterminated ∧ token.kind ≠ .comment := by
  match forest with
  | [] => exact ⟨.nil, by simp [Outline.flattenAll]⟩
  | .atom value :: rest =>
    obtain ⟨balanced, plain⟩ := balanced_flattenAll rest
    obtain ⟨not_opening, not_closing, here⟩ := Outline.kindOf_plain value
    exact ⟨.plain not_opening not_closing balanced, List.forall_mem_cons.mpr ⟨here, plain⟩⟩
  | .form bracket items :: rest =>
    obtain ⟨inside, plain⟩ := balanced_flattenAll items
    obtain ⟨behind, plain'⟩ := balanced_flattenAll rest
    rw [Outline.flattenAll, Outline.flatten, List.cons_append, List.append_assoc]
    refine ⟨?_, ?_⟩
    · rw [List.map_cons, List.map_append]
      exact .pair inside behind
    · refine List.forall_mem_cons.mpr ⟨by simp, fun token member => ?_⟩
      rcases List.mem_append.mp member with inner | outer
      · exact plain token inner
      · rcases List.mem_cons.mp outer with rfl | later
        · simp
        · exact plain' token later

/-- Balanced tokens come from a forest. -/
theorem exists_outline {kinds : List Kind} (balanced : Balanced kinds) (tokens : List Token)
    (same : tokens.map Token.kind = kinds)
    (spelled : ∀ token ∈ tokens, token.kind.Spells token.value)
    (plain : ∀ token ∈ tokens, token.kind ≠ .unterminated ∧ token.kind ≠ .comment) :
    ∃ forest, tokens = Outline.flattenAll forest := by
  induction balanced generalizing tokens with
  | nil => exact ⟨[], List.map_eq_nil_iff.mp same⟩
  | @plain kind rest not_opening not_closing _ ih =>
    -- Of the kinds, what is neither a bracket nor unterminated is an atom of the forest.
    obtain ⟨token, later, rfl, rfl, tail⟩ := List.map_eq_cons_iff.mp same
    obtain ⟨here, spelled⟩ := List.forall_mem_cons.mp spelled
    obtain ⟨⟨terminated, inline⟩, plain⟩ := List.forall_mem_cons.mp plain
    obtain ⟨forest, rfl⟩ := ih later tail spelled plain
    have kind : token.kind = .string ∨ token.kind = .atom := by
      cases kind : token.kind with
      | comment => exact (inline kind).elim
      | unterminated => exact (terminated kind).elim
      | opening bracket => exact (not_opening bracket kind).elim
      | closing bracket => exact (not_closing bracket kind).elim
      | string => exact .inl rfl
      | atom => exact .inr rfl
    refine ⟨.atom token.value :: forest, ?_⟩
    rw [Outline.flattenAll, Outline.flatten, Outline.kindOf_eq here kind]
    rfl
  | @pair bracket inner rest _ _ ih ih' =>
    -- The tokens are cut where the kinds are, and a bracket has but one spelling.
    obtain ⟨first, behind, rfl, opening, tail⟩ := List.map_eq_cons_iff.mp same
    obtain ⟨inside, last, rfl, middle, ending⟩ := List.map_eq_append_iff.mp tail
    obtain ⟨closer, later, rfl, closing, following⟩ := List.map_eq_cons_iff.mp ending
    obtain ⟨here, spelled⟩ := List.forall_mem_cons.mp spelled
    obtain ⟨spelled, spelled'⟩ := List.forall_mem_append.mp spelled
    obtain ⟨there, spelled'⟩ := List.forall_mem_cons.mp spelled'
    obtain ⟨plain, plain'⟩ := List.forall_mem_append.mp (List.forall_mem_cons.mp plain).2
    obtain ⟨items, rfl⟩ := ih inside middle spelled plain
    obtain ⟨forest, rfl⟩ := ih' later following spelled' (List.forall_mem_cons.mp plain').2
    have opener : first = ⟨.opening bracket, [bracket.opening]⟩ := by
      rw [opening] at here
      have value : first.value = [bracket.opening] := here
      rw [← opening, ← value]
    have ender : closer = ⟨.closing bracket, [bracket.closing]⟩ := by
      rw [closing] at there
      have value : closer.value = [bracket.closing] := there
      rw [← closing, ← value]
    refine ⟨.form bracket items :: forest, ?_⟩
    rw [Outline.flattenAll, Outline.flatten, opener, ender, List.cons_append, List.append_assoc]
    rfl

/-! ### Texts with given tokens -/

theorem spelled_flattenAll (forest : List Outline) (spelled : ∀ outline ∈ forest, outline.Spelled) :
    ∀ token ∈ Outline.flattenAll forest, token.kind.Spells token.value := by
  match forest with
  | [] => simp [Outline.flattenAll]
  | .atom value :: rest =>
    obtain ⟨here, later⟩ := List.forall_mem_cons.mp spelled
    refine List.forall_mem_cons.mpr ⟨?_, spelled_flattenAll rest later⟩
    cases here with
    | atom spelled =>
      rcases spelled with string | atom
      · rw [Outline.kindOf_eq string (.inl rfl)]
        exact string
      · rw [Outline.kindOf_eq atom (.inr rfl)]
        exact atom
  | .form bracket items :: rest =>
    obtain ⟨here, later⟩ := List.forall_mem_cons.mp spelled
    have inside : ∀ item ∈ items, item.Spelled := by
      cases here with
      | form spelled => exact spelled
    rw [Outline.flattenAll, Outline.flatten, List.cons_append, List.append_assoc]
    refine List.forall_mem_cons.mpr ⟨rfl, List.forall_mem_append.mpr ⟨?_, ?_⟩⟩
    · exact spelled_flattenAll items inside
    · exact List.forall_mem_cons.mpr ⟨rfl, spelled_flattenAll rest later⟩

/-- Every forest of atoms and strings is what some text flattens to. -/
theorem exists_text {forest : List Outline} (spelled : ∀ outline ∈ forest, outline.Spelled) :
    ∃ text, tokens (scan text) = Outline.flattenAll forest := by
  have plain := (balanced_flattenAll forest).2
  obtain ⟨lexemes, cut, same⟩ := exists_cut (Outline.flattenAll forest)
    (spelled_flattenAll forest spelled) (fun token member => (plain token member).1) 0
  refine ⟨onLines (Outline.flattenAll forest), ?_⟩
  have all : lexemes.filter (!·.isComment) = lexemes := by
    rw [List.filter_eq_self]
    intro lexeme member
    have inline := (plain lexeme.token (by rw [← same]; exact List.mem_map_of_mem member)).2
    exact Bool.not_eq_true' _ |>.mpr (decide_eq_false inline)
  rw [scan, cut.scanAt_eq, tokens, all, same]

end Lexeme

/-- A text is read without findings if and only if its strings have an end and its brackets balance,
and then all forms are closed and flatten to the tokens of the text. Whatever forest the tokens of a
text are the flattening of, the text is read as that forest, and every forest of atoms and strings
is such a forest for some text. -/
theorem reading_inverts_flattening :
    (∀ text : Text, (Form.read text).2 = [] ↔
      (∀ token ∈ Lexeme.tokens (Lexeme.scan text), token.kind ≠ .unterminated) ∧
        Lexeme.Balanced ((Lexeme.tokens (Lexeme.scan text)).map Lexeme.Token.kind)) ∧
    (∀ text : Text, (Form.read text).2 = [] →
      Lexeme.tokens (Lexeme.scan text) = Outline.flattenAll (Node.outlines (Form.read text).1) ∧
        Node.openForms (Form.read text).1 = []) ∧
    (∀ (text : Text) (forest : List Outline),
      Lexeme.tokens (Lexeme.scan text) = Outline.flattenAll forest →
        (Form.read text).2 = [] ∧ Node.outlines (Form.read text).1 = forest ∧
          Node.openForms (Form.read text).1 = []) ∧
    ∀ forest : List Outline, (∀ outline ∈ forest, outline.Spelled) →
      ∃ text, Lexeme.tokens (Lexeme.scan text) = Outline.flattenAll forest := by
  refine ⟨?_, ?_, ?_, fun forest => Lexeme.exists_text⟩
  · intro text
    constructor
    · intro clean
      have balanced := Lexeme.balanced_flattenAll (Node.outlines (Form.read text).1)
      rw [Form.flat_read clean]
      exact ⟨fun token member => (balanced.2 token member).1, balanced.1⟩
    · rintro ⟨terminated, balanced⟩
      have plain : ∀ token ∈ Lexeme.tokens (Lexeme.scan text),
          token.kind ≠ .unterminated ∧ token.kind ≠ .comment :=
        fun token member => ⟨terminated token member, Lexeme.inline_tokens _ token member⟩
      obtain ⟨forest, same⟩ :=
        Lexeme.exists_outline balanced _ rfl (Lexeme.spelled_tokens text) plain
      exact (Form.read_of_flatten same).1
  · intro text clean
    have flat := Form.flat_read clean
    exact ⟨flat, (Form.read_of_flatten flat).2.2⟩
  · intro text forest same
    exact Form.read_of_flatten same

/-- A form of each kind, one in the other, with a string and a comment between their brackets. -/
theorem read_nested_text :
    Lexeme.tokens (Lexeme.scan "([a] ; b\n\"c)\")".toList) =
        Outline.flattenAll
          [.form .round [.form .square [.atom "a".toList], .atom "\"c)\"".toList]] ∧
      (Form.read "([a] ; b\n\"c)\")".toList).2 = [] := by
  have same : Lexeme.tokens (Lexeme.scan "([a] ; b\n\"c)\")".toList) =
      Outline.flattenAll
        [.form .round [.form .square [.atom "a".toList], .atom "\"c)\"".toList]] := by
    decide +kernel
  exact ⟨same, (reading_inverts_flattening.2.2.1 _ _ same).1⟩

end FormWatch
