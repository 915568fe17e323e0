import FormWatch.Proofs.Lexeme.Cut

/-!
The lexemes of a text and what is left between them. Every lexeme is a piece of the text, spelled
and ended as its kind is, and every character belongs to one lexeme, or is white space, or is
swallowed with the rest of its line by a loose quote (`partition_of_text`).
-/

namespace FormWatch

namespace Lexeme

/-! ### Pieces -/

/-- Whether a lexeme is a piece of a text that stands at an offset, spelled and ended as its kind
is. -/
def PieceOf (offset : Nat) (text : Text) (lexeme : Lexeme) : Prop :=
  ∃ before rest, text = before ++ (lexeme.value ++ rest) ∧
    lexeme.start = offset + before.length ∧ lexeme.stop = lexeme.start + lexeme.value.length ∧
    lexeme.kind.Spells lexeme.value ∧ lexeme.kind.EndsBefore rest

variable {offset : Nat} {text rest : Text} {lexeme : Lexeme} {lexemes later : List Lexeme}

theorem PieceOf.behind (part : Text) (piece : PieceOf (offset + part.length) rest lexeme) :
    PieceOf offset (part ++ rest) lexeme := by
  obtain ⟨before, tail, rfl, start, stop, spelled, ends⟩ := piece
  refine ⟨part ++ before, tail, by simp, ?_, stop, spelled, ends⟩
  rw [start, List.length_append, Nat.add_assoc]

theorem Cut.pieces (cut : Cut offset text lexemes) :
    ∀ lexeme ∈ lexemes, PieceOf offset text lexeme := by
  induction cut with
  | done => simp
  | @lexeme offset kind value rest later spelled ends _ ih =>
    intro lexeme member
    rcases List.mem_cons.mp member with rfl | member
    · exact ⟨[], rest, rfl, rfl, rfl, spelled, ends⟩
    · exact (ih lexeme member).behind value
  | @blank offset c rest later _ _ ih => exact fun lexeme member => (ih lexeme member).behind [c]
  | @swallowed offset line rest later _ _ _ _ ih =>
    exact fun lexeme member => (ih lexeme member).behind line

theorem piece_of_mem (member : lexeme ∈ scan text) : PieceOf 0 text lexeme :=
  (cut_scanAt 0 text).pieces lexeme member

/-- No lexeme begins with a newline. -/
theorem visible_of_mem (member : lexeme ∈ scan text) :
    ∃ c, text[lexeme.start]? = some c ∧ c ≠ '\n' := by
  obtain ⟨before, rest, same, start, _, spelled, ends⟩ := piece_of_mem member
  obtain ⟨c, tail, value⟩ := List.exists_cons_of_ne_nil spelled.ne_nil
  rw [value] at spelled
  refine ⟨c, ?_, ?_⟩
  · rw [same, value, start, Nat.zero_add]
    simp
  · rintro rfl
    have covered := extent_of_spells spelled ends
    rw [extent_blank (by decide)] at covered
    cases covered

theorem PieceOf.value_eq (piece : PieceOf 0 text lexeme) :
    lexeme.value = (text.drop lexeme.start).take (lexeme.stop - lexeme.start) := by
  obtain ⟨before, rest, rfl, start, stop, _⟩ := piece
  rw [stop, Nat.add_sub_cancel_left, start, Nat.zero_add, List.drop_left, List.take_left]

theorem PieceOf.endsBefore (piece : PieceOf 0 text lexeme) :
    lexeme.kind.EndsBefore (text.drop lexeme.stop) := by
  obtain ⟨before, rest, rfl, start, stop, _, ends⟩ := piece
  rw [stop, start, Nat.zero_add, ← List.length_append, ← List.append_assoc, List.drop_left]
  exact ends

theorem PieceOf.spelled (piece : PieceOf 0 text lexeme) : lexeme.kind.Spells lexeme.value := by
  obtain ⟨_, _, _, _, _, spelled, _⟩ := piece
  exact spelled

/-! ### What is left -/

/-- Whether a place belongs to a lexeme. -/
def Covers (lexeme : Lexeme) (place : Nat) : Prop :=
  lexeme.start ≤ place ∧ place < lexeme.stop

/-- Whether a place belongs to none of the lexemes. -/
def Free (lexemes : List Lexeme) (place : Nat) : Prop :=
  ∀ lexeme ∈ lexemes, ¬ lexeme.Covers place

/-- Whether a place of a text that stands at an offset is in the rest of a line from a loose quote
on, which belongs to no lexeme. -/
def Swallowed (offset : Nat) (text : Text) (lexemes : List Lexeme) (place : Nat) : Prop :=
  ∃ quote, IsLoose (text.drop quote) ∧
    quote ≤ place ∧ place < quote + restOfLine (text.drop quote) ∧
    ∀ other, quote ≤ other → other < quote + restOfLine (text.drop quote) →
      Free lexemes (offset + other)

theorem InOrder.le {low high : Nat} (inOrder : InOrder low high lexemes) : low ≤ high := by
  induction lexemes generalizing low with
  | nil => exact inOrder
  | cons first later ih =>
    have behind := ih inOrder.2.2
    obtain ⟨early, filled, _⟩ := inOrder
    omega

theorem InOrder.within {low high : Nat} (inOrder : InOrder low high lexemes) :
    ∀ lexeme ∈ lexemes,
      low ≤ lexeme.start ∧ lexeme.start < lexeme.stop ∧ lexeme.stop ≤ high := by
  induction lexemes generalizing low with
  | nil => simp
  | cons first later ih =>
    obtain ⟨early, filled, behind⟩ := inOrder
    intro lexeme member
    rcases List.mem_cons.mp member with rfl | member
    · exact ⟨early, filled, behind.le⟩
    · obtain ⟨late, within⟩ := ih behind lexeme member
      exact ⟨by omega, within⟩

theorem InOrder.pairwise {low high : Nat} (inOrder : InOrder low high lexemes) :
    lexemes.Pairwise fun lexeme later => lexeme.stop ≤ later.start := by
  induction lexemes generalizing low with
  | nil => exact .nil
  | cons first later ih =>
    obtain ⟨_, _, behind⟩ := inOrder
    exact .cons (fun lexeme member => (behind.within lexeme member).1) (ih behind)

theorem Cut.inOrder (cut : Cut offset text lexemes) :
    InOrder offset (offset + text.length) lexemes := by
  rw [← cut.scanAt_eq]
  exact inOrder_scanAt offset text

/-- What is cut later leaves the places before it free. -/
theorem Cut.free_before (cut : Cut offset text lexemes) {place : Nat} (early : place < offset) :
    Free lexemes place := by
  intro lexeme member covers
  exact Nat.not_le.mpr early (Nat.le_trans (cut.inOrder.within lexeme member).1 covers.1)

/-- What a character that belongs to no lexeme is. -/
def BlankOrSwallowed (offset : Nat) (text : Text) (lexemes : List Lexeme) : Prop :=
  ∀ place c, text[place]? = some c → Free lexemes (offset + place) →
    isBlank c = true ∨ Swallowed offset text lexemes place

/-- A part in front changes nothing for what is behind it, if no lexeme is added there. -/
theorem BlankOrSwallowed.behind {part : Text}
    (all : BlankOrSwallowed (offset + part.length) rest later)
    (free : ∀ other, offset + part.length ≤ other → (Free lexemes other ↔ Free later other))
    {place : Nat} {c : Char} (beyond : part.length ≤ place)
    (found : (part ++ rest)[place]? = some c) (uncovered : Free lexemes (offset + place)) :
    isBlank c = true ∨ Swallowed offset (part ++ rest) lexemes place := by
  obtain ⟨further, rfl⟩ := Nat.exists_eq_add_of_le beyond
  rw [List.getElem?_append_right beyond, Nat.add_sub_cancel_left] at found
  rw [free _ (by omega), ← Nat.add_assoc] at uncovered
  refine (all further c found uncovered).imp id ?_
  rintro ⟨quote, loose, after, before, around⟩
  have same : (part ++ rest).drop (part.length + quote) = rest.drop quote := by
    rw [← List.drop_drop, List.drop_left]
  refine ⟨part.length + quote, by rwa [same], by omega, by rw [same]; omega, ?_⟩
  intro other after' before'
  rw [same] at before'
  have around' := around (other - part.length) (by omega) (by omega)
  have place : offset + part.length + (other - part.length) = offset + other := by omega
  rw [place] at around'
  exact (free _ (by omega)).mpr around'

theorem Cut.blankOrSwallowed (cut : Cut offset text lexemes) :
    BlankOrSwallowed offset text lexemes := by
  induction cut with
  | done =>
    intro place c found
    cases found
  | @lexeme offset kind value rest later _ _ behind ih =>
    intro place c found uncovered
    have beyond : value.length ≤ place := by
      have outside := uncovered _ List.mem_cons_self
      simp only [Covers] at outside
      omega
    refine ih.behind ?_ beyond found uncovered
    -- The lexeme itself is before all these places.
    intro other late
    refine List.forall_mem_cons.trans (and_iff_right ?_)
    simp only [Covers]
    omega
  | @blank offset first rest later blank behind ih =>
    intro place c found uncovered
    cases place with
    | zero =>
      cases found
      exact .inl blank
    | succ place =>
      have all : BlankOrSwallowed (offset + [first].length) rest later := ih
      exact all.behind (fun _ _ => Iff.rfl) (Nat.succ_le_succ (Nat.zero_le place)) found uncovered
  | @swallowed offset line rest later loose unbroken ends behind ih =>
    intro place c found uncovered
    rcases Nat.lt_or_ge place line.length with inside | beyond
    · right
      refine ⟨0, loose, Nat.zero_le place, ?_, ?_⟩
      · rw [List.drop_zero, restOfLine_run unbroken ends]
        omega
      · intro other _ before
        rw [List.drop_zero, restOfLine_run unbroken ends] at before
        exact behind.free_before (by omega)
    · exact ih.behind (fun _ _ => Iff.rfl) beyond found uncovered

/-! ### The lexemes of a text -/

/-- An atom ends where a character stands that no atom begins with. -/
theorem stop_ne_start_of_atoms {other : Lexeme} (piece : PieceOf 0 text lexeme)
    (piece' : PieceOf 0 text other) (atom : lexeme.kind = .atom) (atom' : other.kind = .atom) :
    lexeme.stop ≠ other.start := by
  intro touch
  have ends := piece.endsBefore
  have spelled := piece'.spelled
  obtain ⟨before, rest, rfl, start, _, _, _⟩ := piece'
  rw [Nat.zero_add] at start
  rw [atom, touch, start, List.drop_left] at ends
  rw [atom'] at spelled
  obtain ⟨filled, inside⟩ := spelled
  obtain ⟨c, tail, same⟩ := List.exists_cons_of_ne_nil filled
  obtain ⟨visible, plain⟩ := inside c (by rw [same]; exact List.mem_cons_self)
  rcases ends c (by rw [same]; rfl) with blank | sign
  · rw [visible] at blank
    cases blank
  · exact plain sign

/-- An unterminated string reaches to the end of the text. -/
theorem PieceOf.stop_eq_length (piece : PieceOf 0 text lexeme)
    (unterminated : lexeme.kind = .unterminated) : lexeme.stop = text.length := by
  obtain ⟨before, rest, rfl, start, stop, _, ends⟩ := piece
  rw [unterminated] at ends
  have none : rest = [] := ends
  rw [stop, start, none]
  simp

theorem getLast?_of_stop_eq {low high : Nat} (inOrder : InOrder low high lexemes)
    (member : lexeme ∈ lexemes) (last : lexeme.stop = high) :
    lexemes.getLast? = some lexeme := by
  obtain ⟨before, after, rfl⟩ := List.append_of_mem member
  cases after with
  | nil => simp
  | cons next later =>
    -- A lexeme behind it would not be empty.
    have order := inOrder.pairwise
    have within := inOrder.within next (by simp)
    have behind := List.pairwise_append.mp order |>.2.1
    have next_behind := (List.pairwise_cons.mp behind).1 next List.mem_cons_self
    omega

/-- The lexemes of a text are pieces of it, in order and apart, each spelled and ended as its kind
is; no two atoms touch, and an unterminated string is the last lexeme and reaches to the end. All
else is white space, or the rest of a line that a loose quote swallows. -/
theorem partition_of_text (text : Text) :
    (∀ lexeme ∈ scan text, lexeme.start < lexeme.stop ∧ lexeme.stop ≤ text.length ∧
      lexeme.value = (text.drop lexeme.start).take (lexeme.stop - lexeme.start)) ∧
    (scan text).Pairwise (fun lexeme later => lexeme.stop ≤ later.start) ∧
    (∀ place c, text[place]? = some c → Free (scan text) place →
      isBlank c = true ∨ Swallowed 0 text (scan text) place) ∧
    (∀ lexeme ∈ scan text,
      lexeme.kind.Spells lexeme.value ∧ lexeme.kind.EndsBefore (text.drop lexeme.stop)) ∧
    (∀ lexeme ∈ scan text, ∀ other ∈ scan text,
      lexeme.kind = .atom → other.kind = .atom → lexeme.stop ≠ other.start) ∧
    ∀ lexeme ∈ scan text, lexeme.kind = .unterminated →
      lexeme.stop = text.length ∧ (scan text).getLast? = some lexeme := by
  have inOrder := inOrder_scan text
  refine ⟨?_, inOrder.pairwise, ?_, ?_, ?_, ?_⟩
  · intro lexeme member
    obtain ⟨_, filled, bound⟩ := inOrder.within lexeme member
    exact ⟨filled, bound, (piece_of_mem member).value_eq⟩
  · intro place c found uncovered
    rw [← Nat.zero_add place] at uncovered
    exact (cut_scanAt 0 text).blankOrSwallowed place c found uncovered
  · intro lexeme member
    exact ⟨(piece_of_mem member).spelled, (piece_of_mem member).endsBefore⟩
  · intro lexeme member other member' atom atom'
    exact stop_ne_start_of_atoms (piece_of_mem member) (piece_of_mem member') atom atom'
  · intro lexeme member unterminated
    have last := (piece_of_mem member).stop_eq_length unterminated
    exact ⟨last, getLast?_of_stop_eq inOrder member last⟩

end Lexeme

end FormWatch
