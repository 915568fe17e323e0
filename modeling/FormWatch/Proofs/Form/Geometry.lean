import FormWatch.Proofs.Check.Placement
import FormWatch.Proofs.Lexeme.Order

/-!
The geometry of trees. Siblings come one behind the other, and what is in a form stands behind its
opening bracket and, if the form is closed, before its closing one. Each lexeme that is read keeps
this up to where it ends, so the tree of a text is within the text; and of two nodes of a tree the
later in pre-order is behind the other or inside it.
-/

namespace FormWatch

/-! ### Trees -/

namespace Node

mutual

/-- Whether a node is not empty and all in it is in its place. -/
def Fits : Node → Prop
  | .atom a => a.start < a.stop
  | .form _ start stop closed items => AllFit (start + 1) (if closed then stop - 1 else stop) items

/-- Whether nodes come one behind the other between two places, and each fits. -/
def AllFit (low high : Nat) : List Node → Prop
  | [] => low ≤ high
  | node :: rest => low ≤ node.start ∧ Fits node ∧ AllFit node.stop high rest

end

/-- Whether a node is in a form, between its brackets. -/
def Surrounds : Node → Node → Prop
  | .atom _, _ => False
  | .form _ start stop closed _, inner =>
    start < inner.start ∧ inner.stop ≤ if closed then stop - 1 else stop

/-- Whether a node that comes later is behind a node or inside it. -/
def Precedes (node later : Node) : Prop :=
  node.stop ≤ later.start ∨ node.Surrounds later

variable {low mid high : Nat} {forest : List Node}

mutual

theorem Fits.start_lt_stop {node : Node} (fits : node.Fits) : node.start < node.stop := by
  cases node with
  | atom a => exact fits
  | form bracket start stop closed items =>
    have inside := AllFit.le fits
    dsimp only [Node.start, Node.stop]
    split at inside <;> omega

theorem AllFit.le {low high : Nat} {forest : List Node} (fit : AllFit low high forest) :
    low ≤ high := by
  cases forest with
  | nil => exact fit
  | cons node rest =>
    obtain ⟨early, fits, later⟩ := fit
    exact Nat.le_trans early (Nat.le_trans (Nat.le_of_lt fits.start_lt_stop) (AllFit.le later))

end

theorem AllFit.append {later : List Node} (fit : AllFit low mid forest)
    (fit' : AllFit mid high later) : AllFit low high (forest ++ later) := by
  induction forest generalizing low with
  | nil =>
    cases later with
    | nil => exact Nat.le_trans fit fit'
    | cons node rest => exact ⟨Nat.le_trans fit fit'.1, fit'.2⟩
  | cons node rest ih => exact ⟨fit.1, fit.2.1, ih fit.2.2⟩

theorem AllFit.upTo {high' : Nat} (fit : AllFit low high forest) (further : high ≤ high') :
    AllFit low high' forest := by
  have fit' : AllFit low high' (forest ++ []) := fit.append further
  rwa [List.append_nil] at fit'

/-- A node fits behind others. -/
theorem AllFit.concat (fit : AllFit low high forest) {node : Node} (later : high ≤ node.start)
    (fits : node.Fits) : AllFit low node.stop (forest ++ [node]) :=
  fit.append ⟨later, fits, Nat.le_refl _⟩

/-! ### Pre-order -/

/-- Whether nodes between two places come in pre-order: each is before or around the later ones. -/
structure AllApart (low high : Nat) (nodes : List Node) : Prop where
  within : ∀ node ∈ nodes, low ≤ node.start ∧ node.start < node.stop ∧ node.stop ≤ high
  apart : nodes.Pairwise Precedes

theorem AllApart.append {nodes later : List Node} (apart : AllApart low mid nodes)
    (apart' : AllApart mid high later) (up : mid ≤ high) (down : low ≤ mid) :
    AllApart low high (nodes ++ later) where
  within node member := by
    rcases List.mem_append.mp member with here | there
    · have within := apart.within node here
      omega
    · have within := apart'.within node there
      omega
  apart := by
    refine List.pairwise_append.mpr ⟨apart.apart, apart'.apart, ?_⟩
    intro node here other there
    have before := apart.within node here
    have after := apart'.within other there
    exact .inl (by omega)

/-- A node that is before or around another starts before it. -/
theorem AllApart.ascending {nodes : List Node} (apart : AllApart low high nodes) :
    nodes.Pairwise fun node later => node.start < later.start := by
  refine apart.apart.imp_of_mem fun {node later} member _ precedes => ?_
  rcases precedes with behind | surrounds
  · exact Nat.lt_of_lt_of_le (apart.within node member).2.1 behind
  · cases node with
    | atom a => exact surrounds.elim
    | form bracket start stop closed items => exact surrounds.1

mutual

theorem Fits.walk {node : Node} (fits : node.Fits) :
    AllApart node.start node.stop (Node.walk node) := by
  have filled := fits.start_lt_stop
  cases node with
  | atom a =>
    refine ⟨?_, List.pairwise_singleton _ _⟩
    intro node member
    rw [List.mem_singleton.mp member]
    exact ⟨Nat.le_refl _, filled, Nat.le_refl _⟩
  | form bracket start stop closed items =>
    have inside := AllFit.walkAll fits
    have bound : (if closed then stop - 1 else stop) ≤ stop := by split <;> omega
    rw [Node.walk]
    refine ⟨?_, List.pairwise_cons.mpr ⟨?_, inside.apart⟩⟩
    · intro node member
      rcases List.mem_cons.mp member with rfl | inner
      · exact ⟨Nat.le_refl _, filled, Nat.le_refl _⟩
      · have within := inside.within node inner
        exact ⟨Nat.le_of_succ_le within.1, within.2.1, Nat.le_trans within.2.2 bound⟩
    · intro node inner
      have within := inside.within node inner
      exact .inr ⟨within.1, within.2.2⟩

theorem AllFit.walkAll {low high : Nat} {forest : List Node} (fit : AllFit low high forest) :
    AllApart low high (Node.walkAll forest) := by
  cases forest with
  | nil => exact ⟨by simp [Node.walkAll], .nil⟩
  | cons node rest =>
    obtain ⟨early, fits, later⟩ := fit
    have filled := fits.start_lt_stop
    have first := fits.walk
    rw [Node.walkAll]
    refine AllApart.append ⟨?_, first.apart⟩ (AllFit.walkAll later) later.le (by omega)
    intro inner member
    have within := first.within inner member
    omega

end

end Node

/-! ### What has been read -/

namespace Reading

/-- Whether open forms, innermost first, and the top-level nodes before them fit up to a place. -/
def FitIn (top : List Node) : Nat → List Frame → Prop
  | place, [] => Node.AllFit 0 place top.reverse
  | place, frame :: outer =>
    Node.AllFit (frame.start + 1) place frame.items.reverse ∧ FitIn top frame.start outer

/-- Whether all that has been read fits up to a place. -/
def FitsTo (place : Nat) (reading : Reading) : Prop :=
  FitIn reading.top place reading.frames

variable {reading : Reading} {place : Nat}

theorem FitsTo.upTo {place' : Nat} (fits : reading.FitsTo place) (further : place ≤ place') :
    reading.FitsTo place' := by
  unfold FitsTo at fits ⊢
  cases opened : reading.frames with
  | nil =>
    rw [opened] at fits
    exact Node.AllFit.upTo fits further
  | cons frame outer =>
    rw [opened] at fits
    exact ⟨fits.1.upTo further, fits.2⟩

theorem FitsTo.add (fits : reading.FitsTo place) {node : Node} (later : place ≤ node.start)
    (fit : node.Fits) : (reading.add node).FitsTo node.stop := by
  unfold FitsTo at fits ⊢
  unfold Reading.add
  split
  next opened =>
    rw [opened] at fits
    simp only [opened, FitIn, List.reverse_cons]
    exact Node.AllFit.concat fits later fit
  next frame outer opened =>
    rw [opened] at fits
    simp only [FitIn, List.reverse_cons]
    exact ⟨fits.1.concat later fit, fits.2⟩

theorem FitsTo.close (fits : reading.FitsTo place) (found : Bracket) {lexeme : Lexeme}
    (later : place ≤ lexeme.start) (filled : lexeme.start < lexeme.stop) :
    (reading.close found lexeme).FitsTo lexeme.stop := by
  unfold Reading.close
  split
  · exact fits.upTo (by omega)
  next frame outer opened =>
    unfold FitsTo at fits
    rw [opened] at fits
    have inside : Node.Fits
        (.form frame.bracket frame.start lexeme.stop true frame.items.reverse) :=
      fits.1.upTo (by rw [if_pos rfl]; omega)
    have around : ({ reading with frames := outer } : Reading).FitsTo frame.start := fits.2
    have closed := around.add (Nat.le_refl _) inside
    dsimp only
    split <;> exact closed

/-- A lexeme behind all that has been read. -/
theorem FitsTo.step (fits : reading.FitsTo place) (lexeme : Lexeme) (later : place ≤ lexeme.start)
    (filled : lexeme.start < lexeme.stop) : (reading.step lexeme).FitsTo lexeme.stop := by
  have atom : (reading.add (.atom ⟨lexeme.value, lexeme.start, lexeme.stop⟩)).FitsTo lexeme.stop :=
    FitsTo.add fits later filled
  unfold Reading.step
  split
  · exact fits.upTo (by omega)
  next bracket _ => exact ⟨filled, fits.upTo later⟩
  next found _ => exact fits.close found later filled
  · exact atom
  · exact atom
  · exact atom

theorem FitsTo.run {low high : Nat} {lexemes : List Lexeme} (fits : reading.FitsTo low)
    (inOrder : Lexeme.InOrder low high lexemes) :
    (lexemes.foldl Reading.step reading).FitsTo high := by
  induction lexemes generalizing low reading with
  | nil => exact fits.upTo inOrder
  | cons lexeme rest ih =>
    obtain ⟨later, filled, following⟩ := inOrder
    exact ih (fits.step lexeme later filled) following

/-- The tree fits where the text ends. -/
theorem FitsTo.forest {stop : Nat} (fits : reading.FitsTo stop) :
    Node.AllFit 0 stop (reading.forest stop) := by
  -- What the inner forms come to stands behind the items of the forms around it.
  have around (frames : List Frame) (place : Nat) (fits : FitIn reading.top place frames)
      (inner : List Node) (fit : Node.AllFit place stop inner) :
      Node.AllFit 0 stop (reading.top.reverse ++ frames.foldl
        (fun inner frame =>
          [Node.form frame.bracket frame.start stop false (frame.items.reverse ++ inner)])
        inner) := by
    induction frames generalizing place inner with
    | nil => exact Node.AllFit.append fits fit
    | cons frame outer ih =>
      exact ih frame.start fits.2 _ ⟨Nat.le_refl _, fits.1.append fit, Nat.le_refl _⟩
  exact around reading.frames stop fits [] (Nat.le_refl _)

end Reading

/-- The tree of a text fits in the text. -/
theorem Form.allFit_read (text : Text) : Node.AllFit 0 text.length (Form.read text).1 := by
  have start : Reading.empty.FitsTo 0 := Nat.le_refl 0
  exact (start.run (Lexeme.inOrder_scan text)).forest

end FormWatch
