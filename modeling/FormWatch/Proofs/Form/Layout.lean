import FormWatch.Proofs.Form.Accounting
import Mathlib.Logic.ExistsUnique

/-!
The layout of a tree. At every depth the nodes stand one behind the other, inside the form around
them; a form begins with its bracket and ends with a closing bracket or with the text, and what the
text leaves open is one chain at its end. In pre-order every place of the tree comes once, in the
order of the starts (`layout_of_tree`).
-/

namespace FormWatch

namespace Node

/-! ### Places in a tree -/

def items : Node → List Node
  | .atom _ => []
  | .form _ _ _ _ items => items

/-- What is in a node, down a path of places among the items. -/
def descend (node : Node) : List Nat → Option Node
  | [] => some node
  | place :: path => node.items[place]?.bind fun item => item.descend path

/-- What is in a forest at a place: down a path that begins among the roots. -/
def at? (forest : List Node) : List Nat → Option Node
  | [] => none
  | place :: path => forest[place]?.bind fun root => root.descend path

variable {forest : List Node} {node inner : Node}

theorem at?_cons_eq_some_iff {place : Nat} {path : List Nat} :
    at? forest (place :: path) = some inner ↔
      ∃ root, forest[place]? = some root ∧ root.descend path = some inner := by
  simp [at?, Option.bind_eq_some_iff]

theorem descend_cons {place : Nat} {path : List Nat} :
    node.descend (place :: path) = at? node.items (place :: path) := rfl

theorem walk_eq_cons (node : Node) : walk node = node :: walkAll node.items := by
  cases node <;> rfl

theorem mem_walk_of_descend {path : List Nat} (found : node.descend path = some inner) :
    inner ∈ walk node := by
  rw [walk_eq_cons]
  induction path generalizing node with
  | nil =>
    cases found
    exact List.mem_cons_self
  | cons place path ih =>
    rw [descend_cons, at?_cons_eq_some_iff] at found
    obtain ⟨item, listed, found⟩ := found
    have inside : inner ∈ walk item := by
      rw [walk_eq_cons]
      exact ih found
    exact List.mem_cons_of_mem _
      ((mem_walkAll_iff _ _).mpr ⟨item, List.mem_of_getElem? listed, inside⟩)

theorem mem_walkAll_of_at? {path : List Nat} (found : at? forest path = some inner) :
    inner ∈ walkAll forest := by
  cases path with
  | nil => cases found
  | cons place path =>
    obtain ⟨root, listed, found⟩ := at?_cons_eq_some_iff.mp found
    exact (mem_walkAll_iff _ _).mpr
      ⟨root, List.mem_of_getElem? listed, mem_walk_of_descend found⟩

mutual

theorem exists_descend {node inner : Node} (member : inner ∈ walk node) :
    ∃ path, node.descend path = some inner := by
  cases node with
  | atom a =>
    rw [walk, List.mem_singleton] at member
    exact ⟨[], by rw [member]; rfl⟩
  | form bracket start stop closed items =>
    rw [walk, List.mem_cons] at member
    rcases member with rfl | inside
    · exact ⟨[], rfl⟩
    · obtain ⟨place, path, found⟩ := exists_at? inside
      exact ⟨place :: path, found⟩

theorem exists_at? {forest : List Node} {inner : Node} (member : inner ∈ walkAll forest) :
    ∃ place path, at? forest (place :: path) = some inner := by
  cases forest with
  | nil => cases member
  | cons first rest =>
    rw [walkAll, List.mem_append] at member
    rcases member with here | later
    · obtain ⟨path, found⟩ := exists_descend here
      exact ⟨0, path, found⟩
    · obtain ⟨place, path, found⟩ := exists_at? later
      exact ⟨place + 1, path, found⟩

end

/-! ### Trees that fit -/

variable {low high : Nat}

theorem AllFit.pairwise (fit : AllFit low high forest) :
    forest.Pairwise fun node later => node.stop ≤ later.start := by
  induction forest generalizing low with
  | nil => exact .nil
  | cons first rest ih =>
    obtain ⟨_, _, behind⟩ := fit
    refine .cons (fun later member => ?_) (ih behind)
    exact (behind.walkAll.within later (mem_walkAll_of_mem member)).1

theorem AllFit.fits (fit : AllFit low high forest) : ∀ node ∈ forest, node.Fits := by
  induction forest generalizing low with
  | nil => simp
  | cons first rest ih => exact List.forall_mem_cons.mpr ⟨fit.2.1, ih fit.2.2⟩

/-- What is in a node that fits, fits too. -/
theorem Fits.descend {path : List Nat} (fits : node.Fits) (found : node.descend path = some inner) :
    inner.Fits := by
  induction path generalizing node with
  | nil =>
    cases found
    exact fits
  | cons place path ih =>
    rw [descend_cons, at?_cons_eq_some_iff] at found
    obtain ⟨item, listed, found⟩ := found
    cases node with
    | atom a => cases listed
    | form bracket start stop closed items =>
      exact ih (AllFit.fits fits item (List.mem_of_getElem? listed)) found

theorem AllFit.fits_of_mem_walkAll (fit : AllFit low high forest)
    (member : node ∈ Node.walkAll forest) : node.Fits := by
  obtain ⟨root, listed, inside⟩ := (mem_walkAll_iff _ _).mp member
  obtain ⟨path, found⟩ := exists_descend inside
  exact (fit.fits root listed).descend found

/-- Places with different beginnings are in roots that are apart. -/
theorem AllFit.eq_of_getElem? (fit : AllFit low high forest) {place place' : Nat}
    {root root' : Node} (listed : forest[place]? = some root)
    (listed' : forest[place']? = some root') (inside : inner ∈ walk root)
    (inside' : inner ∈ walk root') : place = place' := by
  obtain ⟨bound, rfl⟩ := List.getElem?_eq_some_iff.mp listed
  obtain ⟨bound', rfl⟩ := List.getElem?_eq_some_iff.mp listed'
  have within := (fit.fits _ (List.getElem_mem bound)).walk.within inner inside
  have within' := (fit.fits _ (List.getElem_mem bound')).walk.within inner inside'
  have apart := List.pairwise_iff_getElem.mp fit.pairwise
  rcases Nat.lt_trichotomy place place' with before | same | behind
  · have behind := apart place place' bound bound' before
    omega
  · exact same
  · have behind := apart place' place bound' bound behind
    omega

/-- What is down a path that is not empty starts behind the node. -/
theorem Fits.descend_ne_self {place : Nat} {path : List Nat} (fits : node.Fits) :
    node.descend (place :: path) ≠ some node := by
  intro found
  rw [descend_cons] at found
  have inside := mem_walkAll_of_at? found
  cases node with
  | atom a => cases inside
  | form bracket start stop closed items =>
    have within := (AllFit.walkAll fits).within _ inside
    exact Nat.lt_irrefl start within.1

theorem Fits.path_unique {path path' : List Nat} (fits : node.Fits)
    (found : node.descend path = some inner) (found' : node.descend path' = some inner) :
    path = path' := by
  -- Both paths go into one item, since the node they lead to is within both items.
  induction path generalizing node path' with
  | nil =>
    cases found
    cases path' with
    | nil => rfl
    | cons place' path' => exact (fits.descend_ne_self found').elim
  | cons place path ih =>
    cases path' with
    | nil =>
      cases found'
      exact (fits.descend_ne_self found).elim
    | cons place' path' =>
      rw [descend_cons, at?_cons_eq_some_iff] at found found'
      obtain ⟨item, listed, found⟩ := found
      obtain ⟨item', listed', found'⟩ := found'
      cases node with
      | atom a => cases listed
      | form bracket start stop closed items =>
        have inner : AllFit (start + 1) (if closed then stop - 1 else stop) items := fits
        obtain rfl : place = place' := inner.eq_of_getElem? listed listed'
          (mem_walk_of_descend found) (mem_walk_of_descend found')
        cases listed.symm.trans listed'
        rw [ih (inner.fits item (List.mem_of_getElem? listed)) found found']

/-- A node of a tree is at one place. -/
theorem AllFit.at?_unique (fit : AllFit low high forest) (member : node ∈ Node.walkAll forest) :
    ∃! path, at? forest path = some node := by
  obtain ⟨place, path, found⟩ := exists_at? member
  refine ⟨place :: path, found, ?_⟩
  intro path' found'
  cases path' with
  | nil => cases found'
  | cons place' path' =>
    obtain ⟨root, listed, inside⟩ := at?_cons_eq_some_iff.mp found
    obtain ⟨root', listed', inside'⟩ := at?_cons_eq_some_iff.mp found'
    obtain rfl : place' = place := fit.eq_of_getElem? listed' listed
      (mem_walk_of_descend inside') (mem_walk_of_descend inside)
    cases listed.symm.trans listed'
    rw [(fit.fits root (List.mem_of_getElem? listed)).path_unique inside' inside]

/-! ### One depth -/

/-- How the nodes of one depth are laid out between two places: one behind the other, with an open
form at most as the last of them, and only if what is around them is open too. -/
structure LaidOut (low high : Nat) (isOpen : Bool) (nodes : List Node) : Prop where
  within : ∀ node ∈ nodes, low ≤ node.start ∧ node.start < node.stop ∧ node.stop ≤ high
  apart : nodes.Pairwise fun node later => node.stop ≤ later.start
  open_last : ∀ node ∈ nodes, node.isOpen = true → isOpen = true ∧ nodes.getLast? = some node

theorem AllFit.laidOut (fit : AllFit low high forest) {isOpen : Bool} {stop : Nat}
    (tail : OpenTail stop forest) (whole : isOpen = false → openForms forest = []) :
    LaidOut low high isOpen forest where
  within node member := fit.walkAll.within node (mem_walkAll_of_mem member)
  apart := fit.pairwise
  open_last node member opened := by
    refine ⟨?_, tail.last node member opened⟩
    cases isOpen with
    | true => rfl
    | false =>
      have closed := not_open_of_whole (whole rfl) node (mem_walkAll_of_mem member)
      rw [opened] at closed
      cases closed

end Node

/-! ### The tree of a text -/

/-- A closing bracket stands at the end of a closed form. -/
theorem Form.closing_of_closed (text : Text) {bracket : Bracket} {start stop : Nat}
    {items : List Node}
    (member : .form bracket start stop true items ∈ Node.walkAll (Form.read text).1) :
    ∃ found : Bracket, text[stop - 1]? = some found.closing := by
  obtain ⟨lexeme, listed, ⟨found, kind⟩, ends⟩ := closer_of_closed text member rfl
  obtain ⟨before, rest, same, start', stop', spelled, _⟩ := Lexeme.piece_of_mem listed
  rw [kind] at spelled
  have value : lexeme.value = [found.closing] := spelled
  have place : stop - 1 = before.length := by
    have last : lexeme.stop = stop := ends
    rw [← last, stop', value, start', Nat.zero_add]
    rfl
  refine ⟨found, ?_⟩
  rw [place, same, value]
  simp

/-- At every depth of the tree the nodes are laid out between the brackets around them. A form
begins with its bracket; it ends with a closing bracket, or it is open and ends with the text. The
open forms are one chain at the end. The nodes in pre-order are those at the places of the tree,
each at one place, and they start one behind the other. -/
theorem layout_of_tree (text : Text) :
    Node.LaidOut 0 text.length true (Form.read text).1 ∧
    (∀ bracket start stop closed items,
      .form bracket start stop closed items ∈ Node.walkAll (Form.read text).1 →
        text[start]? = some bracket.opening ∧
        Node.LaidOut (start + 1) (if closed then stop - 1 else stop) (!closed) items ∧
        (closed = true → ∃ found : Bracket, text[stop - 1]? = some found.closing) ∧
        (closed = false → stop = text.length)) ∧
    Node.OpenTail text.length (Form.read text).1 ∧
    (∀ node ∈ Node.walkAll (Form.read text).1, node.start < node.stop ∧ node.stop ≤ text.length) ∧
    (∀ path node, Node.at? (Form.read text).1 path = some node →
      node ∈ Node.walkAll (Form.read text).1) ∧
    (∀ node ∈ Node.walkAll (Form.read text).1,
      ∃! path, Node.at? (Form.read text).1 path = some node) ∧
    (Node.walkAll (Form.read text).1).Pairwise fun node later => node.start < later.start := by
  have fit := Form.allFit_read text
  have tail := Form.openTail_read text
  refine ⟨fit.laidOut tail Bool.noConfusion, ?_, tail, fun node member => ?_,
    fun path node found => Node.mem_walkAll_of_at? found, fun node member => fit.at?_unique member,
    fit.walkAll.ascending⟩
  · intro bracket start stop closed items member
    obtain ⟨inner, whole, ends⟩ := tail.form member
    have holds : Text.Holds text [bracket.opening] start := (Form.allStand_read text).1 _ member
    refine ⟨?_, ?_, ?_, ends⟩
    · obtain ⟨rest, split⟩ := holds.2
      rw [← Nat.add_zero start, ← List.getElem?_drop, ← split]
      rfl
    · have inside : Node.AllFit (start + 1) (if closed then stop - 1 else stop) items :=
        fit.fits_of_mem_walkAll member
      exact inside.laidOut inner fun closed' => whole (by simpa using closed')
    · rintro rfl
      exact Form.closing_of_closed text member
  · exact (fit.walkAll.within node member).2

end FormWatch
