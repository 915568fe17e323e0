import FormWatch.Proofs.Form.Geometry

/-!
Listings. What a listing takes from a forest it takes from its nodes one after the other, so it can
be taken from what has been read as well, and each step of the reader adds to it at one place. The
listing of the atoms and the closed forms is the same while they are read and when the text ends
(`settled_forest`).
-/

namespace FormWatch

namespace Node

theorem walkAll_append (forest later : List Node) :
    walkAll (forest ++ later) = walkAll forest ++ walkAll later := by
  induction forest with
  | nil => rfl
  | cons node rest ih => rw [List.cons_append, walkAll, walkAll, ih, List.append_assoc]

/-- A way to list a forest, node after node, and what it lists for an opening bracket whose form has
no end yet. -/
structure Listing (α : Type) where
  list : List Node → List α
  opened : Bracket → Nat → List α
  list_append : ∀ forest later, list (forest ++ later) = list forest ++ list later

/-- Whether an open form is listed as its opening bracket with its items behind. -/
def Listing.KeepsOpen {α : Type} (listing : Listing α) : Prop :=
  ∀ bracket start stop items,
    listing.list [.form bracket start stop false items] =
      listing.opened bracket start ++ listing.list items

theorem Listing.list_nil {α : Type} (listing : Listing α) : listing.list [] = [] := by
  have twice := listing.list_append [] []
  rw [List.append_nil] at twice
  exact List.self_eq_append_left.mp twice

end Node

namespace Reading

variable {α : Type} {reading : Reading}

/-- What a listing takes from what has been read. -/
def listed (listing : Node.Listing α) (reading : Reading) : List α :=
  listing.list reading.top.reverse ++
    reading.frames.reverse.flatMap fun frame =>
      listing.opened frame.bracket frame.start ++ listing.list frame.items.reverse

theorem listed_forest {listing : Node.Listing α} (keepsOpen : listing.KeepsOpen)
    (reading : Reading) (stop : Nat) :
    listing.list (reading.forest stop) = reading.listed listing := by
  have around (frames : List Frame) (inner : List Node) :
      listing.list (frames.foldl
        (fun inner frame =>
          [Node.form frame.bracket frame.start stop false (frame.items.reverse ++ inner)]) inner) =
        (frames.reverse.flatMap fun frame =>
          listing.opened frame.bracket frame.start ++ listing.list frame.items.reverse) ++
          listing.list inner := by
    induction frames generalizing inner with
    | nil => rfl
    | cons frame outer ih =>
      rw [List.foldl_cons, ih, keepsOpen, listing.list_append, List.reverse_cons,
        List.flatMap_append]
      simp
  rw [Reading.forest, listing.list_append, around, listing.list_nil, List.append_nil]
  rfl

theorem listed_open (listing : Node.Listing α) (reading : Reading) (bracket : Bracket)
    (start : Nat) :
    ({ reading with frames := ⟨bracket, start, []⟩ :: reading.frames } : Reading).listed listing =
      reading.listed listing ++ listing.opened bracket start := by
  simp [listed, listing.list_nil]

theorem listed_of_frame (listing : Node.Listing α) {frame : Frame} {outer : List Frame}
    (opened : reading.frames = frame :: outer) :
    reading.listed listing =
      ({ reading with frames := outer } : Reading).listed listing ++
        (listing.opened frame.bracket frame.start ++ listing.list frame.items.reverse) := by
  simp [listed, opened]

theorem listed_add (listing : Node.Listing α) (reading : Reading) (node : Node) :
    (reading.add node).listed listing = reading.listed listing ++ listing.list [node] := by
  unfold Reading.add
  split
  next opened => simp [listed, opened, listing.list_append]
  next frame outer opened => simp [listed, opened, listing.list_append]

theorem findings_add (reading : Reading) (node : Node) :
    (reading.add node).findings = reading.findings := by
  unfold Reading.add
  split <;> rfl

end Reading

/-! ### Nodes whose spans are known -/

namespace Node

def isAtom : Node → Bool
  | .atom _ => true
  | .form .. => false

def isClosed : Node → Bool
  | .atom _ => false
  | .form _ _ _ closed _ => closed

/-- The atoms and the closed forms of a tree in pre-order. -/
def settled (forest : List Node) : List Node :=
  (walkAll forest).filter fun node => node.isAtom || node.isClosed

theorem settled_append (forest later : List Node) :
    settled (forest ++ later) = settled forest ++ settled later := by
  rw [settled, walkAll_append, List.filter_append]
  rfl

theorem settled_atom (a : Atom) : settled [.atom a] = [.atom a] := rfl

theorem settled_closed (bracket : Bracket) (start stop : Nat) (items : List Node) :
    settled [.form bracket start stop true items] =
      .form bracket start stop true items :: settled items := by
  simp [settled, walkAll, walk, isClosed]

theorem settled_open (bracket : Bracket) (start stop : Nat) (items : List Node) :
    settled [.form bracket start stop false items] = settled items := by
  simp [settled, walkAll, walk, isClosed, isAtom]

def settledListing : Listing Node where
  list := settled
  opened _ _ := []
  list_append := settled_append

theorem settledListing_keepsOpen : settledListing.KeepsOpen := settled_open

end Node

namespace Reading

variable {reading : Reading}

/-- The atoms and the closed forms that have been read, in pre-order. -/
def settled (reading : Reading) : List Node :=
  Node.settled reading.top.reverse ++
    reading.frames.reverse.flatMap fun frame => Node.settled frame.items.reverse

theorem settled_forest (reading : Reading) (stop : Nat) :
    Node.settled (reading.forest stop) = reading.settled :=
  listed_forest Node.settledListing_keepsOpen reading stop

theorem settled_open (reading : Reading) (bracket : Bracket) (start : Nat) :
    ({ reading with frames := ⟨bracket, start, []⟩ :: reading.frames } : Reading).settled =
      reading.settled :=
  (listed_open Node.settledListing reading bracket start).trans (List.append_nil _)

theorem settled_of_frame {frame : Frame} {outer : List Frame}
    (opened : reading.frames = frame :: outer) :
    reading.settled =
      ({ reading with frames := outer } : Reading).settled ++ Node.settled frame.items.reverse :=
  listed_of_frame Node.settledListing opened

theorem settled_add (reading : Reading) (node : Node) :
    (reading.add node).settled = reading.settled ++ Node.settled [node] :=
  listed_add Node.settledListing reading node

/-- All that is settled ends where the last lexeme does. -/
theorem FitsTo.settled_within {place : Nat} (fits : reading.FitsTo place) :
    ∀ node ∈ reading.settled, node.start < node.stop ∧ node.stop ≤ place := by
  intro node member
  rw [← settled_forest reading place] at member
  exact (fits.forest.walkAll.within node (List.mem_filter.mp member).1).2

end Reading

end FormWatch
