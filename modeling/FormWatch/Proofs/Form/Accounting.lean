import FormWatch.Proofs.Form.OpenForms
import FormWatch.Proofs.Lexeme.Partition
import Mathlib.Data.List.Basic
import Mathlib.Data.List.Pairwise

/-!
Every lexeme is accounted for once. The nodes of a tree in pre-order are the opening brackets and
the atoms of the text in its order, a closing bracket closes one form or is reported as unmatched,
and the findings of the reader are what the tree says of the lexemes one by one
(`lexemes_accounted`).
-/

namespace FormWatch

/-! ### Nodes and the lexemes they begin with -/

/-- What a node begins with: an atom with itself, a form with its opening bracket. -/
inductive Node.Label where
  | opening (bracket : Bracket) (start : Nat)
  | atom (atom : Atom)

def Node.label : Node → Label
  | .atom a => .atom a
  | .form bracket start _ _ _ => .opening bracket start

/-- The label of the node that a lexeme makes, if it makes one. -/
def Lexeme.label? (lexeme : Lexeme) : Option Node.Label :=
  match lexeme.kind with
  | .opening bracket => some (.opening bracket lexeme.start)
  | .string | .unterminated | .atom => some (.atom ⟨lexeme.value, lexeme.start, lexeme.stop⟩)
  | .comment | .closing _ => none

/-! ### What a tree says of a lexeme -/

namespace Node

/-- The bracket of a closed form that ends at a place. -/
def endsAt? (stop : Nat) : Node → Option Bracket
  | .form bracket _ stop' true _ => if stop' = stop then some bracket else none
  | _ => none

/-- The brackets of the closed forms among nodes that end at a place. -/
def closedAt (stop : Nat) (nodes : List Node) : List Bracket :=
  nodes.filterMap (endsAt? stop)

def isOpenAt (start : Nat) : Node → Bool
  | .form _ start' _ false _ => start' = start
  | _ => false

end Node

namespace Lexeme

/-- What is found at a lexeme while the text is read: a closing bracket with no form that it closes,
or one of the other kind, and a string without an end. -/
def finding? (nodes : List Node) (lexeme : Lexeme) : Option Finding :=
  match lexeme.kind with
  | .closing found =>
    match Node.closedAt lexeme.stop nodes with
    | [] => some ⟨.unmatched found, lexeme.start⟩
    | bracket :: _ =>
      if found = bracket then none else some ⟨.mismatched found bracket, lexeme.start⟩
  | .unterminated => some ⟨.unterminatedString, lexeme.start⟩
  | .comment | .string | .opening _ | .atom => none

/-- What is found at an opening bracket when the text ends: that its form is not closed. -/
def unclosed? (nodes : List Node) (lexeme : Lexeme) : Option Finding :=
  match lexeme.kind with
  | .opening bracket =>
    if nodes.any (Node.isOpenAt lexeme.start) then some ⟨.unclosed bracket, lexeme.start⟩ else none
  | .comment | .string | .unterminated | .closing _ | .atom => none

end Lexeme

/-- Whether a finding is that of an unmatched closing bracket at a place. -/
def Finding.isUnmatchedAt (place : Nat) : Finding → Bool
  | ⟨.unmatched _, position⟩ => position = place
  | _ => false

/-! ### Listings -/

namespace Node

def labels (forest : List Node) : List Label :=
  (walkAll forest).map label

def labelListing : Listing Label where
  list := labels
  opened bracket start := [.opening bracket start]
  list_append forest later := by simp [labels, walkAll_append]

theorem labelListing_keepsOpen : labelListing.KeepsOpen := by
  intro bracket start stop items
  simp [labelListing, labels, walkAll, walk, label]

/-- The finding that a form is not closed. -/
def unclosed? : Node → Option Finding
  | .form bracket start _ false _ => some ⟨.unclosed bracket, start⟩
  | _ => none

/-- The findings that forms of a forest are not closed. -/
def unclosedIn (forest : List Node) : List Finding :=
  (walkAll forest).filterMap unclosed?

theorem unclosedIn_append (forest later : List Node) :
    unclosedIn (forest ++ later) = unclosedIn forest ++ unclosedIn later := by
  simp [unclosedIn, walkAll_append]

theorem unclosedIn_of_whole {forest : List Node} (whole : openForms forest = []) :
    unclosedIn forest = [] := by
  rw [unclosedIn, List.filterMap_eq_nil_iff]
  intro node member
  have closed := not_open_of_whole whole node member
  unfold isOpen at closed
  split at closed
  · cases closed
  next other =>
    unfold unclosed?
    split
    · exact (other _ _ _ _ rfl).elim
    · rfl

def unclosedListing : Listing Finding where
  list := unclosedIn
  opened bracket start := [⟨.unclosed bracket, start⟩]
  list_append := unclosedIn_append

theorem unclosedListing_keepsOpen : unclosedListing.KeepsOpen := by
  intro bracket start stop items
  simp [unclosedListing, unclosedIn, walkAll, walk, unclosed?]

/-! ### Forms that end at a place -/

theorem closedAt_append (stop : Nat) (nodes later : List Node) :
    closedAt stop (nodes ++ later) = closedAt stop nodes ++ closedAt stop later :=
  List.filterMap_append

theorem closedAt_cons (stop : Nat) (bracket : Bracket) (start stop' : Nat)
    (items nodes : List Node) :
    closedAt stop (.form bracket start stop' true items :: nodes) =
      (if stop' = stop then [bracket] else []) ++ closedAt stop nodes := by
  by_cases same : stop' = stop <;> simp [closedAt, endsAt?, same]

theorem closedAt_settled (stop : Nat) (forest : List Node) :
    closedAt stop (settled forest) = closedAt stop (walkAll forest) := by
  rw [closedAt, settled, List.filterMap_filter]
  refine List.filterMap_congr fun node _ => ?_
  cases node with
  | atom a => rfl
  | form bracket start stop' closed items => cases closed <;> rfl

theorem closedAt_of_before {stop : Nat} {nodes : List Node}
    (before : ∀ node ∈ nodes, node.stop < stop) : closedAt stop nodes = [] := by
  rw [closedAt, List.filterMap_eq_nil_iff]
  intro node member
  cases node with
  | atom a => rfl
  | form bracket start stop' closed items =>
    have apart : stop' ≠ stop := Nat.ne_of_lt (before _ member)
    cases closed with
    | false => rfl
    | true => exact if_neg apart

end Node

namespace Lexeme

theorem finding?_congr {nodes nodes' : List Node} {lexeme : Lexeme}
    (same : Node.closedAt lexeme.stop nodes = Node.closedAt lexeme.stop nodes') :
    lexeme.finding? nodes = lexeme.finding? nodes' := by
  unfold finding?
  rw [same]

end Lexeme

/-! ### Reading, lexeme by lexeme -/

namespace Reading

/-- Whether what has been read up to a place accounts for the lexemes before it. -/
structure Accounts (done : List Lexeme) (place : Nat) (reading : Reading) : Prop where
  fits : reading.FitsTo place
  ended : ∀ lexeme ∈ done, lexeme.stop ≤ place
  labels : reading.listed Node.labelListing = done.filterMap Lexeme.label?
  findings : reading.findings.reverse = done.filterMap (Lexeme.finding? reading.settled)
  closers : ∀ node ∈ reading.settled, node.isClosed = true →
    ∃ lexeme ∈ done, (∃ found, lexeme.kind = .closing found) ∧ lexeme.stop = node.stop

variable {done : List Lexeme} {place : Nat} {reading : Reading} {lexeme : Lexeme}

theorem accounts_empty : empty.Accounts [] 0 where
  fits := Nat.le_refl 0
  ended := by simp
  labels := rfl
  findings := rfl
  closers := by simp [empty, settled, Node.settled, Node.walkAll]

namespace Accounts

theorem filterMap_concat {α β : Type} (f : α → Option β) (list : List α) (last : α) :
    (list ++ [last]).filterMap f = list.filterMap f ++ (f last).toList := by
  rw [List.filterMap_append]
  cases given : f last <;> simp [given]

/-- One more lexeme is accounted for if what is read of it changes no earlier account. -/
theorem extend (accounts : reading.Accounts done place) {next : Reading}
    (fits : next.FitsTo lexeme.stop) (later : place ≤ lexeme.start)
    (filled : lexeme.start < lexeme.stop)
    (labels : next.listed Node.labelListing =
      reading.listed Node.labelListing ++ lexeme.label?.toList)
    (same : ∀ stop ≤ place, Node.closedAt stop next.settled = Node.closedAt stop reading.settled)
    (findings : next.findings.reverse =
      reading.findings.reverse ++ (lexeme.finding? next.settled).toList)
    (closers : ∀ node ∈ next.settled, node.isClosed = true → node ∈ reading.settled ∨
      (∃ found, lexeme.kind = .closing found) ∧ lexeme.stop = node.stop) :
    next.Accounts (done ++ [lexeme]) lexeme.stop where
  fits := fits
  ended other member := by
    rcases List.mem_append.mp member with before | here
    · have ended := accounts.ended other before
      omega
    · exact Nat.le_of_eq (congrArg Lexeme.stop (List.mem_singleton.mp here))
  labels := by rw [labels, accounts.labels, filterMap_concat]
  findings := by
    rw [findings, accounts.findings, filterMap_concat]
    congr 1
    refine List.filterMap_congr fun other member => ?_
    exact Lexeme.finding?_congr (same other.stop (accounts.ended other member)).symm
  closers node member form := by
    rcases closers node member form with before | here
    · obtain ⟨closer, found, stop⟩ := accounts.closers node before form
      exact ⟨closer, List.mem_append_left _ found, stop⟩
    · exact ⟨lexeme, by simp, here⟩

/-- An atom is put behind all that has been read. -/
theorem add (accounts : reading.Accounts done place) (later : place ≤ lexeme.start)
    (filled : lexeme.start < lexeme.stop)
    (label : lexeme.label? = some (.atom ⟨lexeme.value, lexeme.start, lexeme.stop⟩))
    (findings : List Finding)
    (found : ∀ nodes, findings.reverse =
      reading.findings.reverse ++ (lexeme.finding? nodes).toList) :
    ({ reading.add (.atom ⟨lexeme.value, lexeme.start, lexeme.stop⟩) with
        findings := findings } : Reading).Accounts (done ++ [lexeme]) lexeme.stop := by
  let next : Reading :=
    { reading.add (.atom ⟨lexeme.value, lexeme.start, lexeme.stop⟩) with findings := findings }
  have settled : next.settled =
      reading.settled ++ [.atom ⟨lexeme.value, lexeme.start, lexeme.stop⟩] :=
    reading.settled_add _
  have fits : next.FitsTo lexeme.stop := FitsTo.add accounts.fits later filled
  refine accounts.extend fits later filled ?_ ?_ (found _) ?_
  · rw [label]
    exact listed_add Node.labelListing reading _
  · intro stop _
    rw [settled, Node.closedAt_append]
    exact List.append_nil _
  · intro node member form
    rw [settled] at member
    rcases List.mem_append.mp member with before | here
    · exact .inl before
    · rw [List.mem_singleton.mp here] at form
      cases form

/-- A form ends; it goes between what was read around it and what was read in it. -/
theorem close (accounts : reading.Accounts done place) {frame : Frame} {outer : List Frame}
    (opened : reading.frames = frame :: outer) {found : Bracket}
    (kind : lexeme.kind = .closing found) (later : place ≤ lexeme.start)
    (filled : lexeme.start < lexeme.stop) (findings : List Finding)
    (reported : findings.reverse = reading.findings.reverse ++
      (if found = frame.bracket then []
        else [⟨.mismatched found frame.bracket, lexeme.start⟩])) :
    ({ ({ reading with frames := outer } : Reading).add
          (.form frame.bracket frame.start lexeme.stop true frame.items.reverse) with
        findings := findings } : Reading).Accounts (done ++ [lexeme]) lexeme.stop := by
  let around : Reading := { reading with frames := outer }
  let form : Node := .form frame.bracket frame.start lexeme.stop true frame.items.reverse
  let next : Reading := { around.add form with findings := findings }
  have before : reading.settled = around.settled ++ Node.settled frame.items.reverse :=
    settled_of_frame opened
  have settled : next.settled = around.settled ++ form :: Node.settled frame.items.reverse := by
    have added := around.settled_add form
    rw [Node.settled_closed] at added
    exact added
  have fits : next.FitsTo lexeme.stop := by
    have closed := accounts.fits.close found later filled
    unfold Reading.close at closed
    rw [opened] at closed
    dsimp only at closed
    split at closed <;> exact closed
  -- All that was settled before ends before this lexeme.
  have early : ∀ node ∈ reading.settled, node.stop < lexeme.stop := by
    intro node member
    have within := accounts.fits.settled_within node member
    omega
  refine accounts.extend fits later filled ?_ ?_ ?_ ?_
  -- The form was listed when it was opened, so its end adds nothing.
  · have label : lexeme.label? = none := by simp only [Lexeme.label?, kind]
    have listed := listed_add Node.labelListing around form
    rw [label, Option.toList_none, List.append_nil, listed_of_frame Node.labelListing opened]
    refine listed.trans ?_
    simp [Node.labelListing, Node.labels, Node.walkAll, Node.walk, Node.label, form, around]
  · intro stop ended
    have apart : lexeme.stop ≠ stop := by omega
    rw [settled, before, Node.closedAt_append, Node.closedAt_append, Node.closedAt_cons,
      if_neg apart, List.nil_append]
  · have only : Node.closedAt lexeme.stop next.settled = [frame.bracket] := by
      have none := Node.closedAt_of_before early
      rw [before, Node.closedAt_append, List.append_eq_nil_iff] at none
      rw [settled, Node.closedAt_append, Node.closedAt_cons, none.1, none.2, if_pos rfl]
      rfl
    have finding : (lexeme.finding? next.settled).toList =
        if found = frame.bracket then []
        else [⟨.mismatched found frame.bracket, lexeme.start⟩] := by
      simp only [Lexeme.finding?, kind, only]
      split <;> rfl
    rw [finding]
    exact reported
  · intro node member closed
    rw [settled] at member
    rw [before]
    rcases List.mem_append.mp member with outside | inside
    · exact .inl (List.mem_append_left _ outside)
    · rcases List.mem_cons.mp inside with rfl | inside
      · exact .inr ⟨⟨found, kind⟩, rfl⟩
      · exact .inl (List.mem_append_right _ inside)

/-- A closing bracket that closes nothing. -/
theorem unmatched (accounts : reading.Accounts done place) {found : Bracket}
    (kind : lexeme.kind = .closing found) (later : place ≤ lexeme.start)
    (filled : lexeme.start < lexeme.stop) :
    (reading.report (.unmatched found) lexeme.start).Accounts (done ++ [lexeme]) lexeme.stop := by
  have early : ∀ node ∈ reading.settled, node.stop < lexeme.stop := by
    intro node member
    have within := accounts.fits.settled_within node member
    omega
  have label : lexeme.label? = none := by simp only [Lexeme.label?, kind]
  have finding : lexeme.finding? reading.settled = some ⟨.unmatched found, lexeme.start⟩ := by
    simp only [Lexeme.finding?, kind, Node.closedAt_of_before early]
  have fits : (reading.report (.unmatched found) lexeme.start).FitsTo lexeme.stop :=
    accounts.fits.upTo (by omega)
  refine accounts.extend fits later filled ?_ (fun _ _ => rfl) ?_ fun _ member _ => .inl member
  · rw [label]
    exact (List.append_nil _).symm
  · have settled : (reading.report (.unmatched found) lexeme.start).settled = reading.settled := rfl
    rw [settled, finding]
    exact List.reverse_cons

/-- A lexeme behind all that has been read. -/
theorem step (accounts : reading.Accounts done place) (later : place ≤ lexeme.start)
    (filled : lexeme.start < lexeme.stop) :
    (reading.step lexeme).Accounts (done ++ [lexeme]) lexeme.stop := by
  have fits := accounts.fits.step lexeme later filled
  have kept : (reading.add (.atom ⟨lexeme.value, lexeme.start, lexeme.stop⟩)).findings =
      reading.findings := findings_add _ _
  unfold Reading.step at fits ⊢
  split
  next kind =>
    simp only [kind] at fits
    refine accounts.extend fits later filled ?_ (fun _ _ => rfl) ?_
      fun _ member _ => .inl member
    · simp [Lexeme.label?, kind]
    · simp [Lexeme.finding?, kind]
  next bracket kind =>
    simp only [kind] at fits
    refine accounts.extend fits later filled ?_ ?_ ?_ ?_
    · rw [listed_open]
      simp [Lexeme.label?, kind, Node.labelListing]
    · intro stop _
      rw [settled_open]
    · simp [Lexeme.finding?, kind]
    · intro node member _
      rw [settled_open] at member
      exact .inl member
  next found kind =>
    cases opened : reading.frames with
    | nil =>
      simp only [Reading.close, opened]
      exact accounts.unmatched kind later filled
    | cons frame outer =>
      let closed : Reading := ({ reading with frames := outer } : Reading).add
        (.form frame.bracket frame.start lexeme.stop true frame.items.reverse)
      have kept : closed.findings = reading.findings := findings_add _ _
      simp only [Reading.close, opened]
      split
      next same =>
        refine accounts.close opened kind later filled closed.findings ?_
        rw [kept, if_pos same, List.append_nil]
      next differ =>
        refine accounts.close opened kind later filled
          (⟨.mismatched found frame.bracket, lexeme.start⟩ :: closed.findings) ?_
        rw [kept, if_neg differ, List.reverse_cons]
  next kind =>
    refine accounts.add later filled (by simp only [Lexeme.label?, kind]) _ fun nodes => ?_
    simp [Lexeme.finding?, kind, kept]
  next kind =>
    refine accounts.add later filled (by simp only [Lexeme.label?, kind])
      (reading.add (.atom ⟨lexeme.value, lexeme.start, lexeme.stop⟩)).findings fun nodes => ?_
    simp [Lexeme.finding?, kind, kept]
  next kind =>
    refine accounts.add later filled (by simp only [Lexeme.label?, kind])
      (reading.add (.atom ⟨lexeme.value, lexeme.start, lexeme.stop⟩)).findings fun nodes => ?_
    simp [Lexeme.finding?, kind, kept]

theorem run {high : Nat} {lexemes : List Lexeme} (accounts : reading.Accounts done place)
    (inOrder : Lexeme.InOrder place high lexemes) :
    ∃ last, (lexemes.foldl Reading.step reading).Accounts (done ++ lexemes) last := by
  induction lexemes generalizing done place reading with
  | nil => exact ⟨place, by rwa [List.append_nil]⟩
  | cons lexeme rest ih =>
    obtain ⟨later, filled, following⟩ := inOrder
    have all := ih (accounts.step later filled) following
    rwa [List.append_assoc] at all

end Accounts

/-- The forms that have no end when the text ends are the open forms of the tree. -/
theorem IsWhole.unclosedIn_forest (whole : reading.IsWhole) (stop : Nat) :
    Node.unclosedIn (reading.forest stop) =
      reading.frames.reverse.map fun frame => ⟨.unclosed frame.bracket, frame.start⟩ := by
  refine (listed_forest Node.unclosedListing_keepsOpen reading stop).trans ?_
  have top : Node.unclosedListing.list reading.top.reverse = [] :=
    Node.unclosedIn_of_whole whole.top
  rw [listed, top, List.nil_append, List.map_eq_flatMap]
  refine List.flatMap_congr fun frame member => ?_
  have items : Node.unclosedListing.list frame.items.reverse = [] :=
    Node.unclosedIn_of_whole (whole.items frame (List.mem_reverse.mp member))
  rw [items, List.append_nil]
  rfl

end Reading

/-! ### The lexemes of a text -/

namespace Node

theorem form_of_endsAt? {stop : Nat} {node : Node} {bracket : Bracket}
    (ends : endsAt? stop node = some bracket) :
    ∃ start items, node = .form bracket start stop true items := by
  unfold endsAt? at ends
  split at ends
  next found start stop' items =>
    split at ends
    next same =>
      cases ends
      exact ⟨start, items, by rw [same]⟩
    · cases ends
  · cases ends

/-- Of nodes in pre-order at most one is a closed form that ends at a place. -/
theorem length_closedAt_le {low high : Nat} {nodes : List Node} (apart : AllApart low high nodes)
    (stop : Nat) : (closedAt stop nodes).length ≤ 1 := by
  -- A node behind another ends later, and one inside it ends before its closing bracket.
  have none : (closedAt stop nodes).Pairwise fun _ _ => False := by
    rw [closedAt, List.pairwise_filterMap]
    refine apart.apart.imp_of_mem
      fun {node later} _ member precedes bracket ends bracket' ends' => ?_
    obtain ⟨start, items, rfl⟩ := form_of_endsAt? ends
    obtain ⟨start', items', rfl⟩ := form_of_endsAt? ends'
    have filled : start' < stop := (apart.within _ member).2.1
    rcases precedes with behind | surrounds
    · exact Nat.not_le.mpr filled behind
    · have inside : stop ≤ stop - 1 := surrounds.2
      omega
  match found : closedAt stop nodes with
  | [] | [_] => simp
  | first :: second :: rest =>
    rw [found] at none
    exact ((List.pairwise_cons.mp none).1 second List.mem_cons_self).elim

/-- No two nodes of a tree start at one place. -/
theorem eq_of_start {low high : Nat} {nodes : List Node} (apart : AllApart low high nodes)
    {node other : Node} (member : node ∈ nodes) (member' : other ∈ nodes)
    (same : node.start = other.start) : node = other := by
  have distinct : nodes.Pairwise fun node later => node.start ≠ later.start :=
    apart.ascending.imp Nat.ne_of_lt
  have symm : Std.Symm fun node later : Node => node.start ≠ later.start := ⟨fun _ _ => Ne.symm⟩
  by_contra differ
  exact distinct.forall member member' differ same

/-- A form of a tree is open if one that starts there is. -/
theorem any_isOpenAt {low high : Nat} {nodes : List Node} (apart : AllApart low high nodes)
    {bracket : Bracket} {start stop : Nat} {closed : Bool} {items : List Node}
    (member : .form bracket start stop closed items ∈ nodes) :
    nodes.any (isOpenAt start) = !closed := by
  cases closed with
  | false => exact List.any_eq_true.mpr ⟨_, member, decide_eq_true rfl⟩
  | true =>
    rw [Bool.not_true, List.any_eq_false]
    intro other member' isOpen
    unfold isOpenAt at isOpen
    split at isOpen
    · have same := eq_of_start apart member member' (of_decide_eq_true isOpen).symm
      cases same
    · cases isOpen

end Node

namespace Form

/-- What is read of a whole text. -/
theorem accounts_read (text : Text) :
    ∃ last, ((Lexeme.scan text).foldl Reading.step Reading.empty).Accounts (Lexeme.scan text)
      last :=
  Reading.accounts_empty.run (Lexeme.inOrder_scan text)

theorem labels_read (text : Text) :
    (Node.walkAll (Form.read text).1).map Node.label =
      (Lexeme.scan text).filterMap Lexeme.label? := by
  obtain ⟨last, accounts⟩ := accounts_read text
  rw [← accounts.labels]
  exact Reading.listed_forest Node.labelListing_keepsOpen _ text.length

/-- Every node of a tree begins where a lexeme of the text does. -/
theorem lexeme_of_node {text : Text} {node : Node} (member : node ∈ Node.walkAll (Form.read text).1) :
    ∃ lexeme ∈ Lexeme.scan text, lexeme.start = node.start := by
  have listed := List.mem_map_of_mem (f := Node.label) member
  rw [labels_read, List.mem_filterMap] at listed
  obtain ⟨lexeme, scanned, made⟩ := listed
  refine ⟨lexeme, scanned, ?_⟩
  unfold Lexeme.label? at made
  cases node with
  | atom a =>
    split at made
    all_goals cases made
    all_goals rfl
  | form bracket start stop closed items =>
    split at made
    all_goals cases made
    rfl

/-- The findings while a text is read. -/
theorem findings_scanning (text : Text) :
    ((Lexeme.scan text).foldl Reading.step Reading.empty).findings.reverse =
      (Lexeme.scan text).filterMap (Lexeme.finding? (Node.walkAll (Form.read text).1)) := by
  obtain ⟨last, accounts⟩ := accounts_read text
  rw [accounts.findings]
  refine List.filterMap_congr fun lexeme _ => Lexeme.finding?_congr ?_
  rw [← Node.closedAt_settled, Form.read, Reading.settled_forest]

/-- The findings when the text ends are made at the opening brackets of the open forms. -/
theorem unclosedIn_read (text : Text) :
    Node.unclosedIn (Form.read text).1 =
      (Lexeme.scan text).filterMap (Lexeme.unclosed? (Node.walkAll (Form.read text).1)) := by
  have apart := (allFit_read text).walkAll
  have labels := labels_read text
  rw [Node.unclosedIn]
  generalize Node.walkAll (Form.read text).1 = nodes at apart labels ⊢
  -- Both are made from the labels, an opening bracket with no closed form giving a finding.
  let made : Node.Label → Option Finding
    | .opening bracket start =>
      if nodes.any (Node.isOpenAt start) then some ⟨.unclosed bracket, start⟩ else none
    | .atom _ => none
  have ofNodes : nodes.filterMap Node.unclosed? = (nodes.map Node.label).filterMap made := by
    rw [List.filterMap_map]
    refine List.filterMap_congr fun node member => ?_
    cases node with
    | atom a => rfl
    | form bracket start stop closed items =>
      simp only [Function.comp_apply, Node.label, made, Node.any_isOpenAt apart member]
      cases closed <;> rfl
  have ofLexemes : (Lexeme.scan text).filterMap (Lexeme.unclosed? nodes) =
      ((Lexeme.scan text).filterMap Lexeme.label?).filterMap made := by
    rw [List.filterMap_filterMap]
    refine List.filterMap_congr fun lexeme _ => ?_
    unfold Lexeme.unclosed? Lexeme.label?
    cases lexeme.kind <;> rfl
  rw [ofNodes, ofLexemes, labels]

theorem findings_read (text : Text) :
    (Form.read text).2 =
      (Lexeme.scan text).filterMap (Lexeme.finding? (Node.walkAll (Form.read text).1)) ++
        (Lexeme.scan text).filterMap (Lexeme.unclosed? (Node.walkAll (Form.read text).1)) := by
  rw [← findings_scanning, ← unclosedIn_read]
  exact congrArg _ ((isWhole_read text).unclosedIn_forest text.length).symm

end Form

/-! ### Closing brackets -/

theorem Lexeme.finding?_position {nodes : List Node} {lexeme : Lexeme} {finding : Finding}
    (found : lexeme.finding? nodes = some finding) : finding.position = lexeme.start := by
  unfold Lexeme.finding? at found
  split at found
  · split at found
    · cases found
      rfl
    split at found
    · cases found
    · cases found
      rfl
  · cases found
    rfl
  · cases found
  · cases found
  · cases found
  · cases found

theorem Finding.position_of_isUnmatchedAt {place : Nat} {finding : Finding}
    (unmatched : finding.isUnmatchedAt place = true) : finding.position = place := by
  unfold Finding.isUnmatchedAt at unmatched
  split at unmatched
  · exact of_decide_eq_true unmatched
  · cases unmatched

/-- What is found at the other lexemes is at other places. -/
theorem Lexeme.countP_finding? {low high : Nat} {lexemes : List Lexeme} {lexeme : Lexeme}
    (inOrder : InOrder low high lexemes) (member : lexeme ∈ lexemes) (nodes : List Node) :
    (lexemes.filterMap (finding? nodes)).countP (Finding.isUnmatchedAt lexeme.start) =
      (lexeme.finding? nodes).toList.countP (Finding.isUnmatchedAt lexeme.start) := by
  obtain ⟨before, after, rfl⟩ := List.append_of_mem member
  have order := List.pairwise_append.mp inOrder.pairwise
  have elsewhere (others : List Lexeme) (apart : ∀ other ∈ others, other.start ≠ lexeme.start) :
      (others.filterMap (finding? nodes)).countP (Finding.isUnmatchedAt lexeme.start) = 0 := by
    rw [List.countP_eq_zero]
    intro finding found unmatched
    obtain ⟨other, member', found⟩ := List.mem_filterMap.mp found
    refine apart other member' ?_
    rw [← finding?_position found, Finding.position_of_isUnmatchedAt unmatched]
  have earlier := elsewhere before fun other member' => by
    have apart := order.2.2 other member' lexeme List.mem_cons_self
    have filled := (inOrder.within other (List.mem_append_left _ member')).2.1
    omega
  have later := elsewhere after fun other member' => by
    have apart := (List.pairwise_cons.mp order.2.1).1 other member'
    have filled := (inOrder.within lexeme (by simp)).2.1
    omega
  rw [← List.singleton_append, List.filterMap_append, List.filterMap_append, List.countP_append,
    List.countP_append, earlier, later, Nat.zero_add, Nat.add_zero]
  cases found : lexeme.finding? nodes <;> simp [found]

/-- A closing bracket closes one form or is reported as unmatched, and not both. -/
theorem Form.closes_or_unmatched (text : Text) {lexeme : Lexeme} {found : Bracket}
    (member : lexeme ∈ Lexeme.scan text) (kind : lexeme.kind = .closing found) :
    (Node.closedAt lexeme.stop (Node.walkAll (Form.read text).1)).length +
      (Form.read text).2.countP (Finding.isUnmatchedAt lexeme.start) = 1 := by
  have single := Node.length_closedAt_le (allFit_read text).walkAll lexeme.stop
  have unclosed : ((Lexeme.scan text).filterMap
      (Lexeme.unclosed? (Node.walkAll (Form.read text).1))).countP
        (Finding.isUnmatchedAt lexeme.start) = 0 := by
    rw [← unclosedIn_read, List.countP_eq_zero]
    intro finding listed unmatched
    obtain ⟨node, _, isOpen⟩ := List.mem_filterMap.mp listed
    unfold Node.unclosed? at isOpen
    split at isOpen
    · cases isOpen
      cases unmatched
    · cases isOpen
  rw [findings_read, List.countP_append, unclosed, Nat.add_zero,
    Lexeme.countP_finding? (Lexeme.inOrder_scan text) member]
  match closed : Node.closedAt lexeme.stop (Node.walkAll (Form.read text).1) with
  | [] => simp [Lexeme.finding?, kind, closed, Finding.isUnmatchedAt]
  | [bracket] =>
    simp only [Lexeme.finding?, kind, closed]
    split
    · rfl
    · rfl
  | first :: second :: rest =>
    rw [closed] at single
    simp at single

/-- What closes a form is a closing bracket. -/
theorem Form.closer_of_closed (text : Text) {node : Node}
    (member : node ∈ Node.walkAll (Form.read text).1) (closed : node.isClosed = true) :
    ∃ lexeme ∈ Lexeme.scan text,
      (∃ found, lexeme.kind = .closing found) ∧ lexeme.stop = node.stop := by
  obtain ⟨last, accounts⟩ := accounts_read text
  refine accounts.closers node ?_ closed
  rw [← Reading.settled_forest _ text.length]
  exact List.mem_filter.mpr ⟨member, by rw [closed, Bool.or_true]⟩

/-- The nodes in pre-order are the opening brackets, the atoms and the strings in the order of the
text. A closing bracket closes one form, or it is reported as unmatched, and only closing brackets
close forms. The findings are those at the lexemes, in order, and behind them those at the opening
brackets of the open forms, which stand one in the other. -/
theorem lexemes_accounted (text : Text) :
    (Node.walkAll (Form.read text).1).map Node.label =
      (Lexeme.scan text).filterMap Lexeme.label? ∧
    (∀ lexeme ∈ Lexeme.scan text, ∀ found, lexeme.kind = .closing found →
      (Node.closedAt lexeme.stop (Node.walkAll (Form.read text).1)).length +
        (Form.read text).2.countP (Finding.isUnmatchedAt lexeme.start) = 1) ∧
    (∀ node ∈ Node.walkAll (Form.read text).1, node.isClosed = true →
      ∃ lexeme ∈ Lexeme.scan text,
        (∃ found, lexeme.kind = .closing found) ∧ lexeme.stop = node.stop) ∧
    (Form.read text).2 =
      (Lexeme.scan text).filterMap (Lexeme.finding? (Node.walkAll (Form.read text).1)) ++
        (Lexeme.scan text).filterMap (Lexeme.unclosed? (Node.walkAll (Form.read text).1)) ∧
    (Node.openForms (Form.read text).1).Pairwise Node.Surrounds := by
  refine ⟨Form.labels_read text, ?_, ?_, Form.findings_read text, Form.openForms_nested text⟩
  · intro lexeme member found kind
    exact Form.closes_or_unmatched text member kind
  · intro node member closed
    exact Form.closer_of_closed text member closed

end FormWatch
