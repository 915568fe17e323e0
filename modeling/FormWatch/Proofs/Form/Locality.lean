import FormWatch.Form.Reader
import FormWatch.Proofs.Lexeme.Locality

/-!
Locality of reading. The reader decides by the kinds of lexemes alone and hands their places on, and
where no form is open, nothing that was read before decides about what follows. So lexemes with
other places, behind a text whose forms are closed, are read as the same nodes and findings with
their places changed likewise, behind those of that text (`relocate_run`). Two texts with a newline
between them are read one after the other (`reading_is_local`).
-/

namespace FormWatch

/-! ### What has places -/

def Atom.relocate (move : Relocation) (a : Atom) : Atom :=
  { a with start := move.start a.start, stop := move.stop a.stop }

/-- A finding is placed where a lexeme starts. -/
def Finding.relocate (move : Relocation) (finding : Finding) : Finding :=
  { finding with position := move.start finding.position }

namespace Node

mutual

def relocate (move : Relocation) : Node → Node
  | .atom a => .atom (a.relocate move)
  | .form bracket start stop closed items =>
    .form bracket (move.start start) (move.stop stop) closed (relocateAll move items)

def relocateAll (move : Relocation) : List Node → List Node
  | [] => []
  | node :: rest => relocate move node :: relocateAll move rest

end

theorem relocateAll_eq_map (move : Relocation) (forest : List Node) :
    relocateAll move forest = forest.map (relocate move) := by
  induction forest with
  | nil => rfl
  | cons node rest ih => rw [relocateAll, ih, List.map_cons]

theorem relocateAll_append (move : Relocation) (forest later : List Node) :
    relocateAll move (forest ++ later) = relocateAll move forest ++ relocateAll move later := by
  simp only [relocateAll_eq_map, List.map_append]

theorem relocateAll_reverse (move : Relocation) (forest : List Node) :
    relocateAll move forest.reverse = (relocateAll move forest).reverse := by
  simp only [relocateAll_eq_map, List.map_reverse]

end Node

def Frame.relocate (move : Relocation) (frame : Frame) : Frame where
  bracket := frame.bracket
  start := move.start frame.start
  items := Node.relocateAll move frame.items

/-! ### Reading with other places -/

namespace Reading

/-- What has been read, with other places, behind top-level nodes and findings that keep theirs. -/
def relocate (move : Relocation) (top : List Node) (findings : List Finding) (reading : Reading) :
    Reading where
  frames := reading.frames.map (Frame.relocate move)
  top := Node.relocateAll move reading.top ++ top
  findings := reading.findings.map (Finding.relocate move) ++ findings

variable (move : Relocation) (top : List Node) (findings : List Finding)

theorem relocate_empty : empty.relocate move top findings = ⟨[], top, findings⟩ := rfl

theorem relocate_add (node : Node) (reading : Reading) :
    (reading.add node).relocate move top findings =
      (reading.relocate move top findings).add (node.relocate move) := by
  obtain ⟨frames, before, earlier⟩ := reading
  cases frames <;> rfl

/-- What ends with an innermost open form, by whether the brackets are of one kind. -/
theorem close_frame (found : Bracket) (lexeme : Lexeme) (frame : Frame) (outer : List Frame)
    (top : List Node) (findings : List Finding) :
    close found lexeme ⟨frame :: outer, top, findings⟩ =
      let closed := add (.form frame.bracket frame.start lexeme.stop true frame.items.reverse)
        ⟨outer, top, findings⟩
      if found = frame.bracket then closed
      else closed.report (.mismatched found frame.bracket) lexeme.start := rfl

theorem relocate_close (found : Bracket) (lexeme : Lexeme) (reading : Reading) :
    (reading.close found lexeme).relocate move top findings =
      (reading.relocate move top findings).close found (lexeme.relocate move) := by
  obtain ⟨frames, before, earlier⟩ := reading
  cases frames with
  | nil => rfl
  | cons frame outer =>
    have closed := relocate_add move top findings
      (.form frame.bracket frame.start lexeme.stop true frame.items.reverse) ⟨outer, before, earlier⟩
    rw [Node.relocate, Node.relocateAll_reverse] at closed
    have moved : relocate move top findings ⟨frame :: outer, before, earlier⟩ =
        ⟨frame.relocate move :: outer.map (Frame.relocate move), Node.relocateAll move before ++ top,
          earlier.map (Finding.relocate move) ++ findings⟩ := rfl
    rw [moved, close_frame, close_frame]
    -- The brackets are the same, so both closings report a mismatch or neither does.
    by_cases same : found = frame.bracket
    · have same' : found = (frame.relocate move).bracket := same
      simp only [if_pos same, if_pos same']
      exact closed
    · have differ : ¬ found = (frame.relocate move).bracket := same
      simp only [if_neg same, if_neg differ]
      exact congrArg (report (.mismatched found frame.bracket) (move.start lexeme.start)) closed

theorem relocate_step (lexeme : Lexeme) (reading : Reading) :
    (reading.step lexeme).relocate move top findings =
      (reading.relocate move top findings).step (lexeme.relocate move) := by
  have atom := relocate_add move top findings (.atom ⟨lexeme.value, lexeme.start, lexeme.stop⟩)
    reading
  have kind : (lexeme.relocate move).kind = lexeme.kind := rfl
  unfold step
  rw [kind]
  split
  · rfl
  · rfl
  next found _ => exact relocate_close move top findings found lexeme reading
  · exact congrArg (report .unterminatedString (move.start lexeme.start)) atom
  · exact atom
  · exact atom

theorem relocate_run (lexemes : List Lexeme) (reading : Reading) :
    (lexemes.foldl step reading).relocate move top findings =
      (lexemes.map (Lexeme.relocate move)).foldl step (reading.relocate move top findings) := by
  induction lexemes generalizing reading with
  | nil => rfl
  | cons lexeme rest ih => rw [List.foldl_cons, ih, relocate_step, List.map_cons, List.foldl_cons]

theorem forest_relocate (reading : Reading) (stop : Nat) :
    (reading.relocate move top findings).forest (move.stop stop) =
      top.reverse ++ Node.relocateAll move (reading.forest stop) := by
  -- The open forms are wrapped from the innermost outwards, all up to one place.
  have around (frames : List Frame) (inner : List Node) :
      Node.relocateAll move (frames.foldl
        (fun inner frame =>
          [Node.form frame.bracket frame.start stop false (frame.items.reverse ++ inner)]) inner) =
        (frames.map (Frame.relocate move)).foldl
          (fun inner frame =>
            [Node.form frame.bracket frame.start (move.stop stop) false
              (frame.items.reverse ++ inner)]) (Node.relocateAll move inner) := by
    induction frames generalizing inner with
    | nil => rfl
    | cons frame outer ih =>
      rw [List.foldl_cons, ih, Node.relocateAll, Node.relocateAll, Node.relocate,
        Node.relocateAll_append, Node.relocateAll_reverse]
      rfl
  rw [forest, forest, Node.relocateAll_append, Node.relocateAll_reverse, around, relocate,
    List.reverse_append, List.append_assoc]
  rfl

theorem allFindings_relocate (reading : Reading) :
    (reading.relocate move top findings).allFindings =
      findings.reverse ++ reading.allFindings.map (Finding.relocate move) := by
  simp [allFindings, relocate, Finding.relocate, Frame.relocate, Function.comp_def]

/-- Where no form is reported as open, none is. -/
theorem frames_eq_nil {reading : Reading}
    (closed : ∀ finding ∈ reading.allFindings, ∀ bracket, finding.problem ≠ .unclosed bracket) :
    reading.frames = [] := by
  apply List.eq_nil_iff_forall_not_mem.mpr
  intro frame opened
  refine closed ⟨.unclosed frame.bracket, frame.start⟩ ?_ frame.bracket rfl
  apply List.mem_append_right
  exact List.mem_map.mpr ⟨frame, List.mem_reverse.mpr opened, rfl⟩

end Reading

/-! ### Texts one behind the other -/

/-- Two texts with a newline between them, no string being open at the end of the first. The lexemes
are those of the first and, further on, those of the second; and if no form of the first is open at
its end, so are the nodes and the findings. -/
theorem reading_is_local (text more : Text)
    (terminated : ∀ lexeme ∈ Lexeme.scan text, lexeme.kind ≠ .unterminated) :
    Lexeme.scan (text ++ '\n' :: more) =
      Lexeme.scan text ++
        (Lexeme.scan more).map (Lexeme.relocate (.shift (text.length + 1))) ∧
    ((∀ finding ∈ (Form.read text).2, ∀ bracket, finding.problem ≠ .unclosed bracket) →
      (Form.read (text ++ '\n' :: more)).1 =
        (Form.read text).1 ++
          Node.relocateAll (.shift (text.length + 1)) (Form.read more).1 ∧
      (Form.read (text ++ '\n' :: more)).2 =
        (Form.read text).2 ++
          (Form.read more).2.map (Finding.relocate (.shift (text.length + 1)))) := by
  have lexemes := Lexeme.scan_append_newline terminated more
  refine ⟨lexemes, fun closed => ?_⟩
  let move : Relocation := .shift (text.length + 1)
  let before := (Lexeme.scan text).foldl Reading.step Reading.empty
  let after := (Lexeme.scan more).foldl Reading.step Reading.empty
  have none : before.frames = [] := Reading.frames_eq_nil closed
  have start : before = ⟨[], before.top, before.findings⟩ := by rw [← none]
  -- The second text is read from where the first one ends as if it stood alone.
  have whole : (Lexeme.scan (text ++ '\n' :: more)).foldl Reading.step Reading.empty =
      after.relocate move before.top before.findings := by
    rw [Reading.relocate_run, Reading.relocate_empty, ← start, lexemes, List.foldl_append]
  have stop : (text ++ '\n' :: more).length = move.stop more.length := by
    simp only [List.length_append, List.length_cons, move, Relocation.shift]
    omega
  have forest : (Form.read text).1 = before.top.reverse := by
    change before.forest text.length = _
    simp [Reading.forest, none]
  have findings : (Form.read text).2 = before.findings.reverse := by
    change before.allFindings = _
    simp [Reading.allFindings, none]
  rw [forest, findings, Form.read, whole, stop]
  constructor
  · exact Reading.forest_relocate move _ _ after more.length
  · exact Reading.allFindings_relocate move _ _ after

/-- A text that ends with a swallowed line and a comment, before one in which a string and a form
have no end. -/
theorem read_behind_swallowed_line :
    (∀ lexeme ∈ Lexeme.scan "(a] ) \"b\\\n; c".toList, lexeme.kind ≠ .unterminated) ∧
      (Form.read "(a] ) \"b\\\n; c".toList).2 =
        [⟨.mismatched .square .round, 2⟩, ⟨.unmatched .round, 4⟩] ∧
      (Form.read "[d \"e".toList).2 = [⟨.unterminatedString, 3⟩, ⟨.unclosed .square, 0⟩] ∧
      (Form.read ("(a] ) \"b\\\n; c".toList ++ '\n' :: "[d \"e".toList)).2 =
        [⟨.mismatched .square .round, 2⟩, ⟨.unmatched .round, 4⟩, ⟨.unterminatedString, 17⟩,
          ⟨.unclosed .square, 14⟩] := by
  have terminated : ∀ lexeme ∈ Lexeme.scan "(a] ) \"b\\\n; c".toList,
      lexeme.kind ≠ .unterminated := by decide +kernel
  have first : (Form.read "(a] ) \"b\\\n; c".toList).2 =
      [⟨.mismatched .square .round, 2⟩, ⟨.unmatched .round, 4⟩] := by decide +kernel
  have second : (Form.read "[d \"e".toList).2 =
      [⟨.unterminatedString, 3⟩, ⟨.unclosed .square, 0⟩] := by decide +kernel
  have closed : ∀ finding ∈ (Form.read "(a] ) \"b\\\n; c".toList).2,
      ∀ bracket, finding.problem ≠ .unclosed bracket := by
    rw [first]
    simp
  refine ⟨terminated, first, second, ?_⟩
  rw [((reading_is_local _ "[d \"e".toList terminated).2 closed).2, first, second]
  rfl

end FormWatch
