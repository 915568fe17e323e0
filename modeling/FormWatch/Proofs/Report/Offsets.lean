import FormWatch.Batch.EntryPoint
import FormWatch.Proofs.Check.Placement
import FormWatch.Proofs.Report.Framing
import FormWatch.Proofs.Supervisor.Snapshot
import FormWatch.Proofs.Text.Newlines
import FormWatch.Proofs.Text.Utf8

/-!
Offsets of records. A text is written to a unit as it is, but the unit is read with its line endings
made newlines, so the offsets of the records count in the text as read. There every record addresses
the token that its message names. In the text as written the token stands further on, by one
character for each pair of a carriage return and a newline before it.
-/

namespace FormWatch

/-! ### Units on a disk -/

/-- Whether the units of a folder are on a disk: what is read at the path of each is what it
holds. -/
def UnitFolder.IsOn (folder : UnitFolder) (disk : Disk) : Prop :=
  ∀ unit content, folder.content? unit = some content →
    disk.read (normalPath (folder.unitPath (ownPart unit))) = .ok content

namespace UnitFolder

/-- A disk with the units of a folder that could be written, and nothing else. -/
def disk (folder : UnitFolder) : Disk where
  start := ['/']
  files := folder.units.map fun unit => (pathParts (folder.unitPath (ownPart unit.1)), unit.2)

theorem isOn_of_write (path text : Text)
    (stored : (write text { path }).disk.read (normalPath (unitPath { path } (ownPart 1))) =
      .ok (Utf8.encode text)) : (write text { path }).IsOn (write text { path }).disk := by
  intro unit content found
  have only : unit = 1 ∧ content = Utf8.encode text := by
    simp only [content?, write, List.nil_append, List.find?_singleton] at found
    split at found
    next first =>
      rw [decide_eq_true_eq] at first
      exact ⟨first.symm, (Option.some.inj found).symm⟩
    · cases found
  obtain ⟨rfl, rfl⟩ := only
  exact stored

end UnitFolder

namespace Batch

/-- The report of a file is about its text with unified newlines. -/
theorem compileAndReport_of_read (disk : Disk) (path text : Text)
    (stored : disk.read (normalPath path) = .ok (Utf8.encode text)) :
    compileAndReport disk path = .ok (Report.print path (check text.unifyNewlines)) := by
  have read : disk.readText (normalPath path) = .ok text.unifyNewlines := by
    simp only [Disk.readText, stored, bind, Except.bind, Utf8.decode_encode]
  unfold compileAndReport
  rw [read]
  rfl

/-- A report is read as the findings of the text if the lines before its sentinel are none. -/
theorem parse_print_check (path text : Text)
    (unmarked : ∀ count, Report.Unmarked (Report.heading path count ++ ['\n']))
    (short : text.length < 10 ^ Text.maxDigits) :
    Report.parse (Report.print path (check text.unifyNewlines)) =
      .ok ((check text.unifyNewlines).map Finding.record) := by
  refine Report.parse_print path _ (unmarked _) ?_
  intro finding member
  obtain ⟨token, _, holds⟩ := stands_check text.unifyNewlines finding member
  have bound := holds.lt
  have shorter := text.length_unifyNewlines
  omega

/-- The report of a file is read as the findings of its text with unified newlines. -/
theorem records_of_read (disk : Disk) (path text : Text)
    (stored : disk.read (normalPath path) = .ok (Utf8.encode text))
    (unmarked : ¬ Report.sentinel <:+: path) (short : text.length < 10 ^ Text.maxDigits) :
    ∃ output, compileAndReport disk path = .ok output ∧
      Report.parse output = .ok ((check text.unifyNewlines).map Finding.record) :=
  ⟨_, compileAndReport_of_read disk path text stored,
    parse_print_check path text (fun count => Report.unmarked_heading path count unmarked) short⟩

end Batch

/-! ### What records address -/

/-- Whether a record addresses a text: its offset is within the text, and there stands a token that
its message names. -/
structure Record.Addresses (text : Text) (record : Record) : Prop where
  within : 0 ≤ record.position ∧ record.position < text.length
  named : ∃ problem : Problem, record.message = problem.message.wide ∧
    ∃ token ∈ problem.tokens, text.Holds token record.position.toNat

theorem Finding.Stands.addresses {text : Text} {finding : Finding} (stands : finding.Stands text) :
    finding.record.Addresses text := by
  obtain ⟨token, listed, holds⟩ := stands
  have bound := holds.lt
  exact ⟨⟨Int.natCast_nonneg _, Int.ofNat_lt.mpr bound⟩, finding.problem, rfl, token, listed, holds⟩

/-! ### Offsets in the text as written -/

/-- Whether a token that the message of a record names stands in a text behind its offset, by one
character for each pair before the token. A name that was written over several lines has newlines of
its own, and stands there with its line endings made newlines. -/
def Record.Trails (text : Text) (record : Record) : Prop :=
  ∃ origin, origin < text.length ∧ record.position + Text.pairs (text.take origin) = origin ∧
    ∃ problem : Problem, record.message = problem.message.wide ∧ ∃ token ∈ problem.tokens,
      token <+: Text.unifyNewlines (text.drop origin) ∧ ('\n' ∉ token → text.Holds token origin)

theorem Record.Addresses.trails {text : Text} {record : Record}
    (addresses : record.Addresses text.unifyNewlines) : record.Trails text := by
  obtain ⟨within, problem, message, token, listed, filled, stands⟩ := addresses
  obtain ⟨origin, inside, before, after⟩ :=
    text.exists_origin record.position.toNat (by have := within.2; omega)
  have shortened := Text.length_unifyNewlines (text.take origin)
  rw [before, List.length_take] at shortened
  rw [← after] at stands
  exact ⟨origin, inside, by have := within.1; omega, problem, message, token, listed, stands,
    fun unbroken => ⟨filled, Text.begins_of_unified unbroken stands⟩⟩

/-- A text written to a unit is compiled to a report, and each of its records addresses the text as
it is read from the unit. The offset is within the text as written as well, and trails the token
there by the pairs before it; in a text without carriage returns it addresses the token. -/
theorem records_of_unit (folder : UnitFolder) (disk : Disk) (text : Text)
    (numbered : ∀ unit ∈ folder.units.map Prod.fst, unit ≤ folder.made)
    (stored : (folder.write text).IsOn disk)
    (unmarked : ¬ Report.sentinel <:+: folder.unitPath (UnitFolder.ownPart (folder.made + 1)))
    (short : text.length < 10 ^ Text.maxDigits) :
    ∃ output records,
      Batch.compileAndReport disk (folder.unitPath (UnitFolder.ownPart (folder.made + 1))) =
        .ok output ∧
      Report.parse output = .ok records ∧
      ∀ record ∈ records, record.Addresses text.unifyNewlines ∧
        (0 ≤ record.position ∧ record.position < text.length) ∧ record.Trails text ∧
        ('\r' ∉ text → record.Addresses text) := by
  obtain ⟨output, reported, parsed⟩ := Batch.records_of_read disk _ text
    (stored _ _ (UnitFolder.content?_write text folder numbered)) unmarked short
  refine ⟨output, _, reported, parsed, ?_⟩
  intro record member
  obtain ⟨finding, found, rfl⟩ := List.mem_map.mp member
  have addresses := (stands_check _ finding found).addresses
  refine ⟨addresses, ⟨addresses.within.1, ?_⟩, addresses.trails, fun plain => ?_⟩
  · have within := addresses.within.2
    have shorter := text.length_unifyNewlines
    omega
  · rwa [Text.unifyNewlines_of_plain text plain] at addresses

/-- A number of one digit can be read. -/
theorem lt_pow_maxDigits {n : Nat} (small : n < 10) : n < 10 ^ Text.maxDigits :=
  Nat.lt_of_lt_of_le (show n < 10 ^ 1 from small) (Nat.pow_le_pow_right (by decide) (by decide))

/-- A unit that binds a variable and does not use it, compiled and read back. -/
theorem record_of_unused_variable :
    ∃ output,
      Batch.compileAndReport (UnitFolder.write "(let (x))".toList { path := "/units".toList }).disk
        "/units/lisp-unit-00000001.lisp".toList = .ok output ∧
      Report.parse output = .ok [Finding.record ⟨.unusedVariable ['x'], 6⟩] ∧
      (Finding.record ⟨.unusedVariable ['x'], 6⟩).Addresses "(let (x))".toList := by
  have stored := UnitFolder.isOn_of_write "/units".toList "(let (x))".toList (by decide +kernel)
  have path : UnitFolder.unitPath { path := "/units".toList } (UnitFolder.ownPart (0 + 1)) =
      "/units/lisp-unit-00000001.lisp".toList := by decide +kernel
  have unmarked : ¬ Report.sentinel <:+: "/units/lisp-unit-00000001.lisp".toList := by
    decide +kernel
  have short : "(let (x))".toList.length < 10 ^ Text.maxDigits := lt_pow_maxDigits (by decide)
  have all := records_of_unit { path := "/units".toList } _ "(let (x))".toList (by simp) stored
    (by rwa [path]) short
  rw [path] at all
  obtain ⟨output, records, reported, parsed, stand⟩ := all
  have found : check (Text.unifyNewlines "(let (x))".toList) = [⟨.unusedVariable ['x'], 6⟩] := by
    decide +kernel
  obtain ⟨output', reported', parsed'⟩ := Batch.records_of_read _ _ "(let (x))".toList
    (by rw [← path]; exact stored 1 _ rfl) unmarked short
  rw [found] at parsed'
  cases reported.symm.trans reported'
  cases parsed.symm.trans parsed'
  refine ⟨output, reported, parsed, (stand _ List.mem_cons_self).2.2.2 ?_⟩
  decide +kernel

/-- A message that names a token with a newline first is about a name that begins so. -/
theorem Problem.head?_of_newline (problem : Problem) (rest : Text)
    (listed : '\n' :: rest ∈ problem.tokens) :
    problem.message.head? = some '\n' ∨ problem.message.head? = some 'u' := by
  cases problem with
  | unmatched found => cases found <;> simp [tokens, Bracket.closing] at listed
  | mismatched found expected => cases found <;> simp [tokens, Bracket.closing] at listed
  | unclosed bracket => cases bracket <;> simp [tokens, Bracket.opening] at listed
  | unterminatedString => simp [tokens] at listed
  | emptyForm => simp [tokens, Bracket.opening] at listed
  | redefined name =>
    rw [tokens, List.mem_singleton] at listed
    subst listed
    exact .inl rfl
  | unusedVariable name => exact .inr rfl

/-- The pair before an empty form is one character when the unit is read, so the offset of the
record is that of the newline of the pair. -/
theorem record_of_form_behind_pair :
    ∃ output,
      Batch.compileAndReport (UnitFolder.write "\r\n()".toList { path := "/units".toList }).disk
        "/units/lisp-unit-00000001.lisp".toList = .ok output ∧
      Report.parse output = .ok [Finding.record ⟨.emptyForm, 1⟩] ∧
      ¬ (Finding.record ⟨.emptyForm, 1⟩).Addresses "\r\n()".toList := by
  have stored : (UnitFolder.write "\r\n()".toList { path := "/units".toList }).disk.read
      (normalPath "/units/lisp-unit-00000001.lisp".toList) = .ok (Utf8.encode "\r\n()".toList) := by
    decide +kernel
  have found : check (Text.unifyNewlines "\r\n()".toList) = [⟨.emptyForm, 1⟩] := by
    decide +kernel
  obtain ⟨output, reported, parsed⟩ := Batch.records_of_read _ _ _ stored (by decide +kernel)
    (lt_pow_maxDigits (by decide))
  rw [found] at parsed
  refine ⟨output, reported, parsed, ?_⟩
  rintro ⟨-, problem, message, token, listed, filled, here⟩
  obtain ⟨c, rest, rfl⟩ := List.exists_cons_of_ne_nil filled
  have here : c :: rest <+: ['\n', '(', ')'] := here
  rw [(List.cons_prefix_cons.mp here).1] at listed
  have first : problem.message.wide.head? = some (.char 'E') := by
    rw [← message]
    rfl
  rw [Text.wide, List.head?_map] at first
  rcases problem.head?_of_newline rest listed with head | head
  · rw [head] at first
    cases first
  · rw [head] at first
    cases first

end FormWatch
