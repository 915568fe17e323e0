import FormWatch.Proofs.Batch.CommandLine
import FormWatch.Proofs.Report.Offsets

/-!
Runs of the batch runner as an invocation asks for them. With the bundled checker a run on a file
ends in one of two ways: with a report that is read as the findings of the text of the file, or,
where the file holds no text, without any output and with the fault on the standard error stream.
-/

namespace FormWatch

/-! ### Accounts of failures -/

namespace Utf8

theorem any_endsLine_toDigits (base n : Nat) (several : 1 < base) (few : base ≤ 16) :
    (Nat.toDigits base n).any Text.endsLine = false := by
  have plain : ∀ digit < 16, Text.endsLine (Nat.digitChar digit) = false := by decide
  induction n using Nat.strongRecOn with
  | ind n ih =>
    by_cases single : n < base
    · rw [Nat.toDigits_of_lt_base single, List.any_cons, plain n (by omega)]
      rfl
    · rw [Nat.toDigits_of_base_le several (by omega), List.any_append,
        ih (n / base) (Nat.div_lt_self (by omega) several), List.any_cons,
        plain _ (Nat.lt_of_lt_of_le (Nat.mod_lt n (by omega)) few)]
      rfl

theorem Fault.any_endsLine_message (fault : Fault) : fault.message.any Text.endsLine = false := by
  have decimal (n : Nat) : (Text.ofNat n).any Text.endsLine = false :=
    any_endsLine_toDigits 10 n (by decide) (by decide)
  have hexadecimal (width n : Nat) : (Text.hex width n).any Text.endsLine = false := by
    rw [Text.hex, List.any_append, any_endsLine_toDigits 16 n (by decide) (by decide),
      List.any_replicate]
    split <;> rfl
  have reason : fault.reason.message.any Text.endsLine = false := by
    cases fault.reason <;> decide
  unfold Fault.message
  dsimp only
  rw [List.any_append, List.any_append, List.any_append, reason]
  split
  · simp only [List.any_append, decimal, hexadecimal]
    decide
  · simp only [List.any_append, List.any_cons, decimal]
    decide

end Utf8

namespace Batch

/-- All of the account of a decoding fault is told. -/
theorem account_undecodable (fault : Utf8.Fault) :
    account (.undecodable fault) = "UnicodeDecodeError: ".toList ++ fault.message := by
  have title : "UnicodeDecodeError".toList ++ ": ".toList = "UnicodeDecodeError: ".toList := by
    decide
  have begun : "UnicodeDecodeError: ".toList.any Text.endsLine = false := by decide
  have filled : "UnicodeDecodeError: ".toList ≠ [] := by decide
  have told : account (.undecodable fault) = (Text.lines ("UnicodeDecodeError".toList ++
      ": ".toList ++ fault.message)).getLast?.getD [] := rfl
  -- An account is the last line of what is told, and a fault is told on one line.
  rw [told, title, Text.lines_of_unended]
  · rfl
  · exact List.append_ne_nil_of_left_ne_nil filled _
  · rw [List.any_append, begun, fault.any_endsLine_message]
    rfl

/-! ### Runs on one file -/

/-- A run with the bundled checker is what reporting on the file comes to. -/
theorem run_bundled (checker : Text) (disk : Disk) (interpreter backend path : Text)
    (sites : List Text) (bundled : loadFile checker disk backend = .ok .checker)
    (plain : ∀ argument ∈ path :: backend :: sites, argument.head? ≠ some '-') :
    run checker disk (((Invocation.bundled interpreter backend).setSites sites).arguments path) =
      match compileAndReport disk path with
      | .ok stdout => .ok ⟨0, stdout, [], sites.map some⟩
      | .error failure => .ok ⟨1, [], account failure, sites.map some⟩ := by
  have parsed := parse_arguments ((Invocation.bundled interpreter backend).setSites sites) path
    ⟨rfl, rfl, rfl, rfl⟩ ?_
  · have loaded : Request.loaded checker disk
        ⟨sites.map some, some backend, some "compile-and-report".toList, path⟩ = .ok .checker :=
      bundled
    have found (stem : Text) : entryPoint? .checker stem "compile-and-report".toList path =
        some .compileAndReport := rfl
    have asked : Request.parse (((Invocation.bundled interpreter backend).setSites sites).arguments
        path) = .ok ⟨sites.map some, some backend, some "compile-and-report".toList, path⟩ := parsed
    rw [run, asked]
    cases reported : compileAndReport disk path <;>
      simp only [Request.run, loaded, found, EntryPoint.call, reported]
  · intro argument member
    have entry : "compile-and-report".toList.head? ≠ some '-' := by decide
    rcases List.mem_cons.mp member with rfl | member
    · exact plain _ List.mem_cons_self
    rcases List.mem_cons.mp member with rfl | member
    · exact plain _ (List.mem_cons_of_mem path List.mem_cons_self)
    rcases List.mem_cons.mp member with rfl | listed
    · exact entry
    · exact plain _ (List.mem_cons_of_mem path (List.mem_cons_of_mem _ listed))

/-- Compiler and reader of reports agree on every file. With the bundled checker a run on a file
that holds a text prints a report, which is read as the findings of the text with unified newlines;
on any other file it prints nothing and tells why the bytes are no text. -/
theorem run_on_file (checker : Text) (disk : Disk) (interpreter backend path : Text)
    (sites : List Text) (content : Bytes) (bundled : loadFile checker disk backend = .ok .checker)
    (stored : disk.read (normalPath path) = .ok content)
    (plain : ∀ argument ∈ path :: backend :: sites, argument.head? ≠ some '-')
    (unbroken : path.any Text.endsLine = false) (short : content.length < 10 ^ Text.maxDigits) :
    (∀ text, content = Utf8.encode text → ∃ stdout,
      run checker disk (((Invocation.bundled interpreter backend).setSites sites).arguments path) =
        .ok ⟨0, stdout, [], sites.map some⟩ ∧
      Report.parse stdout = .ok ((check text.unifyNewlines).map Finding.record)) ∧
    ((∀ text, content ≠ Utf8.encode text) → ∃ fault, Utf8.decode content = .error fault ∧
      run checker disk (((Invocation.bundled interpreter backend).setSites sites).arguments path) =
        .ok ⟨1, [], "UnicodeDecodeError: ".toList ++ fault.message, sites.map some⟩) := by
  rw [run_bundled checker disk interpreter backend path sites bundled plain]
  constructor
  · -- The bytes of a text are no fewer than its characters, so the positions are short enough.
    rintro text rfl
    refine ⟨Report.print path (check text.unifyNewlines), ?_, ?_⟩
    · rw [compileAndReport_of_read disk path text stored]
    · exact parse_print_check path text
        (fun count => Report.unmarked_heading_of_unbroken path count unbroken)
        (Nat.lt_of_le_of_lt (Utf8.length_le_encode text) short)
  · intro textless
    cases decoded : Utf8.decode content with
    | ok text => exact absurd ((Utf8.decode_eq_ok_iff content text).mp decoded) (textless text)
    | error fault =>
      have failed : compileAndReport disk path = .error (.undecodable fault) := by
        simp only [compileAndReport, Disk.readText, stored, decoded, bind, Except.bind]
      exact ⟨fault, rfl, by rw [failed, ← account_undecodable]⟩

/-- A disk with a checker and one file. -/
def diskOf (checker path : Text) (content : Bytes) : Disk where
  start := ['/']
  files := [(pathParts checker, []), (pathParts path, content)]

/-- A file that is named by the sentinel and binds a string around it, its line ended by a pair. -/
theorem run_on_sentinel :
    ∃ stdout,
      run "/checker.py".toList (diskOf "/checker.py".toList "/:lisp-compile-output-start".toList
          (Utf8.encode "(let (\"\r\n:lisp-compile-output-start\n\"))".toList))
        (["--batch", "-L", "/lib", "-l", "/checker.py", "-f", "compile-and-report",
          "/:lisp-compile-output-start"].map String.toList) =
        .ok ⟨0, stdout, [], [some "/lib".toList]⟩ ∧
      Report.parse stdout = .ok [Finding.record
        ⟨.unusedVariable "\"\n:lisp-compile-output-start\n\"".toList, 6⟩] := by
  have found : check (Text.unifyNewlines "(let (\"\r\n:lisp-compile-output-start\n\"))".toList) =
      [⟨.unusedVariable "\"\n:lisp-compile-output-start\n\"".toList, 6⟩] := by
    decide +kernel
  have either := run_on_file "/checker.py".toList
    (diskOf "/checker.py".toList "/:lisp-compile-output-start".toList
      (Utf8.encode "(let (\"\r\n:lisp-compile-output-start\n\"))".toList))
    "python".toList "/checker.py".toList "/:lisp-compile-output-start".toList ["/lib".toList]
    (Utf8.encode "(let (\"\r\n:lisp-compile-output-start\n\"))".toList) rfl (by decide +kernel)
    (by decide) (by decide)
    (Nat.lt_of_lt_of_le (show _ < 10 ^ 2 by decide +kernel)
      (Nat.pow_le_pow_right (by decide) (by decide)))
  obtain ⟨stdout, ended, parsed⟩ := either.1 _ rfl
  rw [found] at parsed
  exact ⟨stdout, ended, parsed⟩

end Batch

end FormWatch
