import FormWatch.Command.Arguments

/-!
Command lines written out in full. A switch that is written by its name with its values after it is
used with these values, and arguments that begin with no dash are operands; so a command line of
such switches and then its operands is read as it was written (`parse_of_flags`).
-/

namespace FormWatch.Command

/-- A use of a switch, with the name by which it is written. -/
structure Flag where
  name : Text
  use : Use

namespace Flag

def words (flag : Flag) : List Text :=
  flag.name :: flag.use.values

def tokens (flag : Flag) : List Token :=
  .switch ⟨flag.use.switch, flag.name, none⟩ :: flag.use.values.map .plain

/-- Whether a grammar knows a switch by its name, and the switch takes the values that are written
after it, none of which could be a switch. -/
structure Fits (grammar : Grammar) (flag : Flag) : Prop where
  dashed : flag.name.head? = some '-'
  whole : flag.name ≠ "--".toList
  known : grammar.switch? flag.name = some flag.use.switch
  taken : (flag.use.switch.intake = .nothing ∧ flag.use.values = []) ∨
    flag.use.switch.intake = .text ∧ ∃ value, flag.use.values = [value] ∧ value.head? ≠ some '-'

end Flag

variable {grammar : Grammar}

/-! ### Tokens -/

theorem tokens_plain (arguments : List Text)
    (plain : ∀ argument ∈ arguments, argument.head? ≠ some '-') (rest : List Text) :
    grammar.tokens (arguments ++ rest) = (grammar.tokens rest).map (arguments.map .plain ++ ·) := by
  induction arguments with
  | nil => cases given : grammar.tokens rest <;> simp [given, Except.map]
  | cons argument later ih =>
    have first := plain argument List.mem_cons_self
    have unmarked : argument ≠ "--".toList := by
      rintro rfl
      exact first rfl
    have token : grammar.classify argument = .ok (.plain argument) := by
      rw [Grammar.classify, if_pos first]
    rw [List.cons_append, Grammar.tokens, if_neg unmarked, token,
      ih fun other member => plain other (List.mem_cons_of_mem argument member)]
    cases grammar.tokens rest <;> rfl

theorem Flag.Fits.tokens_words {flag : Flag} (fits : flag.Fits grammar) (rest : List Text) :
    grammar.tokens (flag.words ++ rest) = (grammar.tokens rest).map (flag.tokens ++ ·) := by
  have token : grammar.classify flag.name = .ok (.switch ⟨flag.use.switch, flag.name, none⟩) := by
    rw [Grammar.classify, if_neg (by simp [fits.dashed]), fits.known]
  have plain : ∀ value ∈ flag.use.values, value.head? ≠ some '-' := by
    intro value member
    obtain ⟨_, none⟩ | ⟨_, only, single, plain⟩ := fits.taken
    · rw [none] at member
      cases member
    · rw [single, List.mem_singleton] at member
      exact member ▸ plain
  -- Past its name no word of the flag begins with a dash, so the values are no switches.
  rw [Flag.words, List.cons_append, Grammar.tokens, if_neg fits.whole, token,
    tokens_plain _ plain rest]
  cases grammar.tokens rest <;> rfl

theorem tokens_of_flags (flags : List Flag) (fit : ∀ flag ∈ flags, flag.Fits grammar)
    (operands : List Text) (plain : ∀ operand ∈ operands, operand.head? ≠ some '-') :
    grammar.tokens (flags.flatMap Flag.words ++ operands) =
      .ok (flags.flatMap Flag.tokens ++ operands.map .plain) := by
  induction flags with
  | nil =>
    have read : grammar.tokens (operands ++ []) = _ := tokens_plain operands plain []
    rw [List.append_nil] at read
    simpa [Grammar.tokens, Except.map] using read
  | cons flag rest ih =>
    rw [List.flatMap_cons, List.append_assoc, (fit flag List.mem_cons_self).tokens_words,
      ih fun later member => fit later (List.mem_cons_of_mem flag member)]
    simp [Except.map]

/-! ### Reading them -/

theorem Flag.Fits.readTokens {flag : Flag} (fits : flag.Fits grammar) (operands : Nat)
    (reading : Reading) (rest : List Token) :
    Command.readTokens grammar operands reading (flag.tokens ++ rest) =
      Command.readTokens grammar operands (reading.use flag.use) rest := by
  obtain ⟨name, switch, values⟩ := flag
  have taken : takeSwitch grammar ⟨switch, name, none⟩ (values.map .plain ++ rest) =
      .ok ([⟨switch, values⟩], rest) := by
    obtain ⟨intake, none⟩ | ⟨intake, value, single, -⟩ := fits.taken
    · dsimp only at intake none
      simp only [takeSwitch, takeValues, intake, none]
      rfl
    · dsimp only at intake single
      simp only [takeSwitch, takeValues, intake, single]
      rfl
  have checked : checkUses [⟨switch, values⟩] = .ok () := by
    obtain ⟨intake, -⟩ | ⟨intake, -⟩ := fits.taken
    · dsimp only at intake
      simp only [checkUses, intake]
    · dsimp only at intake
      simp only [checkUses, intake]
  rw [Flag.tokens, List.cons_append, Command.readTokens]
  dsimp only
  -- The reader matches on what it takes with a proof of it, so `taken` cannot be rewritten there.
  split
  next failed =>
    rw [taken] at failed
    cases failed
  next read =>
    rw [taken] at read
    cases read
    rw [checked]
    rfl

theorem readTokens_flags (flags : List Flag) (fit : ∀ flag ∈ flags, flag.Fits grammar)
    (operands : Nat) (reading : Reading) (rest : List Token) :
    readTokens grammar operands reading (flags.flatMap Flag.tokens ++ rest) =
      readTokens grammar operands
        { reading with uses := (flags.map Flag.use).reverse ++ reading.uses } rest := by
  induction flags generalizing reading with
  | nil => rfl
  | cons flag later ih =>
    rw [List.flatMap_cons, List.append_assoc, (fit flag List.mem_cons_self).readTokens,
      ih fun other member => fit other (List.mem_cons_of_mem flag member)]
    simp [Reading.use]

theorem readTokens_operands (operands : List Text) (places : Nat)
    (enough : operands.length ≤ places) (reading : Reading) :
    readTokens grammar places reading (operands.map .plain) =
      .ok { reading with operands := operands.reverse ++ reading.operands } := by
  induction operands generalizing places reading with
  | nil =>
    rw [List.map_nil, readTokens]
    rfl
  | cons operand rest ih =>
    cases places with
    | zero => cases enough
    | succ places =>
      rw [List.map_cons, readTokens, ih places (Nat.le_of_succ_le_succ enough)]
      · simp [Reading.operand]
      · intro later same
        cases rest <;> cases same

/-! ### Command lines -/

theorem missingNames_eq_nil (reading : Reading)
    (complete : ∀ switch ∈ grammar.switches, switch.required = true →
      ∃ use ∈ reading.uses, use.switch = switch)
    (filled : reading.operands.length = grammar.operands.length) :
    missingNames grammar reading = [] := by
  have used : grammar.switches.filter (fun switch => switch.required &&
      !reading.uses.any (·.switch = switch)) = [] := by
    rw [List.filter_eq_nil_iff]
    intro switch member
    cases required : switch.required with
    | false => simp
    | true => simpa using complete switch member required
  rw [missingNames, used]
  simp [filled]

/-- A command line is read as it was written: switches of a grammar in full, all that are required
among them, and then its operands. -/
theorem parse_of_flags (flags : List Flag) (fit : ∀ flag ∈ flags, flag.Fits grammar)
    (complete : ∀ switch ∈ grammar.switches, switch.required = true →
      ∃ flag ∈ flags, flag.use.switch = switch)
    (operands : List Text) (plain : ∀ operand ∈ operands, operand.head? ≠ some '-')
    (filled : operands.length = grammar.operands.length) :
    grammar.parse (flags.flatMap Flag.words ++ operands) =
      .ok ⟨flags.map Flag.use, grammar.operands.zip operands⟩ := by
  have nothing :
      missingNames grammar ⟨(flags.map Flag.use).reverse, operands.reverse, []⟩ = [] := by
    apply missingNames_eq_nil
    · intro switch member required
      obtain ⟨flag, listed, same⟩ := complete switch member required
      exact ⟨flag.use, by simpa using ⟨flag, listed, rfl⟩, same⟩
    · simpa using filled
  have cut : (grammar.tokens (flags.flatMap Flag.words ++ operands)).mapError Stop.misuse =
      .ok (flags.flatMap Flag.tokens ++ operands.map .plain) := by
    rw [tokens_of_flags flags fit operands plain]
    rfl
  unfold Grammar.parse
  simp only [cut, bind, Except.bind]
  rw [readTokens_flags flags fit, readTokens_operands operands _ (Nat.le_of_eq filled)]
  simp [nothing, pure, Except.pure]

end FormWatch.Command
