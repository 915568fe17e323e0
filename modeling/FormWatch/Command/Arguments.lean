import FormWatch.Command.Usage
import FormWatch.Text.Digit
import FormWatch.Text.Quoted

/-!
Reading the arguments of a command line.

An argument that begins with a dash is a switch, except a lone dash, a negative number and a text
with a blank in it that names no switch. A long name may be cut short where one switch alone begins
so, and may bring its value after an equals sign. Switches of one letter may be written together
and may bring their value directly. After two dashes no argument is a switch, and two dashes that
are themselves the value of a switch are taken away: such a switch has no value.
-/

namespace FormWatch.Command

inductive UsageFault where
  | ambiguous (given : Text) (candidates : List Text)
  | unwantedValue (switch : Switch) (value : Text)
  | missingValue (switch : Switch)
  | notNumber (switch : Switch) (value : Text)
  | missing (names : List Text)
  | unrecognized (arguments : List Text)
  deriving DecidableEq, Repr

def Switch.title (switch : Switch) : Text :=
  Text.join ['/'] switch.names

def UsageFault.message : UsageFault → Text
  | ambiguous given candidates =>
    "ambiguous option: ".toList ++ given ++ " could match ".toList ++
      Text.join ", ".toList candidates
  | unwantedValue switch value =>
    "argument ".toList ++ switch.title ++ ": ignored explicit argument ".toList ++ value.quoted
  | missingValue switch =>
    "argument ".toList ++ switch.title ++ ": expected one argument".toList
  | notNumber switch value =>
    "argument ".toList ++ switch.title ++ ": invalid int value: ".toList ++ value.quoted
  | missing names =>
    "the following arguments are required: ".toList ++ Text.join ", ".toList names
  | unrecognized arguments =>
    "unrecognized arguments: ".toList ++ Text.join [' '] arguments

/-- Why reading ends without a result. -/
inductive Stop where
  | help
  | misuse (fault : UsageFault)
  deriving DecidableEq, Repr

/-- A switch as it was written: its name, and the value written in the same argument. -/
structure Written where
  switch : Switch
  name : Text
  value : Option Text
  deriving DecidableEq, Repr

inductive Token where
  | plain (value : Text)
  | separator
  | switch (written : Written)
  -- It looks like a switch but names none.
  | unknown (given : Text)
  deriving DecidableEq, Repr

def cutAtEquals (text : Text) : Text × Option Text :=
  match text.span (· ≠ '=') with
  | (front, []) => (front, none)
  | (front, _ :: value) => (front, some value)

/-- Whether a text is a dash and digits, or a dash and digits with a point before the last of
them. A newline at the end does not count. -/
def looksNegative (text : Text) : Bool :=
  match text with
  | '-' :: body =>
    let isDigit (c : Char) : Bool := (digitValue? c).isSome
    let body := if body.getLast? = some '\n' then body.dropLast else body
    match body.span isDigit with
    | (digits, []) => !digits.isEmpty
    | (_, '.' :: decimals) => !decimals.isEmpty && decimals.all isDigit
    | _ => false
  | _ => false

namespace Grammar

/-- The switches that an argument may mean by the beginning of a name. -/
def candidates (grammar : Grammar) (argument : Text) : List Written :=
  match argument with
  | '-' :: '-' :: _ =>
    let (front, value) := cutAtEquals argument
    grammar.names.filterMap fun (name, switch) =>
      if name.startsWith front then some ⟨switch, name, value⟩ else none
  | _ =>
    grammar.names.filterMap fun (name, switch) =>
      if name = argument.take 2 then some ⟨switch, name, some (argument.drop 2)⟩
      else if name.startsWith argument then some ⟨switch, name, none⟩
      else none

/-- What an argument before any two dashes is. -/
def classify (grammar : Grammar) (argument : Text) : Except UsageFault Token :=
  if argument.head? ≠ some '-' then .ok (.plain argument)
  else
    match grammar.switch? argument with
    | some switch => .ok (.switch ⟨switch, argument, none⟩)
    | none =>
      if argument.length = 1 then .ok (.plain argument)
      else
        let (front, value) := cutAtEquals argument
        match value.bind fun _ => grammar.switch? front with
        | some switch => .ok (.switch ⟨switch, front, value⟩)
        | none =>
          match grammar.candidates argument with
          | [written] => .ok (.switch written)
          | [] =>
            if looksNegative argument || argument.contains ' ' then .ok (.plain argument)
            else .ok (.unknown argument)
          | several => .error (.ambiguous argument (several.map Written.name))

def tokens (grammar : Grammar) : List Text → Except UsageFault (List Token)
  | [] => .ok []
  | argument :: rest =>
    if argument = "--".toList then .ok (.separator :: rest.map .plain)
    else do
      let token ← grammar.classify argument
      return token :: (← grammar.tokens rest)

end Grammar

structure Use where
  switch : Switch
  values : List Text

/-- The values that a text written together with a switch gives it. -/
def valuesOf (value : Text) : List Text :=
  if value = "--".toList then [] else [value]

/-- What a written switch comes to: switches that have all they take, then perhaps one that takes
from the arguments that follow. -/
structure Expansion where
  uses : List Use
  open? : Option Switch

/-- A written switch spelled out. `value` is the text after the name in the same argument. -/
def expand (grammar : Grammar) (switch : Switch) (long : Bool) (value : Text) :
    Except UsageFault Expansion :=
  match switch.intake with
  | .text | .number | .texts => .ok ⟨[⟨switch, valuesOf value⟩], none⟩
  | .help | .nothing =>
    match value with
    | [] => .error (.unwantedValue switch [])
    | c :: rest =>
      match if long then none else grammar.switch? ['-', c] with
      | none => .error (.unwantedValue switch value)
      | some next =>
        if rest.isEmpty then .ok ⟨[⟨switch, []⟩], some next⟩
        else do
          let expansion ← expand grammar next false rest
          return { expansion with uses := ⟨switch, []⟩ :: expansion.uses }

/-- What reading has come to: the switches used in order, the operands filled in order, and the
arguments that have no place. -/
structure Reading where
  uses : List Use
  operands : List Text
  unrecognized : List Text

namespace Reading

def use (use : Use) (reading : Reading) : Reading :=
  { reading with uses := use :: reading.uses }

def operand (value : Text) (reading : Reading) : Reading :=
  { reading with operands := value :: reading.operands }

def reject (argument : Text) (reading : Reading) : Reading :=
  { reading with unrecognized := argument :: reading.unrecognized }

end Reading

/-- The values at the head of some tokens, and what follows them. -/
def takePlain : List Token → List Text × List Token
  | .plain value :: rest => let (values, after) := takePlain rest; (value :: values, after)
  | tokens => ([], tokens)

/-- Uses checked in order: the help ends the reading, and a number must be one. -/
def checkUses : List Use → Except Stop Unit
  | [] => .ok ()
  | use :: rest =>
    match use.switch.intake, use.values with
    | .help, _ => .error .help
    | .number, value :: _ =>
      if (Text.integer? value).isNone then .error (.misuse (.notNumber use.switch value))
      else checkUses rest
    | _, _ => checkUses rest

/-- The uses that a switch makes when it takes from the tokens after it, and what follows. -/
def takeValues (switch : Switch) (following : List Token) :
    Except UsageFault (Use × List Token) :=
  match switch.intake with
  | .help | .nothing => .ok (⟨switch, []⟩, following)
  | .texts => let (values, after) := takePlain following; .ok (⟨switch, values⟩, after)
  | .text | .number =>
    match following with
    | .plain value :: after => .ok (⟨switch, [value]⟩, after)
    | _ => .error (.missingValue switch)

/-- A written switch with the tokens after it: the uses it makes, and what follows. -/
def takeSwitch (grammar : Grammar) (written : Written) (following : List Token) :
    Except UsageFault (List Use × List Token) :=
  match written.value with
  | none => do
    let (use, after) ← takeValues written.switch following
    return ([use], after)
  | some value => do
    let long := written.name.startsWith "--".toList
    let expansion ← expand grammar written.switch long value
    match expansion.open? with
    | none => return (expansion.uses, following)
    | some switch =>
      let (use, after) ← takeValues switch following
      return (expansion.uses ++ [use], after)

theorem length_takePlain_le (tokens : List Token) :
    (takePlain tokens).2.length ≤ tokens.length := by
  fun_induction takePlain tokens <;> simp_all
  omega

theorem length_le_of_takeValues {switch : Switch} {following after : List Token} {use : Use}
    (taken : takeValues switch following = .ok (use, after)) :
    after.length ≤ following.length := by
  unfold takeValues at taken
  split at taken
  · simp_all
  · simp_all
  · simp only [Except.ok.injEq, Prod.mk.injEq] at taken
    rw [← taken.2]
    exact length_takePlain_le following
  all_goals
    split at taken
    · simp only [Except.ok.injEq, Prod.mk.injEq] at taken
      simp [← taken.2]
    · cases taken

/-- What follows a switch is no longer than what stood after it. -/
theorem length_le_of_takeSwitch {grammar : Grammar} {written : Written}
    {following after : List Token} {uses : List Use}
    (taken : takeSwitch grammar written following = .ok (uses, after)) :
    after.length ≤ following.length := by
  have step {switch : Switch} {front : List Use}
      (taken : (do
        let (use, left) ← takeValues switch following
        return (front ++ [use], left)) = Except.ok (uses, after)) :
      after.length ≤ following.length := by
    cases values : takeValues switch following with
    | error fault => simp [values, bind, Except.bind] at taken
    | ok result =>
      simp only [values, bind, Except.bind, pure, Except.pure, Except.ok.injEq,
        Prod.mk.injEq] at taken
      rw [← taken.2]
      exact length_le_of_takeValues values
  unfold takeSwitch at taken
  split at taken
  · exact @step _ [] taken
  · simp only [bind, Except.bind] at taken
    split at taken
    · cases taken
    · split at taken
      · simp only [pure, Except.pure, Except.ok.injEq, Prod.mk.injEq] at taken
        simp [← taken.2]
      · exact step taken

/-- Tokens read with some number of operands still to be filled. The separator belongs to an
operand that it follows or comes before. -/
def readTokens (grammar : Grammar) : Nat → Reading → List Token → Except Stop Reading
  | _, reading, [] => .ok reading
  | operands + 1, reading, .plain value :: .separator :: rest =>
    readTokens grammar operands (reading.operand value) rest
  | operands + 1, reading, .separator :: .plain value :: rest =>
    readTokens grammar operands (reading.operand value) rest
  | operands + 1, reading, .plain value :: rest =>
    readTokens grammar operands (reading.operand value) rest
  | 0, reading, .plain value :: rest => readTokens grammar 0 (reading.reject value) rest
  | operands, reading, .separator :: rest =>
    readTokens grammar operands (reading.reject "--".toList) rest
  | operands, reading, .unknown given :: rest =>
    readTokens grammar operands (reading.reject given) rest
  | operands, reading, .switch written :: rest =>
    match _ : takeSwitch grammar written rest with
    | .error fault => .error (.misuse fault)
    | .ok (uses, after) => do
      checkUses uses
      readTokens grammar operands (uses.foldl (fun reading use => reading.use use) reading) after
  termination_by _ _ tokens => tokens.length
  decreasing_by
    all_goals simp only [List.length_cons]
    all_goals first | omega | exact Nat.lt_succ_of_le (length_le_of_takeSwitch ‹_›)

structure Arguments where
  uses : List Use
  operands : List (Operand × Text)

/-- The required switches and the operands that are missing, by name. -/
def missingNames (grammar : Grammar) (reading : Reading) : List Text :=
  (grammar.switches.filter fun switch =>
    switch.required && !reading.uses.any (·.switch = switch)).map Switch.title ++
  (grammar.operands.drop reading.operands.length).map Operand.key

def Grammar.parse (grammar : Grammar) (arguments : List Text) : Except Stop Arguments := do
  let tokens ← (grammar.tokens arguments).mapError .misuse
  let reading ← readTokens grammar grammar.operands.length ⟨[], [], []⟩ tokens
  let missing := missingNames grammar reading
  if !missing.isEmpty then throw (.misuse (.missing missing))
  if !reading.unrecognized.isEmpty then
    throw (.misuse (.unrecognized reading.unrecognized.reverse))
  return ⟨reading.uses.reverse, grammar.operands.zip reading.operands.reverse⟩

namespace Arguments

def all (arguments : Arguments) (key : String) : List (List Text) :=
  (arguments.uses.filter (·.switch.key = key.toList)).map Use.values

def last? (arguments : Arguments) (key : String) : Option (List Text) :=
  (arguments.all key).getLast?

def isUsed (arguments : Arguments) (key : String) : Bool :=
  !(arguments.all key).isEmpty

/-- The value of the last use of a key; a use may be without one. A key that is not used has the
default. -/
def valueOr (default : Text) (arguments : Arguments) (key : String) : Option Text :=
  match arguments.last? key with
  | none => some default
  | some values => values.head?

/-- The number of the last use of a key, in the same way. -/
def numberOr (default : Int) (arguments : Arguments) (key : String) : Option Int :=
  match arguments.last? key with
  | none => some default
  | some values => values.head?.bind Text.integer?

def operand? (arguments : Arguments) (key : String) : Option Text :=
  (arguments.operands.find? (·.1.key = key.toList)).map Prod.snd

end Arguments

/-- What is printed when a command line asks for help or is misused. -/
structure Ending where
  exit : Nat
  stdout : Text
  stderr : Text

/-- How a program ends where its command line is not taken. -/
def Grammar.ending (grammar : Grammar) : Stop → Ending
  | .help => ⟨0, grammar.help, []⟩
  | .misuse fault =>
    ⟨2, [], grammar.usage ++ grammar.program ++ ": error: ".toList ++ fault.message ++ ['\n']⟩

end FormWatch.Command
