import FormWatch.Proofs.Json.Grammar

/-!
JSON there and back: what the printer writes for a value is read as the value, and what follows it
is left. The values are those without decimal fractions, whose texts split no character, whose whole
numbers can be read and whose objects have each key once.
-/

namespace FormWatch.Json

/-! ### Plain values -/

mutual

/-- Whether a value is read as it was written. -/
def Value.IsPlain : Value → Prop
  | .null | .bool _ => True
  | .integer n => IsShort n
  | .number _ => False
  | .string symbols => symbols.IsUnsplit
  | .list items => AllPlain items
  | .object members => MembersPlain members ∧ (members.map Prod.fst).Nodup

def AllPlain : List Value → Prop
  | [] => True
  | item :: rest => item.IsPlain ∧ AllPlain rest

def MembersPlain : List (WideText × Value) → Prop
  | [] => True
  | (key, value) :: rest => key.IsUnsplit ∧ value.IsPlain ∧ MembersPlain rest

end

/-- Whether a value ends where a text begins; numbers are all that could go on. -/
def EndsValue (value : Value) (rest : Text) : Prop :=
  ∀ n, value = .integer n → EndsNumber rest

/-- No value goes on with a sign of the language. -/
theorem endsValue_cons (value : Value) (c : Char) (rest : Text) (sign : c ∈ [',', ']', '}']) :
    EndsValue value (c :: rest) := by
  intro n _ first same
  cases same
  simp only [List.mem_cons, List.not_mem_nil, or_false] at sign
  rcases sign with rfl | rfl | rfl <;> decide

/-- Members with distinct keys stay as they are. -/
theorem membersOf_distinct (pairs : List (WideText × Value))
    (distinct : (pairs.map Prod.fst).Nodup) :
    membersOf pairs = pairs := by
  have put_new (key : WideText) (value : Value) (members : List (WideText × Value))
      (new : key ∉ members.map Prod.fst) : put key value members = members ++ [(key, value)] := by
    induction members with
    | nil => rfl
    | cons member rest ih =>
      obtain ⟨other, old⟩ := member
      simp only [List.map_cons, List.mem_cons, not_or] at new
      rw [put, if_neg (Ne.symm new.1), ih new.2, List.cons_append]
  have fold (done pairs : List (WideText × Value))
      (distinct : ((done ++ pairs).map Prod.fst).Nodup) :
      pairs.foldl (fun members pair => put pair.1 pair.2 members) done = done ++ pairs := by
    induction pairs generalizing done with
    | nil => simp
    | cons pair rest ih =>
      have new : pair.1 ∉ done.map Prod.fst := by
        simp only [List.map_append, List.map_cons] at distinct
        exact fun member => (List.nodup_append.mp distinct).2.2 _ member _ List.mem_cons_self rfl
      rw [List.foldl_cons, put_new _ _ _ new, ih _ (by simpa using distinct), List.append_assoc,
        List.singleton_append]
  exact fold [] pairs distinct

/-! ### What is written -/

/-- A space before a part is passed over. -/
theorem Begins.behind_space {text rest : Text} {part : Part} (begins : Begins text part rest) :
    Begins (skipSpace (' ' :: text)) part rest := by
  have passed : skipSpace (' ' :: text) = skipSpace text := rfl
  rwa [passed, begins.skipSpace_eq]

theorem named_write (key : WideText) (unsplit : key.IsUnsplit) {text rest : Text} {part : Part}
    (begins : Begins text part rest) : Named (writeString key ++ ':' :: ' ' :: text) key text := by
  have spelled := spelled_write key unsplit (':' :: ' ' :: text)
  have place : skipSpace (' ' :: text) = text := begins.skipSpace_eq
  have named := Named.key spelled (skipSpace_cons ':' (' ' :: text) rfl)
  rw [place] at named
  simpa [writeString] using named

theorem begins_integer (n : Int) (short : IsShort n) (rest : Text) (ends : EndsNumber rest) :
    Begins (Text.ofInt n ++ rest) (.value (.integer n)) rest :=
  .number (readNumber_ofInt n rest ends short)

theorem begins_string (symbols : WideText) (unsplit : symbols.IsUnsplit) (rest : Text) :
    Begins (writeString symbols ++ rest) (.value (.string symbols)) rest := by
  have spelled := Begins.string (spelled_write symbols unsplit rest)
  simpa [writeString] using spelled

mutual

theorem begins_write (value : Value) (plain : value.IsPlain) (rest : Text)
    (ends : EndsValue value rest) : Begins (write value ++ rest) (.value value) rest := by
  cases value with
  | null => exact .word rfl
  | bool value => cases value <;> exact .word rfl
  | integer n => exact begins_integer n plain rest (ends n rfl)
  | number x => exact absurd plain id
  | string symbols => exact begins_string symbols plain rest
  | list items =>
    cases items with
    | nil => exact .emptyList rfl
    | cons item items =>
      have filled := begins_writeItems (item :: items) (List.cons_ne_nil _ _) plain rest
      rw [write, List.cons_append, List.append_assoc, List.singleton_append]
      refine .list ?_
      rwa [filled.skipSpace_eq]
  | object members =>
    cases members with
    | nil => exact .emptyObject rfl
    | cons member members =>
      have filled := begins_writeMembers (member :: members) (List.cons_ne_nil _ _) plain.1 rest
      rw [write, List.cons_append, List.append_assoc, List.singleton_append]
      have object := Begins.object (filled.skipSpace_eq.symm ▸ filled)
      rwa [membersOf_distinct _ plain.2] at object

theorem begins_writeItems (items : List Value) (filled : items ≠ []) (plain : AllPlain items)
    (rest : Text) : Begins (writeItems items ++ ']' :: rest) (.items items) rest := by
  cases items with
  | nil => exact absurd rfl filled
  | cons item later =>
    cases later with
    | nil =>
      have first := begins_write item plain.1 (']' :: rest) (endsValue_cons item _ rest (by decide))
      exact .lastItem first rfl
    | cons next more =>
      have following := begins_writeItems (next :: more) (List.cons_ne_nil _ _) plain.2 rest
      rw [writeItems, List.append_assoc, List.cons_append, List.cons_append]
      exact .nextItem (begins_write item plain.1 _ (endsValue_cons item ',' _ (by decide))) rfl
        following.behind_space

theorem begins_writeMembers (members : List (WideText × Value)) (filled : members ≠ [])
    (plain : MembersPlain members) (rest : Text) :
    Begins (writeMembers members ++ '}' :: rest) (.members members) rest := by
  cases members with
  | nil => exact absurd rfl filled
  | cons member later =>
    obtain ⟨key, value⟩ := member
    obtain ⟨unsplit, plain, others⟩ := plain
    cases later with
    | nil =>
      have first := begins_write value plain ('}' :: rest) (endsValue_cons value _ rest (by decide))
      rw [writeMembers, List.append_assoc, List.cons_append, List.cons_append]
      exact .lastMember (named_write key unsplit first) first rfl
    | cons next more =>
      have following := begins_writeMembers (next :: more) (List.cons_ne_nil _ _) others rest
      have first := begins_write value plain
        (',' :: ' ' :: (writeMembers (next :: more) ++ '}' :: rest))
        (endsValue_cons value _ _ (by decide))
      rw [writeMembers, List.append_assoc, List.cons_append, List.cons_append, List.append_assoc,
        List.cons_append, List.cons_append]
      exact .nextMember (named_write key unsplit first) first rfl following.behind_space

end

/-- What is written for a plain value is read as the value, where the value ends. -/
theorem read_write (value : Value) (plain : value.IsPlain) (rest : Text)
    (ends : EndsValue value rest) : read (write value ++ rest) = .ok (value, rest) :=
  (read_eq_ok_iff _ _ _).mpr (begins_write value plain rest ends)

end FormWatch.Json
