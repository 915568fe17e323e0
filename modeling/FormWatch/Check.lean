import FormWatch.Form.Reader

/-!
The checks of a text: what is wrong with its brackets and strings, top-level names defined twice,
empty forms at top level, and local variables that are never used.
-/

namespace FormWatch

namespace Check

/-- The heads of forms that define a name. -/
def definers : List Text :=
  ["define".toList, "defun".toList, "defvar".toList, "defmacro".toList]

/-- The head of a form whose initial values see the variables bound before them. -/
def sequentialBinder : Text := "let*".toList

/-- The heads of forms that bind local variables. -/
def binders : List Text :=
  ["let".toList, sequentialBinder]

/-- The name a form with these items defines: its second item, or the head of that. -/
def definedName? : List Node → Option Atom
  | _ :: .atom name :: _ => some name
  | _ :: .form _ _ _ _ items :: _ => Node.head? items
  | _ => none

/-- A local variable and the nodes of its initial value. -/
structure Binding where
  name : Atom
  init : List Node

/-- The binding a node of a binding list makes. -/
def binding? : Node → Option Binding
  | .atom name => some ⟨name, []⟩
  | .form _ _ _ _ (.atom name :: init) => some ⟨name, init⟩
  | .form .. => none

/-- The bindings and the body of a form with these items, if its second item is a form. -/
def bindingsAndBody? : List Node → Option (List Binding × List Node)
  | _ :: .form _ _ _ _ items :: body => some (items.filterMap binding?, body)
  | _ => none

def isSequential (items : List Node) : Bool :=
  (Node.head? items).any (·.value = sequentialBinder)

def mentions (forest : List Node) (name : Text) : Bool :=
  (Node.atoms forest).any (·.value = name)

/-- The variables that are not used where they can be seen: in the body and, if the bindings are
sequential, in the initial values after their own. -/
def unused (sequential : Bool) (body : List Node) : List Binding → List Finding
  | [] => []
  | binding :: later =>
    let scope := body ++ if sequential then later.flatMap Binding.init else []
    let rest := unused sequential body later
    if mentions scope binding.name.value then rest
    else ⟨.unusedVariable binding.name.value, binding.name.start⟩ :: rest

/-- The unused variables of a form with these items, whatever its head. -/
def bindingFindings (items : List Node) : List Finding :=
  match bindingsAndBody? items with
  | some (bindings, body) => unused (isSequential items) body bindings
  | none => []

/-- The name that a top-level form with these items defines. -/
def definition? (items : List Node) : Option Atom :=
  if (Node.head? items).any (·.value ∈ definers) then definedName? items else none

/-- The findings of the top level, `defined` being the names defined before. -/
def topFindings (defined : List Text) : List Node → List Finding
  | [] => []
  | .atom _ :: rest => topFindings defined rest
  | .form _ start _ closed items :: rest =>
    let empty := if items.isEmpty && closed then [⟨.emptyForm, start⟩] else []
    match definition? items with
    | none => empty ++ topFindings defined rest
    | some name =>
      let again := if name.value ∈ defined then [⟨.redefined name.value, name.start⟩] else []
      empty ++ again ++ topFindings (name.value :: defined) rest

/-- The unused variables of a node, if it is a form that binds. -/
def variableFindings : Node → List Finding
  | .atom _ => []
  | .form _ _ _ _ items =>
    if (Node.head? items).any (·.value ∈ binders) then bindingFindings items else []

end Check

/-- All findings of a text: the reader's, those of the top level, then unused variables in the
order of their forms. -/
def check (text : Text) : List Finding :=
  let (forest, errors) := Form.read text
  errors ++ Check.topFindings [] forest ++ (Node.walkAll forest).flatMap Check.variableFindings

end FormWatch
