import FormWatch.Workspace.Document

/-!
The documents of a session. Each opening makes a new document; a document is known by the order in
which it was made, and it is live while its URI holds it and no other.
-/

namespace FormWatch

/-- The documents ever made, in order, and which of them each open URI holds. -/
structure Workspace where
  documents : List Document
  held : List (Text × Nat)

namespace Workspace

def empty : Workspace := ⟨[], []⟩

/-- A new document that no URI holds, known by the number of documents before it. -/
def add (document : Document) (workspace : Workspace) : Workspace :=
  { workspace with documents := workspace.documents ++ [document] }

def held? (workspace : Workspace) (uri : Text) : Option Nat :=
  (workspace.held.find? (·.1 = uri)).map Prod.snd

/-- No document held by a URI. -/
def close (uri : Text) (workspace : Workspace) : Workspace :=
  { workspace with held := workspace.held.filter (·.1 ≠ uri) }

/-- A new document, held by its URI in the place of any other. -/
def put (document : Document) (workspace : Workspace) : Workspace :=
  let others := (workspace.close document.uri).held
  { workspace.add document with held := others ++ [(document.uri, workspace.documents.length)] }

def document? (workspace : Workspace) (document : Nat) : Option Document :=
  workspace.documents[document]?

def edit (document : Nat) (version : Option Int) (text : Text) (workspace : Workspace) :
    Workspace :=
  { workspace with
    documents := workspace.documents.modify document fun old =>
      { old with version := version, text := text } }

/-- Whether a document is the one that its URI holds. -/
def isLive (workspace : Workspace) (document : Nat) : Bool :=
  match workspace.document? document with
  | some found => workspace.held? found.uri = some document
  | none => false

end Workspace

end FormWatch
