/-
**What is wrong with a mutation or a record, and why an operation fails.**

Main definitions:

* `GraphLog.Part` — the parts that must not be empty;
* `GraphLog.Defect` — the defects, with their wording in `GraphLog.Defect.message`;
* `GraphLog.Mutation.check` — the defects that a mutation can have by itself;
* `GraphLog.FoldError` — records that cannot be folded together;
* `GraphLog.Failure` — **every failure**, with its wording in `GraphLog.Failure.message`.
-/

import GraphLog.Record.Mutation
import GraphLog.Record.Slot
import GraphLog.Wire.Cursor

set_option relaxedAutoImplicit false
set_option autoImplicit false

namespace GraphLog

/-! ### Defects -/

/-- A part that must not be empty; `Part.required` refuses a text that is. -/
inductive Part where
  | metadataKey
  | edgeId
  | otherVertexId
  | edgeLabel
  | edgeOutVertexId
  | edgeInVertexId
  | elementId
  | propertyName
  | adjacencyEdgeId
deriving DecidableEq, Repr

/-- What a part is called in complaints. -/
def Part.name : Part → String
  | .metadataKey => "metadata key"
  | .edgeId => "edge id"
  | .otherVertexId => "other vertex id"
  | .edgeLabel => "edge label"
  | .edgeOutVertexId => "edge out-vertex id"
  | .edgeInVertexId => "edge in-vertex id"
  | .elementId => "element id"
  | .propertyName => "property name"
  | .adjacencyEdgeId => "adjacency edge id"

/-- **What is wrong with a mutation or a record.** -/
inductive Defect where
  | empty (part : Part)
  | duplicateMetadata (key : String) (visibility : Visibility)
  | missingEdgeLabel
  | wrongSlot (kind : MutationKind) (slot : Slot)
  | onlyVertices (kind : MutationKind) (element : ElementKind)
  | edgeMismatch (kind : MutationKind) (edge : String) (direction : Direction)
      (slotEdge : String) (slotDirection : Direction)
  | missingEndpoints
  | unexpectedEndpoints
  | kindMismatch (event mutation : MutationKind)
  -- a defect that the source of a record reports in its own words
  | reported (text : String)
deriving DecidableEq

def Defect.message : Defect → String
  | empty part => s!"{part.name} must be non-empty"
  | duplicateMetadata key visibility =>
    s!"duplicate metadata entry '{key}' with visibility '{visibility.text}'"
  | missingEdgeLabel => "edge label is required when attaching an edge"
  | wrongSlot kind slot => s!"{kind.name} cannot target the {slot.sort} slot"
  | onlyVertices kind element => s!"{kind.name} only applies to vertices, not {element.name}"
  | edgeMismatch kind edge direction slotEdge slotDirection =>
    s!"{kind.name} for edge {edge} ({direction.name}) does not match slot {slotEdge} " ++
      s!"({slotDirection.name})"
  | missingEndpoints => "creating an edge requires its endpoints"
  | unexpectedEndpoints => "vertices do not carry edge endpoints"
  | kindMismatch event mutation =>
    s!"event kind {event.name} does not match payload kind {mutation.name}"
  | reported text => text

def Part.required (part : Part) (text : String) : Except Defect Unit :=
  if text = "" then .error (.empty part) else .ok ()

/-- Refuses an edge that is not named at both ends. -/
def Incidence.check (incidence : Incidence) : Except Defect Unit := do
  Part.edgeId.required incidence.edge
  Part.otherVertexId.required incidence.other

def Endpoints.check (endpoints : Endpoints) : Except Defect Unit := do
  Part.edgeOutVertexId.required endpoints.outVertex
  Part.edgeInVertexId.required endpoints.inVertex
  Part.edgeLabel.required endpoints.label

/-- Refuses entries without a key, and entries that repeat the key and label of an earlier one with
`Defect.duplicateMetadata`. -/
def checkMetadata (earlier : List MetadataEntry) : List MetadataEntry → Except Defect Unit
  | [] => .ok ()
  | entry :: rest => do
    Part.metadataKey.required entry.key
    if earlier.any fun e => e.key == entry.key && e.visibility == entry.visibility then
      throw (.duplicateMetadata entry.key entry.visibility)
    checkMetadata (entry :: earlier) rest

/-- The defects that a mutation can have by itself. -/
def Mutation.check : Mutation → Except Defect Unit
  | setValue _ metadata => checkMetadata [] metadata
  | attachEdge incidence => do
    incidence.check
    match incidence.label with
    | some label => Part.edgeLabel.required label
    | none => throw .missingEdgeLabel
  | detachEdge incidence => do
    incidence.check
    match incidence.label with
    | some label => Part.edgeLabel.required label
    | none => return
  | setMetadata entry => Part.metadataKey.required entry.key
  | dropMetadata key _ => Part.metadataKey.required key
  | create (some endpoints) => endpoints.check
  | dropValue | hide .. | unhide .. | softDelete _ | relabel _ | create none => .ok ()

/-! ### Failures -/

/-- **Why records cannot be folded together.** -/
inductive FoldError where
  | mixedKinds (expected found : ElementKind)
  | mixedElements (expected found : Element)
deriving DecidableEq, Repr

def FoldError.message : FoldError → String
  | mixedKinds expected found =>
    s!"fold mixes element kinds: expected {expected.name}, found {found.name}"
  | mixedElements expected found =>
    s!"fold mixes elements: expected {expected.toText}, found {found.toText}"

/-- **Every failure of an operation.** -/
inductive Failure where
  | parse (error : Label.ParseError)
  | evaluation (error : EvaluationError)
  | decode (error : Wire.DecodeError)
  | invalid (defect : Defect)
  | fold (error : FoldError)
deriving DecidableEq

/-- The wording of a failure: its origin, and the message of what went wrong there, such as
`Defect.message`. -/
def Failure.message : Failure → String
  | parse error => s!"visibility parse error: {error.message}"
  | evaluation error => s!"visibility evaluation error: {error.message}"
  | decode error => s!"decode error: {error.message}"
  | invalid defect => s!"invalid mutation: {defect.message}"
  | fold error => s!"fold error: {error.message}"

end GraphLog
