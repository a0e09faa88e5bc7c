/-
**Records and events as documents.**

Main definitions:

* `GraphLog.Value.toJson`, `GraphLog.Value.ofJson` — values, one member named for the kind;
* `GraphLog.Mutation.toJson`, `GraphLog.Mutation.ofJson` — mutations, told apart by `type`;
* `GraphLog.Record.toJson`, `GraphLog.Record.ofJson` — records; reading one checks the rules;
* `GraphLog.Event.toJson`, `GraphLog.Event.ofJson` — events; reading one checks the rules too.
-/

import GraphLog.Json.Reader
import GraphLog.Json.Shape
import GraphLog.Record.Basic

set_option relaxedAutoImplicit false
set_option autoImplicit false

namespace GraphLog

open Json (Fault structured tagged named)

/-! ### Elements and slots -/

/-- An integer with a sign as a document. -/
def Json.ofInt64 (n : Int64) : Json :=
  .integer n.toInt

/-- An integer without a sign as a document. -/
def Json.ofUInt64 (n : UInt64) : Json :=
  .integer n.toNat

def Visibility.toJson (v : Visibility) : Json :=
  .text v.text

def Direction.toJson (d : Direction) : Json :=
  .text d.name

/-- Reads a direction, where `void` says what says nothing. -/
def Direction.ofDocument (void : Json → Bool) : Json → Except Fault Direction :=
  named void Direction.ofName?

/-- Reads a direction that stands on its own, where only what `Json.isNull` says nothing. -/
def Direction.ofJson : Json → Except Fault Direction :=
  ofDocument Json.isNull

def Element.toJson (e : Element) : Json :=
  .object [("kind", .text e.kind.name), ("id", .text e.id)]

def Element.ofJson : Json → Except Fault Element :=
  structured ["kind", "id"] fun ms =>
    Element.mk <$> ms.required "kind" (named Json.isNull ElementKind.ofName?)
      <*> ms.required "id" Json.asText

def Endpoints.toJson (e : Endpoints) : Json :=
  .object [("out_vertex_id", .text e.outVertex), ("in_vertex_id", .text e.inVertex),
    ("label", .text e.label)]

def Endpoints.ofJson : Json → Except Fault Endpoints :=
  structured ["out_vertex_id", "in_vertex_id", "label"] fun ms =>
    Endpoints.mk <$> ms.required "out_vertex_id" Json.asText
      <*> ms.required "in_vertex_id" Json.asText <*> ms.required "label" Json.asText

def Slot.toJson : Slot → Json
  | existence => .object [("slot", .text "existence")]
  | property key name visibility =>
    .object [("slot", .text "property"), ("key", .text key), ("name", .text name),
      ("visibility", visibility.toJson)]
  | adjacency edge direction =>
    .object [("slot", .text "adjacency"), ("edge_id", .text edge),
      ("direction", direction.toJson)]

def Slot.ofJson (j : Json) : Except Fault Slot := do
  let (sort, fields) ← tagged "slot" j
  match sort with
  | "existence" => structured [] (fun _ => pure existence) fields
  | "property" =>
    structured ["key", "name", "visibility"] (fun ms =>
      property <$> ms.required "key" Json.asText <*> ms.required "name" Json.asText
        <*> ms.defaulted "visibility" .unrestricted Json.asVisibility) fields
  | "adjacency" =>
    structured ["edge_id", "direction"] (fun ms =>
      adjacency <$> ms.required "edge_id" Json.asText
        <*> ms.required "direction" (Direction.ofDocument Json.isVoid)) fields
  | _ => .error .shape

/-! ### Values and mutations -/

/-- A value as a document: a single member, named for the kind of value. -/
def Value.toJson : Value → Json
  | null => .text "null"
  | bool b => .object [("bool", .bool b)]
  | int n => .object [("int", Json.ofInt64 n)]
  | float x => .object [("float", .float x)]
  | text s => .object [("str", .text s)]
  | bytes b => .object [("bytes", .array (b.map fun byte => .integer byte.toNat))]
  | dateTime n => .object [("date_time", Json.ofInt64 n)]
  | date n => .object [("date", Json.ofInt64 n)]

/-- Reads a value, where `void` says what says nothing. -/
def Value.ofDocument (void : Json → Bool) : Json → Except Fault Value
  | .text "null" => .ok null
  | .object [(kind, j)] =>
    match kind with
    | "null" => if void j then .ok null else .error .shape
    | "bool" => bool <$> Json.asBool j
    | "int" => int <$> Json.asInt64 j
    | "float" => float <$> Json.asDouble j
    | "str" => text <$> Json.asText j
    | "bytes" => bytes <$> Json.asList Json.asByte j
    | "date_time" => dateTime <$> Json.asInt64 j
    | "date" => date <$> Json.asInt64 j
    | _ => .error .shape
  | _ => .error .shape

/-- Reads a value that stands on its own, where only what `Json.isNull` says nothing. -/
def Value.ofJson : Json → Except Fault Value :=
  ofDocument Json.isNull

def MetadataEntry.members (e : MetadataEntry) : List (String × Json) :=
  [("key", .text e.key), ("value", e.value.toJson), ("visibility", e.visibility.toJson)]

def MetadataEntry.toJson (e : MetadataEntry) : Json :=
  .object e.members

/-- Reads a metadata entry, where `void` says what says nothing. -/
def MetadataEntry.ofDocument (void : Json → Bool) : Json → Except Fault MetadataEntry :=
  structured ["key", "value", "visibility"] fun ms =>
    MetadataEntry.mk <$> ms.required "key" Json.asText
      <*> ms.required "value" (Value.ofDocument void)
      <*> ms.defaulted "visibility" .unrestricted Json.asVisibility

/-- Reads a metadata entry that stands on its own. -/
def MetadataEntry.ofJson : Json → Except Fault MetadataEntry :=
  ofDocument Json.isNull

def Incidence.members (i : Incidence) : List (String × Json) :=
  [("edge_id", .text i.edge), ("direction", i.direction.toJson),
    ("edge_label", Json.ofOption .text i.label), ("other_vertex_id", .text i.other),
    ("edge_visibility", i.visibility.toJson)]

/-- Reads an incidence, the fields of a mutation. -/
def Incidence.ofFields : Json → Except Fault Incidence :=
  structured ["edge_id", "direction", "edge_label", "other_vertex_id", "edge_visibility"] fun ms =>
    Incidence.mk <$> ms.required "edge_id" Json.asText
      <*> ms.required "direction" (Direction.ofDocument Json.isVoid)
      <*> ms.optional "edge_label" Json.asText <*> ms.required "other_vertex_id" Json.asText
      <*> ms.defaulted "edge_visibility" .unrestricted Json.asVisibility

/-- The members of a mutation besides its type. -/
def Mutation.members : Mutation → List (String × Json)
  | setValue value metadata =>
    [("value", value.toJson), ("metadata", .array (metadata.map MetadataEntry.toJson))]
  | dropValue => []
  | attachEdge incidence => incidence.members
  | detachEdge incidence => incidence.members
  | hide label time =>
    [("hide_visibility", label.toJson), ("timestamp_of_hide", Json.ofOption Json.ofInt64 time)]
  | unhide label time =>
    [("hide_visibility", label.toJson), ("timestamp_of_visible", Json.ofOption Json.ofInt64 time)]
  | softDelete time => [("timestamp", Json.ofInt64 time)]
  | relabel label => [("new_visibility", label.toJson)]
  | setMetadata entry => entry.members
  | dropMetadata key visibility => [("key", .text key), ("visibility", visibility.toJson)]
  | create endpoints => [("edge", Json.ofOption Endpoints.toJson endpoints)]

/-- A mutation as a document: its type, and its `members`. -/
def Mutation.toJson (m : Mutation) : Json :=
  .object (("type", .text m.kind.name) :: m.members)

/-- Reads the fields of a mutation of a kind.  Among the fields of a tagged document an object
without members says nothing, too, which is `Json.isVoid`. -/
def Mutation.ofFields : MutationKind → Json → Except Fault Mutation
  | .setValue =>
    structured ["value", "metadata"] fun ms =>
      setValue <$> ms.required "value" (Value.ofDocument Json.isVoid)
        <*> ms.defaulted "metadata" [] (Json.asList (MetadataEntry.ofDocument Json.isVoid))
  | .dropValue => structured [] fun _ => pure dropValue
  | .attachEdge => fun j => attachEdge <$> Incidence.ofFields j
  | .detachEdge => fun j => detachEdge <$> Incidence.ofFields j
  | .hide =>
    structured ["hide_visibility", "timestamp_of_hide"] fun ms =>
      hide <$> ms.required "hide_visibility" Json.asVisibility
        <*> ms.optional "timestamp_of_hide" Json.asInt64
  | .unhide =>
    structured ["hide_visibility", "timestamp_of_visible"] fun ms =>
      unhide <$> ms.required "hide_visibility" Json.asVisibility
        <*> ms.optional "timestamp_of_visible" Json.asInt64
  | .softDelete => structured ["timestamp"] fun ms =>
      softDelete <$> ms.required "timestamp" Json.asInt64
  | .relabel => structured ["new_visibility"] fun ms =>
      relabel <$> ms.required "new_visibility" Json.asVisibility
  | .setMetadata => fun j => setMetadata <$> MetadataEntry.ofDocument Json.isVoid j
  | .dropMetadata => structured ["key", "visibility"] fun ms =>
      dropMetadata <$> ms.required "key" Json.asText
        <*> ms.defaulted "visibility" .unrestricted Json.asVisibility
  | .create => structured ["edge"] fun ms =>
      create <$> ms.optional "edge" Endpoints.ofJson

/-- Reads a mutation, by the `ofFields` of its type. -/
def Mutation.ofJson (j : Json) : Except Fault Mutation := do
  let (type, fields) ← tagged "type" j
  match MutationKind.ofName? type with
  | some kind => ofFields kind fields
  | none => .error .shape

/-! ### Records and events -/

def Draft.toJson (d : Draft) : Json :=
  .object [("element", d.element.toJson), ("slot", d.slot.toJson),
    ("timestamp", Json.ofInt64 d.timestamp), ("visibility", d.visibility.toJson),
    ("payload", d.mutation.toJson), ("sequence", Json.ofUInt64 d.sequence)]

def Draft.ofJson : Json → Except Fault Draft :=
  structured ["element", "slot", "timestamp", "visibility", "payload", "sequence"] fun ms =>
    Draft.mk <$> ms.required "element" Element.ofJson <*> ms.required "slot" Slot.ofJson
      <*> ms.required "timestamp" Json.asInt64
      <*> ms.defaulted "visibility" .unrestricted Json.asVisibility
      <*> ms.required "payload" Mutation.ofJson <*> ms.defaulted "sequence" 0 Json.asUInt64

/-- A record as a document. -/
def Record.toJson (r : Record) : Json :=
  r.toDraft.toJson

/-- **Reads a record**: its fields, and then the rules of `Record.ofDraft`. -/
def Record.ofJson (j : Json) : Except Fault Record := do
  (Record.ofDraft (← Draft.ofJson j)).mapError .defect

/-- Reads a record from a text, behind which only blanks may follow. -/
def Record.ofText (text : String) : Except Fault Record := do
  let (j, ended) := Json.read text
  let record ← Record.ofJson j
  if ended then return record else throw .shape

/-- An event as a document. -/
def Event.toJson (e : Event) : Json :=
  .object [("kind", .text e.kind.name), ("element", e.record.element.toJson),
    ("slot", e.record.slot.toJson), ("timestamp", Json.ofInt64 e.record.timestamp),
    ("sequence", Json.ofUInt64 e.record.sequence), ("visibility", e.record.visibility.toJson),
    ("payload", e.record.mutation.toJson)]

/-- Reads an event: its fields, then its kind, and then the rules; `Event.ofDraft` checks the last
two. -/
def Event.ofJson (j : Json) : Except Fault Event := do
  let names := ["kind", "element", "slot", "timestamp", "sequence", "visibility", "payload"]
  let (kind, draft) ← structured names (fun ms =>
    (fun kind element slot timestamp sequence visibility mutation =>
        (kind, Draft.mk element slot timestamp visibility mutation sequence))
      <$> ms.required "kind" (named Json.isNull MutationKind.ofName?)
      <*> ms.required "element" Element.ofJson <*> ms.required "slot" Slot.ofJson
      <*> ms.required "timestamp" Json.asInt64 <*> ms.required "sequence" Json.asUInt64
      <*> ms.required "visibility" Json.asVisibility <*> ms.required "payload" Mutation.ofJson) j
  (Event.ofDraft kind draft).mapError .defect

/-- The place of an event as a document. -/
def EventId.toJson (id : EventId) : Json :=
  .object [("timestamp", Json.ofInt64 id.time), ("sequence", Json.ofUInt64 id.sequence),
    ("element", id.element.toJson), ("slot", id.slot.toJson)]

def EventId.ofJson : Json → Except Fault EventId :=
  structured ["timestamp", "sequence", "element", "slot"] fun ms =>
    EventId.mk <$> ms.required "timestamp" Json.asInt64 <*> ms.required "sequence" Json.asUInt64
      <*> ms.required "element" Element.ofJson <*> ms.required "slot" Slot.ofJson

def AnnotatedEvent.toJson (e : AnnotatedEvent) : Json :=
  .object [("event", e.event.toJson), ("visible", .bool e.visible)]

end GraphLog
