/-
**Listings: mutations with everything they are made of.**

A narration leaves out what a reader does not need; a listing leaves out nothing.  It shows a
mutation as the form it has, with the name of the form in front, its parts in order, and texts
between quotes.

Main definitions:

* `GraphLog.Value.listed` — a value with the name of its kind;
* `GraphLog.Mutation.listed` — a mutation with all its parts.
-/

import GraphLog.Record.Mutation
import GraphLog.Text.Quoted

set_option relaxedAutoImplicit false
set_option autoImplicit false

namespace GraphLog

namespace Listing

def fields (name : String) (parts : List (String × String)) : String :=
  let shown := parts.map fun (part, value) => part ++ ": " ++ value
  name ++ " \x7b " ++ ", ".intercalate shown ++ " \x7d"

def around (name part : String) : String :=
  name ++ "(" ++ part ++ ")"

def row (parts : List String) : String :=
  "[" ++ ", ".intercalate parts ++ "]"

def optional {α : Type} (shown : α → String) : Option α → String
  | none => "None"
  | some a => around "Some" (shown a)

def int64 (n : Int64) : String :=
  toString n.toInt

end Listing

open Listing Text

/-- A value with the name of its kind, texts as `Text.quotedText` and numbers in the layout
`Layout.listing`. -/
def Value.listed : Value → String
  | null => "Null"
  | bool b => around "Bool" (toString b)
  | int n => around "Int" (int64 n)
  | float x => around "Float" (Layout.listing.write x)
  | text s => around "Str" (quotedText s)
  | bytes b => around "Bytes" (row (b.map fun byte => toString byte.toNat))
  | dateTime n => around "DateTime" (int64 n)
  | date n => around "Date" (int64 n)

def Visibility.listed (v : Visibility) : String :=
  around "Visibility" (quotedText v.text)

def Direction.listed : Direction → String
  | outward => "Out"
  | inward => "In"

def MetadataEntry.listed (e : MetadataEntry) : String :=
  fields "MetadataEntry" [("key", quotedText e.key), ("value", e.value.listed),
    ("visibility", e.visibility.listed)]

def Incidence.listed (i : Incidence) : String :=
  fields "EdgeRef" [("edge_id", quotedText i.edge), ("direction", i.direction.listed),
    ("edge_label", optional quotedText i.label), ("other_vertex_id", quotedText i.other),
    ("edge_visibility", i.visibility.listed)]

def Endpoints.listed (e : Endpoints) : String :=
  fields "EdgeEndpoints" [("out_vertex_id", quotedText e.outVertex),
    ("in_vertex_id", quotedText e.inVertex), ("label", quotedText e.label)]

/-- **A mutation with all its parts.** -/
def Mutation.listed : Mutation → String
  | setValue value metadata =>
    fields "AddPropertyValue" [("value", value.listed),
      ("metadata", row (metadata.map MetadataEntry.listed))]
  | dropValue => "DeleteProperty"
  | attachEdge i => around "AddEdgeToVertex" i.listed
  | detachEdge i => around "DeleteEdgeToVertex" i.listed
  | hide label time =>
    fields "MarkHidden" [("hide_visibility", label.listed),
      ("timestamp_of_hide", optional int64 time)]
  | unhide label time =>
    fields "MarkVisible" [("hide_visibility", label.listed),
      ("timestamp_of_visible", optional int64 time)]
  | softDelete time => fields "SoftDeleteElement" [("timestamp", int64 time)]
  | relabel label => fields "AlterElementVisibility" [("new_visibility", label.listed)]
  | setMetadata entry => around "SetMetadata" entry.listed
  | dropMetadata key v =>
    fields "DeleteMetadata" [("key", quotedText key), ("visibility", v.listed)]
  | create ends => fields "CreateElement" [("edge", optional Endpoints.listed ends)]

end GraphLog
