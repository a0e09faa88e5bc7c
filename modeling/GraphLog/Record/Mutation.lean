/-
**Mutations: what a record does to its slot.**

There are eleven kinds of mutation, each with a number that frames carry and a name that documents
carry.  Numbers are never reused.  A mutation may carry a value, which is one of eight kinds, and
metadata, which are values under keys with labels of their own.

Main definitions:

* `GraphLog.Value` — the eight kinds of value;
* `GraphLog.Value.narrated` — a value as narrations of events show it;
* `GraphLog.MetadataEntry` — a value under a key, with a label of its own;
* `GraphLog.MutationKind` — the kinds, with their numbers and names;
* `GraphLog.Mutation` — **the mutations**;
* `GraphLog.Mutation.kind` — the kind of a mutation;
* `GraphLog.Mutation.effectiveTime` — when a mutation takes effect.
-/

import GraphLog.Element
import GraphLog.Label.Visibility
import GraphLog.Number

set_option relaxedAutoImplicit false
set_option autoImplicit false

namespace GraphLog

/-! ### Values -/

/-- **A value of a property or of metadata.** -/
inductive Value where
  | null
  | bool (value : Bool)
  | int (value : Int64)
  | float (value : Double)
  | text (value : String)
  | bytes (value : List UInt8)
  -- milliseconds since the epoch
  | dateTime (milliseconds : Int64)
  -- days since the epoch
  | date (days : Int64)
deriving DecidableEq, Repr, Inhabited

/-- A value as narrations show it, numbers in the layout `Layout.narration`.  Texts stand bare,
bytes only by their number. -/
def Value.narrated : Value → String
  | null => "null"
  | bool b => toString b
  | int n => toString n.toInt
  | float x => Layout.narration.write x
  | text s => s
  | bytes b => s!"bytes(len={b.length})"
  | dateTime n => s!"datetime({n.toInt})"
  | date n => s!"date({n.toInt})"

/-- A value under a key, with a label of its own. -/
structure MetadataEntry where
  key : String
  value : Value
  -- the label of the entry, apart from that of its property
  visibility : Visibility
deriving DecidableEq, Inhabited

/-! ### Mutations -/

/-- **The kinds of mutation.** -/
inductive MutationKind where
  | setValue
  | dropValue
  | attachEdge
  | detachEdge
  | hide
  | unhide
  | softDelete
  | relabel
  | setMetadata
  | dropMetadata
  | create
deriving DecidableEq, Repr, Inhabited

namespace MutationKind

/-- Every kind, in the order of the numbers. -/
def all : List MutationKind :=
  [setValue, dropValue, attachEdge, detachEdge, hide, unhide, softDelete, relabel, setMetadata,
    dropMetadata, create]

/-- The number that stands for a kind in frames; `ofNumber?` reads it back. -/
def number : MutationKind → UInt8
  | setValue => 1
  | dropValue => 2
  | attachEdge => 3
  | detachEdge => 4
  | hide => 5
  | unhide => 6
  | softDelete => 7
  | relabel => 8
  | setMetadata => 9
  | dropMetadata => 10
  | create => 11

/-- The name of a kind; `ofName?` reads it back. -/
def name : MutationKind → String
  | setValue => "add_property_value"
  | dropValue => "delete_property"
  | attachEdge => "add_edge_to_vertex"
  | detachEdge => "delete_edge_to_vertex"
  | hide => "mark_hidden"
  | unhide => "mark_visible"
  | softDelete => "soft_delete_element"
  | relabel => "alter_element_visibility"
  | setMetadata => "set_metadata"
  | dropMetadata => "delete_metadata"
  | create => "create_element"

def ofNumber? (n : UInt8) : Option MutationKind :=
  all.find? (·.number == n)

def ofName? (name : String) : Option MutationKind :=
  all.find? (·.name == name)

/-- Kinds are ordered by their numbers. -/
instance : Ord MutationKind := ⟨compareOn number⟩

theorem ofNumber?_number (k : MutationKind) : ofNumber? k.number = some k := by
  cases k <;> rfl

theorem number_of_ofNumber? {n : UInt8} {k : MutationKind} (h : ofNumber? n = some k) :
    k.number = n := by
  simpa using List.find?_some h

theorem ofName?_name (k : MutationKind) : ofName? k.name = some k := by
  cases k <;> rfl

theorem name_of_ofName? {name : String} {k : MutationKind} (h : ofName? name = some k) :
    k.name = name := by
  simpa using List.find?_some h

end MutationKind

/-- What a vertex records about one of its edges. -/
structure Incidence where
  edge : String
  direction : Direction
  -- the label of the edge; a detachment may leave it out
  label : Option String
  other : String
  visibility : Visibility
deriving DecidableEq, Inhabited

/-- **What a record does to its slot.** -/
inductive Mutation where
  | setValue (value : Value) (metadata : List MetadataEntry)
  | dropValue
  | attachEdge (incidence : Incidence)
  | detachEdge (incidence : Incidence)
  -- hides a slot under a label, at once or at a given time
  | hide (label : Visibility) (time : Option Int64)
  -- lifts the hide under a label of this spelling, at once or at a given time
  | unhide (label : Visibility) (time : Option Int64)
  | softDelete (time : Int64)
  | relabel (label : Visibility)
  | setMetadata (entry : MetadataEntry)
  | dropMetadata (key : String) (visibility : Visibility)
  -- creates an element; an edge comes with its endpoints
  | create (endpoints : Option Endpoints)
deriving DecidableEq, Inhabited

namespace Mutation

def kind : Mutation → MutationKind
  | setValue .. => .setValue
  | dropValue => .dropValue
  | attachEdge _ => .attachEdge
  | detachEdge _ => .detachEdge
  | hide .. => .hide
  | unhide .. => .unhide
  | softDelete _ => .softDelete
  | relabel _ => .relabel
  | setMetadata _ => .setMetadata
  | dropMetadata .. => .dropMetadata
  | create _ => .create

/-- When a mutation takes effect that was written at the given time.  Deletions have a time of their
own, and hides and their lifting may have one. -/
def effectiveTime (written : Int64) : Mutation → Int64
  | softDelete time => time
  | hide _ (some time) => time
  | unhide _ (some time) => time
  | _ => written

/-- The mutation deletes its element. -/
def isSoftDelete : Mutation → Bool
  | softDelete _ => true
  | _ => false

end Mutation

end GraphLog
