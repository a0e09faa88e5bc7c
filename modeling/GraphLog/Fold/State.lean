/-
**States: what a caller sees of an element.**

Main definitions:

* `GraphLog.Status` — where an element stands for a caller;
* `GraphLog.PropertyState`, `GraphLog.MetadataState`, `GraphLog.EdgeState` — what is left of it;
* `GraphLog.ElementState` — the whole, with its queries.
-/

import GraphLog.Record.Basic

set_option relaxedAutoImplicit false
set_option autoImplicit false

namespace GraphLog

/-- Where an element stands for a caller. -/
inductive Status where
  -- nothing was created or filled
  | initial
  | live
  | hidden
  -- the element was deleted, and not created since
  | deleted
deriving DecidableEq, Repr, Inhabited

def Status.name : Status → String
  | initial => "initial"
  | live => "live"
  | hidden => "hidden"
  | deleted => "deleted"

/-- A metadata entry that is left. -/
structure MetadataState where
  key : String
  value : Value
  visibility : Visibility
  timestamp : Int64
deriving DecidableEq, Inhabited

/-- A property that is left. -/
structure PropertyState where
  key : String
  name : String
  visibility : Visibility
  value : Value
  timestamp : Int64
  -- the metadata that the caller sees, by key and label
  metadata : List MetadataState
  -- a hide applies, and hidden properties were asked for
  hidden : Bool
deriving DecidableEq, Inhabited

/-- The value of the first metadata entry with a key. -/
def PropertyState.metadataValue (p : PropertyState) (key : String) : Option Value :=
  (p.metadata.find? (·.key == key)).map (·.value)

/-- An edge that is left at a vertex. -/
structure EdgeState where
  edge : String
  direction : Direction
  label : Option String
  other : String
  visibility : Visibility
  timestamp : Int64
  -- a hide applies, and hidden edges were asked for
  hidden : Bool
deriving DecidableEq, Inhabited

/-- **What a caller sees of an element.** -/
structure ElementState where
  element : Element
  status : Status
  visibility : Visibility
  endpoints : Option Endpoints
  -- the properties, by key, name and label
  properties : List PropertyState
  -- the edges, by id and direction
  edges : List EdgeState
  -- the labels of the hides that keep the caller from the element
  hiddenBy : List Visibility
  -- when the deletion in force took effect
  softDeletedAt : Option Int64
  -- the latest time at which a record took effect
  lastModified : Option Int64
  asOf : Option Int64
deriving DecidableEq, Inhabited

namespace ElementState

/-- The state of an element without records. -/
def initial (element : Element) (asOf : Option Int64) : ElementState :=
  ⟨element, .initial, .unrestricted, none, [], [], [], none, none, asOf⟩

def isVisible (s : ElementState) : Bool :=
  s.status == .live

/-- The element was created and is not deleted: it is `Status.live` or `Status.hidden`. -/
def exists? (s : ElementState) : Bool :=
  s.status == .live || s.status == .hidden

def propertiesNamed (s : ElementState) (name : String) : List PropertyState :=
  s.properties.filter (·.name == name)

def property? (s : ElementState) (name : String) : Option PropertyState :=
  s.properties.find? (·.name == name)

/-- The value of the first property with a name. -/
def value? (s : ElementState) (name : String) : Option Value :=
  (s.property? name).map (·.value)

def edgesIn (s : ElementState) (direction : Direction) : List EdgeState :=
  s.edges.filter (·.direction == direction)

end ElementState

end GraphLog
