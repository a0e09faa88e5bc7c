/-
**The fields of frames.**

Each part of a record has a writer and a reader; sorts and kinds are told apart by a tag in front.
The endpoints of an edge travel as a byte string of their own, so that they may be absent.

Main definitions:

* `GraphLog.Wire.putValue`, `GraphLog.Wire.value` — and their companions for the other parts;
* `GraphLog.Wire.putMutation`, `GraphLog.Wire.mutation` — the fields of a mutation, whose kind is
  written elsewhere.
-/

import GraphLog.Record.Mutation
import GraphLog.Record.Slot
import GraphLog.Wire.Primitive

set_option relaxedAutoImplicit false
set_option autoImplicit false

namespace GraphLog.Wire

/-! ### Labels, directions, elements and slots -/

/-- A label, by its text. -/
def putVisibility (v : Visibility) : List UInt8 :=
  putText v.text

/-- A label; a text of which `Visibility.ofText` makes none is refused where it starts. -/
def visibility : Read Visibility := do
  let start ← offset
  let s ← text
  match Visibility.ofText s with
  | .ok v => return v
  | .error e => refuse start (.label e)

def direction : Read Direction := do
  let start ← offset
  let tag ← byte
  match Direction.ofTag? tag with
  | some d => return d
  | none => refuse start (.directionTag tag)

/-- The kind of an element. -/
def elementKind : Read ElementKind := do
  let start ← offset
  let tag ← byte
  match ElementKind.ofTag? tag with
  | some k => return k
  | none => refuse start (.elementTag tag)

/-- The number of a kind of mutation. -/
def mutationKind : Read MutationKind := do
  let start ← offset
  let number ← byte
  match MutationKind.ofNumber? number with
  | some k => return k
  | none => refuse start (.mutationKind number)

/-- An element: its kind and its id. -/
def putElement (e : Element) : List UInt8 :=
  e.kind.tag :: putText e.id

def element : Read Element := do
  return ⟨← elementKind, ← text⟩

/-- A slot: the letter `X`, `P` or `A`, and its parts. -/
def putSlot : Slot → List UInt8
  | .existence => [0x58]
  | .property key name v => 0x50 :: putText key ++ putText name ++ putVisibility v
  | .adjacency edge d => 0x41 :: putText edge ++ [d.tag]

def slot : Read Slot := do
  let start ← offset
  match ← byte with
  | 0x58 => return .existence
  | 0x50 => return .property (← text) (← text) (← visibility)
  | 0x41 => return .adjacency (← text) (← direction)
  | tag => refuse start (.slotTag tag)

/-! ### Values and metadata -/

/-- A value: the tag of its kind, and the value. -/
def putValue : Value → List UInt8
  | .null => [0]
  | .bool b => [1, if b then 1 else 0]
  | .int n => 2 :: putInt64 n
  | .float x => 3 :: putDouble x
  | .text s => 4 :: putText s
  | .bytes b => 5 :: putBytes b
  | .dateTime n => 6 :: putInt64 n
  | .date n => 7 :: putInt64 n

def truthValue : Read Bool := do
  let start ← offset
  match ← byte with
  | 0 => return false
  | 1 => return true
  | b => refuse start (.truthValue b)

def value : Read Value := do
  let start ← offset
  match ← byte with
  | 0 => return .null
  | 1 => return .bool (← truthValue)
  | 2 => return .int (← int64)
  | 3 => return .float (← double)
  | 4 => return .text (← text)
  | 5 => return .bytes (← bytes)
  | 6 => return .dateTime (← int64)
  | 7 => return .date (← int64)
  | tag => refuse start (.valueTag tag)

def putEntry (e : MetadataEntry) : List UInt8 :=
  putText e.key ++ putValue e.value ++ putVisibility e.visibility

def entry : Read MetadataEntry := do
  return ⟨← text, ← value, ← visibility⟩

/-- The number of entries, and the entries. -/
def putEntries (es : List MetadataEntry) : List UInt8 :=
  putInt32 (Int32.ofNat es.length) ++ es.flatMap putEntry

def entries : (count : Nat) → Read (List MetadataEntry)
  | 0 => return []
  | count + 1 => do return (← entry) :: (← entries count)

/-- The number of entries, and the `entries`; a number is refused at its own place. -/
def countedEntries : Read (List MetadataEntry) := do
  let start ← offset
  let count ← int32
  if count < 0 then refuse start (.negativeCount count)
  entries count.toInt.toNat

/-! ### Edges -/

/-- What a vertex records about an edge. -/
def putIncidence (i : Incidence) : List UInt8 :=
  putText i.edge ++ i.direction.tag :: putOptionalText i.label ++ putText i.other ++
    putVisibility i.visibility

def incidence : Read Incidence := do
  return ⟨← text, ← direction, ← optionalText, ← text, ← visibility⟩

/-- The three parts of endpoints. -/
def endpointsBody (e : Endpoints) : List UInt8 :=
  putText e.outVertex ++ putText e.inVertex ++ putText e.label

/-- Minus one, or the endpoints as a byte string. -/
def putEndpoints (e : Option Endpoints) : List UInt8 :=
  putOptionalBytes (e.map endpointsBody)

/-- The three parts of endpoints, and nothing else. -/
def wholeEndpoints : Read Endpoints := do
  let ends : Endpoints := ⟨← text, ← text, ← text⟩
  consumed
  return ends

/-- Minus one, or the endpoints as a byte string, behind a length of four bytes.  An error of
`wholeEndpoints` is `shifted` to the place of the string. -/
def endpoints : Read (Option Endpoints) := do
  let start ← offset
  match ← optionalBytes with
  | none => return none
  | some body =>
    match (wholeEndpoints.on (.start body)).1 with
    | .ok ends => return some ends
    | .error e => throw (e.shifted (start + 4))

/-! ### Mutations -/

/-- **The fields of a mutation.**  Its kind is told in front of them, in a place that depends on the
frame. -/
def putMutation : Mutation → List UInt8
  | .setValue v metadata => putValue v ++ putEntries metadata
  | .dropValue => []
  | .attachEdge i => putIncidence i
  | .detachEdge i => putIncidence i
  | .hide label time => putVisibility label ++ putOptionalInt64 time
  | .unhide label time => putVisibility label ++ putOptionalInt64 time
  | .softDelete time => putInt64 time
  | .relabel label => putVisibility label
  | .setMetadata e => putEntry e
  | .dropMetadata key v => putText key ++ putVisibility v
  | .create ends => putEndpoints ends

/-- **The fields of a mutation of a kind**, as `putMutation` writes them. -/
def mutation : MutationKind → Read Mutation
  | .setValue => do return .setValue (← value) (← countedEntries)
  | .dropValue => return .dropValue
  | .attachEdge => do return .attachEdge (← incidence)
  | .detachEdge => do return .detachEdge (← incidence)
  | .hide => do return .hide (← visibility) (← optionalInt64)
  | .unhide => do return .unhide (← visibility) (← optionalInt64)
  | .softDelete => do return .softDelete (← int64)
  | .relabel => do return .relabel (← visibility)
  | .setMetadata => do return .setMetadata (← entry)
  | .dropMetadata => do return .dropMetadata (← text) (← visibility)
  | .create => do return .create (← endpoints)

end GraphLog.Wire
