/-
**Frames: mutations, records and events as bytes.**

A frame starts with the version of the format.  A record or an event has a letter behind it; a
bare mutation has the number of its kind there, which is never such a letter.  A frame is read to
its last byte, and then the rules for mutations and records are checked.

Main definitions:

* `GraphLog.Frame` — the three sorts of frame;
* `GraphLog.Mutation.encode`, `GraphLog.Record.encode`, `GraphLog.Event.encode` — writing them;
* `GraphLog.Mutation.decode`, `GraphLog.Record.decode`, `GraphLog.Event.decode` — reading them;
* `GraphLog.Frame.decode` — reading a frame whose sort is not known.
-/

import GraphLog.Record.Basic
import GraphLog.Wire.Fields

set_option relaxedAutoImplicit false
set_option autoImplicit false

namespace GraphLog

namespace Wire

/-- The version of the format. -/
def version : UInt8 := 1

/-- The letter of a record frame, `M`. -/
def recordTag : UInt8 := 0x4D

/-- The letter of an event frame, `H`. -/
def eventTag : UInt8 := 0x48

def readVersion : Read Unit := do
  let v ← byte
  if v ≠ version then throw (.unsupportedVersion v)

def expectTag (tag : UInt8) : Read Unit := do
  let start ← offset
  let found ← byte
  if found ≠ tag then refuse start (.frameTag tag found)

/-- What stands between the element and the mutation of a record. -/
def putPlace (d : Draft) : List UInt8 :=
  putElement d.element ++ putSlot d.slot ++ putInt64 d.timestamp ++ putUInt64 d.sequence ++
    putVisibility d.visibility

/-- What stands between the element and the mutation of a record, a `Draft` to be completed by the
mutation. -/
def place : Read (Mutation → Draft) := do
  let e ← element
  let s ← slot
  let timestamp ← int64
  let sequence ← uint64
  let v ← visibility
  return fun m => ⟨e, s, timestamp, v, m, sequence⟩

/-- A bare mutation, to the last byte. -/
def mutationFrame : Read Mutation := do
  readVersion
  let m ← mutation (← mutationKind)
  consumed
  return m

/-- The fields of a record, to the last byte. -/
def recordFrame : Read Draft := do
  readVersion
  expectTag recordTag
  let draft ← place
  let m ← mutation (← mutationKind)
  consumed
  return draft m

/-- The fields of an event, to the last byte. -/
def eventFrame : Read Draft := do
  readVersion
  expectTag eventTag
  let kind ← mutationKind
  let draft ← place
  let m ← mutation kind
  consumed
  return draft m

/-- What a read makes of some bytes. -/
def decodeWith {α : Type} (read : Read α) (bytes : List UInt8) : Except Failure α :=
  (read.on (.start bytes)).1.mapError .decode

end Wire

open Wire

/-- A mutation as a frame. -/
def Mutation.encode (m : Mutation) : List UInt8 :=
  version :: m.kind.number :: putMutation m

/-- Reads a mutation from a frame, and then checks its rules, which are `Mutation.check`. -/
def Mutation.decode (bytes : List UInt8) : Except Failure Mutation := do
  let m ← decodeWith mutationFrame bytes
  m.check.mapError .invalid
  return m

/-- A record as a frame. -/
def Record.encode (r : Record) : List UInt8 :=
  version :: recordTag :: putPlace r.toDraft ++ r.mutation.kind.number :: putMutation r.mutation

/-- **Reads a record from a frame**, and then checks its rules with `Record.ofDraft`. -/
def Record.decode (bytes : List UInt8) : Except Failure Record := do
  let d ← decodeWith recordFrame bytes
  (Record.ofDraft d).mapError .invalid

/-- An event as a frame. -/
def Event.encode (e : Event) : List UInt8 :=
  version :: eventTag :: e.kind.number :: putPlace e.record.toDraft ++
    putMutation e.record.mutation

/-- Reads an event from a frame, and then checks the rules of its record with `Event.ofDraft`. -/
def Event.decode (bytes : List UInt8) : Except Failure Event := do
  let d ← decodeWith eventFrame bytes
  ((Record.ofDraft d).map Event.mk).mapError .invalid

/-- **The three sorts of frame.** -/
inductive Frame where
  | mutation (value : Mutation)
  | record (value : Record)
  | event (value : Event)
deriving DecidableEq

namespace Frame

def encode : Frame → List UInt8
  | mutation m => m.encode
  | record r => r.encode
  | event e => e.encode

/-- **Reads a frame whose sort is not known**: the byte behind the version tells whether
`Mutation.decode`, `Record.decode` or `Event.decode` goes on. -/
def decode (bytes : List UInt8) : Except Failure Frame :=
  match bytes[1]? with
  | some tag =>
    if tag = recordTag then (Record.decode bytes).map record
    else if tag = eventTag then (Event.decode bytes).map event
    else (Mutation.decode bytes).map mutation
  | none => decodeWith (do readVersion; refuse (← offset) .endsAfterVersion) bytes

end Frame

end GraphLog
