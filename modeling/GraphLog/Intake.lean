/-
**Intake: raw records on their way into a log.**

A source hands over records in a raw form: label and mutation are still bytes.  Decoding a raw
record checks both, and whoever takes it in stamps it with the number of its arrival.  Nothing is
claimed for a record that is refused.

Main definitions:

* `GraphLog.RawRecord` — a record whose label and mutation are bytes;
* `GraphLog.RawRecord.decode` — the record, or what is wrong with the bytes;
* `GraphLog.Intake` — the counter of arrivals;
* `GraphLog.Intake.ingest`, `GraphLog.Intake.ingestAll` — taking in one or many.
-/

import GraphLog.Fold.Basic
import GraphLog.History
import GraphLog.Wire.Frame

set_option relaxedAutoImplicit false
set_option autoImplicit false

namespace GraphLog

/-- **A record whose label and mutation are bytes.** -/
structure RawRecord where
  element : Element
  slot : Slot
  timestamp : Int64
  -- the UTF-8 form of its label
  visibility : List UInt8
  -- its mutation as a frame
  mutation : List UInt8
deriving DecidableEq, Inhabited

namespace RawRecord

def ofRecord (r : Record) : RawRecord :=
  ⟨r.element, r.slot, r.timestamp, Text.toBytes r.visibility.text, r.mutation.encode⟩

/-- Reads a label from its bytes; a fault is located in them. -/
def decodeVisibility (bytes : List UInt8) : Except Wire.DecodeError Visibility :=
  match Text.ofBytes? bytes with
  | none => .error (.corrupt (Text.readableLength bytes) .labelNotText)
  | some text => (Visibility.ofText text).mapError fun e => .corrupt e.position (.label e)

/-- **The record that a raw record stands for**, not yet stamped: its label is read first, then its
mutation, and then the rules are checked by `Record.ofDraft`. -/
def decode (raw : RawRecord) : Except Failure Record := do
  let visibility ← (decodeVisibility raw.visibility).mapError .decode
  let mutation ← Mutation.decode raw.mutation
  (Record.ofDraft ⟨raw.element, raw.slot, raw.timestamp, visibility, mutation, 0⟩).mapError
    .invalid

end RawRecord

/-- What a source hands over: a raw record, or a failure of its own. -/
abbrev Delivery := Except Failure RawRecord

/-- **The counter of arrivals.** -/
structure Intake where
  -- the number of the next arrival
  next : UInt64 := 1
deriving DecidableEq, Repr, Inhabited

namespace Intake

/-- Claims a number; behind the last one the numbers start again at zero. -/
def claim (intake : Intake) : UInt64 × Intake :=
  (intake.next, ⟨intake.next + 1⟩)

/-- Takes in a raw record: the record with the number that `claim` gives, or the failure and the
counter as it was. -/
def ingest (intake : Intake) (raw : RawRecord) : Except Failure Record × Intake :=
  match raw.decode with
  | .ok record => (.ok (record.stamped intake.claim.1), intake.claim.2)
  | .error failure => (.error failure, intake)

/-- Takes in deliveries until one fails; what was claimed before the failure stays claimed. -/
def ingestAll (intake : Intake) : List Delivery → Except Failure (List Record) × Intake
  | [] => (.ok [], intake)
  | .error failure :: _ => (.error failure, intake)
  | .ok raw :: rest =>
    match intake.ingest raw with
    | (.error failure, intake) => (.error failure, intake)
    | (.ok record, intake) =>
      let (records, intake) := intake.ingestAll rest
      (records.map (record :: ·), intake)

end Intake

/-- The records of deliveries, numbered from one: `ingestAll` by a new intake. -/
def receive (deliveries : List Delivery) : Except Failure (List Record) :=
  (Intake.ingestAll ⟨1⟩ deliveries).1

/-- The state of the element that deliveries are about, as a view shows it: the `View.fold` of what
is received. -/
def View.foldRaw (v : View) (deliveries : List Delivery) :
    Except Failure (Option ElementState) := do
  let records ← receive deliveries
  (v.fold records).mapError .fold

/-- The history of deliveries that a caller is given: `History.ofRecords` of what is received. -/
def History.ofRaw (options : FoldOptions) (caller : Option Authorizations)
    (deliveries : List Delivery) : Except Failure History :=
  (receive deliveries).map (History.ofRecords options caller)

end GraphLog
