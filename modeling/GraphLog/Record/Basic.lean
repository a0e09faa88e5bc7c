/-
**Records: immutable statements about one slot of one element, and events.**

A record is never changed after it was accepted, only stamped with the sequence of its arrival.
What is accepted is said by `Draft.check`, and a record carries the proof that it passed.

An event says the same as its record, with the kind of the mutation in front.  It is known by its
place in the history: the time at which it takes effect, then the order of arrival, then what it
is about.

Main definitions:

* `GraphLog.Draft` — the fields of a record, not yet checked;
* `GraphLog.Draft.check` — the rules;
* `GraphLog.Record` — **a draft that obeys them**;
* `GraphLog.Draft.effectiveTime` — when a record takes effect;
* `GraphLog.Event` — a record, to be told;
* `GraphLog.EventId` — the place of an event in a history, with its order;
* `GraphLog.Event.describe` — the event in one line.
-/

import GraphLog.Failure

set_option relaxedAutoImplicit false
set_option autoImplicit false

namespace GraphLog

/-! ### Records -/

/-- The fields of a record, not yet checked. -/
structure Draft where
  element : Element
  slot : Slot
  -- when it was written, in milliseconds since the epoch
  timestamp : Int64
  visibility : Visibility
  mutation : Mutation
  -- the order of its arrival; zero until it has arrived
  sequence : UInt64
deriving DecidableEq, Inhabited

namespace Draft

/-- Which slots a mutation acts on; on the others it is a `Defect.wrongSlot`.  Hides act on every
slot; a value may also be set on the existence slot; the edge of an adjacency slot is that of the
mutation; and endpoints belong to edges. -/
def checkTarget (d : Draft) : Except Defect Unit :=
  let kind := d.mutation.kind
  match d.mutation, d.slot with
  | .setValue .., .property .. | .setValue .., .existence => .ok ()
  | .dropValue, .property .. | .setMetadata _, .property .. | .dropMetadata .., .property .. =>
    .ok ()
  | .attachEdge incidence, .adjacency edge direction
  | .detachEdge incidence, .adjacency edge direction =>
    if d.element.kind ≠ .vertex then .error (.onlyVertices kind d.element.kind)
    else if incidence.edge ≠ edge ∨ incidence.direction ≠ direction then
      .error (.edgeMismatch kind incidence.edge incidence.direction edge direction)
    else .ok ()
  | .hide .., _ | .unhide .., _ => .ok ()
  | .softDelete _, .existence | .relabel _, .existence => .ok ()
  | .create endpoints, .existence =>
    match d.element.kind, endpoints with
    | .edge, none => .error .missingEndpoints
    | .vertex, some _ => .error .unexpectedEndpoints
    | .edge, some _ | .vertex, none => .ok ()
  | _, slot => .error (.wrongSlot kind slot)

/-- Refuses slots that name nothing. -/
def checkSlot (slot : Slot) : Except Defect Unit :=
  match slot with
  | .existence => .ok ()
  | .property _ name _ => Part.propertyName.required name
  | .adjacency edge _ => Part.adjacencyEdgeId.required edge

/-- **The rules for records**: those of the mutation, `checkTarget` and `checkSlot`. -/
def check (d : Draft) : Except Defect Unit := do
  Part.elementId.required d.element.id
  d.mutation.check
  d.checkTarget
  checkSlot d.slot

/-- The sequence plays no part in the rules. -/
theorem check_sequence (d : Draft) (n : UInt64) : { d with sequence := n }.check = d.check := rfl

/-- When a record with these fields takes effect, which `Mutation.effectiveTime` says. -/
def effectiveTime (d : Draft) : Int64 :=
  d.mutation.effectiveTime d.timestamp

end Draft

/-- **A record: a draft that obeys the rules.** -/
structure Record extends Draft where
  valid : toDraft.check = .ok ()
deriving DecidableEq

namespace Record

/-- Accepts a draft that obeys `Draft.check`. -/
def ofDraft (d : Draft) : Except Defect Record :=
  match h : d.check with
  | .ok () => .ok ⟨d, h⟩
  | .error defect => .error defect

/-- The record with another sequence. -/
def stamped (r : Record) (n : UInt64) : Record :=
  ⟨{ r.toDraft with sequence := n }, (Draft.check_sequence r.toDraft n).trans r.valid⟩

theorem ofDraft_toDraft (r : Record) : ofDraft r.toDraft = .ok r := by
  have valid := r.valid
  unfold ofDraft
  split
  · rfl
  · next h => simp [h] at valid

/-- Only a draft that obeys the rules is accepted, and it is left as it is. -/
theorem ofDraft_eq_ok_iff {d : Draft} {r : Record} :
    ofDraft d = .ok r ↔ d = r.toDraft := by
  constructor
  · intro h
    unfold ofDraft at h
    split at h
    · cases h
      rfl
    · cases h
  · rintro rfl
    exact ofDraft_toDraft r

@[simp]
theorem stamped_self (r : Record) : r.stamped r.sequence = r := rfl

@[simp]
theorem stamped_stamped (r : Record) (m n : UInt64) : (r.stamped m).stamped n = r.stamped n := rfl

@[simp]
theorem sequence_stamped (r : Record) (n : UInt64) : (r.stamped n).sequence = n := rfl

end Record

/-! ### Events -/

open Std

/-- **The place of an event in a history.** -/
structure EventId where
  time : Int64
  sequence : UInt64
  element : Element
  slot : Slot
deriving DecidableEq, Inhabited

namespace EventId

/-- Events are ordered by time, then by arrival, then by what they are about. -/
def order : EventId → EventId → Ordering :=
  compareLex (compareOn time)
    (compareLex (compareOn sequence) (compareLex (compareOn element) (compareOn slot)))

instance : Ord EventId := ⟨order⟩

instance : TransOrd EventId := by
  show TransCmp order
  unfold order
  infer_instance

instance : LawfulEqOrd EventId where
  eq_of_compare {a b} h := by
    have h : order a b = .eq := h
    simp only [order, compareLex, compareOn, Ordering.then_eq_eq] at h
    obtain ⟨times, sequences, elements, slots⟩ := h
    cases a
    cases b
    exact EventId.mk.injEq .. ▸ ⟨LawfulEqCmp.eq_of_compare times,
      LawfulEqCmp.eq_of_compare sequences, LawfulEqCmp.eq_of_compare elements,
      LawfulEqCmp.eq_of_compare slots⟩

/-- The place of an event as histories show it. -/
def toText (id : EventId) : String :=
  s!"{id.element.toText}@{id.time.toInt}#{id.sequence.toNat}"

end EventId

/-- **A record, to be told as an event.** -/
structure Event where
  record : Record
deriving DecidableEq

namespace Event

def kind (e : Event) : MutationKind :=
  e.record.mutation.kind

/-- The place of the event in a history. -/
def id (e : Event) : EventId :=
  ⟨e.record.effectiveTime, e.record.sequence, e.record.element, e.record.slot⟩

/-- The event in one line. -/
def describe (e : Event) : String :=
  let slot := e.record.slot.toText
  let element := e.record.element.toText
  match e.record.mutation with
  | .setValue value [] => s!"set property {slot} = {value.narrated}"
  | .setValue value metadata =>
    s!"set property {slot} = {value.narrated} with {metadata.length} metadata entries"
  | .dropValue => s!"deleted property {slot}"
  | .attachEdge i =>
    let label := i.label.getD "?"
    s!"added {i.direction.name} edge {i.edge} ({label}) to {i.other}"
  | .detachEdge i => s!"removed {i.direction.name} edge {i.edge} to {i.other}"
  | .hide label _ => s!"hid {slot} for [{label.text}]"
  | .unhide label _ => s!"unhid {slot} for [{label.text}]"
  | .softDelete time => s!"soft-deleted {element} at {time.toInt}"
  | .relabel label => s!"changed {element} visibility to [{label.text}]"
  | .setMetadata entry => s!"set metadata {slot}.{entry.key} = {entry.value.narrated}"
  | .dropMetadata key _ => s!"deleted metadata {slot}.{key}"
  | .create none => s!"created {element}"
  | .create (some ends) => s!"created {element} {ends.outVertex} -[{ends.label}]-> {ends.inVertex}"

/-- The event as histories show it: its place, and what happened. -/
def toText (e : Event) : String :=
  s!"{e.id.toText} {e.describe}"

/-- Tells a record that an event document claims to be of some kind; another one is a
`Defect.kindMismatch`. -/
def ofDraft (kind : MutationKind) (d : Draft) : Except Defect Event :=
  if kind ≠ d.mutation.kind then .error (.kindMismatch kind d.mutation.kind)
  else (Record.ofDraft d).map Event.mk

end Event

/-- An event, and whether the caller may see its record. -/
structure AnnotatedEvent where
  event : Event
  visible : Bool
deriving DecidableEq

end GraphLog
