/-
**Folding records into the state of an element.**

A record takes part in a fold when it takes effect within the horizon and the caller satisfies
its label; a deletion takes part whatever its label says.  All records of a fold have to be about
one element, and its ledger is gathered from them.

A deletion wipes what is ranked at or below it.  An element that was deleted and not created
since shows nothing but the deletion; one that was never filled shows nothing; one whose label
the caller does not satisfy is hidden.  Of all others the caller sees the values, metadata and
edges whose labels allow it and that no hide keeps back.

Whether a label allows something is asked of whoever answers for the caller.  A fold asks its cache
(`GraphLog.Visibility.judged`); the questions and their order are the same for all who answer.

Main definitions:

* `GraphLog.Ledger.isDeleted` — a deletion is in force;
* `GraphLog.Ledger.activeHides` — the hides that apply to the caller on a slot;
* `GraphLog.Ledger.resolve` — **the state that a caller sees**;
* `GraphLog.View.admits` — a record takes part;
* `GraphLog.View.foldElement` — **the state of an element from its records**;
* `GraphLog.View.fold` — the same, for the element of the first record;
* `GraphLog.View.foldPartition` — the states of all elements that the records are about.
-/

import Std.Data.ExtTreeSet
import GraphLog.Fold.Ledger
import GraphLog.Fold.State

set_option relaxedAutoImplicit false
set_option autoImplicit false

namespace GraphLog

/-! ### From a ledger to what a caller sees -/

namespace Ledger

/-- **A deletion is in force**: no creation outranks it. -/
def isDeleted (l : Ledger) : Bool :=
  match l.deleted, l.created with
  | some deleted, some created => !deleted.isBelow created
  | some _, none => true
  | none, _ => false

/-- A write of this rank is not wiped by a deletion: it ranks above the last one. -/
def survives (l : Ledger) (rank : Rank) : Bool :=
  match l.deleted with
  | some deleted => deleted.isBelow rank
  | none => true

/-- The hides in force on a slot, by label. -/
def hidesInForce (l : Ledger) (slot : Slot) : List Visibility :=
  l.hides.toList.filterMap fun (place, hide) =>
    if place.slot = slot ∧ hide.content ∧ l.survives hide.rank then some place.label else none

/-- The state with what the ledger says whoever looks. -/
def outline (l : Ledger) (element : Element) (asOf : Option Int64) : ElementState :=
  { ElementState.initial element asOf with
    lastModified := l.lastModified
    endpoints := l.endpoints.map (·.content)
    visibility := l.visibility.elim .unrestricted (·.content) }

section Asking

variable {m : Type → Type} [Monad m] (l : Ledger) (ask : Visibility → m Bool)

/-- The labels of `hidesInForce` whose hides apply to the caller. -/
def activeHides (options : FoldOptions) (slot : Slot) : m (List Visibility) :=
  (l.hidesInForce slot).filterMapM fun label => do
    let satisfied ← ask label
    return if options.hideAudience.applies satisfied then some label else none

/-- The metadata entries of a slot that are not older than the value of the property, and that
the caller sees. -/
def metadataOf (slot : Slot) (since : Rank) : m (List MetadataState) :=
  l.metadata.toList.filterMapM fun (place, entry) => do
    match entry.content with
    | some value =>
      if place.slot = slot ∧ ¬entry.rank.isBelow since then
        if ← ask place.visibility then
          return some ⟨place.key, value, place.visibility, entry.rank.time⟩
      return none
    | none => return none

/-- What the caller sees of a property: its value and `metadataOf` it, unless one of its
`activeHides` keeps it back. -/
def propertyOf (options : FoldOptions) (slot : Slot) (register : Ranked (Option Value)) :
    m (Option PropertyState) := do
  match register.content, slot with
  | some value, .property key name v =>
    unless l.survives register.rank do return none
    unless ← ask v do return none
    let hidden := !(← l.activeHides ask options slot).isEmpty
    if hidden && !options.includeHidden then return none
    let metadata ← l.metadataOf ask slot register.rank
    return some ⟨key, name, v, value, register.rank.time, metadata, hidden⟩
  | _, _ => return none

/-- What the caller sees of an edge, unless one of its `activeHides` keeps it back. -/
def edgeOf (options : FoldOptions) (slot : Slot) (register : Ranked (Option Incidence)) :
    m (Option EdgeState) := do
  match register.content with
  | some i =>
    unless l.survives register.rank do return none
    unless ← ask i.visibility do return none
    let hidden := !(← l.activeHides ask options slot).isEmpty
    if hidden && !options.includeHidden then return none
    return some ⟨i.edge, i.direction, i.label, i.other, i.visibility, register.rank.time, hidden⟩
  | none => return none

/-- What the caller sees of all properties, each by `propertyOf`, in the order of their slots. -/
def properties (options : FoldOptions) : m (List PropertyState) :=
  l.values.toList.filterMapM fun (slot, register) => l.propertyOf ask options slot register

/-- What the caller sees of all edges, each by `edgeOf`, in the order of their slots. -/
def edgeStates (options : FoldOptions) : m (List EdgeState) :=
  l.edges.toList.filterMapM fun (slot, register) => l.edgeOf ask options slot register

/-- **The state that a caller sees.**  There is no more than the `outline` and a status where the
element is deleted, was never filled or has a label that the caller does not satisfy. -/
def resolve (options : FoldOptions) (element : Element) (asOf : Option Int64) :
    m ElementState := do
  let outline := l.outline element asOf
  if l.isDeleted then
    return { outline with status := .deleted, softDeletedAt := l.deleted.map (·.time) }
  unless l.constructive do return outline
  unless ← ask outline.visibility do return { outline with status := .hidden }
  let hiddenBy ← l.activeHides ask options .existence
  let status := if hiddenBy.isEmpty then Status.live else Status.hidden
  let shown := { outline with status, hiddenBy }
  unless hiddenBy.isEmpty || options.includeHidden do return shown
  let properties ← l.properties ask options
  let edges ← l.edgeStates ask options
  return { shown with properties, edges }

end Asking

end Ledger

/-! ### Folding records -/

/-- Refuses a record of another element. -/
def Element.checkSame (expected found : Element) : Except FoldError Unit :=
  if expected.kind ≠ found.kind then .error (.mixedKinds expected.kind found.kind)
  else if expected.id ≠ found.id then .error (.mixedElements expected found)
  else .ok ()

namespace View

/-- The elements that some records are about, in order. -/
def elements (records : List Record) : List Element :=
  (Std.ExtTreeSet.ofList (records.map (·.element))).toList

section Asking

variable {m : Type → Type} [Monad m] (v : View) (ask : Visibility → m Bool)
  (takesPart : Record → m Bool)

/-- A record takes part in the fold: it is not `isBeyond` the horizon, and it is a deletion or the
label allows it. -/
def admits (r : Record) : m Bool := do
  if v.isBeyond r.effectiveTime then return false
  if r.mutation.isSoftDelete then return true
  ask r.visibility

/-- The records that take part, each with its rank; the first of them stands at `place`. -/
def admitted (place : Nat) : List Record → m (List (Ranked Record))
  | [] => return []
  | r :: rs => do
    let counts ← takesPart r
    let others ← admitted (place + 1) rs
    let rank := Rank.ofRecord v.options.tieBreak place r
    return if counts then ⟨rank, r⟩ :: others else others

/-- The state of an element from those of its records that take part, by `Ledger.resolve`. -/
def reduceBy (element : Element) (records : List Record) : m ElementState := do
  let entries ← v.admitted takesPart 0 records
  (Ledger.ofRecords entries).resolve ask v.options element v.asOf

/-- Asks about the records of each element on their own, in the order of the `elements`. -/
def forElements {α : Type} (reduce : Element → List Record → m α) (records : List Record) :
    m (List α) :=
  (elements records).mapM fun element => reduce element (records.filter (·.element = element))

end Asking

/-- The state of an element from records that are all its own, as the cache of the fold answers. -/
def reduce (v : View) (element : Element) (records : List Record) : Judged ElementState :=
  v.reduceBy Visibility.judged (v.admits Visibility.judged) element records

/-- Refuses records of other elements with `Element.checkSame`; the first of them is reported. -/
def checkAll (element : Element) : List Record → Except FoldError Unit
  | [] => .ok ()
  | r :: rs => do
    element.checkSame r.element
    checkAll element rs

/-- **The state of an element from its records.** -/
def foldElement (v : View) (element : Element) (records : List Record) :
    Except FoldError ElementState := do
  checkAll element records
  return v.judge (v.reduce element records)

/-- The state of the element of the first record, by `foldElement`; none if there is no record. -/
def fold (v : View) (records : List Record) : Except FoldError (Option ElementState) :=
  match records with
  | [] => .ok none
  | first :: _ => some <$> v.foldElement first.element records

/-- **The states of all elements that the records are about**, in the order of the `elements`.  One
cache serves them all. -/
def foldPartition (v : View) (records : List Record) : List ElementState :=
  v.judge (forElements v.reduce records)

end View

end GraphLog
