/-
**The ledger of a fold: what the records of one element add up to.**

Everything that a fold finds out is kept in registers.  Each write has a rank, which says when it
takes effect and when it arrived, and a register keeps the write with the highest rank.  So it
does not matter in which order the writes are met.

The ledger has registers for the facets of an element: its values and their metadata, its edges,
its hides, its label and its endpoints.  Applying a record writes to the registers that its
mutation concerns.  Endpoints alone are kept from the lowest rank, because the first creation
fixes them.

Main definitions:

* `GraphLog.Rank` — the order of writes;
* `GraphLog.Ranked` — a write: a content with its rank;
* `GraphLog.Ranked.newest`, `GraphLog.Ranked.oldest` — a register after a write;
* `GraphLog.Registers` — a register for each key;
* `GraphLog.Ledger` — the registers;
* `GraphLog.Ledger.apply` — **the ledger after a record**.
-/

import Std.Data.ExtTreeMap
import GraphLog.Fold.View
import GraphLog.Record.Basic

set_option relaxedAutoImplicit false
set_option autoImplicit false

namespace GraphLog

open Std

/-! ### Registers -/

/-- **When a write takes effect, and when it arrived.** -/
structure Rank where
  time : Int64
  -- the order of arrival, negated where the first arrival wins
  arrival : Int
  -- the place in the input, negated in the same way; it counts for equal arrivals only
  place : Int
deriving DecidableEq, Repr, Inhabited

namespace Rank

/-- Ranks are ordered by time, then by arrival, then by place. -/
def order : Rank → Rank → Ordering :=
  compareLex (compareOn time) (compareLex (compareOn arrival) (compareOn place))

instance : Ord Rank := ⟨order⟩

instance : TransOrd Rank := by
  show TransCmp order
  unfold order
  infer_instance

instance : LawfulEqOrd Rank where
  eq_of_compare {a b} h := by
    have h : order a b = .eq := h
    simp only [order, compareLex, compareOn, Ordering.then_eq_eq] at h
    obtain ⟨times, arrivals, places⟩ := h
    cases a
    cases b
    exact Rank.mk.injEq .. ▸ ⟨LawfulEqCmp.eq_of_compare times,
      LawfulEqCmp.eq_of_compare arrivals, LawfulEqCmp.eq_of_compare places⟩

/-- The first rank is lower. -/
def isBelow (a b : Rank) : Bool :=
  (compare a b).isLT

/-- The rank of a record at a place of the input.  Under `TieBreak.firstArrival` arrival and place
are negated. -/
def ofRecord (tieBreak : TieBreak) (place : Nat) (r : Record) : Rank :=
  match tieBreak with
  | .lastArrival => ⟨r.effectiveTime, r.sequence.toNat, place⟩
  | .firstArrival => ⟨r.effectiveTime, -r.sequence.toNat, -place⟩

/-- The higher of two ranks; the first if there is no second. -/
def newest (current : Option Rank) (rank : Rank) : Option Rank :=
  match current with
  | some top => if top.isBelow rank then some rank else some top
  | none => some rank

end Rank

/-- **A write: a content with its rank.** -/
structure Ranked (α : Type) where
  rank : Rank
  content : α
deriving DecidableEq, Repr, Inhabited

namespace Ranked

/-- A register after a write, where the highest rank wins. -/
def newest {α : Type} (current : Option (Ranked α)) (write : Ranked α) : Option (Ranked α) :=
  match current with
  | some top => if top.rank.isBelow write.rank then some write else some top
  | none => some write

/-- A register after a write, where the lowest rank wins. -/
def oldest {α : Type} (current : Option (Ranked α)) (write : Ranked α) : Option (Ranked α) :=
  match current with
  | some bottom => if write.rank.isBelow bottom.rank then some write else some bottom
  | none => some write

end Ranked

/-- **A register for each key**, the keys in ascending order. -/
abbrev Registers (κ α : Type) [Ord κ] := ExtTreeMap κ (Ranked α)

namespace Registers

variable {κ α : Type} [Ord κ] [TransOrd κ]

/-- The registers after a write under a key, which is kept if it is the `Ranked.newest`. -/
def write (registers : Registers κ α) (key : κ) (write : Ranked α) : Registers κ α :=
  registers.alter key fun current => Ranked.newest current write

/-- The registers after several writes of one rank. -/
def writeAll (registers : Registers κ α) (rank : Rank) (writes : List (κ × α)) : Registers κ α :=
  writes.foldl (fun registers (key, content) => registers.write key ⟨rank, content⟩) registers

end Registers

/-! ### The ledger -/

/-- The place of a metadata entry: its slot, its key and its label. -/
structure MetadataPlace where
  slot : Slot
  key : String
  visibility : Visibility
deriving DecidableEq, Inhabited

namespace MetadataPlace

/-- Entries are ordered by slot, key and label. -/
def order : MetadataPlace → MetadataPlace → Ordering :=
  compareLex (compareOn slot) (compareLex (compareOn key) (compareOn visibility))

instance : Ord MetadataPlace := ⟨order⟩

instance : TransOrd MetadataPlace := by
  show TransCmp order
  unfold order
  infer_instance

instance : LawfulEqOrd MetadataPlace where
  eq_of_compare {a b} h := by
    have h : order a b = .eq := h
    simp only [order, compareLex, compareOn, Ordering.then_eq_eq] at h
    obtain ⟨slots, keys, labels⟩ := h
    cases a
    cases b
    exact MetadataPlace.mk.injEq .. ▸ ⟨LawfulEqCmp.eq_of_compare slots,
      LawfulEqCmp.eq_of_compare keys, LawfulEqCmp.eq_of_compare labels⟩

end MetadataPlace

/-- The place of a hide: its slot and its label. -/
structure HidePlace where
  slot : Slot
  label : Visibility
deriving DecidableEq, Inhabited

namespace HidePlace

/-- Hides are ordered by slot and label. -/
def order : HidePlace → HidePlace → Ordering :=
  compareLex (compareOn slot) (compareOn label)

instance : Ord HidePlace := ⟨order⟩

instance : TransOrd HidePlace := by
  show TransCmp order
  unfold order
  infer_instance

instance : LawfulEqOrd HidePlace where
  eq_of_compare {a b} h := by
    have h : order a b = .eq := h
    simp only [order, compareLex, compareOn, Ordering.then_eq_eq] at h
    obtain ⟨slots, labels⟩ := h
    cases a
    cases b
    exact HidePlace.mk.injEq .. ▸ ⟨LawfulEqCmp.eq_of_compare slots,
      LawfulEqCmp.eq_of_compare labels⟩

end HidePlace

/-- **What the records of one element add up to.** -/
structure Ledger where
  constructive : Bool
  -- the latest time at which a record took effect
  lastModified : Option Int64
  created : Option Rank
  -- the endpoints of the first creation
  endpoints : Option (Ranked Endpoints)
  deleted : Option Rank
  visibility : Option (Ranked Visibility)
  -- by slot and label, whether a hide is in force
  hides : Registers HidePlace Bool
  -- by slot, the value of a property, or that it was removed
  values : Registers Slot (Option Value)
  -- by place, the value of a metadata entry, or that it was removed
  metadata : Registers MetadataPlace (Option Value)
  -- by slot, what is recorded about an edge, or that it was detached
  edges : Registers Slot (Option Incidence)

namespace Ledger

def empty : Ledger :=
  ⟨false, none, none, none, none, none, ∅, ∅, ∅, ∅⟩

/-- The ledger after a moment was touched. -/
def touch (l : Ledger) (time : Int64) : Ledger :=
  { l with lastModified := some (l.lastModified.elim time fun latest => max latest time) }

def create (l : Ledger) (rank : Rank) (endpoints : Option Endpoints) : Ledger :=
  { l with
    constructive := true
    created := Rank.newest l.created rank
    endpoints := endpoints.elim l.endpoints fun ends => Ranked.oldest l.endpoints ⟨rank, ends⟩ }

/-- The ledger after writes to metadata entries of a slot, each at its own `MetadataPlace`. -/
def writeMetadata (l : Ledger) (rank : Rank) (slot : Slot)
    (writes : List (String × Visibility × Option Value)) : Ledger :=
  { l with
    metadata := l.metadata.writeAll rank (writes.map fun (key, v, content) =>
      (⟨slot, key, v⟩, content)) }

/-- The write that a metadata entry stands for. -/
def entryWrite (entry : MetadataEntry) : String × Visibility × Option Value :=
  (entry.key, entry.visibility, some entry.value)

/-- The ledger after a mutation of a slot. -/
def mutate (l : Ledger) (rank : Rank) (slot : Slot) : Mutation → Ledger
  | .setValue value metadata =>
    if slot = .existence then l.create rank none
    else
      { l with
        constructive := true
        values := l.values.write slot ⟨rank, some value⟩ }.writeMetadata rank slot
          (metadata.map entryWrite)
  | .dropValue => { l with values := l.values.write slot ⟨rank, none⟩ }
  | .attachEdge incidence =>
    { l with constructive := true, edges := l.edges.write slot ⟨rank, some incidence⟩ }
  | .detachEdge _ => { l with edges := l.edges.write slot ⟨rank, none⟩ }
  | .hide label _ => { l with hides := l.hides.write ⟨slot, label⟩ ⟨rank, true⟩ }
  | .unhide label _ => { l with hides := l.hides.write ⟨slot, label⟩ ⟨rank, false⟩ }
  | .softDelete _ => { l with deleted := Rank.newest l.deleted rank }
  | .relabel label => { l with visibility := Ranked.newest l.visibility ⟨rank, label⟩ }
  | .setMetadata entry =>
    { l with constructive := true }.writeMetadata rank slot [entryWrite entry]
  | .dropMetadata key v => l.writeMetadata rank slot [(key, v, none)]
  | .create endpoints => l.create rank endpoints

/-- **The ledger after a record**: its moment is touched, and then `mutate` writes to the
registers. -/
def apply (l : Ledger) (entry : Ranked Record) : Ledger :=
  (l.touch entry.rank.time).mutate entry.rank entry.content.slot entry.content.mutation

/-- The ledger of ranked records, from the `empty` one by `apply`. -/
def ofRecords (entries : List (Ranked Record)) : Ledger :=
  entries.foldl apply empty

end Ledger

end GraphLog
