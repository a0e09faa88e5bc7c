/-
**What the registers of a ledger hold.**

A ledger is built by applying one record after another.  For each of its registers this module
says which records write to it, and that it holds the write of the highest-ranked of them.  So
whatever is later said about the state of an element can be said about highest-ranked records, and
no run of the ledger has to be followed again.

Main definitions:

* `GraphLog.Record.isCreation`, `GraphLog.Record.fills` — records that create or fill an element;
* `GraphLog.Record.endpoints?`, `GraphLog.Record.label?`, `GraphLog.Record.hide?`,
  `GraphLog.Record.value?`, `GraphLog.Record.entry?`, `GraphLog.Record.edge?` — what a record writes
  to the registers.

Main results:

* `GraphLog.Ledger.read_ofRecords` — from one step of a register to a whole run;
* `GraphLog.Ledger.created_ofRecords` and its companions — **a register holds the write of the
  highest-ranked record that writes to it**;
* `GraphLog.Ledger.endpoints_ofRecords` — endpoints come from the lowest-ranked one.
-/

import GraphLog.Fold.Ledger
import GraphLog.Proofs.Highest
import GraphLog.Proofs.Outcomes

set_option relaxedAutoImplicit false
set_option autoImplicit false

namespace GraphLog

open Ranked (keep highest lowest write?)

/-! ### What a record writes -/

namespace Record

/-- The record creates its element, or creates it again. -/
def isCreation (r : Record) : Bool :=
  match r.mutation with
  | .create _ => true
  | .setValue .. => r.slot = .existence
  | _ => false

/-- The record creates or fills its element. -/
def fills (r : Record) : Bool :=
  match r.mutation with
  | .create _ | .setValue .. | .attachEdge _ | .setMetadata _ => true
  | _ => false

/-- The endpoints that a creation comes with. -/
def endpoints? (r : Record) : Option Endpoints :=
  match r.mutation with
  | .create ends => ends
  | _ => none

/-- The label that the record gives to its element. -/
def label? (r : Record) : Option Visibility :=
  match r.mutation with
  | .relabel label => some label
  | _ => none

/-- Whether the record sets or lifts the hide at a place. -/
def hide? (place : HidePlace) (r : Record) : Option Bool :=
  match r.mutation with
  | .hide label _ => if ⟨r.slot, label⟩ = place then some true else none
  | .unhide label _ => if ⟨r.slot, label⟩ = place then some false else none
  | _ => none

/-- The value that the record gives to a property, or that it removes one. -/
def value? (slot : Slot) (r : Record) : Option (Option Value) :=
  match r.mutation with
  | .setValue value _ => if r.slot = slot ∧ r.slot ≠ .existence then some (some value) else none
  | .dropValue => if r.slot = slot then some none else none
  | _ => none

/-- What the record writes to a metadata entry: its value, or that it removes one. -/
def entry? (place : MetadataPlace) (r : Record) : Option (Option Value) :=
  match r.mutation with
  | .setValue _ entries =>
    if r.slot = .existence then none
    else (entries.find? fun e => ⟨r.slot, e.key, e.visibility⟩ = place).map (some ·.value)
  | .setMetadata e => if ⟨r.slot, e.key, e.visibility⟩ = place then some (some e.value) else none
  | .dropMetadata key v => if ⟨r.slot, key, v⟩ = place then some none else none
  | _ => none

/-- What the record says about an edge, or that it detaches one. -/
def edge? (slot : Slot) (r : Record) : Option (Option Incidence) :=
  match r.mutation with
  | .attachEdge incidence => if r.slot = slot then some (some incidence) else none
  | .detachEdge _ => if r.slot = slot then some none else none
  | _ => none

/-- Whoever brings endpoints is a creation: what has `endpoints?` also `isCreation`. -/
theorem isCreation_of_endpoints {r : Record} (has : r.endpoints?.isSome) : r.isCreation := by
  rcases r with ⟨⟨element, slot, time, v, m, n⟩, valid⟩
  cases m with
  | create ends => rfl
  | _ => simp [endpoints?] at has

/-- A creation `fills` its element. -/
theorem fills_of_isCreation {r : Record} (creates : r.isCreation) : r.fills := by
  unfold isCreation at creates
  unfold fills
  cases m : r.mutation <;> simp_all

/-- What a record does, its slot and its element allow: `checkTarget` passes. -/
theorem checkTarget_eq_ok (r : Record) : r.checkTarget = .ok () := by
  have valid := r.valid
  simp only [Draft.check, bind_eq_ok_iff] at valid
  obtain ⟨-, -, -, -, _, target, -⟩ := valid
  exact target

/-- An edge is attached at the slot that bears its name. -/
theorem slot_eq_of_edge? {slot : Slot} {r : Record} {incidence : Incidence}
    (h : r.edge? slot = some (some incidence)) :
    slot = .adjacency incidence.edge incidence.direction := by
  have target := r.checkTarget_eq_ok
  rcases r with ⟨⟨⟨kind, id⟩, at', time, v, m, n⟩, valid⟩
  cases m with
  | attachEdge attached =>
      simp only [edge?] at h
      split at h
      · next here =>
        obtain rfl : attached = incidence := by simpa using h
        subst here
        cases at' with
        | existence | property => cases target
        | adjacency edge direction =>
            simp only [Draft.checkTarget] at target
            split at target
            · cases target
            · split at target
              · cases target
              · next same =>
                rw [not_or, not_not, not_not] at same
                rw [same.1, same.2]
      · cases h
  | _ => simp [edge?] at h

end Record

/-! ### Registers under keys -/

namespace Registers

variable {κ α : Type} [Ord κ] [Std.TransOrd κ] [Std.LawfulEqOrd κ] [DecidableEq κ]

theorem getElem?_write (registers : Registers κ α) (key k : κ) (w : Ranked α) :
    (registers.write key w)[k]? =
      if key = k then keep (· > ·) registers[k]? w else registers[k]? := by
  rw [write, Std.ExtTreeMap.getElem?_alter, Ranked.newest_eq_keep]
  by_cases h : key = k
  · subst h
    simp
  · simp [h]

/-- A second `keep` of one rank changes nothing. -/
theorem keep_keep (current : Option (Ranked α)) (rank : Rank) (a b : α) :
    keep (· > ·) (keep (· > ·) current ⟨rank, a⟩) ⟨rank, b⟩ = keep (· > ·) current ⟨rank, a⟩ := by
  cases current with
  | none => simp [keep]
  | some top =>
      by_cases h : rank > top.rank
      · simp [keep, h]
      · simp [keep, h]

/-- Of several writes of one rank to a key, the first counts. -/
theorem getElem?_writeAll (registers : Registers κ α) (rank : Rank) (writes : List (κ × α))
    (k : κ) :
    (registers.writeAll rank writes)[k]? =
      (writes.find? (·.1 = k)).elim registers[k]?
        fun w => keep (· > ·) registers[k]? ⟨rank, w.2⟩ := by
  induction writes generalizing registers with
  | nil => rfl
  | cons w writes ih =>
      change ((registers.write w.1 ⟨rank, w.2⟩).writeAll rank writes)[k]? = _
      rw [ih, getElem?_write]
      by_cases h : w.1 = k
      · simp only [h, if_true, List.find?_cons, decide_true, Option.elim_some]
        cases writes.find? (·.1 = k) with
        | none => rfl
        | some later => exact keep_keep _ rank _ _
      · simp only [h, if_false, List.find?_cons, decide_false]

end Registers

/-! ### One step -/

namespace Ledger

/-- What a register holds after an entry that may write to it. -/
def after {α : Type} (beats : Rank → Rank → Prop) [DecidableRel beats]
    (current : Option (Ranked α)) (write : Option (Ranked α)) : Option (Ranked α) :=
  write.elim current (keep beats current)

/-! The registers without keys are met by few kinds of mutation; the others leave them alone. -/

variable (l : Ledger) (e : Ranked Record)

theorem constructive_apply :
    (l.apply e).constructive = (l.constructive || e.content.fills) := by
  rcases e with ⟨rank, ⟨⟨element, slot, time, v, m, n⟩, valid⟩⟩
  cases m with
  | setValue value entries =>
      by_cases h : slot = .existence <;>
        simp [apply, mutate, touch, create, writeMetadata, Record.fills, h]
  | _ => simp [apply, mutate, touch, create, writeMetadata, Record.fills]

theorem lastModified_apply :
    (l.apply e).lastModified =
      some (l.lastModified.elim e.rank.time fun latest => max latest e.rank.time) := by
  rcases e with ⟨rank, ⟨⟨element, slot, time, v, m, n⟩, valid⟩⟩
  cases m with
  | setValue value entries =>
      by_cases h : slot = .existence <;>
        simp [apply, mutate, touch, create, writeMetadata, h]
  | _ => simp [apply, mutate, touch, create, writeMetadata]

theorem created_apply :
    (l.apply e).created =
      if e.content.isCreation then Rank.newest l.created e.rank else l.created := by
  rcases e with ⟨rank, ⟨⟨element, slot, time, v, m, n⟩, valid⟩⟩
  cases m with
  | setValue value entries =>
      by_cases h : slot = .existence <;>
        simp [apply, mutate, touch, create, writeMetadata, Record.isCreation, h]
  | _ => simp [apply, mutate, touch, create, writeMetadata, Record.isCreation]

theorem deleted_apply :
    (l.apply e).deleted =
      if e.content.mutation.isSoftDelete then Rank.newest l.deleted e.rank else l.deleted := by
  rcases e with ⟨rank, ⟨⟨element, slot, time, v, m, n⟩, valid⟩⟩
  cases m with
  | setValue value entries =>
      by_cases h : slot = .existence <;>
        simp [apply, mutate, touch, create, writeMetadata, Mutation.isSoftDelete, h]
  | _ => simp [apply, mutate, touch, create, writeMetadata, Mutation.isSoftDelete]

theorem endpoints_apply :
    (l.apply e).endpoints = after (· < ·) l.endpoints (write? Record.endpoints? e) := by
  rcases e with ⟨rank, ⟨⟨element, slot, time, v, m, n⟩, valid⟩⟩
  cases m with
  | setValue value entries =>
      by_cases h : slot = .existence <;>
        simp [apply, mutate, touch, create, writeMetadata, after, write?, Record.endpoints?, h]
  | create ends =>
      cases ends <;>
        simp [apply, mutate, touch, create, after, write?, Record.endpoints?,
          Ranked.oldest_eq_keep]
  | _ => simp [apply, mutate, touch, writeMetadata, after, write?, Record.endpoints?]

theorem visibility_apply :
    (l.apply e).visibility = after (· > ·) l.visibility (write? Record.label? e) := by
  rcases e with ⟨rank, ⟨⟨element, slot, time, v, m, n⟩, valid⟩⟩
  cases m with
  | setValue value entries =>
      by_cases h : slot = .existence <;>
        simp [apply, mutate, touch, create, writeMetadata, after, write?, Record.label?, h]
  | _ =>
      simp [apply, mutate, touch, create, writeMetadata, after, write?, Record.label?,
        Ranked.newest_eq_keep]

theorem hides_apply (place : HidePlace) :
    (l.apply e).hides[place]? =
      after (· > ·) l.hides[place]? (write? (Record.hide? place) e) := by
  rcases e with ⟨rank, ⟨⟨element, slot, time, v, m, n⟩, valid⟩⟩
  cases m with
  | setValue value entries =>
      by_cases h : slot = .existence <;>
        simp [apply, mutate, touch, create, writeMetadata, after, write?, Record.hide?, h]
  | hide label _ | unhide label _ =>
      simp only [apply, mutate, touch, Registers.getElem?_write, after, write?, Record.hide?]
      split <;> rfl
  | _ => simp [apply, mutate, touch, create, writeMetadata, after, write?, Record.hide?]

theorem values_apply (k : Slot) :
    (l.apply e).values[k]? = after (· > ·) l.values[k]? (write? (Record.value? k) e) := by
  rcases e with ⟨rank, ⟨⟨element, slot, time, v, m, n⟩, valid⟩⟩
  cases m with
  | setValue value entries =>
      by_cases h : slot = .existence
      · simp [apply, mutate, touch, create, after, write?, Record.value?, h]
      · simp only [apply, mutate, touch, writeMetadata, Registers.getElem?_write, after, write?,
          Record.value?, h, ne_eq, not_false_eq_true, and_true, if_false]
        split <;> rfl
  | dropValue =>
      simp only [apply, mutate, touch, Registers.getElem?_write, after, write?, Record.value?]
      split <;> rfl
  | _ => simp [apply, mutate, touch, create, writeMetadata, after, write?, Record.value?]

theorem edges_apply (k : Slot) :
    (l.apply e).edges[k]? = after (· > ·) l.edges[k]? (write? (Record.edge? k) e) := by
  rcases e with ⟨rank, ⟨⟨element, slot, time, v, m, n⟩, valid⟩⟩
  cases m with
  | setValue value entries =>
      by_cases h : slot = .existence <;>
        simp [apply, mutate, touch, create, writeMetadata, after, write?, Record.edge?, h]
  | attachEdge incidence | detachEdge incidence =>
      simp only [apply, mutate, touch, Registers.getElem?_write, after, write?, Record.edge?]
      split <;> rfl
  | _ => simp [apply, mutate, touch, create, writeMetadata, after, write?, Record.edge?]

theorem getElem?_writeMetadata (rank : Rank) (slot : Slot)
    (writes : List (String × Visibility × Option Value)) (place : MetadataPlace) :
    (l.writeMetadata rank slot writes).metadata[place]? =
      after (· > ·) l.metadata[place]?
        ((writes.find? fun w => ⟨slot, w.1, w.2.1⟩ = place).map fun w => ⟨rank, w.2.2⟩) := by
  simp only [writeMetadata, Registers.getElem?_writeAll, List.find?_map, after]
  change Option.elim (Option.map _ (writes.find? fun w => ⟨slot, w.1, w.2.1⟩ = place)) _ _ = _
  cases writes.find? fun w => ⟨slot, w.1, w.2.1⟩ = place <;> rfl

theorem metadata_apply (place : MetadataPlace) :
    (l.apply e).metadata[place]? =
      after (· > ·) l.metadata[place]? (write? (Record.entry? place) e) := by
  rcases e with ⟨rank, ⟨⟨element, slot, time, v, m, n⟩, valid⟩⟩
  cases m with
  | setValue value entries =>
      by_cases h : slot = .existence
      · simp [apply, mutate, touch, create, after, write?, Record.entry?, h]
      · simp only [apply, mutate, touch, getElem?_writeMetadata, write?, Record.entry?, h, if_false,
          List.find?_map, Option.map_map]
        rfl
  | setMetadata entry =>
      simp only [apply, mutate, touch, getElem?_writeMetadata, write?, Record.entry?, entryWrite]
      by_cases h : ⟨slot, entry.key, entry.visibility⟩ = place <;> simp [h]
  | dropMetadata key label =>
      simp only [apply, mutate, touch, getElem?_writeMetadata, write?, Record.entry?]
      by_cases h : ⟨slot, key, label⟩ = place <;> simp [h]
  | _ => simp [apply, mutate, touch, create, after, write?, Record.entry?]

/-! ### A whole run -/

/-- **From one step of a register to a whole run.**  The register may be any part of a ledger; `f`
says what a record writes to it. -/
theorem read_ofRecords {α : Type} {beats : Rank → Rank → Prop} [DecidableRel beats]
    (read : Ledger → Option (Ranked α)) (f : Record → Option α) (start : read empty = none)
    (step : ∀ l e, read (l.apply e) = after beats (read l) (write? f e))
    (entries : List (Ranked Record)) :
    read (ofRecords entries) =
      (Ranked.leading beats (fun r => (f r).isSome) entries).bind (write? f) := by
  rw [← Ranked.foldl_keep_writes, ← start, ofRecords]
  generalize empty = l
  induction entries generalizing l with
  | nil => rfl
  | cons e entries ih =>
      rw [List.foldl_cons, ih, step]
      simp only [Ranked.writes, List.filterMap_cons]
      cases write? f e with
      | none => rfl
      | some w => rfl

/-- The same for a register that holds a rank only. -/
theorem readRank_ofRecords (read : Ledger → Option Rank) (p : Record → Bool)
    (start : read empty = none)
    (step : ∀ l e, read (l.apply e) = if p e.content then Rank.newest (read l) e.rank else read l)
    (entries : List (Ranked Record)) :
    read (ofRecords entries) = (highest p entries).map (·.rank) := by
  suffices general : ∀ (l : Ledger) (current : Option (Ranked Record)),
      read l = current.map (·.rank) →
      read (entries.foldl apply l) =
        ((entries.filter (p ·.content)).foldl (keep (· > ·)) current).map (·.rank) from
    general empty none start
  induction entries with
  | nil => intro l current h; exact h
  | cons e entries ih =>
      intro l current h
      rw [List.foldl_cons, List.filter_cons]
      by_cases hp : p e.content
      · rw [if_pos hp, List.foldl_cons]
        refine ih _ _ ?_
        rw [step, if_pos hp, h]
        cases current with
        | none => rfl
        | some top =>
            simp only [Option.map_some, Rank.newest, keep, Rank.isBelow_iff]
            split <;> rfl
      · rw [if_neg hp]
        refine ih _ _ ?_
        rw [step, if_neg hp, h]

variable (entries : List (Ranked Record))

theorem created_ofRecords :
    (ofRecords entries).created = (highest Record.isCreation entries).map (·.rank) :=
  readRank_ofRecords _ _ rfl created_apply entries

theorem deleted_ofRecords :
    (ofRecords entries).deleted = (highest (·.mutation.isSoftDelete) entries).map (·.rank) :=
  readRank_ofRecords _ _ rfl deleted_apply entries

/-- **Endpoints come from the lowest-ranked creation that has some.** -/
theorem endpoints_ofRecords :
    (ofRecords entries).endpoints =
      (lowest (fun r => (Record.endpoints? r).isSome) entries).bind (write? Record.endpoints?) :=
  read_ofRecords Ledger.endpoints _ rfl endpoints_apply entries

theorem visibility_ofRecords :
    (ofRecords entries).visibility =
      (highest (fun r => (Record.label? r).isSome) entries).bind (write? Record.label?) :=
  read_ofRecords Ledger.visibility _ rfl visibility_apply entries

theorem hides_ofRecords (place : HidePlace) :
    (ofRecords entries).hides[place]? =
      (highest (fun r => (Record.hide? place r).isSome) entries).bind
        (write? (Record.hide? place)) :=
  read_ofRecords (·.hides[place]?) _ (by simp [empty]) (fun l e => hides_apply l e place) entries

theorem values_ofRecords (slot : Slot) :
    (ofRecords entries).values[slot]? =
      (highest (fun r => (Record.value? slot r).isSome) entries).bind
        (write? (Record.value? slot)) :=
  read_ofRecords (·.values[slot]?) _ (by simp [empty]) (fun l e => values_apply l e slot) entries

theorem metadata_ofRecords (place : MetadataPlace) :
    (ofRecords entries).metadata[place]? =
      (highest (fun r => (Record.entry? place r).isSome) entries).bind
        (write? (Record.entry? place)) :=
  read_ofRecords (·.metadata[place]?) _ (by simp [empty]) (fun l e => metadata_apply l e place)
    entries

theorem edges_ofRecords (slot : Slot) :
    (ofRecords entries).edges[slot]? =
      (highest (fun r => (Record.edge? slot r).isSome) entries).bind
        (write? (Record.edge? slot)) :=
  read_ofRecords (·.edges[slot]?) _ (by simp [empty]) (fun l e => edges_apply l e slot) entries

theorem constructive_ofRecords :
    (ofRecords entries).constructive = entries.any (·.content.fills) := by
  suffices general : ∀ l : Ledger,
      (entries.foldl apply l).constructive = (l.constructive || entries.any (·.content.fills)) from
    general empty
  induction entries with
  | nil => simp
  | cons e entries ih =>
      intro l
      rw [List.foldl_cons, ih, constructive_apply, List.any_cons, Bool.or_assoc]

/-- The latest time, `lastModified`, is that of the highest rank. -/
theorem lastModified_ofRecords :
    (ofRecords entries).lastModified =
      (highest (fun _ => true) entries).map (·.rank.time) := by
  suffices general : ∀ (l : Ledger) (current : Option (Ranked Record)),
      l.lastModified = current.map (·.rank.time) →
      (entries.foldl apply l).lastModified =
        ((entries.filter fun _ => true).foldl (keep (· > ·)) current).map (·.rank.time) from
    general empty none rfl
  induction entries with
  | nil => intro l current h; exact h
  | cons e entries ih =>
      intro l current h
      rw [List.foldl_cons, List.filter_cons, if_pos rfl, List.foldl_cons]
      refine ih _ _ ?_
      rw [lastModified_apply, h]
      cases current with
      | none => rfl
      | some top =>
          have larger : max top.rank.time e.rank.time =
              if top.rank.time ≤ e.rank.time then e.rank.time else top.rank.time := rfl
          simp only [Option.map_some, Option.elim_some, keep, larger]
          by_cases later : e.rank > top.rank
          · have le : top.rank.time ≤ e.rank.time := Rank.time_le_of_le later.le
            rw [if_pos later, if_pos le, Option.map_some]
          · have le : e.rank.time ≤ top.rank.time := Rank.time_le_of_le (not_lt.1 later)
            rw [if_neg later, Option.map_some]
            split
            · next ge => rw [Int64.le_antisymm le ge]
            · rfl

end Ledger

end GraphLog
