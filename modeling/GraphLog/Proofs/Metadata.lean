/-
**The metadata of a property.**

A metadata entry is written together with a value, or by itself, and may be removed.  All these
records write to one register, which knows neither when the property got its value nor that the
value was removed and given anew in between.  What is shown of an entry is decided by comparing two
winners: the record that wins the entry has to be ranked at or above the one that wins the slot of
the property.  So a new value starts with the entries that come with it or after it.

An entry is found under its key and under the exact text of its label, and a removal under any other
label leaves it alone.

Main definitions:

* `GraphLog.MetadataState.place`, `GraphLog.MetadataState.order` — where an entry is found, and the
  order of the entries of a property;
* `GraphLog.ElementState.Reports` — an entry is shown at a slot.

Main results:

* `GraphLog.Ledger.mem_metadataFor_iff` — an entry that is shown, in terms of the record that wins
  it;
* `GraphLog.Ledger.ofRecords_filter_metadata` — removals of metadata touch nothing else in a ledger;
* `GraphLog.View.foldElement_metadata` — **the metadata of the properties of an element**.
-/

import GraphLog.Proofs.Contents
import GraphLog.Proofs.Places

set_option relaxedAutoImplicit false
set_option autoImplicit false

namespace GraphLog

open Ranked (highest)

/-! ### Places of entries -/

namespace MetadataState

/-- The place of an entry at a slot. -/
def place (m : MetadataState) (slot : Slot) : MetadataPlace :=
  ⟨slot, m.key, m.visibility⟩

/-- Metadata entries are ordered by key and label, as `MetadataPlace` has it for one slot. -/
def order : MetadataState → MetadataState → Ordering :=
  compareLex (compareOn key) (compareOn visibility)

theorem compare_place (slot : Slot) (m n : MetadataState) :
    compare (m.place slot) (n.place slot) = m.order n := by
  change MetadataPlace.order (m.place slot) (n.place slot) = _
  simp [MetadataPlace.order, compareLex, compareOn, place, order]

end MetadataState

/-! ### What a ledger lists -/

namespace Ledger

variable {sees : Visibility → Bool} {slot : Slot} {since : Rank}

theorem entryFor_eq_some_iff {place : MetadataPlace} {entry : Ranked (Option Value)}
    {m : MetadataState} :
    entryFor sees slot since place entry = some m ↔
      place = m.place slot ∧ entry.content = some m.value ∧ since ≤ entry.rank ∧
        sees m.visibility ∧ m.timestamp = entry.rank.time := by
  obtain ⟨rank, content⟩ := entry
  obtain ⟨here, key, label⟩ := place
  cases content with
  | none => simp [entryFor]
  | some value =>
      simp only [entryFor, Option.ite_none_right_eq_some, Option.some.injEq, Rank.isBelow_iff,
        not_lt, MetadataState.place, MetadataPlace.mk.injEq]
      constructor
      · rintro ⟨⟨rfl, since, seen⟩, rfl⟩
        exact ⟨⟨rfl, rfl, rfl⟩, rfl, since, seen, rfl⟩
      · rintro ⟨⟨rfl, rfl, rfl⟩, rfl, since, seen, time⟩
        exact ⟨⟨rfl, since, seen⟩, by rw [← time]⟩

/-- **Metadata entries are listed in order**, and no place twice. -/
theorem ordered_metadataFor (l : Ledger) :
    (l.metadataFor sees slot since).Pairwise fun m n => m.order n = .lt := by
  simp only [← MetadataState.compare_place slot]
  exact Registers.pairwise_filterMap_toList fun place entry m _ shown =>
    (entryFor_eq_some_iff.1 shown).1.symm

/-- An entry is listed by `metadataFor` if what is found at its place is shown. -/
theorem mem_metadataFor (l : Ledger) {m : MetadataState} :
    m ∈ l.metadataFor sees slot since ↔
      ∃ entry, l.metadata[m.place slot]? = some entry ∧
        entryFor sees slot since (m.place slot) entry = some m := by
  simp only [metadataFor, Registers.mem_filterMap_toList_iff]
  constructor
  · rintro ⟨place, entry, held, shown⟩
    obtain rfl := (entryFor_eq_some_iff.1 shown).1
    exact ⟨entry, held, shown⟩
  · rintro ⟨entry, held, shown⟩
    exact ⟨_, entry, held, shown⟩

/-- An entry that is shown, in terms of the record that `Wins` it. -/
theorem mem_metadataFor_iff {applied : List (Ranked Record)}
    (distinct : (applied.map (·.rank)).Nodup) {m : MetadataState} :
    m ∈ (ofRecords applied).metadataFor sees slot since ↔
      ∃ x, Wins applied (Record.entry? (m.place slot)) x (some m.value) ∧ since ≤ x.rank ∧
        sees m.visibility ∧ m.timestamp = x.rank.time := by
  simp only [mem_metadataFor, metadata_ofRecords, bind_write?_eq_some_iff distinct,
    entryFor_eq_some_iff]
  constructor
  · rintro ⟨⟨_, _⟩, ⟨x, wins, rfl⟩, -, rfl, since, seen, time⟩
    exact ⟨x, wins, since, seen, time⟩
  · rintro ⟨x, wins, since, seen, time⟩
    exact ⟨⟨x.rank, some m.value⟩, ⟨x, wins, rfl⟩, trivial, rfl, since, seen, time⟩

/-! ### Leaving removals out -/

/-- Removals of metadata touch nothing else in a ledger, but for the time of the last change. -/
theorem ofRecords_filter_metadata {applied : List (Ranked Record)} {keep : Record → Bool}
    (removals : ∀ e ∈ applied, keep e.content = false →
      ∃ key label, e.content.mutation = .dropMetadata key label) :
    let left := ofRecords (applied.filter (keep ·.content))
    left =
      { ofRecords applied with lastModified := left.lastModified, metadata := left.metadata } := by
  intro left
  -- a removal of metadata writes to no other register
  have top {p : Record → Bool}
      (silent : ∀ r key label, r.mutation = .dropMetadata key label → p r = false) :
      highest p (applied.filter (keep ·.content)) = highest p applied := by
    refine Ranked.leading_filter fun e mem lost => ?_
    obtain ⟨key, label, removal⟩ := removals e mem lost
    exact silent e.content key label removal
  have hides : left.hides = (ofRecords applied).hides := by
    refine Std.ExtTreeMap.ext_getElem? fun place => ?_
    rw [hides_ofRecords, hides_ofRecords, top fun r _ _ h => by simp [Record.hide?, h]]
  have values : left.values = (ofRecords applied).values := by
    refine Std.ExtTreeMap.ext_getElem? fun slot => ?_
    rw [values_ofRecords, values_ofRecords, top fun r _ _ h => by simp [Record.value?, h]]
  have edges : left.edges = (ofRecords applied).edges := by
    refine Std.ExtTreeMap.ext_getElem? fun slot => ?_
    rw [edges_ofRecords, edges_ofRecords, top fun r _ _ h => by simp [Record.edge?, h]]
  have rest : left = _ := ofRecords_filter fun e mem lost => by
    obtain ⟨key, label, removal⟩ := removals e mem lost
    simp [Record.isQuiet, Record.fills, Mutation.isSoftDelete, Record.label?, removal]
  simp only [← hides, ← values, ← edges]
  exact rest

end Ledger

/-! ### What a state reports -/

/-- **A state shows a metadata entry** of the property at a slot. -/
def ElementState.Reports (state : ElementState) (slot : Slot) (m : MetadataState) : Prop :=
  ∃ p ∈ state.properties, p.slot = slot ∧ m ∈ p.metadata

namespace Ledger

section Reports

variable (options : FoldOptions) (sees : Visibility → Bool) (element : Element)
  (asOf : Option Int64) {slot : Slot} {m : MetadataState}

theorem reports_stateFor_iff (l : Ledger) :
    (l.stateFor options sees element asOf).Reports slot m ↔
      l.opens options sees ∧ ∃ register, l.values[slot]? = some register ∧
        (l.propertyFor options sees slot register).isSome ∧
        m ∈ l.metadataFor sees slot register.rank := by
  obtain ⟨-, properties, -⟩ := l.contents_stateFor options sees element asOf
  rw [ElementState.Reports, properties]
  by_cases opened : l.opens options sees
  · simp only [if_pos opened, propertiesFor, Registers.mem_filterMap_toList_iff]
    constructor
    · rintro ⟨p, ⟨k, register, held, shown⟩, rfl, mem⟩
      obtain ⟨rfl, -, -, -, metadata⟩ := propertyFor_eq_some_iff.1 shown
      exact ⟨opened, register, held, Option.isSome_of_eq_some shown, metadata ▸ mem⟩
    · rintro ⟨-, register, held, some, mem⟩
      obtain ⟨p, shown⟩ := Option.isSome_iff_exists.1 some
      obtain ⟨rfl, -, -, -, metadata⟩ := propertyFor_eq_some_iff.1 shown
      exact ⟨p, ⟨_, register, held, shown⟩, rfl, metadata ▸ mem⟩
  · simp [opened]

/-- Whether `propertyFor` shows a property does not depend on metadata. -/
theorem isSome_propertyFor_with (l : Ledger) (lastModified : Option Int64)
    (metadata : Registers MetadataPlace (Option Value)) (register : Ranked (Option Value)) :
    ({ l with lastModified, metadata }.propertyFor options sees slot register).isSome =
      (l.propertyFor options sees slot register).isSome := by
  obtain ⟨rank, content⟩ := register
  cases content with
  | none => rfl
  | some value =>
      cases slot with
      | existence | adjacency => rfl
      | property key name label =>
          simp only [propertyFor, Option.isSome_map]
          rfl

/-- A removal of metadata under another label makes no difference to what a state `Reports` of an
entry. -/
theorem reports_filter_iff {applied : List (Ranked Record)} {keep : Record → Bool}
    (removals : ∀ e ∈ applied, keep e.content = false →
      ∃ key label, e.content.mutation = .dropMetadata key label ∧ label ≠ m.visibility) :
    ((ofRecords (applied.filter (keep ·.content))).stateFor options sees element asOf).Reports
        slot m ↔
      ((ofRecords applied).stateFor options sees element asOf).Reports slot m := by
  have entries : (ofRecords (applied.filter (keep ·.content))).metadata[m.place slot]? =
      (ofRecords applied).metadata[m.place slot]? := by
    rw [metadata_ofRecords, metadata_ofRecords, highest, Ranked.leading_filter fun e mem lost => ?_]
    obtain ⟨key, label, removal, other⟩ := removals e mem lost
    simp [Record.entry?, removal, MetadataState.place, other]
  have rest := ofRecords_filter_metadata fun e mem lost =>
    (removals e mem lost).imp fun _ h => h.imp fun _ h => h.1
  simp only [reports_stateFor_iff, mem_metadataFor, entries]
  rw [rest]
  simp only [isSome_propertyFor_with]
  rfl

end Reports

end Ledger

namespace View

/-- **The metadata of the properties of an element.**  A property has a value that a record gave
that won its slot.  It comes with just the entries that the caller may see and whose winner gives
them a value and does not rank below that record, each with what its winner says and the time at
which that takes effect.  They come in order, and none comes twice.

An entry stands or falls with the removals under its own label: without any of those under labels
that are written differently, it would be shown at just the same slots. -/
theorem foldElement_metadata (v : View) (element : Element) (records : List Record)
    (own : ∀ r ∈ records, r.element = element) :
    let applied := v.entries 0 records
    ∃ state, v.foldElement element records = .ok state ∧
      (∀ p ∈ state.properties, ∃ w, Wins applied (Record.value? p.slot) w (some p.value) ∧
        p.metadata.Pairwise (fun m n => m.order n = .lt) ∧
        ∀ m, m ∈ p.metadata ↔
          ∃ x, Wins applied (Record.entry? (m.place p.slot)) x (some m.value) ∧
            w.rank ≤ x.rank ∧ v.held.sees m.visibility ∧
            x.content.effectiveTime = m.timestamp) ∧
      ∀ keep m,
        (∀ r ∈ records, keep r = false →
          ∃ key label, r.mutation = .dropMetadata key label ∧ label.text ≠ m.visibility.text) →
        ∃ others, v.foldElement element (records.filter keep) = .ok others ∧
          ∀ slot, others.Reports slot m ↔ state.Reports slot m := by
  intro applied
  have distinct : (applied.map (·.rank)).Nodup := nodup_ranks_entries 0 records
  refine ⟨v.stateOf element records, foldElement_eq v own, fun p mem => ?_,
    fun keep m removals => ⟨v.stateOf element (records.filter keep), ?_, fun slot => ?_⟩⟩
  · have listed := Ledger.properties_stateFor_subset _ v.options v.held.sees element v.asOf mem
    obtain ⟨w, wins, -, -, -, metadata⟩ := (Ledger.mem_propertiesFor_iff distinct v).1 listed
    rw [metadata]
    refine ⟨w, wins, Ledger.ordered_metadataFor _, fun m => ?_⟩
    rw [Ledger.mem_metadataFor_iff distinct]
    refine exists_congr fun x => and_congr_right fun wins => and_congr_right fun _ =>
      and_congr_right fun _ => ?_
    rw [time_of_mem wins.highest.mem, eq_comm]
  · exact foldElement_eq v fun r mem => own r (List.mem_filter.1 mem).1
  · rw [stateOf_filter]
    refine Ledger.reports_filter_iff v.options v.held.sees element v.asOf fun e mem lost => ?_
    obtain ⟨key, label, removal, other⟩ :=
      removals e.content (exists_mem_entries_iff.1 ⟨e, mem, rfl⟩).1 lost
    exact ⟨key, label, removal, fun same => other (congrArg _ same)⟩

/-- A property shows the entry that came with its value and the one that was written since, which a
removal under a secret label leaves alone; the entry that was there before is gone. -/
theorem foldElement_metadata_of_removal :
    let v : View := ⟨{}, .empty, none⟩
    let vertex : Element := ⟨.vertex, "v"⟩
    let age : Slot := .property "k" "age" .unrestricted
    let secret : Visibility := ⟨"secret", by decide⟩
    let source : MetadataState := ⟨"source", .text "form", .unrestricted, 2⟩
    let note : MetadataState := ⟨"note", .text "checked", .unrestricted, 3⟩
    let early : Record :=
      ⟨⟨vertex, age, 1, .unrestricted, .setMetadata ⟨"draft", .bool true, .unrestricted⟩, 1⟩, rfl⟩
    let filled : Record :=
      ⟨⟨vertex, age, 2, .unrestricted,
        .setValue (.int 30) [⟨"source", .text "form", .unrestricted⟩], 2⟩, rfl⟩
    let noted : Record :=
      ⟨⟨vertex, age, 3, .unrestricted,
        .setMetadata ⟨"note", .text "checked", .unrestricted⟩, 3⟩, rfl⟩
    let removal : Record :=
      ⟨⟨vertex, age, 4, .unrestricted, .dropMetadata "note" secret, 4⟩, rfl⟩
    let records := [noted, removal, filled, early]
    let applied := v.entries 0 records
    let keep : Record → Bool := fun r => r ≠ removal
    (∀ r ∈ records, r.element = vertex) ∧
      (∀ r ∈ records, keep r = false →
        ∃ key label, r.mutation = .dropMetadata key label ∧ label.text ≠ note.visibility.text) ∧
      ∃ state, v.foldElement vertex records = .ok state ∧
        state.properties.map (·.metadata) = [[note, source]] ∧
        (∀ p ∈ state.properties, ∃ w, Wins applied (Record.value? p.slot) w (some p.value) ∧
          p.metadata.Pairwise (fun m n => m.order n = .lt) ∧
          ∀ m, m ∈ p.metadata ↔
            ∃ x, Wins applied (Record.entry? (m.place p.slot)) x (some m.value) ∧
              w.rank ≤ x.rank ∧ v.held.sees m.visibility ∧
              x.content.effectiveTime = m.timestamp) ∧
        ∃ others, v.foldElement vertex (records.filter keep) = .ok others ∧
          ∀ slot, others.Reports slot note ↔ state.Reports slot note := by
  intro v vertex age secret source note early filled noted removal records applied keep
  have own : ∀ r ∈ records, r.element = vertex := by decide
  have removals : ∀ r ∈ records, keep r = false →
      ∃ key label, r.mutation = .dropMetadata key label ∧ label.text ≠ note.visibility.text := by
    intro r _ lost
    obtain rfl : r = removal := by simpa [keep] using lost
    exact ⟨"note", secret, rfl, by decide⟩
  have shows : (v.foldElement vertex records).map (fun s => s.properties.map (·.metadata)) =
      .ok [[note, source]] := by decide +kernel
  obtain ⟨state, folded, entries, alike⟩ := foldElement_metadata v vertex records own
  rw [folded] at shows
  simp only [Except.map, Except.ok.injEq] at shows
  exact ⟨own, removals, state, folded, shows, entries, alike keep note removals⟩

end View

end GraphLog
