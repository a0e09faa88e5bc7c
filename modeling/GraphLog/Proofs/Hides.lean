/-
**Which hides a caller meets.**

A hide is set on a slot under a label, and lifted there under just this text.  Whether it is in
force is decided for each slot and each label by itself; whom it is for is decided by the caller and
the audience of hides.  An element reports the hides of its own that are for the caller, and marks
its properties and edges by theirs.  So the two audiences divide the hides in force among them, and
a record that lifts a hide under another text, even one that means the same, does not lift this one.

Main definitions:

* `GraphLog.View.addressing` — the same view for another audience of hides.

Main results:

* `GraphLog.Ledger.hiddenBy_stateFor`, `GraphLog.Ledger.isSeen_of_stateFor` — the hides that a
  state reports;
* `GraphLog.Ledger.hideStands_filter` — hides are lifted under their own label only;
* `GraphLog.View.foldElement_hides` — **the hides that an element reports**, whom they are for, and
  what does not lift them.
-/

import GraphLog.Proofs.Contents
import GraphLog.Proofs.Places

set_option relaxedAutoImplicit false
set_option autoImplicit false

namespace GraphLog

open Ranked (highest)

/-! ### What a state reports -/

theorem HidePlace.compare_label (slot : Slot) (a b : Visibility) :
    compare (HidePlace.mk slot a) ⟨slot, b⟩ = compare a b := by
  change HidePlace.order ⟨slot, a⟩ ⟨slot, b⟩ = _
  simp [HidePlace.order, compareLex, compareOn]

namespace Ledger

variable (l : Ledger) (options : FoldOptions) (sees : Visibility → Bool)

/-- Hides are listed in the order of their labels, and no label twice. -/
theorem ordered_hidesFor (slot : Slot) :
    (l.hidesFor options sees slot).Pairwise fun a b => compare a b = .lt := by
  simp only [← HidePlace.compare_label slot]
  refine List.Pairwise.filter _ (Registers.pairwise_filterMap_toList fun place hide label _ h => ?_)
  obtain ⟨⟨here, -⟩, label⟩ := Option.ite_none_right_eq_some.1 h
  rw [← Option.some_inj.1 label, ← here]

section States

variable (element : Element) (asOf : Option Int64)

/-- The hides that a state reports are those on the existence of an element that `isSeen`. -/
theorem hiddenBy_stateFor :
    (l.stateFor options sees element asOf).hiddenBy =
      if l.isSeen sees then l.hidesFor options sees .existence else [] := by
  by_cases seen : l.isSeen sees
  · rw [l.stateFor_eq_of_isSeen options sees element asOf seen, if_pos seen]
    split <;> rfl
  · obtain ⟨status, time, same, -⟩ :=
      l.exists_stateFor_eq_of_not_isSeen options sees element asOf seen
    rw [same, if_neg seen]
    rfl

/-- An element `isSeen` if its state says so. -/
theorem isSeen_of_stateFor (initial : (l.stateFor options sees element asOf).status ≠ .initial)
    (deleted : (l.stateFor options sees element asOf).status ≠ .deleted)
    (satisfied : sees (l.stateFor options sees element asOf).visibility) : l.isSeen sees := by
  by_contra unseen
  obtain ⟨status, time, same, -, why⟩ :=
    l.exists_stateFor_eq_of_not_isSeen options sees element asOf unseen
  rw [same] at initial deleted satisfied
  rcases why with h | h | h
  · exact initial h
  · exact deleted h
  · exact h satisfied

end States

/-! ### What does not lift a hide -/

section Lifting

variable {applied : List (Ranked Record)} {keep : Record → Bool} {label : Visibility}
  (others : ∀ e ∈ applied, keep e.content = false →
    ∃ other time, e.content.mutation = .unhide other time ∧ other ≠ label)

include others

theorem isQuiet_of_unhide : ∀ e ∈ applied, keep e.content = false → e.content.isQuiet := by
  intro e mem lost
  obtain ⟨other, time, lifts, -⟩ := others e mem lost
  simp [Record.isQuiet, Record.fills, Mutation.isSoftDelete, Record.label?, lifts]

/-- **A hide is lifted under its own label only**: without records that lift others it stands where
it stood. -/
theorem hideStands_filter (slot : Slot) :
    (ofRecords (applied.filter (keep ·.content))).hideStands ⟨slot, label⟩ =
      (ofRecords applied).hideStands ⟨slot, label⟩ := by
  have held : (ofRecords (applied.filter (keep ·.content))).hides[HidePlace.mk slot label]? =
      (ofRecords applied).hides[HidePlace.mk slot label]? := by
    rw [hides_ofRecords, hides_ofRecords, highest, Ranked.leading_filter fun e mem lost => ?_]
    obtain ⟨other, time, lifts, differs⟩ := others e mem lost
    simp [Record.hide?, lifts, differs]
  unfold hideStands
  rw [held, ofRecords_filter (isQuiet_of_unhide others)]
  rfl

/-- Records that lift hides have no part in whether the element `isSeen`. -/
theorem isSeen_filter (sees : Visibility → Bool) :
    (ofRecords (applied.filter (keep ·.content))).isSeen sees =
      (ofRecords applied).isSeen sees := by
  rw [ofRecords_filter (isQuiet_of_unhide others)]
  rfl

end Lifting

end Ledger

/-! ### Hides of an element -/

namespace View

/-- The same view for another `HideAudience`. -/
def addressing (v : View) (audience : HideAudience) : View :=
  { v with options := { v.options with hideAudience := audience } }

variable (v : View)

/-- The audience of hides has no part in which records count. -/
theorem entries_addressing (audience : HideAudience) (place : Nat) (records : List Record) :
    (v.addressing audience).entries place records = v.entries place records :=
  entries_congr v (v.addressing audience) rfl rfl place records

/-- Records are left out of an input as they are left out of its entries. -/
theorem hideInForce_filter_iff (keep : Record → Bool) (records : List Record) {slot : Slot}
    {label : Visibility}
    (others : ∀ r ∈ records, keep r = false →
      ∃ other time, r.mutation = .unhide other time ∧ other ≠ label) :
    HideInForce (v.entries 0 (records.filter keep)) slot label ↔
      HideInForce (v.entries 0 records) slot label := by
  have alike := v.concordant_picked v rfl (fun e => keep e.content) (fun _ _ => rfl) records
  rw [picked_content] at alike
  rw [← Ledger.hideStands_ofRecords_iff (nodup_ranks_entries 0 _),
    ← Ledger.hideStands_ofRecords_iff (nodup_ranks_entries 0 _), ← alike.agree.hides,
    Ledger.hideStands_filter]
  exact fun e mem => others e.content (exists_mem_entries_iff.1 ⟨e, mem, rfl⟩).1

/-- **The hides of an element.**  An element that is neither initial nor deleted, and whose label
the caller satisfies, reports just the hides on its existence that are in force and for the caller,
in order and each once.  A property or an edge is marked as hidden if some hide on its slot is in
force and for the caller.

A hide in force is for the caller under one audience and not under the other.  And it is in force,
or reported, whatever records lift hides under labels that are written differently. -/
theorem foldElement_hides (v : View) (element : Element) (records : List Record)
    (own : ∀ r ∈ records, r.element = element) :
    let applied := v.entries 0 records
    ∃ state, v.foldElement element records = .ok state ∧
      (state.status ≠ .initial → state.status ≠ .deleted → v.held.sees state.visibility →
        state.hiddenBy.Pairwise (fun a b => compare a b = .lt) ∧
        ∀ label, label ∈ state.hiddenBy ↔ v.HideActive applied .existence label) ∧
      (∀ p ∈ state.properties, p.hidden ↔ ∃ label, v.HideActive applied p.slot label) ∧
      (∀ e ∈ state.edges, e.hidden ↔ ∃ label, v.HideActive applied e.slot label) ∧
      (∀ slot label,
        let activeFor (audience : HideAudience) : Prop :=
          let w := v.addressing audience
          w.HideActive (w.entries 0 records) slot label
        (HideInForce applied slot label ↔ activeFor .nonHolders ∨ activeFor .holders) ∧
          ¬(activeFor .nonHolders ∧ activeFor .holders)) ∧
      ∀ keep label,
        (∀ r ∈ records, keep r = false →
          ∃ other time, r.mutation = .unhide other time ∧ other.text ≠ label.text) →
        ∃ others, v.foldElement element (records.filter keep) = .ok others ∧
          (label ∈ others.hiddenBy ↔ label ∈ state.hiddenBy) ∧
          ∀ slot, HideInForce (v.entries 0 (records.filter keep)) slot label ↔
            HideInForce applied slot label := by
  intro applied
  have distinct : (applied.map (·.rank)).Nodup := nodup_ranks_entries 0 records
  let l := Ledger.ofRecords applied
  have hiddenBy := l.hiddenBy_stateFor v.options v.held.sees element v.asOf
  refine ⟨v.stateOf element records, foldElement_eq v own, fun initial deleted satisfied => ?_,
    fun p mem => ?_, fun e mem => ?_, fun slot label => ?_, fun keep label lifts => ?_⟩
  · have seen := l.isSeen_of_stateFor v.options v.held.sees element v.asOf initial deleted satisfied
    rw [stateOf, hiddenBy, if_pos seen]
    exact ⟨l.ordered_hidesFor .., fun label => Ledger.mem_hidesFor_ofRecords_iff distinct v⟩
  · have listed := l.properties_stateFor_subset v.options v.held.sees element v.asOf mem
    obtain ⟨w, -, -, marked, -⟩ := (Ledger.mem_propertiesFor_iff distinct v).1 listed
    exact marked
  · have listed := l.edges_stateFor_subset v.options v.held.sees element v.asOf mem
    obtain ⟨w, -, -, marked, -⟩ := (Ledger.mem_edgesFor_iff distinct v).1 listed
    exact marked
  · simp only [entries_addressing]
    -- the two audiences ask for one verdict, and one wants it the other way round
    simp only [HideActive, HideAudience.Concerns, addressing]
    tauto
  · have lifts : ∀ r ∈ records, keep r = false →
        ∃ other time, r.mutation = .unhide other time ∧ other ≠ label := fun r mem lost =>
      (lifts r mem lost).imp fun _ h => h.imp fun _ h => ⟨h.1, fun same => h.2 (congrArg _ same)⟩
    refine ⟨v.stateOf element (records.filter keep), ?_, ?_, fun slot => ?_⟩
    · exact foldElement_eq v fun r mem => own r (List.mem_filter.1 mem).1
    · have inApplied : ∀ e ∈ applied, keep e.content = false → _ :=
        fun e mem => lifts e.content (exists_mem_entries_iff.1 ⟨e, mem, rfl⟩).1
      rw [stateOf_filter, Ledger.hiddenBy_stateFor, stateOf, hiddenBy,
        Ledger.isSeen_filter inApplied]
      split
      · rw [Ledger.mem_hidesFor_iff, Ledger.mem_hidesFor_iff, Ledger.hideStands_filter inApplied]
      · rfl
    · exact v.hideInForce_filter_iff keep records lifts

/-- A hide under `a|b` is reported, although one under `b|a` was lifted; a hide on a property marks
it. -/
theorem foldElement_hides_of_lifted :
    let v : View := ⟨{ includeHidden := true }, .empty, none⟩
    let vertex : Element := ⟨.vertex, "v"⟩
    let age : Slot := .property "k" "age" .unrestricted
    let label : Visibility := ⟨"a|b", by decide⟩
    let reversed : Visibility := ⟨"b|a", by decide⟩
    let created : Record := ⟨⟨vertex, .existence, 1, .unrestricted, .create none, 1⟩, rfl⟩
    let filled : Record := ⟨⟨vertex, age, 2, .unrestricted, .setValue (.int 30) [], 2⟩, rfl⟩
    let hidden : Record := ⟨⟨vertex, .existence, 3, .unrestricted, .hide label none, 3⟩, rfl⟩
    let lifted : Record := ⟨⟨vertex, .existence, 4, .unrestricted, .unhide reversed none, 4⟩, rfl⟩
    let marked : Record := ⟨⟨vertex, age, 5, .unrestricted, .hide reversed none, 5⟩, rfl⟩
    let records := [created, lifted, hidden, marked, filled]
    let applied := v.entries 0 records
    let keep : Record → Bool := fun r => r ≠ lifted
    (∀ r ∈ records, r.element = vertex) ∧
      (∀ r ∈ records, keep r = false →
        ∃ other time, r.mutation = .unhide other time ∧ other.text ≠ label.text) ∧
      ∃ state, v.foldElement vertex records = .ok state ∧
        state.status ≠ .initial ∧ state.status ≠ .deleted ∧ v.held.sees state.visibility ∧
        state.hiddenBy = [label] ∧ state.properties.map (·.hidden) = [true] ∧
        state.hiddenBy.Pairwise (fun a b => compare a b = .lt) ∧
        (∀ label, label ∈ state.hiddenBy ↔ v.HideActive applied .existence label) ∧
        (∀ p ∈ state.properties, p.hidden ↔ ∃ label, v.HideActive applied p.slot label) ∧
        (∀ e ∈ state.edges, e.hidden ↔ ∃ label, v.HideActive applied e.slot label) ∧
        (∀ slot label,
          let activeFor (audience : HideAudience) : Prop :=
            let w := v.addressing audience
            w.HideActive (w.entries 0 records) slot label
          (HideInForce applied slot label ↔ activeFor .nonHolders ∨ activeFor .holders) ∧
            ¬(activeFor .nonHolders ∧ activeFor .holders)) ∧
        ∃ others, v.foldElement vertex (records.filter keep) = .ok others ∧
          (label ∈ others.hiddenBy ↔ label ∈ state.hiddenBy) ∧
          ∀ slot, HideInForce (v.entries 0 (records.filter keep)) slot label ↔
            HideInForce applied slot label := by
  intro v vertex age label reversed created filled hidden lifted marked records applied keep
  have own : ∀ r ∈ records, r.element = vertex := by decide
  have lifts : ∀ r ∈ records, keep r = false →
      ∃ other time, r.mutation = .unhide other time ∧ other.text ≠ label.text := by
    intro r _ lost
    obtain rfl : r = lifted := by simpa [keep] using lost
    exact ⟨reversed, none, rfl, by decide⟩
  have shows : (v.foldElement vertex records).map (fun s =>
      ((s.status, v.held.sees s.visibility), s.hiddenBy, s.properties.map (·.hidden))) =
      .ok ((.hidden, true), [label], [true]) := by decide +kernel
  obtain ⟨state, folded, reported, properties, edges, audiences, alike⟩ :=
    foldElement_hides v vertex records own
  rw [folded] at shows
  simp only [Except.map, Except.ok.injEq, Prod.mk.injEq] at shows
  obtain ⟨⟨status, satisfied⟩, hiddenBy, flags⟩ := shows
  have initial : state.status ≠ .initial := by simp [status]
  have deleted : state.status ≠ .deleted := by simp [status]
  obtain ⟨ordered, active⟩ := reported initial deleted satisfied
  exact ⟨own, lifts, state, folded, initial, deleted, satisfied, hiddenBy, flags, ordered, active,
    properties, edges, audiences, alike keep label lifts⟩

end View

end GraphLog
