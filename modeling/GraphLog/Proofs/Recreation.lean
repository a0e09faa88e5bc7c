/-
**What a deletion erases of an element that is created again.**

A deletion is a floor: whatever is ranked at or below it is passed over when the element is shown.
That the element was created again above the floor makes it show something at all.  Here the floor
is compared with the other way of wiping an element, which is to throw the records away: the state
is that of the records above the floor, together with the creations and relabellings below it.  So
the values, metadata, edges and hides at or below a deletion are erased, and nothing else is.

Main definitions:

* `GraphLog.outlives` — a record is above the floor, or it creates or relabels its element;
* `GraphLog.View.aftermath` — the records of an input that outlive a deletion.

Main results:

* `GraphLog.highest_filter_outlives` — of the records that a deletion can erase, those above the
  floor are left;
* `GraphLog.agree_filter_outlives` — **the floor of a ledger is the loss of the records below it**;
* `GraphLog.View.foldElement_aftermath` — **a fold over a deletion and a creation above it is the
  fold of what outlives the deletion**.
-/

import GraphLog.Proofs.Places

set_option relaxedAutoImplicit false
set_option autoImplicit false

namespace GraphLog

open Ranked (IsHighest highest lowest write?)

/-- The record is above the floor, or it creates or relabels its element. -/
def outlives (floor : Rank) (e : Ranked Record) : Bool :=
  floor.isBelow e.rank || e.content.mutation.kind = .create || e.content.mutation.kind = .relabel

/-- Creations and relabellings outlive every deletion, whatever its rank: see `outlives`. -/
theorem outlives_of_kind {floor : Rank} {e : Ranked Record}
    (h : e.content.mutation.kind = .create ∨ e.content.mutation.kind = .relabel) :
    outlives floor e := by
  rcases h with h | h <;> simp [outlives, h]

theorem outlives_of_above {floor : Rank} {e : Ranked Record} (h : floor < e.rank) :
    outlives floor e := by
  have above : floor.isBelow e.rank := h
  simp [outlives, above]

/-! ### The records of a kind -/

/-- The records of a kind can be erased: they neither create nor relabel their element. -/
def Erasable (p : Record → Bool) : Prop :=
  ∀ r, p r → r.mutation.kind ≠ .create ∧ r.mutation.kind ≠ .relabel

theorem erasable_isSoftDelete : Erasable (·.mutation.isSoftDelete) := by
  intro r h
  cases m : r.mutation <;> simp_all [Mutation.isSoftDelete, Mutation.kind]

theorem erasable_hide (place : HidePlace) : Erasable fun r => (Record.hide? place r).isSome := by
  intro r h
  cases m : r.mutation <;> simp_all [Record.hide?, Mutation.kind]

theorem erasable_value (slot : Slot) : Erasable fun r => (Record.value? slot r).isSome := by
  intro r h
  cases m : r.mutation <;> simp_all [Record.value?, Mutation.kind]

theorem erasable_entry (place : MetadataPlace) :
    Erasable fun r => (Record.entry? place r).isSome := by
  intro r h
  cases m : r.mutation <;> simp_all [Record.entry?, Mutation.kind]

theorem erasable_edge (slot : Slot) : Erasable fun r => (Record.edge? slot r).isSome := by
  intro r h
  cases m : r.mutation <;> simp_all [Record.edge?, Mutation.kind]

section Kinds

variable {applied : List (Ranked Record)} {floor : Rank} {p : Record → Bool}

/-- A record that `outlives` the deletion and is the highest-ranked of its kind stays so. -/
theorem highest_filter_of_outlives (distinct : (applied.map (·.rank)).Nodup)
    {top : Ranked Record} (found : highest p applied = some top) (out : outlives floor top) :
    highest p (applied.filter (outlives floor)) = some top := by
  have leads := Ranked.isHighest_of_highest found
  have distinct' : ((applied.filter (outlives floor)).map (·.rank)).Nodup :=
    distinct.sublist (List.filter_sublist.map _)
  rw [Ranked.highest_eq_some_iff distinct']
  exact ⟨List.mem_filter.2 ⟨leads.mem, out⟩, leads.has,
    fun e mem => leads.le e (List.mem_filter.1 mem).1⟩

/-- Of the records that a deletion can erase, those that are `Erasable`, those above the floor are
left. -/
theorem highest_filter_outlives (distinct : (applied.map (·.rank)).Nodup) (erasable : Erasable p) :
    highest p (applied.filter (outlives floor)) =
      (highest p applied).filter (floor.isBelow ·.rank) := by
  -- among the records of this kind, to outlive the deletion is to be above the floor
  have above : ∀ e, p e.content → outlives floor e → floor < e.rank := by
    intro e has out
    obtain ⟨notCreate, notRelabel⟩ := erasable e.content has
    simpa [outlives, notCreate, notRelabel] using out
  cases found : highest p applied with
  | none =>
      rw [Ranked.leading_eq_none_iff] at found
      rw [Option.filter_none, Ranked.leading_eq_none_iff]
      exact fun e mem => found e (List.mem_filter.1 mem).1
  | some top =>
      have leads := Ranked.isHighest_of_highest found
      rw [Option.filter_some]
      by_cases h : floor.isBelow top.rank
      · rw [if_pos h]
        exact highest_filter_of_outlives distinct found (outlives_of_above h)
      · rw [if_neg h, Ranked.leading_eq_none_iff]
        intro e mem
        obtain ⟨mem, out⟩ := List.mem_filter.1 mem
        by_contra has
        have has : p e.content := by simpa using has
        exact h (lt_of_lt_of_le (above e has out) (leads.le e mem has))

/-- Of creations and relabellings all are left. -/
theorem leading_filter_outlives (beats : Rank → Rank → Prop) [DecidableRel beats]
    (lasting : ∀ r, p r → r.mutation.kind = .create ∨ r.mutation.kind = .relabel) :
    Ranked.leading beats p (applied.filter (outlives floor)) = Ranked.leading beats p applied :=
  Ranked.leading_filter fun e _ lost => Bool.eq_false_iff.2 fun has => by
    rw [outlives_of_kind (lasting e.content has)] at lost
    cases lost

end Kinds

/-! ### The floor of a ledger -/

namespace Ledger

section Above

variable {l m : Ledger} {floor since : Rank} (top : Option (Ranked Record))

/-- A metadata entry that is not older than a value above the floor is above the floor itself, so
`entrySince` finds the same without what lies below. -/
theorem bind_entrySince_filter (above : floor < since) (f : Record → Option (Option Value)) :
    ((top.filter (floor.isBelow ·.rank)).bind (write? f)).bind (entrySince since) =
      (top.bind (write? f)).bind (entrySince since) := by
  cases top with
  | none => rfl
  | some e =>
      by_cases h : floor.isBelow e.rank
      · simp [Option.filter_some, h]
      · have older : e.rank < since := lt_of_le_of_lt (not_lt.1 h) above
        have older : e.rank.isBelow since := older
        cases written : f e.content <;>
          simp [Option.filter_some, h, write?, written, entrySince, older]

variable (deleted : l.deleted = some floor) (alive : m.deleted = none)

include deleted alive

/-- What `stands` above a floor is what stands where nothing below the floor was written. -/
theorem bind_stands_filter {α : Type} (f : Record → Option (Option α)) :
    ((top.filter (floor.isBelow ·.rank)).bind (write? f)).bind m.stands =
      (top.bind (write? f)).bind l.stands := by
  cases top with
  | none => rfl
  | some e =>
      cases written : f e.content <;> by_cases h : floor.isBelow e.rank <;>
        simp [Option.filter_some, write?, written, h, stands, survives, deleted, alive]

/-- The same of hides. -/
theorem any_hide_filter (f : Record → Option Bool) :
    ((top.filter (floor.isBelow ·.rank)).bind (write? f)).any
        (fun hide => hide.content && m.survives hide.rank) =
      (top.bind (write? f)).any fun hide => hide.content && l.survives hide.rank := by
  cases top with
  | none => rfl
  | some e =>
      cases written : f e.content <;> by_cases h : floor.isBelow e.rank <;>
        simp [Option.filter_some, write?, written, h, survives, deleted, alive]

end Above

end Ledger

section Floor

variable {applied : List (Ranked Record)} {d c : Ranked Record}

/-- **The floor of a ledger is the loss of the records below it.** -/
theorem agree_filter_outlives (distinct : (applied.map (·.rank)).Nodup)
    (deletion : IsHighest (·.mutation.isSoftDelete) applied d) (mem : c ∈ applied)
    (creation : c.content.isCreation) (above : d.rank < c.rank) :
    (Ledger.ofRecords (applied.filter (outlives d.rank))).Agree (Ledger.ofRecords applied) := by
  have highest_erased : ∀ p, Erasable p → highest p (applied.filter (outlives d.rank)) =
      (highest p applied).filter (d.rank.isBelow ·.rank) :=
    fun p erasable => highest_filter_outlives distinct erasable
  have deleted : (Ledger.ofRecords applied).deleted = some d.rank := by
    rw [Ledger.deleted_ofRecords, (Ranked.highest_eq_some_iff distinct).2 deletion]
    rfl
  have alive : (Ledger.ofRecords (applied.filter (outlives d.rank))).deleted = none := by
    rw [Ledger.deleted_ofRecords, highest_erased _ erasable_isSoftDelete,
      (Ranked.highest_eq_some_iff distinct).2 deletion]
    simp [Option.filter_some]
  have recreated : (Ledger.ofRecords applied).isDeleted = false := by
    obtain ⟨top, found⟩ : ∃ top, highest Record.isCreation applied = some top := by
      rw [← Option.isSome_iff_exists, ← Ranked.any_eq_isSome_highest]
      exact List.any_eq_true.2 ⟨c, mem, creation⟩
    have later := (Ranked.isHighest_of_highest found).le c mem creation
    have outranked : d.rank.isBelow top.rank := lt_of_lt_of_le above later
    simp [Ledger.isDeleted, deleted, Ledger.created_ofRecords, found, outranked]
  have undeleted : (Ledger.ofRecords (applied.filter (outlives d.rank))).isDeleted = false := by
    simp [Ledger.isDeleted, alive]
  have standing : ∀ slot, (Ledger.ofRecords (applied.filter (outlives d.rank))).standing slot =
      (Ledger.ofRecords applied).standing slot := by
    intro slot
    unfold Ledger.standing
    rw [Ledger.values_ofRecords, Ledger.values_ofRecords, highest_erased _ (erasable_value slot)]
    exact Ledger.bind_stands_filter _ deleted alive _
  exact
    { lastModified := by
        obtain ⟨top, found⟩ : ∃ top, highest (fun _ => true) applied = some top := by
          rw [← Option.isSome_iff_exists, ← Ranked.any_eq_isSome_highest]
          exact List.any_eq_true.2 ⟨c, mem, rfl⟩
        have later := (Ranked.isHighest_of_highest found).le c mem rfl
        have out := outlives_of_above (lt_of_lt_of_le above later)
        rw [Ledger.lastModified_ofRecords, Ledger.lastModified_ofRecords, found,
          highest_filter_of_outlives distinct found out]
      endpoints := by
        rw [Ledger.endpoints_ofRecords, Ledger.endpoints_ofRecords, lowest, lowest,
          leading_filter_outlives]
        intro r h
        cases m : r.mutation <;> simp_all [Record.endpoints?, Mutation.kind]
      visibility := by
        rw [Ledger.visibility_ofRecords, Ledger.visibility_ofRecords, highest, highest,
          leading_filter_outlives]
        intro r h
        cases m : r.mutation <;> simp_all [Record.label?, Mutation.kind]
      constructive := by
        have fills : c.content.fills := Record.fills_of_isCreation creation
        rw [Ledger.constructive_ofRecords, Ledger.constructive_ofRecords,
          List.any_eq_true.2 ⟨c, mem, fills⟩,
          List.any_eq_true.2 ⟨c, List.mem_filter.2 ⟨mem, outlives_of_above above⟩, fills⟩]
      isDeleted := undeleted.trans recreated.symm
      deletedAt := by simp [undeleted]
      hides := by
        intro place
        unfold Ledger.hideStands
        rw [Ledger.hides_ofRecords, Ledger.hides_ofRecords, highest_erased _ (erasable_hide place)]
        exact Ledger.any_hide_filter _ deleted alive _
      values := fun slot => by rw [standing]
      entries := by
        intro place
        unfold Ledger.standingEntry
        rw [standing, Ledger.metadata_ofRecords, Ledger.metadata_ofRecords,
          highest_erased _ (erasable_entry place)]
        cases value : (Ledger.ofRecords applied).standing place.slot with
        | none => rfl
        | some top =>
            have survives := Ledger.survives_of_standing _ value
            have since : d.rank < top.rank := by simpa [Ledger.survives, deleted] using survives
            simp only [Option.bind_some, Ledger.bind_entrySince_filter _ since]
      edges := by
        intro slot
        unfold Ledger.standingEdge
        rw [Ledger.edges_ofRecords, Ledger.edges_ofRecords, highest_erased _ (erasable_edge slot),
          Ledger.bind_stands_filter _ deleted alive] }

end Floor

/-! ### Folds -/

namespace View

/-- **The records of an input that outlive a deletion**: those ranked above the floor, and all that
create or relabel their element. -/
def aftermath (v : View) (floor : Rank) (records : List Record) : List Record :=
  v.picked (outlives floor) records

/-- **A deletion and a later creation erase what was ranked at or below the deletion, and nothing
else.**  If the highest-ranked deletion is outranked by a creation, then a fold is the fold of the
records above the deletion together with all creations and relabellings. -/
theorem foldElement_aftermath (v : View) (element : Element) (records : List Record)
    (own : ∀ r ∈ records, r.element = element) (d c : Ranked Record)
    (deletion : IsHighest (·.mutation.isSoftDelete) (v.entries 0 records) d)
    (mem : c ∈ v.entries 0 records) (creation : c.content.isCreation) (above : d.rank < c.rank) :
    ∃ state, v.foldElement element records = .ok state ∧
      v.foldElement element (v.aftermath d.rank records) = .ok state := by
  have agree := agree_filter_outlives (nodup_ranks_entries 0 records) deletion mem creation above
  have same := (v.concordant_picked v rfl (outlives d.rank) (fun _ _ => rfl) records).agree
  have states : v.stateOf element (v.aftermath d.rank records) = v.stateOf element records :=
    (same.stateFor_eq v.options v.held.sees element v.asOf).symm.trans
      (agree.stateFor_eq v.options v.held.sees element v.asOf)
  have own' : ∀ r ∈ v.aftermath d.rank records, r.element = element :=
    fun r mem => own r ((v.picked_sublist _ records).subset mem)
  exact ⟨_, foldElement_eq v own, states ▸ foldElement_eq v own'⟩

/-- A deletion and a creation at one moment: the value and the hide that arrived first are erased,
and the label of the element is not. -/
theorem foldElement_aftermath_of_tie :
    let v : View := ⟨{}, .empty, some 3⟩
    let vertex : Element := ⟨.vertex, "v"⟩
    let secret : Visibility := ⟨"secret", by decide⟩
    let created : Record := ⟨⟨vertex, .existence, 1, .unrestricted, .create none, 1⟩, rfl⟩
    let filled : Record :=
      ⟨⟨vertex, .property "k" "age" .unrestricted, 3, .unrestricted, .setValue (.int 30) [], 2⟩,
        rfl⟩
    let hidden : Record := ⟨⟨vertex, .existence, 3, .unrestricted, .hide secret none, 3⟩, rfl⟩
    let relabelled : Record :=
      ⟨⟨vertex, .existence, 2, .unrestricted, .relabel .unrestricted, 4⟩, rfl⟩
    let deleted : Record := ⟨⟨vertex, .existence, 9, secret, .softDelete 3, 5⟩, rfl⟩
    let again : Record := ⟨⟨vertex, .existence, 3, .unrestricted, .create none, 6⟩, rfl⟩
    let records := [created, again, filled, deleted, hidden, relabelled]
    let d := v.ranked 3 deleted
    let c := v.ranked 1 again
    (∀ r ∈ records, r.element = vertex) ∧
      IsHighest (·.mutation.isSoftDelete) (v.entries 0 records) d ∧
      c ∈ v.entries 0 records ∧ c.content.isCreation ∧ d.rank < c.rank ∧
      v.aftermath d.rank records = [created, again, relabelled] ∧
      ∃ state, v.foldElement vertex records = .ok state ∧
        v.foldElement vertex (v.aftermath d.rank records) = .ok state := by
  intro v vertex secret created filled hidden relabelled deleted again records d c
  have own : ∀ r ∈ records, r.element = vertex := by decide
  have deletion : IsHighest (·.mutation.isSoftDelete) (v.entries 0 records) d :=
    ⟨by decide, by decide, by decide⟩
  have mem : c ∈ v.entries 0 records := by decide
  have above : d.rank < c.rank := by decide
  have left : v.aftermath d.rank records = [created, again, relabelled] := by decide
  exact ⟨own, deletion, mem, rfl, above, left,
    foldElement_aftermath v vertex records own d c deletion mem rfl above⟩

end View

end GraphLog
