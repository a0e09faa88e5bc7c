/-
**Where an element stands, as its highest-ranked records say.**

The status of an element is the outcome of a fold over any number of creations, deletions,
relabellings and hides.  Here it is said which single records decide it: the highest-ranked deletion
and creation decide whether the element is deleted, the highest-ranked relabelling and, for each
label, the highest-ranked record that sets or lifts a hide decide whether it is kept from the
caller.  Nothing written to a property or an edge has a part in this, except that it fills an
element.

Main definitions:

* `GraphLog.DeletedBy` — a deletion is in force;
* `GraphLog.Carries` — the label that an element carries;
* `GraphLog.HidesElement` — a hide of the whole element is in force;
* `GraphLog.View.KeepsBack` — an element is kept from the caller.

Main results:

* `GraphLog.Ledger.isDeleted_ofRecords_iff`, `GraphLog.Ledger.hideStands_existence_iff` — what a
  ledger says, in terms of highest-ranked records;
* `GraphLog.View.foldElement_status` — **the status of an element, case by case**.
-/

import GraphLog.Proofs.Folds
import GraphLog.Proofs.Standing

set_option relaxedAutoImplicit false
set_option autoImplicit false

namespace GraphLog

open Ranked (IsHighest highest write?)

/-! ### What highest-ranked records say -/

section Records

variable (applied : List (Ranked Record))

/-- **A deletion is in force**: it is the highest-ranked one, and no creation outranks it. -/
def DeletedBy (d : Ranked Record) : Prop :=
  IsHighest (·.mutation.isSoftDelete) applied d ∧
    ∀ c, IsHighest Record.isCreation applied c → ¬d.rank < c.rank

/-- The label that an element carries: that of the highest-ranked relabelling, and none if the
element was never relabelled. -/
def Carries (label : Visibility) : Prop :=
  (∃ e, IsHighest (fun r => (Record.label? r).isSome) applied e ∧
      e.content.label? = some label) ∨
    (∀ e ∈ applied, e.content.label? = none) ∧ label = .unrestricted

/-- **A hide of the whole element is in force** under a label: of the records that set or lift it,
the highest-ranked one sets it, and it outranks the highest-ranked deletion, if there is one. -/
def HidesElement (label : Visibility) : Prop :=
  ∃ h, IsHighest (fun r => (Record.hide? ⟨.existence, label⟩ r).isSome) applied h ∧
    h.content.hide? ⟨.existence, label⟩ = some true ∧
    ∀ d, IsHighest (·.mutation.isSoftDelete) applied d → d.rank < h.rank

/-- An element is kept from the caller, who fails the label that it `Carries` or is one of those
that a hide is for. -/
def View.KeepsBack (v : View) : Prop :=
  (∃ label, Carries applied label ∧ ¬v.held.sees label) ∨
    ∃ label, HidesElement applied label ∧ v.options.hideAudience.applies (v.held.sees label)

end Records

/-! ### What the ledger says -/

namespace Ledger

section Ranks

variable {applied : List (Ranked Record)} (distinct : (applied.map (·.rank)).Nodup)

include distinct

/-- An element is deleted if some deletion is in force: `isDeleted` says that it is `DeletedBy` a
record. -/
theorem isDeleted_ofRecords_iff :
    (ofRecords applied).isDeleted ↔ ∃ d, DeletedBy applied d := by
  unfold isDeleted DeletedBy
  rw [deleted_ofRecords, created_ofRecords]
  simp only [← Ranked.highest_eq_some_iff distinct]
  cases deletion : highest (·.mutation.isSoftDelete) applied with
  | none => simp
  | some d => cases creation : highest Record.isCreation applied <;> simp

/-- The deletion in force is the one whose time the ledger shows as `deleted`. -/
theorem deleted_of_deletedBy {d : Ranked Record} (h : DeletedBy applied d) :
    (ofRecords applied).deleted = some d.rank := by
  rw [deleted_ofRecords, (Ranked.highest_eq_some_iff distinct).2 h.1]
  rfl

theorem carries_iff {label : Visibility} :
    Carries applied label ↔
      (ofRecords applied).visibility.elim .unrestricted (·.content) = label := by
  unfold Carries
  rw [visibility_ofRecords]
  simp only [← Ranked.highest_eq_some_iff distinct]
  cases found : highest (fun r => (Record.label? r).isSome) applied with
  | none =>
      have absent : ∀ e ∈ applied, e.content.label? = none := fun e mem => by
        simpa using Ranked.leading_eq_none_iff.1 found e mem
      constructor
      · rintro (⟨_, ⟨⟩, -⟩ | ⟨-, rfl⟩)
        rfl
      · rintro rfl
        exact .inr ⟨absent, rfl⟩
  | some e =>
      have leads := Ranked.isHighest_of_highest found
      obtain ⟨given, hgiven⟩ := Option.isSome_iff_exists.1 leads.has
      have read : ((some e).bind (write? Record.label?)).elim Visibility.unrestricted (·.content) =
          given := by simp [write?, hgiven]
      rw [read]
      constructor
      · rintro (⟨e', same, hlabel⟩ | ⟨absent, -⟩)
        · cases same
          exact Option.some_inj.1 (hgiven.symm.trans hlabel)
        · rw [absent e leads.mem] at hgiven
          cases hgiven
      · rintro rfl
        exact .inl ⟨e, rfl, hgiven⟩

/-- A hide of the element stands if it is in force: `hideStands` says that it `HidesElement`. -/
theorem hideStands_existence_iff {label : Visibility} :
    (ofRecords applied).hideStands ⟨.existence, label⟩ ↔ HidesElement applied label := by
  rw [hideStands_ofRecords_iff distinct]
  constructor
  · rintro ⟨h, wins, outlasts⟩
    exact ⟨h, wins.highest, wins.writes, outlasts⟩
  · rintro ⟨h, leads, sets, outlasts⟩
    exact ⟨h, ⟨leads, sets⟩, outlasts⟩

end Ranks

variable (l : Ledger) (options : FoldOptions) (sees : Visibility → Bool)

/-! ### What is shown of it -/

section Shown

variable (element : Element) (asOf : Option Int64)

/-- What a caller is shown of an element that is deleted. -/
theorem stateFor_of_isDeleted (h : l.isDeleted) :
    l.stateFor options sees element asOf =
      { l.outline element asOf with status := .deleted, softDeletedAt := l.deleted.map (·.time) } :=
  if_pos h

variable (h : ¬l.isDeleted)

include h

/-- What is not deleted shows no time of a deletion. -/
theorem softDeletedAt_stateFor : (l.stateFor options sees element asOf).softDeletedAt = none := by
  unfold stateFor
  simp only [if_neg h]
  split
  · split
    · split <;> rfl
    · rfl
  · rfl

/-- The status of an element that is not deleted, as `stateFor` tells it. -/
theorem status_stateFor :
    (l.stateFor options sees element asOf).status =
      if l.constructive then
        if sees (l.visibility.elim .unrestricted (·.content)) ∧
            l.hidesFor options sees .existence = [] then .live
        else .hidden
      else .initial := by
  have outlined : (l.outline element asOf).visibility =
      l.visibility.elim Visibility.unrestricted (·.content) := rfl
  unfold stateFor
  simp only [if_neg h, outlined]
  by_cases filled : l.constructive
  · rw [if_pos filled, if_pos filled]
    by_cases seen : sees (l.visibility.elim .unrestricted (·.content))
    · rw [if_pos seen]
      cases hides : l.hidesFor options sees .existence with
      | nil => simp [seen, contentsFor]
      | cons label labels =>
          by_cases included : options.includeHidden <;> simp [included, contentsFor]
    · rw [if_neg seen, if_neg fun h => seen h.1]
  · rw [if_neg filled, if_neg filled]
    rfl

end Shown

end Ledger

/-! ### The status of an element -/

namespace View

theorem keepsBack_iff (v : View) {applied : List (Ranked Record)}
    (distinct : (applied.map (·.rank)).Nodup) :
    v.KeepsBack applied ↔
      ¬(v.held.sees ((Ledger.ofRecords applied).visibility.elim .unrestricted (·.content)) ∧
        (Ledger.ofRecords applied).hidesFor v.options v.held.sees .existence = []) := by
  unfold KeepsBack
  simp only [Ledger.carries_iff distinct, exists_eq_left', not_and_or]
  refine or_congr_right ?_
  rw [List.eq_nil_iff_forall_not_mem, not_forall]
  refine exists_congr fun label => ?_
  rw [not_not, Ledger.mem_hidesFor_iff, Ledger.hideStands_existence_iff distinct]

/-- **The status of an element, case by case.**  It is deleted if a deletion is in force; otherwise
it is initial if nothing created or filled it, hidden if it is kept from the caller, and live if it
is not.  Of a deleted element only the time of the deletion in force is shown. -/
theorem foldElement_status (v : View) (element : Element) (records : List Record)
    (own : ∀ r ∈ records, r.element = element) :
    let applied := v.entries 0 records
    ∃ state, v.foldElement element records = .ok state ∧
      (state.status = .deleted ↔ ∃ d, DeletedBy applied d) ∧
      (∀ d, DeletedBy applied d →
        state.softDeletedAt = some d.content.effectiveTime ∧ state.properties = [] ∧
          state.edges = [] ∧ state.hiddenBy = []) ∧
      ((¬∃ d, DeletedBy applied d) →
        state.softDeletedAt = none ∧
        (state.status = .initial ↔ ∀ e ∈ applied, e.content.fills = false) ∧
        ((∃ e ∈ applied, e.content.fills) →
          (state.status = .hidden ↔ v.KeepsBack applied) ∧
          (state.status = .live ↔ ¬v.KeepsBack applied))) := by
  intro applied
  have distinct : (applied.map (·.rank)).Nodup := nodup_ranks_entries 0 records
  have deleted := Ledger.isDeleted_ofRecords_iff distinct
  have filled : (Ledger.ofRecords applied).constructive ↔ ∃ e ∈ applied, e.content.fills := by
    rw [Ledger.constructive_ofRecords, List.any_eq_true]
  refine ⟨v.stateOf element records, foldElement_eq v own, ?_, ?_, ?_⟩
  · rw [← deleted]
    constructor
    · intro status
      by_contra alive
      have other := Ledger.status_stateFor _ v.options v.held.sees element v.asOf alive
      rw [stateOf] at status
      rw [status] at other
      split at other
      · split at other <;> cases other
      · cases other
    · intro h
      rw [stateOf, Ledger.stateFor_of_isDeleted _ _ _ _ _ h]
  · intro d hd
    have h := deleted.2 ⟨d, hd⟩
    rw [stateOf, Ledger.stateFor_of_isDeleted _ _ _ _ _ h]
    refine ⟨?_, rfl, rfl, rfl⟩
    rw [← time_of_mem hd.1.mem]
    exact congrArg (Option.map (·.time)) (Ledger.deleted_of_deletedBy distinct hd)
  · intro alive
    rw [← deleted] at alive
    have status := Ledger.status_stateFor _ v.options v.held.sees element v.asOf alive
    refine ⟨Ledger.softDeletedAt_stateFor _ _ _ _ _ alive, ?_, fun fills => ?_⟩
    · rw [stateOf, status]
      by_cases fills : (Ledger.ofRecords applied).constructive
      · rw [if_pos fills]
        refine iff_of_false (by split <;> simp) fun none => ?_
        obtain ⟨e, mem, h⟩ := filled.1 fills
        rw [none e mem] at h
        exact absurd h (by simp)
      · rw [if_neg fills]
        refine iff_of_true rfl fun e mem => ?_
        by_contra h
        exact fills (filled.2 ⟨e, mem, by simpa using h⟩)
    · rw [stateOf, status, if_pos (filled.2 fills), keepsBack_iff v distinct, not_not]
      split
      · next shown => exact ⟨by simp [shown], by simp [shown]⟩
      · next shown => exact ⟨by simp [shown], by simp [shown]⟩

/-- An element that was hidden, deleted under a label that the caller fails, and created again at
the moment of the deletion. -/
theorem foldElement_status_of_recreation :
    let v : View := ⟨{}, .empty, some 5⟩
    let vertex : Element := ⟨.vertex, "v"⟩
    let secret : Visibility := ⟨"secret", by decide⟩
    let created : Record := ⟨⟨vertex, .existence, 1, .unrestricted, .create none, 1⟩, rfl⟩
    let hidden : Record := ⟨⟨vertex, .existence, 2, .unrestricted, .hide secret none, 2⟩, rfl⟩
    let deleted : Record := ⟨⟨vertex, .existence, 3, secret, .softDelete 5, 3⟩, rfl⟩
    let again : Record := ⟨⟨vertex, .existence, 5, .unrestricted, .create none, 4⟩, rfl⟩
    let records := [again, deleted, hidden, created]
    let applied := v.entries 0 records
    (∀ r ∈ records, r.element = vertex) ∧
      ∃ state, v.foldElement vertex records = .ok state ∧
        (state.status = .deleted ↔ ∃ d, DeletedBy applied d) ∧
        (∀ d, DeletedBy applied d →
          state.softDeletedAt = some d.content.effectiveTime ∧ state.properties = [] ∧
            state.edges = [] ∧ state.hiddenBy = []) ∧
        ((¬∃ d, DeletedBy applied d) →
          state.softDeletedAt = none ∧
          (state.status = .initial ↔ ∀ e ∈ applied, e.content.fills = false) ∧
          ((∃ e ∈ applied, e.content.fills) →
            (state.status = .hidden ↔ v.KeepsBack applied) ∧
            (state.status = .live ↔ ¬v.KeepsBack applied))) := by
  intro v vertex secret created hidden deleted again records applied
  have own : ∀ r ∈ records, r.element = vertex := by decide
  exact ⟨own, foldElement_status v vertex records own⟩

end View

end GraphLog
