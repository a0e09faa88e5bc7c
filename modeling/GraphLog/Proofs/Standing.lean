/-
**What is in force, as the highest-ranked records say.**

A register holds what the highest-ranked of the records that write to it says, and a deletion wipes
whatever it outranks.  Both are said here of the records themselves, so that a statement about what
a caller is shown need not mention a ledger: a record wins a register, it outlasts the deletions,
and a hide is in force on a slot if the record that wins it sets it and outlasts the deletions.

Main definitions:

* `GraphLog.Wins` — a record is the highest-ranked of those that write to a register;
* `GraphLog.Outlasts` — a rank is above the highest-ranked deletion;
* `GraphLog.HideInForce` — a hide is in force on a slot;
* `GraphLog.View.HideActive` — such a hide is for the caller;
* `GraphLog.Record.isQuiet` — a record that only removes, hides or shows again.

Main results:

* `GraphLog.Ledger.bind_write?_eq_some_iff` — **a register holds what the record says that wins
  it**;
* `GraphLog.Ledger.survives_ofRecords_iff`, `GraphLog.Ledger.hideStands_ofRecords_iff` — what a
  ledger says of deletions and hides;
* `GraphLog.Wins.unique` — only one record wins a register;
* `GraphLog.Ledger.ofRecords_filter` — what a ledger is without some of its quiet records.
-/

import GraphLog.Proofs.Agreement

set_option relaxedAutoImplicit false
set_option autoImplicit false

namespace GraphLog

open Ranked (IsHighest highest write?)

/-! ### Winning records -/

section Records

variable {α : Type} (applied : List (Ranked Record))

/-- **A record wins a register**: of those that write to it, it ranks highest, and this is what it
writes. -/
structure Wins (f : Record → Option α) (w : Ranked Record) (content : α) : Prop where
  highest : IsHighest (fun r => (f r).isSome) applied w
  writes : f w.content = some content

/-- A rank outlasts the deletions: it is above the highest-ranked one, if there is one. -/
def Outlasts (rank : Rank) : Prop :=
  ∀ d, IsHighest (·.mutation.isSoftDelete) applied d → d.rank < rank

/-- **A hide is in force on a slot** under a label: of the records that set or lift it there under
just this text, the highest-ranked one sets it, and it outlasts the deletions. -/
def HideInForce (slot : Slot) (label : Visibility) : Prop :=
  ∃ h, Wins applied (Record.hide? ⟨slot, label⟩) h true ∧ Outlasts applied h.rank

/-- Whom a hide is for, by its label: those who fail it, or those who satisfy it. -/
def HideAudience.Concerns (audience : HideAudience) (held : Authorizations) (label : Visibility) :
    Prop :=
  match audience with
  | .nonHolders => ¬held.sees label
  | .holders => held.sees label

/-- **A hide is active on a slot** for a caller: it is in force there, and is for this caller. -/
def View.HideActive (v : View) (slot : Slot) (label : Visibility) : Prop :=
  HideInForce applied slot label ∧ v.options.hideAudience.Concerns v.held label

variable {applied}

/-- Only one record `Wins` a register. -/
theorem Wins.unique (distinct : (applied.map (·.rank)).Nodup) {f : Record → Option α}
    {w x : Ranked Record} {a b : α} (left : Wins applied f w a) (right : Wins applied f x b) :
    w = x := by
  have found := (Ranked.highest_eq_some_iff distinct).2 left.highest
  rw [(Ranked.highest_eq_some_iff distinct).2 right.highest] at found
  exact (Option.some_inj.1 found).symm

end Records

/-- A record that only removes, hides or shows again what stands at a slot: it neither creates nor
fills its element, and neither deletes nor relabels it. -/
def Record.isQuiet (r : Record) : Bool :=
  !r.fills && !r.mutation.isSoftDelete && r.label?.isNone

/-! ### What a ledger says of them -/

namespace Ledger

section Ranks

variable {applied : List (Ranked Record)} (distinct : (applied.map (·.rank)).Nodup)

include distinct

/-- A register holds what the record says that `Wins` it, and has its rank. -/
theorem bind_write?_eq_some_iff {α : Type} {f : Record → Option α} {register : Ranked α} :
    (highest (fun r => (f r).isSome) applied).bind (write? f) = some register ↔
      ∃ w, Wins applied f w register.content ∧ w.rank = register.rank := by
  constructor
  · intro held
    obtain ⟨w, found, written⟩ := Option.bind_eq_some_iff.1 held
    obtain ⟨content, writes, rfl⟩ := Option.map_eq_some_iff.1 written
    exact ⟨w, ⟨Ranked.isHighest_of_highest found, writes⟩, rfl⟩
  · rintro ⟨w, wins, same⟩
    rw [(Ranked.highest_eq_some_iff distinct).2 wins.highest]
    simp [write?, wins.writes, same]

/-- A deletion leaves what `Outlasts` it. -/
theorem survives_ofRecords_iff {rank : Rank} :
    (ofRecords applied).survives rank ↔ Outlasts applied rank := by
  unfold survives Outlasts
  rw [deleted_ofRecords]
  cases found : highest (·.mutation.isSoftDelete) applied with
  | none =>
      have absent := Ranked.leading_eq_none_iff.1 found
      refine ⟨fun _ d hd => ?_, fun _ => rfl⟩
      have none := absent d hd.mem
      rw [hd.has] at none
      exact absurd none (by simp)
  | some d =>
      constructor
      · intro above d' hd'
        rw [← Ranked.highest_eq_some_iff distinct, found] at hd'
        rw [← Option.some_inj.1 hd']
        exact above
      · intro above
        exact above d (Ranked.isHighest_of_highest found)

/-- **A hide stands if it is in force**: `hideStands` is `HideInForce`. -/
theorem hideStands_ofRecords_iff {slot : Slot} {label : Visibility} :
    (ofRecords applied).hideStands ⟨slot, label⟩ ↔ HideInForce applied slot label := by
  unfold hideStands HideInForce
  rw [hides_ofRecords, Option.any_eq_true]
  simp only [bind_write?_eq_some_iff distinct, Bool.and_eq_true, survives_ofRecords_iff distinct]
  constructor
  · rintro ⟨⟨rank, _⟩, ⟨h, wins, rfl⟩, rfl, outlasts⟩
    exact ⟨h, wins, outlasts⟩
  · rintro ⟨h, wins, outlasts⟩
    exact ⟨⟨h.rank, true⟩, ⟨h, wins, rfl⟩, rfl, outlasts⟩

end Ranks

/-- **Removals and hides touch little of a ledger**: without some of them it differs at most in the
registers under keys and in the time of the last change. -/
theorem ofRecords_filter {applied : List (Ranked Record)} {keep : Record → Bool}
    (quiet : ∀ e ∈ applied, keep e.content = false → e.content.isQuiet) :
    let left := ofRecords (applied.filter (keep ·.content))
    left =
      { ofRecords applied with
        lastModified := left.lastModified
        hides := left.hides
        values := left.values
        metadata := left.metadata
        edges := left.edges } := by
  intro left
  -- whatever only loud records have, those that are left out do not have
  have silent {p : Record → Bool} (loud : ∀ r, p r → r.isQuiet = false) :
      ∀ e ∈ applied, keep e.content = false → p e.content = false := by
    intro e mem lost
    refine Bool.eq_false_iff.2 fun has => ?_
    have calm := quiet e mem lost
    rw [loud e.content has] at calm
    cases calm
  have constructive : left.constructive = (ofRecords applied).constructive := by
    rw [constructive_ofRecords, constructive_ofRecords, Ranked.any_eq_isSome_highest,
      Ranked.any_eq_isSome_highest, highest,
      Ranked.leading_filter (silent fun r h => by simp [Record.isQuiet, h])]
  have created : left.created = (ofRecords applied).created := by
    rw [created_ofRecords, created_ofRecords, highest,
      Ranked.leading_filter (silent fun r h => by
        simp [Record.isQuiet, Record.fills_of_isCreation h])]
  have deleted : left.deleted = (ofRecords applied).deleted := by
    rw [deleted_ofRecords, deleted_ofRecords, highest,
      Ranked.leading_filter (silent fun r h => by simp [Record.isQuiet, h])]
  have endpoints : left.endpoints = (ofRecords applied).endpoints := by
    rw [endpoints_ofRecords, endpoints_ofRecords, Ranked.lowest,
      Ranked.leading_filter (silent fun r h => by
        simp [Record.isQuiet, Record.fills_of_isCreation (Record.isCreation_of_endpoints h)])]
  have visibility : left.visibility = (ofRecords applied).visibility := by
    rw [visibility_ofRecords, visibility_ofRecords, highest,
      Ranked.leading_filter (silent fun r h => by
        simp [Record.isQuiet, Option.isNone_eq_false_iff.2 h])]
  simp only [← constructive, ← created, ← deleted, ← endpoints, ← visibility]

variable (l : Ledger) (options : FoldOptions) (sees : Visibility → Bool)

theorem mem_hidesFor_iff {slot : Slot} {label : Visibility} :
    label ∈ l.hidesFor options sees slot ↔
      l.hideStands ⟨slot, label⟩ ∧ options.hideAudience.applies (sees label) := by
  simp only [hidesFor, hidesInForce, List.mem_filter, List.mem_filterMap, hideStands]
  refine and_congr_left fun _ => ?_
  constructor
  · rintro ⟨⟨place, hide⟩, mem, h⟩
    split at h
    · next stands =>
      obtain ⟨rfl, content, survives⟩ := stands
      obtain rfl := Option.some_inj.1 h
      rw [Std.ExtTreeMap.mem_toList_iff_getElem?_eq_some] at mem
      have content : hide.content := content
      simp [mem, content, survives]
    · cases h
  · intro h
    obtain ⟨hide, found, stands⟩ := (Option.any_eq_true _ _).1 h
    refine ⟨(⟨slot, label⟩, hide), Std.ExtTreeMap.mem_toList_iff_getElem?_eq_some.2 found, ?_⟩
    rw [Bool.and_eq_true] at stands
    rw [if_pos ⟨rfl, stands⟩]

/-- The hides that apply to a caller are those that are active: `hidesFor` lists just what is
`HideActive`. -/
theorem mem_hidesFor_ofRecords_iff {applied : List (Ranked Record)}
    (distinct : (applied.map (·.rank)).Nodup) (v : View) {slot : Slot} {label : Visibility} :
    label ∈ (ofRecords applied).hidesFor v.options v.held.sees slot ↔
      v.HideActive applied slot label := by
  rw [mem_hidesFor_iff, hideStands_ofRecords_iff distinct]
  refine and_congr_right fun _ => ?_
  cases v.options.hideAudience <;> simp [HideAudience.applies, HideAudience.Concerns]

end Ledger

end GraphLog
