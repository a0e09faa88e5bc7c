/-
**Histories without a cache, and what different callers are told of one.**

A history asks a cache which records it may tell of, and puts the events of these in the order of
their places.  Events that have different places can be put in order in one way only, so it does not
matter in which order their records come.

The history of a caller is made from the records that the caller may see, and put in order
afterwards.  It could as well be cut out of the history of all records, because events of one place
stay in the order in which they come: events in order are determined by the events of each place.
So a caller is told the events that the verdicts on the whole history allow, and a caller who holds
more tokens is told these and perhaps others in between.

Main results:

* `GraphLog.History.ofRecords_eq` — **a history tells of the records that the caller may see**;
* `GraphLog.History.ofEvents_congr` — events with different places have one order;
* `GraphLog.History.ofRecords_congr` — a history depends on the set of its records if these arrived
  with different numbers;
* `GraphLog.History.filter_id_ofEvents` — events of one place stay in the order in which they come;
* `GraphLog.History.eq_of_ordered` — events in order are determined by those of each place;
* `GraphLog.History.filter_ofEvents` — leaving out events commutes with putting them in order;
* `GraphLog.History.annotate_eq` — verdicts beside events, without a cache;
* `GraphLog.History.events_ofRecords` — **the history of all records, and what callers are told of
  it**.
-/

import Mathlib.Data.List.Nodup
import GraphLog.History
import GraphLog.Proofs.Label.Meaning
import GraphLog.Proofs.Verdicts

set_option relaxedAutoImplicit false
set_option autoImplicit false

namespace GraphLog.History

open Std (TransCmp LawfulEqCmp OrientedCmp ReflCmp)

/-! ### Histories without a cache -/

/-- **A history tells of the records that the caller may see**, or of all if nobody asks in
particular. -/
theorem ofRecords_eq (options : FoldOptions) (caller : Option Authorizations)
    (records : List Record) :
    ofRecords options caller records =
      ofEvents ((records.filter fun r => caller.all (·.sees r.visibility)).map Event.mk) := by
  cases caller with
  | none => simp [ofRecords]
  | some held =>
      have told : options.judge held (records.filterM fun (r : Record) => r.visibility.judged) =
          records.filter fun r => held.sees r.visibility :=
        options.judge_eq (Judged.Gives.filterM fun r _ => .judged r.visibility)
      simp only [ofRecords, told, Option.all_some]

theorem ofEvents_perm (events : List Event) : (ofEvents events).events.Perm events :=
  List.mergeSort_perm ..

/-- **Events with different places have one order**, whatever the one in which `ofEvents` gets
them. -/
theorem ofEvents_congr {es fs : List Event} (perm : es.Perm fs)
    (distinct : ∀ a ∈ es, ∀ b ∈ es, a.id = b.id → a = b) : ofEvents es = ofEvents fs := by
  ext1
  refine List.Perm.eq_of_pairwise (fun a b ha hb le ge => ?_) (ofEvents es).ordered
    (ofEvents fs).ordered ((ofEvents_perm es).trans (perm.trans (ofEvents_perm fs).symm))
  have ha := (ofEvents_perm es).mem_iff.1 ha
  have hb := perm.mem_iff.2 ((ofEvents_perm fs).mem_iff.1 hb)
  exact distinct a ha b hb (LawfulEqCmp.eq_of_compare (OrientedCmp.isLE_antisymm le ge))

/-- A history does not depend on the order of records that arrived with different numbers. -/
theorem ofRecords_congr (options : FoldOptions) (caller : Option Authorizations)
    {rs ss : List Record} (perm : rs.Perm ss) (distinct : (rs.map (·.sequence)).Nodup) :
    ofRecords options caller rs = ofRecords options caller ss := by
  rw [ofRecords_eq, ofRecords_eq]
  refine ofEvents_congr ((perm.filter _).map _) ?_
  intro a ha b hb places
  obtain ⟨r, hr, rfl⟩ := List.mem_map.1 ha
  obtain ⟨s, hs, rfl⟩ := List.mem_map.1 hb
  have numbers : r.sequence = s.sequence := congrArg EventId.sequence places
  rw [List.inj_on_of_nodup_map distinct (List.mem_filter.1 hr).1 (List.mem_filter.1 hs).1 numbers]

/-! ### Events in order -/

/-- Events of one place stay in the order in which they come, because the sorting is stable. -/
theorem filter_id_ofEvents (events : List Event) (place : EventId) :
    (ofEvents events).events.filter (·.id = place) = events.filter (·.id = place) := by
  have alike : Ordered (events.filter (·.id = place)) := by
    refine List.pairwise_filter.2 (List.pairwise_of_forall fun a b ha hb => ?_)
    rw [of_decide_eq_true ha, of_decide_eq_true hb]
    exact ReflCmp.isLE_rfl
  -- Events of one place are in order as they are, so sorting keeps them as a sublist.
  have kept : (events.filter (·.id = place)).Sublist (ofEvents events).events :=
    List.sublist_mergeSort (fun _ _ _ => TransCmp.isLE_trans) isLE_or_isLE alike
      List.filter_sublist
  have sublist := kept.filter (·.id = place)
  rw [List.filter_filter] at sublist
  simp only [Bool.and_self] at sublist
  exact (sublist.eq_of_length ((ofEvents_perm events).filter _).length_eq.symm).symm

theorem mem_iff_of_filter_id {es fs : List Event}
    (alike : ∀ place, es.filter (·.id = place) = fs.filter (·.id = place)) (e : Event) :
    e ∈ es ↔ e ∈ fs := by
  have same := congrArg (e ∈ ·) (alike e.id)
  simpa using same

/-- Events that are `Ordered` are determined by those of each place. -/
theorem eq_of_ordered {es fs : List Event} (ordered : Ordered es) (ordered' : Ordered fs)
    (alike : ∀ place, es.filter (·.id = place) = fs.filter (·.id = place)) : es = fs := by
  induction es generalizing fs with
  | nil =>
      cases fs with
      | nil => rfl
      | cons f fs =>
          have mem := mem_iff_of_filter_id alike
          simpa using (mem f).2 List.mem_cons_self
  | cons e es ih =>
      have mem := mem_iff_of_filter_id alike
      cases fs with
      | nil => simpa using (mem e).1 List.mem_cons_self
      | cons f fs =>
          obtain ⟨first, behind⟩ := List.pairwise_cons.1 ordered
          obtain ⟨first', behind'⟩ := List.pairwise_cons.1 ordered'
          -- Each of the two first events is at the place of the other or behind it.
          have le : (compare e.id f.id).isLE := by
            rcases List.mem_cons.1 ((mem f).2 List.mem_cons_self) with rfl | later
            · exact ReflCmp.isLE_rfl
            · exact first f later
          have ge : (compare f.id e.id).isLE := by
            rcases List.mem_cons.1 ((mem e).1 List.mem_cons_self) with rfl | later
            · exact ReflCmp.isLE_rfl
            · exact first' e later
          have place : e.id = f.id :=
            LawfulEqCmp.eq_of_compare (OrientedCmp.isLE_antisymm le ge)
          obtain rfl : e = f := by
            have here := alike e.id
            simp only [List.filter_cons, place, decide_true, if_true] at here
            exact (List.cons.inj here).1
          have rest : ∀ place, es.filter (·.id = place) = fs.filter (·.id = place) := by
            intro place
            have here := alike place
            simp only [List.filter_cons] at here
            split at here
            · exact (List.cons.inj here).2
            · exact here
          rw [ih behind behind' rest]

/-- Leaving out events commutes with `ofEvents`. -/
theorem filter_ofEvents (p : Event → Bool) (events : List Event) :
    (ofEvents events).events.filter p = (ofEvents (events.filter p)).events := by
  refine eq_of_ordered ((ofEvents events).ordered.filter p) (ofEvents _).ordered fun place => ?_
  rw [filter_id_ofEvents, List.filter_comm, filter_id_ofEvents, List.filter_comm]

/-! ### What callers are told -/

theorem annotate_eq (options : FoldOptions) (held : Authorizations) (events : List Event) :
    annotate options held events = events.map fun e => ⟨e, held.sees e.record.visibility⟩ := by
  refine options.judge_eq (Judged.Gives.mapM fun e _ => ?_)
  exact .bind (.judged e.record.visibility) (.pure _)

/-- A caller is told the events of the whole history that the caller may see. -/
theorem ofRecords_some (options : FoldOptions) (held : Authorizations) (records : List Record) :
    (ofRecords options (some held) records).events =
      (ofRecords options none records).events.filter fun e => held.sees e.record.visibility := by
  rw [ofRecords_eq, ofRecords_eq, filter_ofEvents, List.filter_map]
  simp only [Option.all_some, Option.all_none, List.filter_true]
  rfl

/-- **The history of all records, and what callers are told of it.**  It has just the events of the
records, in ascending order of their places, where events of one place come as their records do.  A
caller is told those among them whose labels the caller satisfies, and these are the events that are
marked as visible to the caller beside the whole history.  Whoever holds more tokens is told the
same events, and perhaps others in between. -/
theorem events_ofRecords (options options' : FoldOptions) (held : Authorizations)
    (records : List Record) :
    let whole := ofRecords options none records
    let told := ofRecords options (some held) records
    whole.events.Perm (records.map Event.mk) ∧
      whole.events.Pairwise (fun a b => (compare a.id b.id).isLE) ∧
      (∀ place, whole.events.filter (·.id = place) =
        (records.map Event.mk).filter (·.id = place)) ∧
      told.events = whole.events.filter (fun e => held.sees e.record.visibility) ∧
      told.events = ((annotate options' held whole.events).filter (·.visible)).map (·.event) ∧
      ∀ more : Authorizations, held ⊆ more →
        told.events.Sublist (ofRecords options (some more) records).events := by
  intro whole told
  have sorted : whole = ofEvents (records.map Event.mk) := rfl
  have seen : told.events = whole.events.filter fun e => held.sees e.record.visibility :=
    ofRecords_some options held records
  refine ⟨ofEvents_perm _, whole.ordered, filter_id_ofEvents _, seen, ?_, ?_⟩
  · rw [seen, annotate_eq, List.filter_map, List.map_map]
    exact (List.map_id _).symm
  · intro more subset
    rw [seen, ofRecords_some]
    exact List.monotone_filter_right _ fun e => Authorizations.sees_of_subset subset

/-- Two values that share a place, one of them secret, and an earlier creation that comes last. -/
theorem events_ofRecords_of_shared_place :
    let options : FoldOptions := {}
    let options' : FoldOptions := { memoizeLabels := false }
    let held := Authorizations.ofList ["a"]
    let more := Authorizations.ofList ["a", "b"]
    let vertex : Element := ⟨.vertex, "v"⟩
    let age : Slot := .property "k" "age" .unrestricted
    let open' : Visibility := ⟨"a|b", by decide⟩
    let secret : Visibility := ⟨"a&b", by decide⟩
    let records : List Record :=
      [⟨⟨vertex, age, 5, secret, .setValue (.int 1) [], 0⟩, rfl⟩,
        ⟨⟨vertex, age, 5, open', .setValue (.int 2) [], 0⟩, rfl⟩,
        ⟨⟨vertex, .existence, 1, .unrestricted, .create none, 0⟩, rfl⟩]
    let whole := ofRecords options none records
    let told := ofRecords options (some held) records
    held ⊆ more ∧
      whole.events.Perm (records.map Event.mk) ∧
      whole.events.Pairwise (fun a b => (compare a.id b.id).isLE) ∧
      (∀ place, whole.events.filter (·.id = place) =
        (records.map Event.mk).filter (·.id = place)) ∧
      told.events = whole.events.filter (fun e => held.sees e.record.visibility) ∧
      told.events = ((annotate options' held whole.events).filter (·.visible)).map (·.event) ∧
      told.events.Sublist (ofRecords options (some more) records).events := by
  intro options options' held more vertex age open' secret records whole told
  have subset : held ⊆ more := by
    intro token h
    simp only [held, more, Authorizations.holds_ofList, List.contains_iff_mem] at h ⊢
    exact List.mem_append_left ["b"] h
  obtain ⟨perm, ordered, places, seen, marked, monotone⟩ :=
    events_ofRecords options options' held records
  exact ⟨subset, perm, ordered, places, seen, marked, monotone more subset⟩

end GraphLog.History
