/-
**What every state of an element satisfies.**

A state has many parts, and they are not independent of each other.  Its lists are in order and
name nothing twice; it shows nothing that the caller may not see, and nothing that is later than the
last change; a status goes with a time of deletion, with hides or with contents, or with none of
them; and what belongs to edges is found on edges, what belongs to vertices on vertices.  None of
this is checked when a state is made.  It holds because each part is read off registers that only
records write to, and because records obey rules of their own: an edge is listed under the name that
its record gives it, and that is the name of the slot, by which the registers are ordered.

Main definitions:

* `GraphLog.ElementState.InOrder`, `GraphLog.ElementState.Visible`, `GraphLog.ElementState.Dated`,
  `GraphLog.ElementState.Staged`, `GraphLog.ElementState.OfKind` — the parts of the invariant;
* `GraphLog.ElementState.Coherent` — **the invariant of states**;
* `GraphLog.View.Returns` — a state is the result of a fold, in whichever way it is made;
* `GraphLog.View.AddsUpTo` — a state is what some records of one element add up to.

Main results:

* `GraphLog.Ledger.exists_lastModified`, `GraphLog.Ledger.exists_of_lastModified` — the last change
  is that of some record, and no record is later;
* `GraphLog.View.coherent_stateOf` — what records add up to is coherent;
* `GraphLog.View.Returns.addsUpTo` — every fold gives what some records of one element add up to;
* `GraphLog.View.coherent_of_returns` — **every state that a fold returns is coherent**.
-/

import GraphLog.Log
import GraphLog.Proofs.Attempts
import GraphLog.Proofs.Endpoints
import GraphLog.Proofs.Hides
import GraphLog.Proofs.Lifecycle
import GraphLog.Proofs.Metadata

set_option relaxedAutoImplicit false
set_option autoImplicit false

namespace GraphLog

open Ranked (highest)

/-! ### The invariant -/

namespace ElementState

/-- The lists of a state go up, so that nothing is listed twice. -/
structure InOrder (state : ElementState) : Prop where
  /-- Properties go up by key, name and label. -/
  properties : state.properties.Pairwise fun p q => p.order q = .lt
  /-- The metadata of each property goes up by key and label. -/
  metadata : ∀ p ∈ state.properties, p.metadata.Pairwise fun m n => m.order n = .lt
  /-- Edges go up by id and direction. -/
  edges : state.edges.Pairwise fun e f => e.order f = .lt
  /-- The labels of hides go up. -/
  hiddenBy : state.hiddenBy.Pairwise fun a b => compare a b = .lt

/-- A caller satisfies the label of all that is shown. -/
structure Visible (state : ElementState) (held : Authorizations) : Prop where
  /-- The labels of properties are satisfied. -/
  properties : ∀ p ∈ state.properties, held.sees p.visibility
  /-- The labels of metadata entries are satisfied. -/
  metadata : ∀ p ∈ state.properties, ∀ m ∈ p.metadata, held.sees m.visibility
  /-- The labels of edges are satisfied. -/
  edges : ∀ e ∈ state.edges, held.sees e.visibility

/-- Nothing is later than the last change, and that is within the horizon. -/
structure Dated (state : ElementState) (asOf : Option Int64) : Prop where
  /-- No property is later than the last change. -/
  properties : ∀ p ∈ state.properties, ∃ last ∈ state.lastModified, p.timestamp ≤ last
  /-- No metadata entry is later than the last change. -/
  metadata : ∀ p ∈ state.properties, ∀ m ∈ p.metadata,
    ∃ last ∈ state.lastModified, m.timestamp ≤ last
  /-- No edge is later than the last change. -/
  edges : ∀ e ∈ state.edges, ∃ last ∈ state.lastModified, e.timestamp ≤ last
  /-- The deletion is not later than the last change. -/
  deletion : ∀ time ∈ state.softDeletedAt, ∃ last ∈ state.lastModified, time ≤ last
  /-- The last change is not behind the horizon. -/
  horizon : ∀ last ∈ state.lastModified, ∀ moment ∈ asOf, last ≤ moment

/-- The status of a state agrees with its other parts. -/
structure Staged (state : ElementState) : Prop where
  /-- A time of deletion is given for what is deleted, and for nothing else. -/
  deleted_iff : state.status = .deleted ↔ state.softDeletedAt.isSome
  /-- A live element meets no hide. -/
  live : state.status = .live → state.hiddenBy = []
  /-- What was never filled, is deleted, or is hidden by its own label, shows no contents. -/
  bare : state.status = .initial ∨ state.status = .deleted ∨
      state.status = .hidden ∧ state.hiddenBy = [] →
    state.properties = [] ∧ state.edges = []

/-- What a state shows suits the kind of its element. -/
structure OfKind (state : ElementState) : Prop where
  /-- Endpoints belong to edges. -/
  endpoints : state.endpoints ≠ none → state.element.kind = .edge
  /-- Incident edges belong to vertices. -/
  edges : state.edges ≠ [] → state.element.kind = .vertex

/-- **The invariant of states**, for the caller and the horizon of a view. -/
structure Coherent (state : ElementState) (v : View) : Prop where
  inOrder : state.InOrder
  visible : state.Visible v.held
  dated : state.Dated v.asOf
  staged : state.Staged
  ofKind : state.OfKind

end ElementState

/-! ### What a ledger says -/

/-- Edges are attached to vertices only. -/
theorem Record.kind_of_edge? {slot : Slot} {r : Record} {incidence : Incidence}
    (h : r.edge? slot = some (some incidence)) : r.element.kind = .vertex := by
  have target := r.checkTarget_eq_ok
  rcases r with ⟨⟨element, place, time, v, m, n⟩, valid⟩
  cases m with
  | attachEdge attached =>
      cases place with
      | existence | property => cases target
      | adjacency edge direction =>
          simp only [Draft.checkTarget] at target
          split at target
          · cases target
          · next vertex => exact Decidable.not_not.1 vertex
  | _ => simp [edge?] at h

namespace Ledger

section Times

variable {applied : List (Ranked Record)}

/-- No record is later than the last change that `stateOf` shows. -/
theorem exists_lastModified {e : Ranked Record} (mem : e ∈ applied) :
    ∃ last ∈ (ofRecords applied).lastModified, e.rank.time ≤ last := by
  rw [lastModified_ofRecords]
  cases found : highest (fun _ => true) applied with
  | none => exact absurd (Ranked.leading_eq_none_iff.1 found e mem) (by simp)
  | some top =>
      have le := (Ranked.isHighest_of_highest found).le e mem rfl
      exact ⟨top.rank.time, rfl, Rank.time_le_of_le le⟩

/-- The last change is that of some record. -/
theorem exists_of_lastModified {last : Int64} (h : last ∈ (ofRecords applied).lastModified) :
    ∃ e ∈ applied, e.rank.time = last := by
  rw [lastModified_ofRecords] at h
  obtain ⟨top, found, time⟩ := Option.map_eq_some_iff.1 h
  exact ⟨top, (Ranked.isHighest_of_highest found).mem, time⟩

end Times

section States

variable (l : Ledger) (options : FoldOptions) (sees : Visibility → Bool) (element : Element)
  (asOf : Option Int64)

theorem lastModified_stateFor :
    (l.stateFor options sees element asOf).lastModified = l.lastModified := by
  obtain ⟨_, _, _, _, _, same⟩ := l.exists_stateFor_eq options sees element asOf
  rw [same]
  rfl

/-- The time of a deletion is that of the deletion in force. -/
theorem softDeletedAt_eq :
    (l.stateFor options sees element asOf).softDeletedAt =
      if l.isDeleted then l.deleted.map (·.time) else none := by
  split
  · next deleted => rw [l.stateFor_of_isDeleted options sees element asOf deleted]
  · next alive => exact l.softDeletedAt_stateFor options sees element asOf alive

theorem status_eq_deleted_iff :
    (l.stateFor options sees element asOf).status = .deleted ↔ l.isDeleted := by
  by_cases deleted : l.isDeleted
  · rw [l.stateFor_of_isDeleted options sees element asOf deleted]
    exact iff_of_true rfl deleted
  · rw [l.status_stateFor options sees element asOf deleted]
    refine iff_of_false ?_ deleted
    split
    · split <;> decide
    · decide

/-- What `isDeleted` has a deletion. -/
theorem isSome_deleted_of_isDeleted (deleted : l.isDeleted) : l.deleted.isSome := by
  unfold isDeleted at deleted
  cases h : l.deleted with
  | none => simp [h] at deleted
  | some rank => rfl

/-- The states of a ledger are `Staged`: their status agrees with their other parts. -/
theorem staged_stateFor : (l.stateFor options sees element asOf).Staged := by
  obtain ⟨isOpen, properties, edges⟩ := l.contents_stateFor options sees element asOf
  refine ⟨?_, fun live => ?_, fun closed => ?_⟩
  · rw [status_eq_deleted_iff, softDeletedAt_eq]
    by_cases deleted : l.isDeleted
    · rw [if_pos deleted, Option.isSome_map]
      exact iff_of_true deleted (l.isSome_deleted_of_isDeleted deleted)
    · rw [if_neg deleted]
      exact iff_of_false deleted Bool.false_ne_true
  · rw [hiddenBy_stateFor]
    split
    · next seen =>
      rw [l.stateFor_eq_of_isSeen options sees element asOf seen] at live
      cases hides : l.hidesFor options sees .existence with
      | nil => rfl
      | cons hide others =>
          rw [hides] at live
          dsimp only at live
          split at live <;> cases live
    · rfl
  · have shut : ¬l.opens options sees := by
      rw [← isOpen]
      rintro (live | ⟨hidden, hides, -⟩)
      · rw [live] at closed
        simp at closed
      · rw [hidden] at closed
        exact hides (by simpa using closed)
    rw [properties, edges, if_neg shut, if_neg shut]
    exact ⟨rfl, rfl⟩

end States

end Ledger

/-! ### What records add up to -/

namespace View

variable (v : View) (element : Element) (records : List Record)

theorem inOrder_stateOf : (v.stateOf element records).InOrder := by
  have distinct : ((v.entries 0 records).map (·.rank)).Nodup := nodup_ranks_entries 0 records
  let l := Ledger.ofRecords (v.entries 0 records)
  obtain ⟨-, properties, edges⟩ := l.contents_stateFor v.options v.held.sees element v.asOf
  refine ⟨?_, fun p mem => ?_, ?_, ?_⟩
  · rw [stateOf, properties]
    split
    · exact Ledger.ordered_propertiesFor
    · exact .nil
  · have listed := l.properties_stateFor_subset v.options v.held.sees element v.asOf mem
    obtain ⟨w, -, -, -, -, metadata⟩ := (Ledger.mem_propertiesFor_iff distinct v).1 listed
    rw [metadata]
    exact Ledger.ordered_metadataFor _
  · rw [stateOf, edges]
    split
    · exact Ledger.ordered_edgesFor distinct v
    · exact .nil
  · rw [stateOf, Ledger.hiddenBy_stateFor]
    split
    · exact l.ordered_hidesFor ..
    · exact .nil

/-- What is shown is shown of a record that counts, one of the `entries`, and the caller satisfies
its label. -/
theorem exists_entry_of_property {p : PropertyState}
    (mem : p ∈ (v.stateOf element records).properties) :
    (∃ w ∈ v.entries 0 records, p.timestamp = w.rank.time) ∧ v.held.sees p.visibility ∧
      ∀ m ∈ p.metadata,
        (∃ x ∈ v.entries 0 records, m.timestamp = x.rank.time) ∧ v.held.sees m.visibility := by
  have distinct : ((v.entries 0 records).map (·.rank)).Nodup := nodup_ranks_entries 0 records
  have listed := Ledger.properties_stateFor_subset _ v.options v.held.sees element v.asOf mem
  obtain ⟨w, wins, shows, -, time, metadata⟩ := (Ledger.mem_propertiesFor_iff distinct v).1 listed
  refine ⟨⟨w, wins.highest.mem, time⟩, shows.seen, fun m here => ?_⟩
  rw [metadata] at here
  obtain ⟨x, written, -, seen, time⟩ := (Ledger.mem_metadataFor_iff distinct).1 here
  exact ⟨⟨x, written.highest.mem, time⟩, seen⟩

/-- The same of an edge, which is attached to a vertex. -/
theorem exists_entry_of_edge {e : EdgeState} (mem : e ∈ (v.stateOf element records).edges) :
    (∃ w ∈ v.entries 0 records, w.content.element.kind = .vertex ∧ e.timestamp = w.rank.time) ∧
      v.held.sees e.visibility := by
  have distinct : ((v.entries 0 records).map (·.rank)).Nodup := nodup_ranks_entries 0 records
  have listed := Ledger.edges_stateFor_subset _ v.options v.held.sees element v.asOf mem
  obtain ⟨w, wins, shows, -, time⟩ := (Ledger.mem_edgesFor_iff distinct v).1 listed
  exact ⟨⟨w, wins.highest.mem, Record.kind_of_edge? wins.writes, time⟩, shows.seen⟩

theorem visible_stateOf : (v.stateOf element records).Visible v.held where
  properties _ mem := (v.exists_entry_of_property element records mem).2.1
  metadata _ mem m here := ((v.exists_entry_of_property element records mem).2.2 m here).2
  edges _ mem := (v.exists_entry_of_edge element records mem).2

theorem dated_stateOf : (v.stateOf element records).Dated v.asOf := by
  have changed : (v.stateOf element records).lastModified =
      (Ledger.ofRecords (v.entries 0 records)).lastModified := Ledger.lastModified_stateFor ..
  -- no record that counts is later than the last change
  have before : ∀ time, (∃ w ∈ v.entries 0 records, time = w.rank.time) →
      ∃ last ∈ (v.stateOf element records).lastModified, time ≤ last := by
    rintro _ ⟨w, mem, rfl⟩
    rw [changed]
    exact Ledger.exists_lastModified mem
  refine ⟨fun p mem => ?_, fun p mem m here => ?_, fun e mem => ?_, fun time deleted => ?_,
    fun last last_mem moment bound => ?_⟩
  · exact before _ (v.exists_entry_of_property element records mem).1
  · exact before _ ((v.exists_entry_of_property element records mem).2.2 m here).1
  · obtain ⟨⟨w, applied, -, time⟩, -⟩ := v.exists_entry_of_edge element records mem
    exact before _ ⟨w, applied, time⟩
  · rw [stateOf, Ledger.softDeletedAt_eq] at deleted
    split at deleted
    · rw [Ledger.deleted_ofRecords, Option.map_map] at deleted
      obtain ⟨d, found, time⟩ := Option.map_eq_some_iff.1 deleted
      exact before _ ⟨d, (Ranked.isHighest_of_highest found).mem, time.symm⟩
    · cases deleted
  · rw [changed] at last_mem
    obtain ⟨w, mem, rfl⟩ := Ledger.exists_of_lastModified last_mem
    have counts := (exists_mem_entries_iff.1 ⟨w, mem, rfl⟩).2
    rw [time_of_mem mem]
    have within : v.isBeyond w.content.effectiveTime = false := by
      simpa using (Bool.and_eq_true_iff.1 counts).1
    rw [isBeyond, Option.mem_def.1 bound, decide_eq_false_iff_not] at within
    exact Int64.not_lt.1 within

variable {element records} (own : ∀ r ∈ records, r.element = element)

include own

theorem ofKind_stateOf : (v.stateOf element records).OfKind := by
  have kind : (v.stateOf element records).element.kind = element.kind := by
    rw [element_stateOf]
  refine ⟨fun present => ?_, fun present => ?_⟩
  · rw [kind]
    rw [endpoints_stateOf, ne_eq, Option.bind_eq_none_iff, not_forall] at present
    obtain ⟨r, present⟩ := present
    obtain ⟨found, brings⟩ := Classical.not_imp.1 present
    obtain ⟨e, lowest, rfl⟩ := Option.map_eq_some_iff.1 found
    obtain ⟨mem, -⟩ := exists_mem_entries_iff.1 ⟨e, (Ranked.leading_eq_some lowest).1, rfl⟩
    rw [← own _ mem]
    exact (Record.isSome_endpoints?_iff.1 (Option.isSome_iff_ne_none.2 brings)).2
  · rw [kind]
    obtain ⟨e, here⟩ := List.exists_mem_of_ne_nil _ present
    obtain ⟨⟨w, applied, vertex, -⟩, -⟩ := v.exists_entry_of_edge element records here
    rw [← own _ (exists_mem_entries_iff.1 ⟨w, applied, rfl⟩).1]
    exact vertex

/-- What records of an element add up to is `Coherent`. -/
theorem coherent_stateOf : (v.stateOf element records).Coherent v :=
  ⟨v.inOrder_stateOf element records, v.visible_stateOf element records,
    v.dated_stateOf element records, Ledger.staged_stateFor .., v.ofKind_stateOf own⟩

omit own

/-! ### What folds return -/

/-- **A state is the result of a fold under a view**: of records or of deliveries, of one element or
of all, or of a log that has the rules of the view. -/
inductive Returns : ElementState → Prop where
  | ofElement {element : Element} {records : List Record} {state : ElementState} :
      v.foldElement element records = .ok state → Returns state
  | ofRecords {records : List Record} {state : ElementState} :
      v.fold records = .ok (some state) → Returns state
  | ofPartition {records : List Record} {state : ElementState} :
      state ∈ v.foldPartition records → Returns state
  | ofDeliveries {deliveries : List Delivery} {state : ElementState} :
      v.foldRaw deliveries = .ok (some state) → Returns state
  | ofLog {log : Log} {element : Element} {state : ElementState} :
      log.options = v.options → log.fold v.held v.asOf element = .ok state → Returns state
  | ofLogs {log : Log} {states : List ElementState} {state : ElementState} :
      log.options = v.options → log.foldAll v.held v.asOf = .ok states → state ∈ states →
        Returns state

/-- A state is the `stateOf` some records of one element. -/
def AddsUpTo (state : ElementState) : Prop :=
  ∃ element records, (∀ r ∈ records, r.element = element) ∧ state = v.stateOf element records

section Folds

variable {v : View} {state : ElementState}

theorem addsUpTo_of_foldElement {element : Element} {records : List Record}
    (folds : v.foldElement element records = .ok state) : v.AddsUpTo state := by
  rw [foldElement_eq_map, map_eq_ok_iff] at folds
  obtain ⟨_, passes, rfl⟩ := folds
  exact ⟨element, records, checkAll_eq_ok_iff.1 passes, rfl⟩

theorem addsUpTo_of_fold {records : List Record} (folds : v.fold records = .ok (some state)) :
    v.AddsUpTo state := by
  obtain ⟨first, rest, rfl, others⟩ := v.exists_fold_eq_ok_some_iff.1 ⟨state, folds⟩
  have own : ∀ r ∈ first :: rest, r.element = first.element :=
    List.forall_mem_cons.2 ⟨rfl, others⟩
  rw [fold_eq v own (List.cons_ne_nil first rest)] at folds
  cases folds
  exact ⟨_, _, own, rfl⟩

theorem addsUpTo_of_mem_foldPartition {records : List Record}
    (mem : state ∈ v.foldPartition records) : v.AddsUpTo state := by
  rw [foldPartition_eq] at mem
  obtain ⟨element, -, rfl⟩ := List.mem_map.1 mem
  exact ⟨element, _, fun r mem => of_decide_eq_true (List.mem_filter.1 mem).2, rfl⟩

/-- Every fold gives what some records of one element add up to, so it is enough to know
`stateOf`. -/
theorem Returns.addsUpTo (returned : v.Returns state) : v.AddsUpTo state := by
  cases returned with
  | ofElement folds => exact addsUpTo_of_foldElement folds
  | ofRecords folds => exact addsUpTo_of_fold folds
  | ofPartition mem => exact addsUpTo_of_mem_foldPartition mem
  | ofDeliveries folds =>
      obtain ⟨records, -, folds⟩ := bind_eq_ok_iff.1 folds
      exact addsUpTo_of_fold (mapError_eq_ok_iff.1 folds)
  | ofLog rules folds =>
      obtain ⟨records, -, folds⟩ := bind_eq_ok_iff.1 folds
      rw [rules] at folds
      exact addsUpTo_of_foldElement (mapError_eq_ok_iff.1 folds)
  | ofLogs rules folds mem =>
      obtain ⟨records, -, folds⟩ := bind_eq_ok_iff.1 folds
      cases folds
      rw [rules] at mem
      exact addsUpTo_of_mem_foldPartition mem

end Folds

/-- **Every state that a fold returns is coherent**, whatever the rules, the caller and the
horizon. -/
theorem coherent_of_returns (v : View) (state : ElementState) (returned : v.Returns state) :
    state.Coherent v := by
  obtain ⟨element, records, own, rfl⟩ := returned.addsUpTo
  exact v.coherent_stateOf own

/-- A vertex with two edges and a property, of which the last change is a lifted hide. -/
theorem coherent_of_returns_of_vertex :
    let v : View := ⟨{ includeHidden := true }, .ofList ["a"], some 9⟩
    let vertex : Element := ⟨.vertex, "v"⟩
    let label : Visibility := ⟨"a", by decide⟩
    let age : Slot := .property "k" "age" label
    let inward : Incidence := ⟨"e", .inward, some "knows", "w", .unrestricted⟩
    let outward : Incidence := ⟨"e", .outward, some "knows", "v", label⟩
    let source : MetadataEntry := ⟨"source", .text "import", .unrestricted⟩
    let records : List Record :=
      [⟨⟨vertex, .adjacency "e" .inward, 4, .unrestricted, .attachEdge inward, 1⟩, rfl⟩,
        ⟨⟨vertex, .adjacency "e" .outward, 3, .unrestricted, .attachEdge outward, 2⟩, rfl⟩,
        ⟨⟨vertex, age, 5, label, .setValue (.int 30) [source], 3⟩, rfl⟩,
        ⟨⟨vertex, age, 6, .unrestricted, .unhide label none, 4⟩, rfl⟩]
    ∃ state, v.Returns state ∧ v.foldElement vertex records = .ok state ∧
      state.status = .live ∧ state.lastModified = some 6 ∧
      state.properties.map (·.metadata.length) = [1] ∧ state.edges.length = 2 ∧
      state.Coherent v := by
  intro v vertex label age inward outward source records
  have shows : (v.foldElement vertex records).map (fun s =>
      (s.status, s.lastModified, s.properties.map (·.metadata.length), s.edges.length)) =
      .ok (.live, some 6, [1], 2) := by decide +kernel
  obtain ⟨state, folded, contents⟩ := map_eq_ok_iff.1 shows
  simp only [Prod.mk.injEq] at contents
  obtain ⟨status, changed, metadata, edges⟩ := contents
  have returned : v.Returns state := .ofElement folded
  exact ⟨state, returned, folded, status.symm, changed.symm, metadata.symm, edges.symm,
    coherent_of_returns v state returned⟩

end View

end GraphLog
