/-
**A log answers as the records that have arrived do.**

A log keeps raw records in the order of a scan.  As long as the records can be written down, it
gives back the very records that have arrived, each with its number; and because the numbers are
different, a scan can list them in one order only.

What a log is asked for, it works out from the records that it gives back.  These are the records
that have arrived, in another order.  So every answer is the one that the arrived records give by
themselves, in the order of their arrival.

Main definitions:

* `GraphLog.Record.scanOrder` — the order of a scan, on records;
* `GraphLog.Log.Answers` — a log answers as some records do.

Main results:

* `GraphLog.Log.Holds.exists_entries` — the entries of an element are raw forms of its records;
* `GraphLog.Log.Holds.exists_records` — **the records of an element are given back**;
* `GraphLog.Record.pairwise_lt_of_nodup` — a scan lists records with different numbers upwards;
* `GraphLog.Log.Holds.mem_elements` — the elements of a log are those of its records;
* `GraphLog.Log.Holds.fold_eq`, `GraphLog.Log.Holds.foldAll_eq`, `GraphLog.Log.Holds.history_eq` —
  the answers, one by one;
* `GraphLog.Log.run_answers` — **after any run a log answers as the records of the run do.**
-/

import Mathlib.Data.List.Perm.Basic
import GraphLog.Proofs.ArrivalOrder
import GraphLog.Proofs.Histories
import GraphLog.Proofs.Log.Arrival

set_option relaxedAutoImplicit false
set_option autoImplicit false

namespace GraphLog

open Std (LawfulEqCmp)
open Wire (Fits)

/-! ### Reading back -/

/-- The order of a scan: by `slot`, then by the time of writing, then by arrival. -/
def Record.scanOrder : Record → Record → Ordering :=
  compareLex (compareOn (·.slot)) (compareLex (compareOn (·.timestamp)) (compareOn (·.sequence)))

theorem Record.sequence_eq_of_scanOrder_eq {r s : Record} (same : r.scanOrder s = .eq) :
    r.sequence = s.sequence := by
  simp only [scanOrder, compareLex, compareOn, Ordering.then_eq_eq] at same
  exact LawfulEqCmp.eq_of_compare same.2.2

/-- A scan lists records with different numbers strictly upwards. -/
theorem Record.pairwise_lt_of_nodup {rs : List Record}
    (ordered : rs.Pairwise fun a b => (a.scanOrder b).isLE)
    (distinct : (rs.map (·.sequence)).Nodup) :
    rs.Pairwise fun a b => a.scanOrder b = .lt := by
  refine (ordered.and (List.pairwise_map.1 distinct)).imp fun {a b} both => ?_
  obtain ⟨le, ne⟩ := both
  cases compared : a.scanOrder b with
  | lt => rfl
  | eq => exact absurd (sequence_eq_of_scanOrder_eq compared) ne
  | gt => simp [compared] at le

/-- The raw form of a record that has arrived stands for the record, with its number: `decode`
undoes `LogEntry.ofRecord`. -/
theorem LogEntry.decode_ofRecord {r : Record} (fits : Fits r.mutation.lengths) :
    (ofRecord r).decode = .ok r := by
  have raw : (ofRecord r).raw.decode = .ok (r.stamped 0) := RawRecord.decode_ofRecord fits
  rw [decode, raw]
  rfl

namespace Log

variable {log : Log} {arrived : List Record} (holds : log.Holds arrived)

include holds

/-! ### The records of an element -/

/-- The entries of an element are the raw forms of its records, in some order. -/
theorem Holds.exists_entries (e : Element) :
    ∃ rs : List Record, log.entriesOf e = rs.map LogEntry.ofRecord ∧
      rs.Perm (arrived.filter (·.element = e)) := by
  have moved : Relation.Comp (· = List.map LogEntry.ofRecord ·) List.Perm (log.entriesOf e)
      (arrived.filter (·.element = e)) := by
    rw [List.eq_map_comp_perm]
    exact holds.perm e
  exact moved

/-- **The records of an element are given back**, in the order of a scan. -/
theorem Holds.exists_records (fit : ∀ r ∈ arrived, Fits r.mutation.lengths) (e : Element) :
    ∃ rs, log.records e = .ok rs ∧ log.scan e = rs.map RawRecord.ofRecord ∧
      rs.Perm (arrived.filter (·.element = e)) ∧
      rs.Pairwise fun a b => (a.scanOrder b).isLE := by
  obtain ⟨rs, entries, perm⟩ := holds.exists_entries e
  refine ⟨rs, ?_, ?_, perm, ?_⟩
  · have own : ∀ r ∈ rs, r ∈ arrived := fun r mem => List.mem_of_mem_filter (perm.mem_iff.1 mem)
    rw [records, entries, List.mapM_map]
    have read := mapM_eq_ok (g := id) fun r mem => LogEntry.decode_ofRecord (fit r (own r mem))
    rwa [List.map_id] at read
  · rw [scan, entries, List.map_map]
    rfl
  · have ordered := holds.ordered e
    rwa [entries, LogEntry.InOrder, List.pairwise_map] at ordered

/-! ### Elements -/

theorem Holds.mem_elements {e : Element} : e ∈ log.elements ↔ ∃ r ∈ arrived, r.element = e :=
  Std.ExtTreeMap.mem_keys.trans (holds.mem_entries e)

omit holds

theorem ordered_elements (log : Log) :
    log.elements.Pairwise fun a b => compare a b = .lt :=
  Std.ExtTreeMap.ordered_keys

end Log

/-! ### Answers -/

/-- Records with different numbers tell apart what a fold tells apart by time and number. -/
theorem distinguished_of_nodup {records : List Record}
    (distinct : (records.map (·.sequence)).Nodup) : Distinguished records :=
  fun _ hr _ hs _ numbers => List.inj_on_of_nodup_map distinct hr hs numbers

/-- Lists of the same records add up to one state, whatever their order: `stateOf` ranks them by
time and number. -/
theorem View.stateOf_congr (v : View) (e : Element) {as bs : List Record}
    (distinguished : Distinguished as) (same : ∀ r, r ∈ as ↔ r ∈ bs) :
    v.stateOf e as = v.stateOf e bs :=
  (concordant_of_mem_iff distinguished same).agree.stateFor_eq _ _ e v.asOf

namespace Log

variable {log : Log} {arrived : List Record}

/-- The records of an element have different numbers if all records do. -/
theorem nodup_filter (distinct : (arrived.map (·.sequence)).Nodup) (e : Element) :
    ((arrived.filter (·.element = e)).map (·.sequence)).Nodup :=
  distinct.sublist (List.filter_sublist.map _)

theorem element_of_perm {e : Element} {rs : List Record}
    (perm : rs.Perm (arrived.filter (·.element = e))) {r : Record} (mem : r ∈ rs) :
    r.element = e := by
  simpa using (List.mem_filter.1 (perm.mem_iff.1 mem)).2

/-- A fold gives the state of the records that are given back. -/
theorem fold_eq_of_records {e : Element} {rs : List Record} (records : log.records e = .ok rs)
    (own : ∀ r ∈ rs, r.element = e) (held : Authorizations) (asOf : Option Int64) :
    log.fold held asOf e = .ok (View.stateOf ⟨log.options, held, asOf⟩ e rs) := by
  rw [fold, records]
  exact mapError_eq_ok_iff.2 (View.foldElement_eq _ own)

section Asking

variable (holds : log.Holds arrived) (fit : ∀ r ∈ arrived, Fits r.mutation.lengths)
  (distinct : (arrived.map (·.sequence)).Nodup)

include holds fit distinct

/-- **A fold gives the state of the records of the element**, which are all that the log `Holds` of
it. -/
theorem Holds.fold_eq (held : Authorizations) (asOf : Option Int64) (e : Element) :
    log.fold held asOf e =
      .ok (View.stateOf ⟨log.options, held, asOf⟩ e (arrived.filter (·.element = e))) := by
  obtain ⟨rs, records, -, perm, -⟩ := holds.exists_records fit e
  have own : ∀ r ∈ rs, r.element = e := fun r mem => element_of_perm perm mem
  have numbers : (rs.map (·.sequence)).Nodup :=
    (perm.map _).nodup_iff.2 (nodup_filter distinct e)
  have same := View.stateOf_congr ⟨log.options, held, asOf⟩ e (distinguished_of_nodup numbers)
    fun r => perm.mem_iff
  rw [fold_eq_of_records records own, same]

/-- A fold of the whole log gives one state for each element, which is that of its records. -/
theorem Holds.foldAll_eq (held : Authorizations) (asOf : Option Int64) :
    log.foldAll held asOf = .ok (log.elements.map fun e =>
      View.stateOf ⟨log.options, held, asOf⟩ e (arrived.filter (·.element = e))) := by
  choose rs records _ perm _ using holds.exists_records fit
  have all : log.elements.mapM log.records = .ok (log.elements.map rs) :=
    mapM_eq_ok fun e _ => records e
  -- all elements together give back the records that have arrived
  have mem : ∀ r, r ∈ (log.elements.map rs).flatten ↔ r ∈ arrived := by
    intro r
    rw [← List.flatMap_def, List.mem_flatMap]
    simp only [(perm _).mem_iff, List.mem_filter, decide_eq_true_eq]
    constructor
    · rintro ⟨e, -, here, -⟩
      exact here
    · intro here
      exact ⟨r.element, holds.mem_elements.2 ⟨r, here, rfl⟩, here, rfl⟩
  have elements : View.elements (log.elements.map rs).flatten = log.elements := by
    refine View.elements_eq_of_mem_iff log.ordered_elements fun e => ?_
    simp only [holds.mem_elements, mem]
  have each : ∀ e, View.stateOf ⟨log.options, held, asOf⟩ e
        ((log.elements.map rs).flatten.filter (·.element = e)) =
      View.stateOf ⟨log.options, held, asOf⟩ e (arrived.filter (·.element = e)) := by
    intro e
    refine (View.stateOf_congr _ e (distinguished_of_nodup (nodup_filter distinct e))
      fun r => ?_).symm
    simp only [List.mem_filter, mem]
  rw [foldAll, all]
  refine congrArg Except.ok ((View.foldPartition_eq _ _).trans ?_)
  rw [elements]
  exact List.map_congr_left fun e _ => each e

/-- A history is that of the records of the element. -/
theorem Holds.history_eq (caller : Option Authorizations) (e : Element) :
    log.history caller e =
      .ok (.ofRecords log.options caller (arrived.filter (·.element = e))) := by
  obtain ⟨rs, records, -, perm, -⟩ := holds.exists_records fit e
  have same := History.ofRecords_congr log.options caller perm.symm (nodup_filter distinct e)
  rw [history, records, same]
  rfl

end Asking

/-! ### All answers -/

/-- **A log answers as some records do**, which arrived in the order of their list. -/
structure Answers (log : Log) (arrived : List Record) : Prop where
  /-- There are as many entries as records. -/
  size_eq : log.size = arrived.length
  /-- Elements are listed in their order, each once. -/
  ordered_elements : log.elements.Pairwise fun a b => compare a b = .lt
  /-- The elements are those of the records. -/
  mem_elements : ∀ e, e ∈ log.elements ↔ ∃ r ∈ arrived, r.element = e
  /-- The records of an element are given back, unchanged and strictly upwards in the order of a
  scan, and a scan gives their raw forms. -/
  records : ∀ e, ∃ rs, log.records e = .ok rs ∧ log.scan e = rs.map RawRecord.ofRecord ∧
    rs.Perm (arrived.filter (·.element = e)) ∧ rs.Pairwise fun a b => a.scanOrder b = .lt
  /-- A fold gives what the records of the element fold to, in the order of arrival. -/
  fold : ∀ held asOf e, ∃ state, log.fold held asOf e = .ok state ∧
    (View.mk log.options held asOf).foldElement e (arrived.filter (·.element = e)) = .ok state
  /-- A fold of the whole log gives one state for each element, which is that of the element. -/
  foldAll : ∀ held asOf, ∃ states, log.foldAll held asOf = .ok states ∧
    states.map (·.element) = log.elements ∧
    List.Forall₂ (fun e state => log.fold held asOf e = .ok state) log.elements states
  /-- A history is that of the records of the element, in the order of arrival. -/
  history : ∀ caller e,
    log.history caller e = .ok (.ofRecords log.options caller (arrived.filter (·.element = e)))

theorem Holds.answers (holds : log.Holds arrived) (fit : ∀ r ∈ arrived, Fits r.mutation.lengths)
    (distinct : (arrived.map (·.sequence)).Nodup) : log.Answers arrived where
  size_eq := holds.size_eq
  ordered_elements := log.ordered_elements
  mem_elements _ := holds.mem_elements
  records e := by
    obtain ⟨rs, records, scan, perm, ordered⟩ := holds.exists_records fit e
    have numbers : (rs.map (·.sequence)).Nodup :=
      (perm.map _).nodup_iff.2 (nodup_filter distinct e)
    exact ⟨rs, records, scan, perm, Record.pairwise_lt_of_nodup ordered numbers⟩
  fold held asOf e := by
    have own : ∀ r ∈ arrived.filter (·.element = e), r.element = e := by simp
    exact ⟨_, holds.fold_eq fit distinct held asOf e, View.foldElement_eq _ own⟩
  foldAll held asOf := by
    refine ⟨_, holds.foldAll_eq fit distinct held asOf, ?_, ?_⟩
    · rw [List.map_map]
      exact (List.map_congr_left fun e _ => View.element_stateOf _ e _).trans (List.map_id _)
    · rw [List.forall₂_map_right_iff, List.forall₂_same]
      exact fun e _ => holds.fold_eq fit distinct held asOf e
  history caller e := holds.history_eq fit distinct caller e

/-- **After any run a fresh log answers as the records of the run do**, and the run is answered
with their numbers, as long as there are fewer than 2^64 of them and each can be written down. -/
theorem run_answers (options : FoldOptions) (calls : List Call)
    (fit : ∀ r ∈ calls.flatMap Call.records, Fits r.mutation.lengths)
    (few : (calls.flatMap Call.records).length < 2 ^ 64) :
    ((empty options).run calls).1.map (·.toNat) =
        List.range' 1 (calls.flatMap Call.records).length ∧
      ((empty options).run calls).2.options = options ∧
      ((empty options).run calls).2.Answers (arrivals 1 (calls.flatMap Call.records)) := by
  have short : (1 : UInt64).toNat + (calls.flatMap Call.records).length ≤ 2 ^ 64 := by
    rw [UInt64.toNat_one]
    omega
  refine ⟨?_, options_run options calls, ?_⟩
  · rw [answers_run, List.map_map]
    exact sequences_arrivals short
  · exact (holds_run options calls).answers (forall_mem_arrivals (fun _ _ => id) 1 fit)
      (nodup_arrivals short)

/-- A creation of another vertex. -/
def sampleNeighbour : Record :=
  ⟨⟨⟨.vertex, "u"⟩, .existence, 3, .unrestricted, .create none, 0⟩, rfl⟩

/-- Three calls about two vertices, whose records come against the order of a scan. -/
theorem run_answers_of_three_calls :
    let calls := [.extend [View.sampleDeletion 0, View.sampleValue 0], .append sampleNeighbour,
      .append (View.sampleCreation 0)]
    let sent := calls.flatMap Call.records
    (∀ r ∈ sent, Fits r.mutation.lengths) ∧ sent.length < 2 ^ 64 ∧
      ((empty {}).run calls).1.map (·.toNat) = [1, 2, 3, 4] ∧
      ((empty {}).run calls).2.Answers (arrivals 1 sent) := by
  intro calls sent
  have fit : ∀ r ∈ sent, Fits r.mutation.lengths := by decide
  have few : sent.length < 2 ^ 64 := by decide
  obtain ⟨numbers, -, answers⟩ := run_answers {} calls fit few
  exact ⟨fit, few, numbers, answers⟩

end Log

end GraphLog
