/-
**Folding what a scan hands out.**

A scan hands out raw records, and these have no numbers.  Whoever folds them numbers them anew, in
the order of the scan: by slot, then by the time of writing.  This is not the order of arrival, and
where two records take effect at one time the new numbers may turn a tie around.

Among records of one slot that take effect when they are written, a scan keeps the order of arrival.
So only ties between records that contend can turn: a deletion and what it may wipe, or a hide and
an unhide of one label on one slot.

Main results:

* `GraphLog.Record.sequence_le_of_meets` — all other ties are kept;
* `GraphLog.Log.foldRaw_scan_ne_fold` — a log whose raw records fold to another state;
* `GraphLog.Log.foldRaw_scan` — **the raw records fold to what the log folds to** unless a tie
  between contending records is turned around.
-/

import GraphLog.Proofs.Log.Answers
import GraphLog.Proofs.Renumbering

set_option relaxedAutoImplicit false
set_option autoImplicit false

namespace GraphLog

open Wire (Fits)

/-! ### Ties -/

namespace Record

/-- On one slot, `scanOrder` lists records of one time in the order of their arrival. -/
theorem sequence_le_of_scanOrder {r s : Record} (le : (r.scanOrder s).isLE)
    (slots : r.slot = s.slot) (times : r.timestamp = s.timestamp) : r.sequence ≤ s.sequence := by
  simp only [scanOrder, compareLex, compareOn, slots, times] at le
  simp only [Std.ReflCmp.compare_self] at le
  exact Std.isLE_compare.1 le

/-- A scan keeps the ties that matter, of records one of which `Meets` the other, unless the two
contend. -/
theorem sequence_le_of_meets {r s : Record} (le : (r.scanOrder s).isLE)
    (tied : r.effectiveTime = s.effectiveTime) (meets : r.Meets s ∨ s.Meets r)
    (kept : r.Contends s → r.sequence ≤ s.sequence) : r.sequence ≤ s.sequence := by
  have cases : r.Contends s ∨ r.slot = s.slot ∧ r.effectiveTime = r.timestamp ∧
      s.effectiveTime = s.timestamp := by
    rcases meets with meets | meets
    · exact meets.contends_or_plain
    · rcases meets.contends_or_plain with contends | ⟨slots, plain, plain'⟩
      · exact .inl contends.symm
      · exact .inr ⟨slots.symm, plain', plain⟩
  rcases cases with contends | ⟨slots, plain, plain'⟩
  · exact kept contends
  · exact sequence_le_of_scanOrder le slots (plain.symm.trans (tied.trans plain'))

end Record

/-! ### Raw records -/

namespace Log

/-- **The raw records of a log may fold to another state than the log.**  A vertex is created after
a deletion that takes effect at the same time but was written later: the log shows the vertex, and
its raw records show it deleted. -/
theorem foldRaw_scan_ne_fold :
    let log := ((empty {}).run [.append (View.sampleDeletion 0), .append (View.sampleCreation 0)]).2
    let v : View := ⟨{}, .empty, none⟩
    (log.fold .empty none ⟨.vertex, "v"⟩).map (·.status) = .ok .live ∧
      (v.foldRaw ((log.scan ⟨.vertex, "v"⟩).map .ok)).map (·.map (·.status)) =
        .ok (some .deleted) := by
  decide +kernel

/-- **The raw records that a scan hands out fold to what the log folds to**, unless two contending
records that take effect at one time stand in the scan against the order of their arrival.  In any
case they fold to what the records of the element give when they are numbered in the order of the
scan. -/
theorem foldRaw_scan (options : FoldOptions) (calls : List Call)
    (fit : ∀ r ∈ calls.flatMap Call.records, Fits r.mutation.lengths)
    (few : (calls.flatMap Call.records).length < 2 ^ 64) (e : Element)
    (written : ∃ r ∈ calls.flatMap Call.records, r.element = e) (held : Authorizations)
    (asOf : Option Int64) :
    let log := ((empty options).run calls).2
    let v : View := ⟨options, held, asOf⟩
    ∃ rs state, log.records e = .ok rs ∧
      v.foldRaw ((log.scan e).map .ok) = .ok (some state) ∧
      v.foldElement e (arrivals 1 rs) = .ok state ∧
      (((rs.filter v.counts).Pairwise fun r s =>
          r.effectiveTime = s.effectiveTime → r.Contends s → r.sequence ≤ s.sequence) →
        log.fold held asOf e = .ok state) := by
  intro log v
  have holds : log.Holds (arrivals 1 (calls.flatMap Call.records)) := holds_run options calls
  have fits := forall_mem_arrivals (fun _ _ => id) 1 fit
  obtain ⟨rs, records, scan, perm, ordered⟩ := holds.exists_records fits e
  have own : ∀ r ∈ rs, r.element = e := fun r mem => element_of_perm perm mem
  have nonempty : rs ≠ [] := by
    rintro rfl
    have none := List.filter_eq_nil_iff.1 perm.nil_eq.symm
    obtain ⟨r, sent, here⟩ := written
    obtain ⟨s, mem, same⟩ := exists_mem_arrivals (f := (·.element)) (fun _ _ => rfl) 1 sent
    exact none s mem (decide_eq_true (same.trans here))
  have few : rs.length < 2 ^ 64 := by
    have le := List.length_filter_le (·.element = e) (arrivals 1 (calls.flatMap Call.records))
    rw [length_arrivals, ← perm.length_eq] at le
    omega
  have fitting : ∀ r ∈ rs, Fits r.mutation.lengths := fun r mem =>
    fits r (List.mem_of_mem_filter (perm.mem_iff.1 mem))
  refine ⟨rs, v.stateOf e (arrivals 1 rs), records, ?_, ?_, fun kept => ?_⟩
  · rw [scan, List.map_map]
    exact v.foldRaw_ofRecord own nonempty fitting
  · exact v.foldElement_eq (forall_mem_arrivals (fun _ _ => id) 1 own)
  · have options : log.options = options := options_run options calls
    rw [fold_eq_of_records records own, options]
    refine congrArg Except.ok (v.stateOf_arrivals e few ?_).symm
    refine (kept.and (ordered.sublist List.filter_sublist)).imp fun {r s} both tied meets => ?_
    obtain ⟨kept, le⟩ := both
    exact Record.sequence_le_of_meets le tied meets (kept tied)

/-- A value arrives in front of the creation that takes effect with it, and a scan turns the two
around. -/
theorem foldRaw_scan_of_turned_tie :
    let calls := [.append (View.sampleValue 0), .append (View.sampleCreation 0)]
    let log := ((empty {}).run calls).2
    let v : View := ⟨{}, .empty, none⟩
    (∀ r ∈ calls.flatMap Call.records, Fits r.mutation.lengths) ∧
      (calls.flatMap Call.records).length < 2 ^ 64 ∧
      (∃ r ∈ calls.flatMap Call.records, r.element = ⟨.vertex, "v"⟩) ∧
      log.records ⟨.vertex, "v"⟩ = .ok [View.sampleCreation 2, View.sampleValue 1] ∧
      ∃ state, v.foldRaw ((log.scan ⟨.vertex, "v"⟩).map .ok) = .ok (some state) ∧
        log.fold .empty none ⟨.vertex, "v"⟩ = .ok state := by
  intro calls log v
  have fit : ∀ r ∈ calls.flatMap Call.records, Fits r.mutation.lengths := by decide
  have few : (calls.flatMap Call.records).length < 2 ^ 64 := by decide
  have written : ∃ r ∈ calls.flatMap Call.records, r.element = ⟨.vertex, "v"⟩ :=
    ⟨View.sampleValue 0, by simp [calls, Call.records], rfl⟩
  have listed : log.records ⟨.vertex, "v"⟩ =
      .ok [View.sampleCreation 2, View.sampleValue 1] := by decide +kernel
  obtain ⟨rs, state, records, raw, -, kept⟩ :=
    foldRaw_scan {} calls fit few ⟨.vertex, "v"⟩ written .empty none
  obtain rfl : [View.sampleCreation 2, View.sampleValue 1] = rs :=
    Except.ok.inj (listed.symm.trans records)
  refine ⟨fit, few, written, listed, state, raw, kept ?_⟩
  have all : [View.sampleCreation 2, View.sampleValue 1].Pairwise fun r s =>
      r.effectiveTime = s.effectiveTime → r.Contends s → r.sequence ≤ s.sequence := by decide
  exact all.sublist List.filter_sublist

end Log

end GraphLog
