/-
**Raw records fold like the records that they stand for.**

A fold or a history of raw records takes in all deliveries before it looks at any of them.  If each
brings a record, the result is that of the records, numbered from one on in the order in which they
come.  Otherwise it is the failure of the first delivery that brings none: neither what comes behind
it nor whether the records in front of it could be folded together plays a part.

Main results:

* `GraphLog.View.foldRaw_eq`, `GraphLog.History.ofRaw_eq` — deliveries are decoded, numbered, and
  only then folded or listed;
* `GraphLog.View.foldRaw_deliveries` — **what deliveries give**, be they raw records or failures.
-/

import GraphLog.Proofs.ArrivalOrder
import GraphLog.Proofs.Intake

set_option relaxedAutoImplicit false
set_option autoImplicit false

namespace GraphLog

open Wire (Fits)

/-- A history of deliveries lists what they bring, by `ofRecords`, numbered from one on. -/
theorem History.ofRaw_eq (options : FoldOptions) (caller : Option Authorizations)
    (ds : List Delivery) :
    ofRaw options caller ds =
      (ds.mapM Delivery.decoded).map fun rs => ofRecords options caller (arrivals 1 rs) := by
  rw [ofRaw, receive_eq]
  cases ds.mapM Delivery.decoded <;> rfl

namespace View

/-- **A fold of deliveries** is the `fold` of what they bring, numbered from one on. -/
theorem foldRaw_eq (v : View) (ds : List Delivery) :
    v.foldRaw ds =
      ds.mapM Delivery.decoded >>= fun rs => (v.fold (arrivals 1 rs)).mapError .fold := by
  rw [foldRaw, receive_eq]
  cases ds.mapM Delivery.decoded <;> rfl

/-- **What deliveries give.**  The raw forms of records give what the records give that are numbered
from one on, as long as the lengths inside their mutations can be written down; each decodes to its
record, without a number.  Deliveries of which some bring no record give the failure of the first of
these. -/
theorem foldRaw_deliveries (v : View) (caller : Option Authorizations) :
    (∀ rs : List Record, (∀ r ∈ rs, Fits r.mutation.lengths) →
      let raw : List Delivery := rs.map fun r => .ok (.ofRecord r)
      let numbered := rs.mapIdx fun i r => r.stamped (.ofNat (i + 1))
      (∀ r ∈ rs, (RawRecord.ofRecord r).decode = .ok (r.stamped 0)) ∧
        v.foldRaw raw = (v.fold numbered).mapError .fold ∧
        History.ofRaw v.options caller raw =
          .ok (History.ofRecords v.options caller numbered)) ∧
      ∀ ds : List Delivery, (∃ d ∈ ds, ∃ failure, d.decoded = .error failure) →
        ∃ before bad after failure, ds = before ++ bad :: after ∧
          (∀ d ∈ before, ∃ r, d.decoded = .ok r) ∧ bad.decoded = .error failure ∧
          v.foldRaw ds = .error failure ∧
          History.ofRaw v.options caller ds = .error failure := by
  constructor
  · intro rs fit raw numbered
    have arrived : receive raw = .ok numbered := by
      have number (i : Nat) : 1 + .ofNat i = UInt64.ofNat (i + 1) := by
        rw [UInt64.ofNat_add, UInt64.add_comm]
        rfl
      rw [receive_ofRecord fit, arrivals_eq_mapIdx]
      simp only [number, numbered]
    refine ⟨fun r mem => RawRecord.decode_ofRecord (fit r mem), ?_, ?_⟩
    · rw [foldRaw, arrived]
      rfl
    · rw [History.ofRaw, arrived]
      rfl
  · rintro ds ⟨d, mem, failure, fails⟩
    rcases forall_eq_ok_or_exists_first Delivery.decoded ds with
      each | ⟨before, bad, after, failure, rfl, each, fails⟩
    · obtain ⟨r, brings⟩ := each d mem
      exact absurd (brings.symm.trans fails) nofun
    · have first := mapM_eq_error each fails after
      refine ⟨before, bad, after, failure, rfl, each, fails, ?_, ?_⟩
      · rw [foldRaw_eq, first]
        rfl
      · rw [History.ofRaw_eq, first]
        rfl

/-- Records of two vertices, one whose label is not text, and a failure of the source: the label
decides, though the records in front of it could not be folded together either. -/
theorem foldRaw_deliveries_of_garbled_label :
    let v : View := ⟨{}, .empty, none⟩
    let neighbour : Record :=
      ⟨⟨⟨.vertex, "u"⟩, .existence, 2, .unrestricted, .create none, 0⟩, rfl⟩
    let apart : List Delivery :=
      [.ok (.ofRecord (sampleCreation 0)), .ok (.ofRecord neighbour)]
    let garbled : RawRecord := { RawRecord.ofRecord (sampleValue 0) with visibility := [0xff] }
    let ds := apart ++ [.ok garbled, .error (.invalid (.reported "connection lost"))]
    let failure := .decode (.corrupt 0 .labelNotText)
    v.foldRaw apart = .error (.fold (.mixedElements ⟨.vertex, "v"⟩ ⟨.vertex, "u"⟩)) ∧
      (∃ d ∈ ds, ∃ failure, d.decoded = .error failure) ∧
      v.foldRaw ds = .error failure ∧ History.ofRaw v.options none ds = .error failure := by
  intro v neighbour apart garbled ds failure
  have mixed : v.foldRaw apart =
      .error (.fold (.mixedElements ⟨.vertex, "v"⟩ ⟨.vertex, "u"⟩)) := by decide +kernel
  have fails : ∃ d ∈ ds, ∃ failure, d.decoded = .error failure :=
    ⟨.ok garbled, by simp [ds], failure, by decide⟩
  have fold : v.foldRaw ds = .error failure := by decide +kernel
  obtain ⟨before, bad, after, found, -, -, -, fold', history⟩ :=
    (foldRaw_deliveries v none).2 ds fails
  obtain rfl : found = failure := Except.error.inj (fold'.symm.trans fold)
  exact ⟨mixed, fails, fold, history⟩

end View

end GraphLog
