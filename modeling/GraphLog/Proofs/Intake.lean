/-
**Records on their way into a log.**

A record that is taken in keeps what it says and gets the number of its arrival.  Raw records are
decoded on the way, and the raw form of a record decodes to the record itself, as long as the
lengths inside its mutation can be written down.  Taking in deliveries is decoding them in turn and
numbering what they bring.

Main definitions:

* `GraphLog.arrivals` — records with consecutive numbers;
* `GraphLog.Delivery.decoded` — what a delivery brings.

Main results:

* `GraphLog.arrivals_eq_mapIdx`, `GraphLog.sequences_arrivals`, `GraphLog.nodup_arrivals` — the
  numbers of some records;
* `GraphLog.Intake.ingestAll_cons`, `GraphLog.Intake.ingestAll_eq` — one delivery, and all of them;
* `GraphLog.RawRecord.decode_ofRecord` — **the raw form of a record stands for the record**;
* `GraphLog.receive_ofRecord` — **what raw records are taken in as**.
-/

import Mathlib.Data.List.Nodup
import GraphLog.Intake
import GraphLog.Proofs.Wire.Frame

set_option relaxedAutoImplicit false
set_option autoImplicit false

namespace GraphLog

open Wire (Fits)

/-! ### Numbers -/

/-- **Records with consecutive numbers**, from a first one on. -/
def arrivals (first : UInt64) : List Record → List Record
  | [] => []
  | r :: rs => r.stamped first :: arrivals (first + 1) rs

theorem length_arrivals (first : UInt64) (rs : List Record) :
    (arrivals first rs).length = rs.length := by
  induction rs generalizing first with
  | nil => rfl
  | cons r rs ih => simp [arrivals, ih]

/-- The numbers of records go up from the first one by one; behind the last they start again. -/
theorem arrivals_eq_mapIdx (first : UInt64) (rs : List Record) :
    arrivals first rs = rs.mapIdx fun i r => r.stamped (first + .ofNat i) := by
  induction rs generalizing first with
  | nil => rfl
  | cons r rs ih =>
      have number (i : Nat) : first + 1 + .ofNat i = first + .ofNat (i + 1) := by
        rw [UInt64.ofNat_add, UInt64.add_assoc, UInt64.add_comm 1]
        rfl
      have start : first + .ofNat 0 = first := UInt64.add_zero first
      simp only [arrivals, ih, List.mapIdx_cons, number, start]

/-- The numbers that records had before do not matter. -/
theorem arrivals_map_stamped (first n : UInt64) (rs : List Record) :
    arrivals first (rs.map (·.stamped n)) = arrivals first rs := by
  induction rs generalizing first with
  | nil => rfl
  | cons r rs ih => rw [List.map_cons, arrivals, arrivals, ih, Record.stamped_stamped]

/-- Numbers do not come round again before all of them are used. -/
theorem sequences_arrivals {first : UInt64} {rs : List Record}
    (short : first.toNat + rs.length ≤ 2 ^ 64) :
    (arrivals first rs).map (·.sequence.toNat) = List.range' first.toNat rs.length := by
  induction rs generalizing first with
  | nil => rfl
  | cons r rs ih =>
      rw [List.length_cons] at short
      rw [arrivals, List.map_cons, List.length_cons, List.range'_succ]
      cases rs with
      | nil => rfl
      | cons s ss =>
          have next : (first + 1).toNat = first.toNat + 1 := by
            rw [List.length_cons] at short
            rw [UInt64.toNat_add, UInt64.toNat_one]
            omega
          rw [ih (by omega), next]
          rfl

/-- No two of fewer than 2^64 records have one number among their `arrivals`. -/
theorem nodup_arrivals {first : UInt64} {rs : List Record}
    (short : first.toNat + rs.length ≤ 2 ^ 64) :
    ((arrivals first rs).map (·.sequence)).Nodup := by
  have numbers : (((arrivals first rs).map (·.sequence)).map (·.toNat)).Nodup := by
    rw [List.map_map, Function.comp_def, sequences_arrivals short]
    exact List.nodup_range'
  exact numbers.of_map _

/-- Numbers go up. -/
theorem ascending_arrivals {first : UInt64} {rs : List Record}
    (short : first.toNat + rs.length ≤ 2 ^ 64) :
    ((arrivals first rs).map (·.sequence)).Pairwise (· ≤ ·) := by
  have numbers : ((arrivals first rs).map (·.sequence.toNat)).Pairwise (· < ·) := by
    rw [sequences_arrivals short]
    exact List.pairwise_lt_range'
  rw [List.pairwise_map] at numbers ⊢
  exact numbers.imp fun lt => UInt64.le_iff_toNat_le.2 (Nat.le_of_lt lt)

/-- What is true of a record whatever its number is true of it when it has arrived. -/
theorem exists_mem_of_mem_arrivals {first : UInt64} {rs : List Record} {s : Record}
    (mem : s ∈ arrivals first rs) : ∃ r ∈ rs, s = r.stamped s.sequence := by
  induction rs generalizing first with
  | nil => exact absurd mem List.not_mem_nil
  | cons r rs ih =>
      rcases List.mem_cons.1 mem with rfl | mem
      · exact ⟨r, List.mem_cons_self, rfl⟩
      · obtain ⟨r', mem', same⟩ := ih mem
        exact ⟨r', List.mem_cons_of_mem r mem', same⟩

/-- A record that arrives stays what it is apart from its number. -/
theorem map_stamped_arrivals {α : Type} {f : Record → α}
    (blind : ∀ r n, f (Record.stamped r n) = f r) (first : UInt64) (rs : List Record) :
    (arrivals first rs).map f = rs.map f := by
  induction rs generalizing first with
  | nil => rfl
  | cons r rs ih => rw [arrivals, List.map_cons, List.map_cons, blind, ih]

/-- A record that was sent is found among those that have arrived, apart from its number. -/
theorem exists_mem_arrivals {α : Type} {f : Record → α}
    (blind : ∀ r n, f (Record.stamped r n) = f r) (first : UInt64) {rs : List Record} {r : Record}
    (mem : r ∈ rs) : ∃ s ∈ arrivals first rs, f s = f r := by
  have listed : f r ∈ (arrivals first rs).map f := by
    rw [map_stamped_arrivals blind]
    exact List.mem_map_of_mem mem
  exact List.mem_map.1 listed

/-- What holds of records whatever their numbers holds of them when they have arrived. -/
theorem forall_mem_arrivals {p : Record → Prop} (blind : ∀ r n, p r → p (r.stamped n))
    (first : UInt64) {rs : List Record} (all : ∀ r ∈ rs, p r) : ∀ s ∈ arrivals first rs, p s := by
  intro s mem
  obtain ⟨r, sent, same⟩ := exists_mem_of_mem_arrivals mem
  rw [same]
  exact blind r _ (all r sent)

/-! ### Raw records -/

/-- A record obeys the rules for its mutation, and those for the slot that it acts on. -/
theorem Record.check_parts (r : Record) : r.mutation.check = .ok () ∧ r.checkTarget = .ok () := by
  have valid := r.valid
  rw [Draft.check] at valid
  obtain ⟨⟨⟩, -, valid⟩ := bind_eq_ok_iff.1 valid
  obtain ⟨⟨⟩, mutation, valid⟩ := bind_eq_ok_iff.1 valid
  obtain ⟨⟨⟩, target, -⟩ := bind_eq_ok_iff.1 valid
  exact ⟨mutation, target⟩

theorem RawRecord.decodeVisibility_toBytes (v : Visibility) :
    decodeVisibility (Text.toBytes v.text) = .ok v := by
  rw [decodeVisibility, Text.ofBytes?_toBytes]
  simp only [Visibility.ofText_text]
  rfl

/-- **The raw form of a record stands for the record**, `stamped` with no number yet. -/
theorem RawRecord.decode_ofRecord {r : Record} (fits : Fits r.mutation.lengths) :
    (RawRecord.ofRecord r).decode = .ok (r.stamped 0) := by
  have label : decodeVisibility (ofRecord r).visibility = .ok r.visibility :=
    decodeVisibility_toBytes r.visibility
  have mutation : Mutation.decode (ofRecord r).mutation = .ok r.mutation :=
    Mutation.decode_eq_ok_iff.2 ⟨rfl, r.check_parts.1, fits⟩
  rw [decode, label, mutation]
  exact mapError_eq_ok_iff.2 (Record.ofDraft_toDraft (r.stamped 0))

/-! ### Deliveries -/

/-- **What a delivery brings**: what its raw record `decode`s to, or a failure, be it of the source
or of its bytes. -/
def Delivery.decoded (d : Delivery) : Except Failure Record :=
  d >>= RawRecord.decode

/-- One delivery: its record takes the next number, and those behind it go on from there. -/
theorem Intake.ingestAll_cons (intake : Intake) (d : Delivery) (ds : List Delivery) :
    (intake.ingestAll (d :: ds)).1 = d.decoded >>= fun r =>
      ((Intake.mk (intake.next + 1)).ingestAll ds).1.map (r.stamped intake.next :: ·) := by
  cases d with
  | error failure => rfl
  | ok raw =>
      rw [ingestAll, ingest]
      cases decoded : raw.decode with
      | error failure =>
          have fails : Delivery.decoded (.ok raw) = .error failure := decoded
          rw [fails]
          rfl
      | ok r =>
          have brings : Delivery.decoded (.ok raw) = .ok r := decoded
          rw [brings]
          rfl

/-- All deliveries are `decoded` in turn, and what they bring is numbered. -/
theorem Intake.ingestAll_eq (intake : Intake) (ds : List Delivery) :
    (intake.ingestAll ds).1 = (ds.mapM Delivery.decoded).map (arrivals intake.next) := by
  induction ds generalizing intake with
  | nil => rfl
  | cons d ds ih =>
      rw [ingestAll_cons, ih, List.mapM_cons]
      cases d.decoded with
      | error failure => rfl
      | ok r => cases ds.mapM Delivery.decoded <;> rfl

theorem receive_eq (ds : List Delivery) :
    receive ds = (ds.mapM Delivery.decoded).map (arrivals 1) :=
  Intake.ingestAll_eq ⟨1⟩ ds

/-- What raw records are taken in as: the `arrivals` of the records, from one on. -/
theorem receive_ofRecord {rs : List Record} (fit : ∀ r ∈ rs, Fits r.mutation.lengths) :
    receive (rs.map fun r => .ok (.ofRecord r)) = .ok (arrivals 1 rs) := by
  have decoded : (rs.map fun r => Except.ok (.ofRecord r)).mapM Delivery.decoded =
      .ok (rs.map (·.stamped 0)) := by
    rw [List.mapM_map]
    exact mapM_eq_ok fun r mem => RawRecord.decode_ofRecord (fit r mem)
  rw [receive_eq, decoded]
  exact congrArg Except.ok (arrivals_map_stamped 1 0 rs)

end GraphLog
