/-
**Records with other numbers.**

The number of a record decides ties only, and few of these matter.  So a record may be given
another number without any harm to the state, as long as it keeps its place among those that take
effect at the same time and that a ledger has to decide between.  Most of these stand on one slot
and take effect when they are written.  The exceptions are records that contend: deletions are
compared with what is added on all slots, and hides and unhides may take effect at another time than
that of their writing.

Main results:

* `GraphLog.Ledger.ofRecords_unnumbered` — a ledger does not look at the numbers of its records;
* `GraphLog.Record.Meets.contends_or_plain` — **where records meet that do not contend, they are
  written on one slot when they take effect**;
* `GraphLog.View.stateOf_arrivals` — **records that are numbered in the order of their list add up
  to the same state** if the ties that matter were in that order already;
* `GraphLog.View.foldRaw_ofRecord` — raw records are numbered in the order in which they come.
-/

import GraphLog.Proofs.Consonance
import GraphLog.Proofs.Folds
import GraphLog.Proofs.Intake

set_option relaxedAutoImplicit false
set_option autoImplicit false

namespace GraphLog

open Wire (Fits)

/-! ### Records without their numbers -/

/-- A ranked record whose own number is wiped; its rank stays. -/
def Ranked.unnumbered (e : Ranked Record) : Ranked Record :=
  ⟨e.rank, e.content.stamped 0⟩

/-- A ledger does not look at the numbers of its records: what is `unnumbered` adds up to the
same. -/
theorem Ledger.ofRecords_unnumbered (entries : List (Ranked Record)) :
    ofRecords (entries.map Ranked.unnumbered) = ofRecords entries := by
  have step : ∀ (l : Ledger) (e : Ranked Record), l.apply e.unnumbered = l.apply e :=
    fun _ _ => rfl
  rw [ofRecords, ofRecords, List.foldl_map]
  simp only [step]

theorem RecordKind.has_stamped (k : RecordKind) (r : Record) (n : UInt64) :
    k.has (r.stamped n) = k.has r := by
  cases k <;> rfl

theorem Record.Meets.of_stamped {r s : Record} {m n : UInt64}
    (meets : (r.stamped m).Meets (s.stamped n)) : r.Meets s := by
  cases meets with
  | contends contends => exact .contends contends
  | kind k left right =>
      rw [RecordKind.has_stamped] at left right
      exact .kind k left right
  | entry place left right => exact .entry place left right

/-! ### Ties -/

namespace RecordKind

/-- The slot of the records of a kind. -/
def slot : RecordKind → Slot
  | creation | label => .existence
  | value slot | edge slot => slot
  | entry place => place.slot

end RecordKind

namespace Record

/-- The records of a kind stand on one `slot`. -/
theorem slot_of_has {k : RecordKind} {r : Record} (has : k.has r) : r.slot = k.slot := by
  have target := r.check_parts.2
  rcases r with ⟨⟨element, slot, time, v, m, n⟩, valid⟩
  cases k with
  | creation =>
      cases m with
      | create ends => cases slot <;> first | rfl | cases target
      | setValue => simpa [RecordKind.has, isCreation, RecordKind.slot] using has
      | _ => simp [RecordKind.has, isCreation] at has
  | label =>
      cases m with
      | relabel => cases slot <;> first | rfl | cases target
      | _ => simp [RecordKind.has, label?] at has
  | value own =>
      cases m with
      | setValue =>
          obtain ⟨here, -⟩ : slot = own ∧ slot ≠ .existence := by
            simpa [RecordKind.has, value?] using has
          exact here
      | dropValue => simpa [RecordKind.has, value?, RecordKind.slot] using has
      | _ => simp [RecordKind.has, value?] at has
  | entry place =>
      cases m with
      | setValue value entries =>
          simp only [RecordKind.has, entry?] at has
          split at has
          · cases has
          · rw [Option.isSome_map, List.find?_isSome] at has
            obtain ⟨e, -, here⟩ := has
            exact congrArg MetadataPlace.slot (of_decide_eq_true here)
      | setMetadata | dropMetadata =>
          exact congrArg MetadataPlace.slot (by simpa [RecordKind.has, entry?] using has)
      | _ => simp [RecordKind.has, entry?] at has
  | edge own =>
      cases m with
      | attachEdge | detachEdge => simpa [RecordKind.has, edge?, RecordKind.slot] using has
      | _ => simp [RecordKind.has, edge?] at has

/-- The records of a kind take effect when they are written. -/
theorem effectiveTime_of_has {k : RecordKind} {r : Record} (has : k.has r) :
    r.effectiveTime = r.timestamp := by
  rcases r with ⟨⟨element, slot, time, v, m, n⟩, valid⟩
  cases m with
  | softDelete | hide | unhide =>
      cases k <;> simp [RecordKind.has, isCreation, label?, value?, entry?, edge?] at has
  | _ => rfl

/-- **Where records meet that do not contend, they stand on one slot and take effect when they are
written.** -/
theorem Meets.contends_or_plain {r s : Record} (meets : r.Meets s) :
    r.Contends s ∨ r.slot = s.slot ∧ r.effectiveTime = r.timestamp ∧
      s.effectiveTime = s.timestamp := by
  cases meets with
  | contends contends => exact .inl contends
  | kind k left right =>
      exact .inr ⟨(slot_of_has left).trans (slot_of_has right).symm, effectiveTime_of_has left,
        effectiveTime_of_has right⟩
  | entry place left right =>
      have left : (RecordKind.entry place).has r := left
      have right : (RecordKind.value place.slot).has s := right
      exact .inr ⟨(slot_of_has left).trans (slot_of_has right).symm, effectiveTime_of_has left,
        effectiveTime_of_has right⟩

end Record

/-! ### Two numberings -/

namespace View

variable (v : View)

theorem counts_stamped (r : Record) (n : UInt64) : v.counts (r.stamped n) = v.counts r := rfl

/-- The entries under both numberings, each with its new number and its place: both go up. -/
theorem exists_numbered (first : UInt64) (place : Nat) (rs : List Record) :
    ∃ numbered : List (Record × UInt64 × Nat),
      v.entries place rs = numbered.map (fun z => v.ranked z.2.2 z.1) ∧
      v.entries place (arrivals first rs) =
        numbered.map (fun z => v.ranked z.2.2 (z.1.stamped z.2.1)) ∧
      numbered.map (·.1) = rs.filter v.counts ∧
      (numbered.map (·.2.1)).Sublist ((arrivals first rs).map (·.sequence)) ∧
      numbered.Pairwise (fun y z => y.2.2 < z.2.2) ∧ ∀ z ∈ numbered, place ≤ z.2.2 := by
  induction rs generalizing first place with
  | nil => exact ⟨[], rfl, rfl, rfl, List.Sublist.refl _, .nil, by simp⟩
  | cons r rs ih =>
      obtain ⟨numbered, old, new, records, numbers, ascending, bound⟩ := ih (first + 1) (place + 1)
      have later : ∀ z ∈ numbered, place < z.2.2 := fun z mem => Nat.lt_of_succ_le (bound z mem)
      rw [arrivals, entries, entries, counts_stamped, List.filter_cons, List.map_cons]
      by_cases counted : v.counts r
      · simp only [counted, if_true]
        refine ⟨(r, first, place) :: numbered, ?_, ?_, ?_, numbers.cons_cons first,
          .cons later ascending, ?_⟩
        · rw [old, List.map_cons]
        · rw [new, List.map_cons]
        · rw [List.map_cons, records]
        · exact List.forall_mem_cons.2 ⟨Nat.le_refl place, fun z mem => Nat.le_of_lt (later z mem)⟩
      · simp only [counted]
        exact ⟨numbered, old, new, records, numbers.cons _, ascending,
          fun z mem => Nat.le_of_lt (later z mem)⟩

/-- Two records compare alike under two numberings that both follow the order of their places. -/
theorem ranked_lt_iff {r s : Record} {m n : UInt64} {p q : Nat} (places : p < q)
    (numbers : r.effectiveTime = s.effectiveTime → r.sequence ≤ s.sequence) (le : m ≤ n) :
    ((v.ranked p r).rank < (v.ranked q s).rank ↔
        (v.ranked p (r.stamped m)).rank < (v.ranked q (s.stamped n)).rank) ∧
      ((v.ranked q s).rank < (v.ranked p r).rank ↔
        (v.ranked q (s.stamped n)).rank < (v.ranked p (r.stamped m)).rank) := by
  have numbers' : (r.stamped m).effectiveTime = (s.stamped n).effectiveTime →
      (r.stamped m).sequence ≤ (s.stamped n).sequence := fun _ => le
  constructor
  · exact (Rank.ofRecord_lt_iff_of_ordered places numbers).trans
      (Rank.ofRecord_lt_iff_of_ordered places numbers').symm
  · exact (Rank.lt_ofRecord_iff_of_ordered places numbers).trans
      (Rank.lt_ofRecord_iff_of_ordered places numbers').symm

/-- A record at its place, ranked by its new number and by its old one. -/
def renumbered (z : Record × UInt64 × Nat) : Ranked Record × Ranked Record :=
  ((v.ranked z.2.2 (z.1.stamped z.2.1)).unnumbered, (v.ranked z.2.2 z.1).unnumbered)

section Kept

variable {numbered : List (Record × UInt64 × Nat)}
  (places : numbered.Pairwise fun y z => y.2.2 < z.2.2)
  (numbers : numbered.Pairwise fun y z => y.2.1 ≤ z.2.1)
  (kept : numbered.Pairwise fun y z => y.1.effectiveTime = z.1.effectiveTime →
    y.1.Meets z.1 ∨ z.1.Meets y.1 → y.1.sequence ≤ z.1.sequence)

include places numbers kept

/-- Both numberings order alike what meets, whichever of two records stands in front. -/
theorem renumbered_lt_iff : ∀ y ∈ numbered, ∀ z ∈ numbered, y.1.Meets z.1 ∨ z.1.Meets y.1 →
    ((v.renumbered y).1.rank < (v.renumbered z).1.rank ↔
      (v.renumbered y).2.rank < (v.renumbered z).2.rank) := by
  have ordered := places.and (numbers.and kept)
  intro y hy z hz
  refine List.Pairwise.forall_of_forall_of_flip
    (R := fun y z => y.1.Meets z.1 ∨ z.1.Meets y.1 →
      ((v.renumbered y).1.rank < (v.renumbered z).1.rank ↔
        (v.renumbered y).2.rank < (v.renumbered z).2.rank)) ?_ ?_ ?_ hy hz
  · exact fun z _ _ => iff_of_false (lt_irrefl _) (lt_irrefl _)
  · refine ordered.imp fun {y z} ordered meets => ?_
    obtain ⟨places, le, kept⟩ := ordered
    exact (v.ranked_lt_iff places (fun tied => kept tied meets) le).1.symm
  · refine ordered.imp fun {y z} ordered meets => ?_
    obtain ⟨places, le, kept⟩ := ordered
    exact (v.ranked_lt_iff places (fun tied => kept tied meets.symm) le).2.symm

omit numbers kept in
/-- Each record that is `renumbered` has a rank of its own, because it stands at a place of its
own. -/
theorem eq_of_rank_renumbered {y z : Record × UInt64 × Nat} (hy : y ∈ numbered) (hz : z ∈ numbered)
    (same : (v.renumbered y).1.rank = (v.renumbered z).1.rank) : y = z := by
  have distinct : (numbered.map (·.2.2)).Nodup :=
    List.pairwise_map.2 (places.imp fun {_ _} => Nat.ne_of_lt)
  refine List.inj_on_of_nodup_map distinct hy hz ?_
  by_contra apart
  exact Rank.ofRecord_ne_of_places apart same

theorem consonant_renumbered :
    Consonant ((numbered.map v.renumbered).map Prod.fst)
      ((numbered.map v.renumbered).map Prod.snd) := by
  refine Consonant.of_pairs ?_ ?_ ?_ ?_
  · intro z hz
    obtain ⟨x, -, rfl⟩ := List.mem_map.1 hz
    rfl
  · intro z hz
    obtain ⟨x, -, rfl⟩ := List.mem_map.1 hz
    have old : (v.renumbered x).2.rank.time = x.1.effectiveTime := Rank.time_ofRecord _
    exact (Rank.time_ofRecord _).trans old.symm
  · intro y hy z hz same
    obtain ⟨a, ha, rfl⟩ := List.mem_map.1 hy
    obtain ⟨b, hb, rfl⟩ := List.mem_map.1 hz
    rw [v.eq_of_rank_renumbered places ha hb same]
  · intro y hy z hz meets
    obtain ⟨a, ha, rfl⟩ := List.mem_map.1 hy
    obtain ⟨b, hb, rfl⟩ := List.mem_map.1 hz
    have meets : a.1.Meets b.1 := meets.of_stamped.of_stamped
    exact v.renumbered_lt_iff places numbers kept a ha b hb (.inl meets)

end Kept

/-- **Records that are numbered in the order of their list add up to the same state**, if those that
meet and take effect at one time were in that order already. -/
theorem stateOf_arrivals (e : Element) {rs : List Record} (few : rs.length < 2 ^ 64)
    (kept : (rs.filter v.counts).Pairwise fun r s => r.effectiveTime = s.effectiveTime →
      r.Meets s ∨ s.Meets r → r.sequence ≤ s.sequence) :
    v.stateOf e (arrivals 1 rs) = v.stateOf e rs := by
  obtain ⟨numbered, old, new, records, numbers, places, -⟩ := v.exists_numbered 1 0 rs
  have numbers : numbered.Pairwise fun y z => y.2.1 ≤ z.2.1 := by
    rw [← List.pairwise_map]
    exact (ascending_arrivals (by rw [UInt64.toNat_one]; omega)).sublist numbers
  rw [← records, List.pairwise_map] at kept
  have fst : (v.entries 0 (arrivals 1 rs)).map Ranked.unnumbered =
      (numbered.map v.renumbered).map Prod.fst := by
    rw [new, List.map_map, List.map_map]
    rfl
  have snd : (v.entries 0 rs).map Ranked.unnumbered =
      (numbered.map v.renumbered).map Prod.snd := by
    rw [old, List.map_map, List.map_map]
    rfl
  have agree := (v.consonant_renumbered places numbers kept).agree
  rw [← fst, ← snd, Ledger.ofRecords_unnumbered, Ledger.ofRecords_unnumbered] at agree
  exact agree.stateFor_eq _ _ e v.asOf

/-- **Raw records of one element fold to the state of their records**, numbered in the order in
which they come. -/
theorem foldRaw_ofRecord {e : Element} {rs : List Record} (own : ∀ r ∈ rs, r.element = e)
    (nonempty : rs ≠ []) (fit : ∀ r ∈ rs, Fits r.mutation.lengths) :
    v.foldRaw (rs.map fun r => .ok (.ofRecord r)) = .ok (some (v.stateOf e (arrivals 1 rs))) := by
  have own' : ∀ r ∈ arrivals 1 rs, r.element = e := forall_mem_arrivals (fun _ _ => id) 1 own
  have nonempty' : arrivals 1 rs ≠ [] := by
    rw [← List.length_pos_iff, length_arrivals, List.length_pos_iff]
    exact nonempty
  rw [foldRaw, receive_ofRecord fit]
  exact mapError_eq_ok_iff.2 (v.fold_eq own' nonempty')

end View

end GraphLog
