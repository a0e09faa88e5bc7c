/-
**The order of ranks is linear.**

Registers compare ranks by `GraphLog.Rank.isBelow`.  Here this comparison becomes the strict part of
a linear order, so that the writes of a register have a highest one, and the three parts of a rank
are brought out: only records that agree in time and sequence are told apart by their places.

Main results:

* `GraphLog.Rank.isBelow_iff` — the comparison of the registers is the strict order;
* `GraphLog.Rank.lt_iff` — the order, part by part;
* `GraphLog.Rank.ofRecord_lt_iff_of_apart` — places do not matter between records that differ in
  time or sequence;
* `GraphLog.Rank.ofRecord_lt_iff_of_places` — otherwise only the order of the places does.
-/

import Mathlib.Order.Defs.LinearOrder
import Mathlib.Tactic.Tauto
import GraphLog.Fold.Ledger

set_option relaxedAutoImplicit false
set_option autoImplicit false

namespace GraphLog

open Std (ReflCmp TransCmp OrientedCmp LawfulEqCmp)

namespace Rank

/-! ### A linear order -/

instance : LE Rank := ⟨fun a b => (compare a b).isLE⟩

instance : LT Rank := ⟨fun a b => a.isBelow b⟩

instance : LinearOrder Rank where
  le_refl a := ReflCmp.isLE_rfl
  le_trans _ _ _ h k := TransCmp.isLE_trans h k
  lt_iff_le_not_ge a b := by
    change (compare a b).isLT ↔ (compare a b).isLE ∧ ¬(compare b a).isLE
    have swapped : compare b a = (compare a b).swap := OrientedCmp.eq_swap
    rw [swapped]
    cases compare a b <;> decide
  le_antisymm a b h k := LawfulEqCmp.eq_of_compare (OrientedCmp.isLE_antisymm h k)
  le_total a b := by
    change (compare a b).isLE ∨ (compare b a).isLE
    have swapped : compare b a = (compare a b).swap := OrientedCmp.eq_swap
    rw [swapped]
    cases compare a b <;> decide
  toDecidableLE a b := inferInstanceAs (Decidable ((compare a b).isLE = true))
  toDecidableLT a b := inferInstanceAs (Decidable (a.isBelow b = true))
  toDecidableEq := inferInstance
  toOrd := inferInstance
  compare_eq_compareOfLessAndEq a b := by
    have lt : a < b ↔ (compare a b).isLT := Iff.rfl
    have eq : a = b ↔ compare a b = .eq := LawfulEqCmp.compare_eq_iff_eq.symm
    unfold compareOfLessAndEq
    cases h : compare a b <;> simp [lt, eq, h]

@[simp] theorem isBelow_iff {a b : Rank} : a.isBelow b ↔ a < b := Iff.rfl

@[simp] theorem isBelow_eq_false_iff {a b : Rank} : a.isBelow b = false ↔ b ≤ a := by
  rw [← not_lt, ← isBelow_iff, Bool.not_eq_true]

/-- **Ranks are compared part by part.** -/
theorem lt_iff {a b : Rank} :
    a < b ↔ a.time < b.time ∨ a.time = b.time ∧
      (a.arrival < b.arrival ∨ a.arrival = b.arrival ∧ a.place < b.place) := by
  change (order a b).isLT ↔ _
  simp only [order, compareLex, compareOn, Ordering.isLT_iff_eq_lt, Ordering.then_eq_lt,
    LawfulEqCmp.compare_eq_iff_eq]
  have times : compare a.time b.time = .lt ↔ a.time < b.time := Std.compare_eq_lt
  have arrivals : compare a.arrival b.arrival = .lt ↔ a.arrival < b.arrival := Std.compare_eq_lt
  have places : compare a.place b.place = .lt ↔ a.place < b.place := Std.compare_eq_lt
  rw [times, arrivals, places]

/-- A higher rank is no earlier. -/
theorem time_le_of_le {a b : Rank} (h : a ≤ b) : a.time ≤ b.time := by
  by_contra later
  exact absurd (lt_iff.2 (.inl (Int64.not_le.1 later))) (not_lt.2 h)

/-! ### The ranks of records -/

variable {tieBreak : TieBreak} {r s : Record}

@[simp] theorem time_ofRecord (place : Nat) :
    (ofRecord tieBreak place r).time = r.effectiveTime := by
  cases tieBreak <;> rfl

/-- Records arrived together exactly if the second parts of their ranks, `arrival`, agree. -/
theorem arrival_ofRecord_eq_iff (p q : Nat) :
    (ofRecord tieBreak p r).arrival = (ofRecord tieBreak q s).arrival ↔
      r.sequence = s.sequence := by
  rw [← UInt64.toNat_inj]
  cases tieBreak <;> simp only [ofRecord] <;> omega

/-- The second part of a rank is the same at every place. -/
theorem arrival_ofRecord_congr (p q : Nat) :
    (ofRecord tieBreak p r).arrival = (ofRecord tieBreak q r).arrival :=
  (arrival_ofRecord_eq_iff p q).2 rfl

/-- The third part of a rank, `place`, tells the places of the input apart. -/
theorem place_ofRecord_eq_iff (p q : Nat) :
    (ofRecord tieBreak p r).place = (ofRecord tieBreak q s).place ↔ p = q := by
  cases tieBreak <;> simp only [ofRecord] <;> omega

/-- Records at different places have different ranks. -/
theorem ofRecord_ne_of_places {p q : Nat} (apart : p ≠ q) :
    ofRecord tieBreak p r ≠ ofRecord tieBreak q s := fun same =>
  apart ((place_ofRecord_eq_iff p q).1 (congrArg place same))

/-- Places do not matter between records that differ in time or sequence. -/
theorem ofRecord_lt_iff_of_apart (apart : ¬(r.effectiveTime = s.effectiveTime ∧
    r.sequence = s.sequence)) (p q p' q' : Nat) :
    ofRecord tieBreak p r < ofRecord tieBreak q s ↔
      ofRecord tieBreak p' r < ofRecord tieBreak q' s := by
  rw [lt_iff, lt_iff]
  simp only [time_ofRecord, arrival_ofRecord_eq_iff]
  rw [arrival_ofRecord_congr p p', arrival_ofRecord_congr q q']
  tauto

/-- **Between any records only the order of their places matters**, since `ofRecord` compares them
last. -/
theorem ofRecord_lt_iff_of_places {p q p' q' : Nat} (places : p < q ↔ p' < q')
    (turned : q < p ↔ q' < p') :
    ofRecord tieBreak p r < ofRecord tieBreak q s ↔
      ofRecord tieBreak p' r < ofRecord tieBreak q' s := by
  rw [lt_iff, lt_iff]
  simp only [time_ofRecord, arrival_ofRecord_eq_iff]
  rw [arrival_ofRecord_congr p p', arrival_ofRecord_congr q q']
  have same : (ofRecord tieBreak p r).place < (ofRecord tieBreak q s).place ↔
      (ofRecord tieBreak p' r).place < (ofRecord tieBreak q' s).place := by
    cases tieBreak <;> simp only [ofRecord] <;> omega
  rw [same]

section Ordered

variable {p q : Nat} (places : p < q)
  (numbers : r.effectiveTime = s.effectiveTime → r.sequence ≤ s.sequence)

include places numbers

/-- Where the arrivals follow the places, only the times matter, and who wins a tie. -/
theorem ofRecord_lt_iff_of_ordered :
    ofRecord tieBreak p r < ofRecord tieBreak q s ↔ r.effectiveTime < s.effectiveTime ∨
      r.effectiveTime = s.effectiveTime ∧ tieBreak = .lastArrival := by
  rw [lt_iff]
  simp only [time_ofRecord]
  refine or_congr_right (and_congr_right fun tied => ?_)
  have le := UInt64.le_iff_toNat_le.1 (numbers tied)
  cases tieBreak <;> simp only [ofRecord, reduceCtorEq, iff_true, iff_false] <;> omega

theorem lt_ofRecord_iff_of_ordered :
    ofRecord tieBreak q s < ofRecord tieBreak p r ↔ s.effectiveTime < r.effectiveTime ∨
      s.effectiveTime = r.effectiveTime ∧ tieBreak = .firstArrival := by
  rw [lt_iff]
  simp only [time_ofRecord]
  refine or_congr_right (and_congr_right fun tied => ?_)
  have le := UInt64.le_iff_toNat_le.1 (numbers tied.symm)
  cases tieBreak <;> simp only [ofRecord, reduceCtorEq, iff_true, iff_false] <;> omega

end Ordered

end Rank

end GraphLog
