/-
**Leaving records out keeps the others in order.**

The place of a record in the input is a part of its rank, and leaving out some records moves the
later ones to other places.  They keep their order, though, and nothing but the order of ranks
matters: the records that are left are ranked among themselves as they were ranked in the whole
input.

Main definitions:

* `GraphLog.View.ranking` — all records of an input, each with its rank;
* `GraphLog.View.picked` — the records that are left after a test on their ranked forms.

Main results:

* `GraphLog.View.exists_places` — the places of the records that are left, before and after;
* `GraphLog.View.concordant_picked` — **what is left is ordered alike** in the whole input and by
  itself.
-/

import GraphLog.Proofs.Concordance
import GraphLog.Proofs.Folds

set_option relaxedAutoImplicit false
set_option autoImplicit false

namespace GraphLog

namespace View

variable (v : View)

/-- **All records of an input, each with its rank**, whether they count or not; the first record
stands at `place`. -/
def ranking (place : Nat) : List Record → List (Ranked Record)
  | [] => []
  | r :: rs => v.ranked place r :: ranking (place + 1) rs

theorem contents_ranking (place : Nat) (records : List Record) :
    (v.ranking place records).map (·.content) = records := by
  induction records generalizing place with
  | nil => rfl
  | cons r rs ih =>
      rw [ranking, List.map_cons, ih]
      rfl

/-- The `entries` of a fold are the records of the input that count. -/
theorem filter_counts_ranking (place : Nat) (records : List Record) :
    (v.ranking place records).filter (v.counts ·.content) = v.entries place records := by
  induction records generalizing place with
  | nil => rfl
  | cons r rs ih =>
      rw [ranking, entries, List.filter_cons, ih]
      rfl

/-- The records whose ranked forms pass a test, in the order of the input. -/
def picked (test : Ranked Record → Bool) (records : List Record) : List Record :=
  ((v.ranking 0 records).filter test).map (·.content)

theorem picked_sublist (test : Ranked Record → Bool) (records : List Record) :
    (v.picked test records).Sublist records := by
  have left : (v.picked test records).Sublist ((v.ranking 0 records).map (·.content)) :=
    List.filter_sublist.map _
  rwa [contents_ranking] at left

/-- **The places of the records that are left**: in the whole `ranking`, and by themselves.  Both go
up. -/
theorem exists_places (w : View) (test : Ranked Record → Bool) (records : List Record)
    (p q : Nat) :
    ∃ placed : List (Record × Nat × Nat),
      (v.ranking p records).filter test = placed.map (fun z => v.ranked z.2.1 z.1) ∧
      w.ranking q (((v.ranking p records).filter test).map (·.content)) =
        placed.map (fun z => w.ranked z.2.2 z.1) ∧
      placed.Pairwise (fun y z => y.2.1 < z.2.1 ∧ y.2.2 < z.2.2) ∧
      ∀ z ∈ placed, p ≤ z.2.1 ∧ q ≤ z.2.2 := by
  induction records generalizing p q with
  | nil => exact ⟨[], rfl, rfl, .nil, by simp⟩
  | cons r rs ih =>
      rw [ranking, List.filter_cons]
      by_cases h : test (v.ranked p r)
      · obtain ⟨placed, whole, left, ascending, bound⟩ := ih (p + 1) (q + 1)
        refine ⟨(r, p, q) :: placed, ?_, ?_, ?_, ?_⟩
        · rw [if_pos h, whole, List.map_cons]
        · rw [if_pos h, List.map_cons, ranking, left, List.map_cons]
          rfl
        · refine .cons (fun z mem => ?_) ascending
          have := bound z mem
          exact ⟨Nat.lt_of_succ_le this.1, Nat.lt_of_succ_le this.2⟩
        · refine List.forall_mem_cons.2 ⟨⟨Nat.le_refl p, Nat.le_refl q⟩, fun z mem => ?_⟩
          have := bound z mem
          omega
      · obtain ⟨placed, whole, left, ascending, bound⟩ := ih (p + 1) q
        refine ⟨placed, ?_, ?_, ascending, fun z mem => ?_⟩
        · rw [if_neg h, whole]
        · rw [if_neg h, left]
        · have := bound z mem
          omega

/-- What is left is ordered alike in the whole input and by itself, also for a view that breaks ties
in the same way and counts the same of it. -/
theorem concordant_picked (w : View) (rules : w.options.tieBreak = v.options.tieBreak)
    (test : Ranked Record → Bool)
    (alike : ∀ e, test e → w.counts e.content = v.counts e.content) (records : List Record) :
    Concordant ((v.entries 0 records).filter test) (w.entries 0 (v.picked test records)) := by
  obtain ⟨placed, whole, left, ascending, -⟩ := v.exists_places w test records 0 0
  let pairs := (placed.filter fun z => v.counts z.1).map fun z =>
    (v.ranked z.2.1 z.1, w.ranked z.2.2 z.1)
  have fst : (v.entries 0 records).filter test = pairs.map Prod.fst := by
    rw [← filter_counts_ranking, List.filter_comm, whole, List.filter_map, List.map_map]
    rfl
  have snd : w.entries 0 (v.picked test records) = pairs.map Prod.snd := by
    have counted : ∀ z ∈ placed, w.counts z.1 = v.counts z.1 := by
      intro z hz
      have mem : v.ranked z.2.1 z.1 ∈ (v.ranking 0 records).filter test := by
        rw [whole]
        exact List.mem_map.2 ⟨z, hz, rfl⟩
      exact alike (v.ranked z.2.1 z.1) (List.mem_filter.1 mem).2
    rw [← filter_counts_ranking, picked, left, List.filter_map, List.map_map]
    exact congrArg _ (List.filter_congr counted)
  -- going up in both columns is going up alike, whichever of two rows comes first
  have turned : ∀ y ∈ placed, ∀ z ∈ placed, y.2.1 < z.2.1 ↔ y.2.2 < z.2.2 := by
    intro y hy z hz
    refine List.Pairwise.forall_of_forall_of_flip
      (R := fun y z => y.2.1 < z.2.1 ↔ y.2.2 < z.2.2) (by simp) ?_ ?_ hy hz
    · exact ascending.imp fun h => iff_of_true h.1 h.2
    · exact ascending.imp fun h => iff_of_false (Nat.lt_asymm h.1) (Nat.lt_asymm h.2)
  rw [fst, snd]
  refine Concordant.of_pairs ?_ ?_ ?_ ?_
  · intro z hz
    obtain ⟨x, -, rfl⟩ := List.mem_map.1 hz
    rfl
  · intro y hy z hz
    obtain ⟨a, ha, rfl⟩ := List.mem_map.1 hy
    obtain ⟨b, hb, rfl⟩ := List.mem_map.1 hz
    have ha := (List.mem_filter.1 ha).1
    have hb := (List.mem_filter.1 hb).1
    simp only [ranked, rules]
    exact Rank.ofRecord_lt_iff_of_places (turned a ha b hb) (turned b hb a ha)
  · intro z hz
    obtain ⟨x, -, rfl⟩ := List.mem_map.1 hz
    exact Rank.time_ofRecord _
  · intro z hz
    obtain ⟨x, -, rfl⟩ := List.mem_map.1 hz
    exact Rank.time_ofRecord _

theorem picked_content (keep : Record → Bool) (records : List Record) :
    v.picked (fun e => keep e.content) records = records.filter keep := by
  have left : ((v.ranking 0 records).map (·.content)).filter keep = records.filter keep := by
    rw [contents_ranking]
  rwa [List.filter_map] at left

/-- **Leaving records out before ranking them is leaving them out afterwards.** -/
theorem stateOf_filter (element : Element) (keep : Record → Bool) (records : List Record) :
    v.stateOf element (records.filter keep) =
      (Ledger.ofRecords ((v.entries 0 records).filter (keep ·.content))).stateFor v.options
        v.held.sees element v.asOf := by
  have alike := v.concordant_picked v rfl (fun e => keep e.content) (fun _ _ => rfl) records
  rw [picked_content] at alike
  exact (alike.agree.stateFor_eq v.options v.held.sees element v.asOf).symm

end View

end GraphLog
