/-
**What a caller may not see has no influence.**

A fold takes some of its records into account: those within the horizon that are deletions or carry
a label that the caller satisfies.  Here it is shown that the others leave no trace at all, neither
in a value nor in a time nor in a tie: the records that are left when they are left out keep their
order, and only the order of ranks counts.

Main definitions:

* `GraphLog.View.boundless` — the same view without a horizon.

Main results:

* `GraphLog.View.concordant_filter_counts` — the records that count are ordered alike by
  themselves;
* `GraphLog.View.foldElement_filter_counts` — **a fold is the fold of the records that count**, and
  lists with the same such records give the same state.
-/

import GraphLog.Proofs.Places

set_option relaxedAutoImplicit false
set_option autoImplicit false

namespace GraphLog

namespace View

/-- The same view without a horizon. -/
def boundless (v : View) : View :=
  { v with asOf := none }

variable (v : View)

/-- What `counts` for a view counts without its horizon. -/
theorem counts_boundless {r : Record} (h : v.counts r) : v.boundless.counts r := by
  simp only [counts, Bool.and_eq_true] at h
  simp [counts, boundless, isBeyond, h.2]

/-- **The records that count are ordered alike in the whole list and by themselves**: the two are
`Concordant`. -/
theorem concordant_filter_counts (records : List Record) :
    Concordant (v.entries 0 records) (v.boundless.entries 0 (records.filter v.counts)) := by
  have left := v.concordant_picked v.boundless rfl (fun e => v.counts e.content)
    (fun e h => (v.counts_boundless h).trans h.symm) records
  have all : (v.entries 0 records).filter (fun e => v.counts e.content) = v.entries 0 records := by
    rw [← filter_counts_ranking, List.filter_filter]
    simp
  rwa [all, picked_content] at left

/-- **A fold is the fold of the records that count**, apart from the horizon that it reports.  So
two lists with the same records that count give the same state, and whatever else they hold, be it
out of sight or behind the horizon, has no influence on any part of it. -/
theorem foldElement_filter_counts (v : View) (element : Element) (records : List Record)
    (own : ∀ r ∈ records, r.element = element) :
    (∃ state, v.foldElement element records = .ok state ∧ state.asOf = v.asOf ∧
      v.boundless.foldElement element (records.filter v.counts) =
        .ok { state with asOf := none }) ∧
      ∀ others, (∀ r ∈ others, r.element = element) →
        others.filter v.counts = records.filter v.counts →
        v.foldElement element others = v.foldElement element records := by
  have states : ∀ rs, v.boundless.stateOf element (rs.filter v.counts) =
      { v.stateOf element rs with asOf := none } := by
    intro rs
    have agree := (v.concordant_filter_counts rs).agree
    rw [stateOf, ← agree.stateFor_eq]
    exact (Ledger.stateFor_asOf _ _ _ element v.asOf).2
  have reported : ∀ rs, (v.stateOf element rs).asOf = v.asOf :=
    fun rs => (Ledger.stateFor_asOf _ _ _ element v.asOf).1
  have restored : ∀ rs, v.stateOf element rs =
      { v.boundless.stateOf element (rs.filter v.counts) with asOf := v.asOf } := by
    intro rs
    rw [states, ← reported rs]
  refine ⟨⟨_, foldElement_eq v own, reported records, ?_⟩, fun others own' alike => ?_⟩
  · rw [foldElement_eq, states]
    exact fun r mem => own r (List.mem_filter.1 mem).1
  · rw [foldElement_eq v own, foldElement_eq v own', restored others, restored records, alike]

/-- A secret value and a deletion behind the horizon change nothing; a deletion under the secret
label counts. -/
theorem foldElement_filter_counts_of_secrets :
    let v : View := ⟨{}, .empty, some 5⟩
    let secret : Visibility := ⟨"secret", by decide⟩
    let vertex : Element := ⟨.vertex, "v"⟩
    let created : Record := ⟨⟨vertex, .existence, 1, .unrestricted, .create none, 1⟩, rfl⟩
    let filled : Record :=
      ⟨⟨vertex, .property "k" "age" .unrestricted, 5, secret, .setValue (.int 30) [], 2⟩, rfl⟩
    let deleted : Record := ⟨⟨vertex, .existence, 1, secret, .softDelete 4, 3⟩, rfl⟩
    let later : Record := ⟨⟨vertex, .existence, 1, .unrestricted, .softDelete 6, 4⟩, rfl⟩
    let records := [filled, created, later, deleted]
    (∀ r ∈ records, r.element = vertex) ∧ records.filter v.counts = [created, deleted] ∧
      (∃ state, v.foldElement vertex records = .ok state ∧ state.asOf = v.asOf ∧
        v.boundless.foldElement vertex (records.filter v.counts) =
          .ok { state with asOf := none }) ∧
      ∀ others, (∀ r ∈ others, r.element = vertex) →
        others.filter v.counts = records.filter v.counts →
        v.foldElement vertex others = v.foldElement vertex records := by
  intro v secret vertex created filled deleted later records
  have own : ∀ r ∈ records, r.element = vertex := by decide
  have counted : records.filter v.counts = [created, deleted] := by decide
  exact ⟨own, counted, foldElement_filter_counts v vertex records own⟩

end View

end GraphLog
