/-
**The order of arrival and repeated deliveries do not matter.**

Records reach a fold in any order, and some of them more than once.  As long as two records that
agree in time and sequence are one record, the state depends on the set of the records alone.  The
reason is that the highest-ranked record of a kind is the same for every order of the input: places
only tell apart the copies of one record, and these say the same.

Main results:

* `GraphLog.View.concordant_of_mem_iff` — lists of the same records answer alike;
* `GraphLog.View.foldElement_congr_of_mem_iff` — **a fold depends on the set of its records**.
-/

import GraphLog.Proofs.Concordance
import GraphLog.Proofs.Folds

set_option relaxedAutoImplicit false
set_option autoImplicit false

namespace GraphLog

/-- Two records that take effect at one time and arrived with one sequence are the same record. -/
def Distinguished (records : List Record) : Prop :=
  ∀ r ∈ records, ∀ s ∈ records, r.effectiveTime = s.effectiveTime → r.sequence = s.sequence → r = s

namespace View

variable {v : View} {as bs : List Record}

/-- Records that differ compare in the same way wherever they stand. -/
theorem lt_iff_of_ne (distinguished : Distinguished as) {p q : Nat} {a b c d : Ranked Record}
    (ha : a ∈ v.entries p as) (hb : b ∈ v.entries p as) (hc : c ∈ v.entries q bs)
    (hd : d ∈ v.entries q bs) (left : a.content = c.content) (right : b.content = d.content)
    (ne : a.content ≠ b.content) : a.rank < b.rank ↔ c.rank < d.rank := by
  obtain ⟨i, ra⟩ := eq_ranked_of_mem ha
  obtain ⟨j, rb⟩ := eq_ranked_of_mem hb
  obtain ⟨k, rc⟩ := eq_ranked_of_mem hc
  obtain ⟨l, rd⟩ := eq_ranked_of_mem hd
  have mem := (exists_mem_entries_iff.1 ⟨a, ha, rfl⟩).1
  have mem' := (exists_mem_entries_iff.1 ⟨b, hb, rfl⟩).1
  rw [ra, rb, rc, rd, ← left, ← right]
  refine Rank.ofRecord_lt_iff_of_apart ?_ i j k l
  intro h
  obtain ⟨time, sequence⟩ := h
  exact ne (distinguished _ mem _ mem' time sequence)

/-- Of records that differ, one ranks below the other. -/
theorem lt_or_lt_of_ne (distinguished : Distinguished as) {p : Nat} {a b : Ranked Record}
    (ha : a ∈ v.entries p as) (hb : b ∈ v.entries p as) (ne : a.content ≠ b.content) :
    a.rank < b.rank ∨ b.rank < a.rank := by
  rcases lt_trichotomy a.rank b.rank with below | same | above
  · exact .inl below
  · obtain ⟨i, ra⟩ := eq_ranked_of_mem ha
    obtain ⟨j, rb⟩ := eq_ranked_of_mem hb
    rw [ra, rb] at same
    have time := congrArg Rank.time same
    have arrival := congrArg Rank.arrival same
    simp only [ranked, Rank.time_ofRecord, Rank.arrival_ofRecord_eq_iff] at time arrival
    have mem := (exists_mem_entries_iff.1 ⟨a, ha, rfl⟩).1
    have mem' := (exists_mem_entries_iff.1 ⟨b, hb, rfl⟩).1
    exact absurd (distinguished _ mem _ mem' time arrival) ne
  · exact .inr above

/-- Two leading entries of a kind, one from each of two lists of the same records, are one record:
otherwise each of the two lists says that the other record is beaten. -/
theorem content_eq_of_unbeaten {beats : Rank → Rank → Prop}
    (sense : beats = (· < ·) ∨ beats = (· > ·)) (distinguished : Distinguished as)
    (same : ∀ r, r ∈ as ↔ r ∈ bs) {k : Record → Bool} {p q : Nat} {a c : Ranked Record}
    (ha : a ∈ v.entries p as ∧ k a.content ∧
      ∀ x ∈ v.entries p as, k x.content → ¬beats x.rank a.rank)
    (hc : c ∈ v.entries q bs ∧ k c.content ∧
      ∀ x ∈ v.entries q bs, k x.content → ¬beats x.rank c.rank) :
    a.content = c.content := by
  obtain ⟨ha, ka, unbeaten⟩ := ha
  obtain ⟨hc, kc, unbeaten'⟩ := hc
  by_contra ne
  obtain ⟨mem, counts⟩ := exists_mem_entries_iff.1 ⟨a, ha, rfl⟩
  obtain ⟨mem', counts'⟩ := exists_mem_entries_iff.1 ⟨c, hc, rfl⟩
  obtain ⟨b, hb, cb⟩ := exists_mem_entries_iff.2 ⟨(same _).2 mem', counts'⟩
  obtain ⟨d, hd, cd⟩ := exists_mem_entries_iff.2 ⟨(same _).1 mem, counts⟩
  have neab : a.content ≠ b.content := cb ▸ ne
  have noB := unbeaten b hb (cb ▸ kc)
  have noD := unbeaten' d hd (cd ▸ ka)
  have up := lt_iff_of_ne distinguished ha hb hd hc cd.symm cb neab
  have down := lt_iff_of_ne distinguished hb ha hc hd cb cd.symm neab.symm
  rcases sense with rfl | rfl <;> rcases lt_or_lt_of_ne distinguished ha hb neab with below | above
  · exact noD (up.1 below)
  · exact noB above
  · exact noB below
  · exact noD (down.1 above)

/-- A record of some kind is found in both lists or in neither. -/
theorem leading_content_eq {beats : Rank → Rank → Prop} [DecidableRel beats]
    [IsStrictTotalOrder Rank beats] (sense : beats = (· < ·) ∨ beats = (· > ·))
    (distinguished : Distinguished as) (same : ∀ r, r ∈ as ↔ r ∈ bs) (k : Record → Bool)
    (p q : Nat) :
    (Ranked.leading beats k (v.entries p as)).map (·.content) =
      (Ranked.leading beats k (v.entries q bs)).map (·.content) := by
  cases left : Ranked.leading beats k (v.entries p as) with
  | none =>
      have none : Ranked.leading beats k (v.entries q bs) = none := by
        rw [Ranked.leading_eq_none_iff] at left ⊢
        intro x mem
        obtain ⟨mem', counts⟩ := exists_mem_entries_iff.1 ⟨x, mem, rfl⟩
        obtain ⟨y, hy, content⟩ := exists_mem_entries_iff.2 ⟨(same _).2 mem', counts⟩
        exact content ▸ left y hy
      rw [none]
  | some a =>
      have leads := Ranked.leading_eq_some left
      cases right : Ranked.leading beats k (v.entries q bs) with
      | none =>
          obtain ⟨mem, counts⟩ := exists_mem_entries_iff.1 ⟨a, leads.1, rfl⟩
          obtain ⟨y, hy, content⟩ := exists_mem_entries_iff.2 ⟨(same _).1 mem, counts⟩
          have absent := Ranked.leading_eq_none_iff.1 right y hy
          rw [content, leads.2.1] at absent
          exact absurd absent (by simp)
      | some c =>
          exact congrArg some
            (content_eq_of_unbeaten sense distinguished same leads (Ranked.leading_eq_some right))

/-- **Lists of the same records answer alike**: their entries are `Concordant`. -/
theorem concordant_of_mem_iff (distinguished : Distinguished as) (same : ∀ r, r ∈ as ↔ r ∈ bs) :
    Concordant (v.entries 0 as) (v.entries 0 bs) where
  highest k := leading_content_eq (.inr rfl) distinguished same k 0 0
  lowest k := leading_content_eq (.inl rfl) distinguished same k 0 0
  lt_iff k l a b c d left left' right right' := by
    have leadsA := Ranked.leading_eq_some left
    have leadsB := Ranked.leading_eq_some left'
    have leadsC := Ranked.leading_eq_some right
    have leadsD := Ranked.leading_eq_some right'
    have ac := content_eq_of_unbeaten (.inr rfl) distinguished same leadsA leadsC
    have bd := content_eq_of_unbeaten (.inr rfl) distinguished same leadsB leadsD
    by_cases ne : a.content = b.content
    · -- copies of one record: each leads the kind of the other, so neither ranks below
      have notBelow := leadsA.2.2 b leadsB.1 (ne ▸ leadsA.2.1)
      have cd : c.content = d.content := ac ▸ bd ▸ ne
      have notBelow' := leadsC.2.2 d leadsD.1 (cd ▸ leadsC.2.1)
      exact iff_of_false notBelow notBelow'
    · exact lt_iff_of_ne distinguished leadsA.1 leadsB.1 leadsC.1 leadsD.1 ac bd ne
  time_left _ mem := time_of_mem mem
  time_right _ mem := time_of_mem mem

/-- **A fold depends on the set of its records**: neither the order in which they arrive nor how
often they are delivered changes any part of the state. -/
theorem foldElement_congr_of_mem_iff (v : View) (element : Element) (as bs : List Record)
    (own : ∀ r ∈ as, r.element = element) (distinguished : Distinguished as)
    (same : ∀ r, r ∈ as ↔ r ∈ bs) :
    ∃ state, v.foldElement element as = .ok state ∧ v.foldElement element bs = .ok state := by
  have own' : ∀ r ∈ bs, r.element = element := fun r mem => own r ((same r).2 mem)
  have states : v.stateOf element as = v.stateOf element bs :=
    (concordant_of_mem_iff distinguished same).agree.stateFor_eq _ _ element v.asOf
  exact ⟨_, foldElement_eq v own, states ▸ foldElement_eq v own'⟩

/-- A creation of the vertex `v`, which arrived as number `n`. -/
def sampleCreation (n : UInt64) : Record :=
  ⟨⟨⟨.vertex, "v"⟩, .existence, 1, .unrestricted, .create none, n⟩, rfl⟩

/-- A value for a property of the vertex `v`. -/
def sampleValue (n : UInt64) : Record :=
  ⟨⟨⟨.vertex, "v"⟩, .property "k" "age" .unrestricted, 1, .unrestricted, .setValue (.int 30) [], n⟩,
    rfl⟩

/-- A deletion of the vertex `v`, written later than it takes effect. -/
def sampleDeletion (n : UInt64) : Record :=
  ⟨⟨⟨.vertex, "v"⟩, .existence, 7, .unrestricted, .softDelete 1, n⟩, rfl⟩

/-- Four records that take effect at one moment, one of them delivered twice. -/
theorem foldElement_congr_of_redelivery :
    let v : View := ⟨{ tieBreak := .firstArrival }, .empty, some 1⟩
    let as := [sampleCreation 1, sampleValue 2, sampleDeletion 3, sampleCreation 4, sampleValue 2]
    let bs := [sampleCreation 4, sampleValue 2, sampleCreation 1, sampleDeletion 3]
    (∀ r ∈ as, r.element = ⟨.vertex, "v"⟩) ∧ Distinguished as ∧ (∀ r, r ∈ as ↔ r ∈ bs) ∧
      ∃ state, v.foldElement ⟨.vertex, "v"⟩ as = .ok state ∧
        v.foldElement ⟨.vertex, "v"⟩ bs = .ok state := by
  intro v as bs
  have own : ∀ r ∈ as, r.element = ⟨.vertex, "v"⟩ := by decide
  have distinguished : Distinguished as := by unfold Distinguished; decide
  have same : ∀ r, r ∈ as ↔ r ∈ bs := by
    intro r
    simp only [as, bs, List.mem_cons, List.not_mem_nil, or_false]
    tauto
  exact ⟨own, distinguished, same,
    foldElement_congr_of_mem_iff v ⟨.vertex, "v"⟩ as bs own distinguished same⟩

end View

end GraphLog
