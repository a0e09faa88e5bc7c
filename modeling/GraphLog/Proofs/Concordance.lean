/-
**When two lists of ranked records add up to the same.**

Often two lists of ranked records agree not only in the few questions of a ledger but in all of that
form: which record ranks highest among those of some kind, whatever the kind, and how two such
records compare.  Then they give ledgers that agree, whatever the ranks themselves are, however
often a record occurs and in whatever order the records come.

Main definitions:

* `GraphLog.Concordant` — two lists of ranked records answer alike.

Main results:

* `GraphLog.Concordant.of_pairs` — rankings that order the same records alike are concordant;
* `GraphLog.Concordant.consonant` — they answer the questions of a ledger alike;
* `GraphLog.Concordant.agree` — **concordant lists give ledgers that agree**.
-/

import GraphLog.Proofs.Consonance

set_option relaxedAutoImplicit false
set_option autoImplicit false

namespace GraphLog

open Ranked (highest lowest)

/-- **Two lists of ranked records answer alike** when asked for the extreme record of a kind, and
for how two of these compare. -/
structure Concordant (es fs : List (Ranked Record)) : Prop where
  /-- The highest-ranked records of a kind are the same. -/
  highest : ∀ p, (highest p es).map (·.content) = (highest p fs).map (·.content)
  /-- The lowest-ranked records of a kind are the same. -/
  lowest : ∀ p, (lowest p es).map (·.content) = (lowest p fs).map (·.content)
  /-- The highest-ranked records of two kinds compare in the same way. -/
  lt_iff : ∀ (p q : Record → Bool) (a b c d : Ranked Record),
    Ranked.highest p es = some a → Ranked.highest q es = some b →
    Ranked.highest p fs = some c → Ranked.highest q fs = some d →
    (a.rank < b.rank ↔ c.rank < d.rank)
  /-- Ranks tell when records take effect. -/
  time_left : ∀ e ∈ es, e.rank.time = e.content.effectiveTime
  time_right : ∀ e ∈ fs, e.rank.time = e.content.effectiveTime

namespace Concordant

/-- **Two rankings of the same records that order them alike are concordant.** -/
theorem of_pairs {pairs : List (Ranked Record × Ranked Record)}
    (contents : ∀ z ∈ pairs, z.1.content = z.2.content)
    (order : ∀ z ∈ pairs, ∀ y ∈ pairs, z.1.rank < y.1.rank ↔ z.2.rank < y.2.rank)
    (time_left : ∀ z ∈ pairs, z.1.rank.time = z.1.content.effectiveTime)
    (time_right : ∀ z ∈ pairs, z.2.rank.time = z.2.content.effectiveTime) :
    Concordant (pairs.map Prod.fst) (pairs.map Prod.snd) where
  highest p :=
    Ranked.map_content_leading_pairs (· > ·) p contents fun z hz y hy _ _ => order y hy z hz
  lowest p :=
    Ranked.map_content_leading_pairs (· < ·) p contents fun z hz y hy _ _ => order z hz y hy
  lt_iff p q a b c d left left' right right' := by
    have reversed (k : Record → Bool) : ∀ z ∈ pairs, ∀ y ∈ pairs, k z.1.content →
        k y.1.content → (z.1.rank > y.1.rank ↔ z.2.rank > y.2.rank) :=
      fun z hz y hy _ _ => order y hy z hz
    obtain ⟨z, hz, zl, zr⟩ := Ranked.leading_pairs (· > ·) p contents (reversed p)
    obtain ⟨y, hy, yl, yr⟩ := Ranked.leading_pairs (· > ·) q contents (reversed q)
    obtain ⟨z, rfl, rfl⟩ := Option.map_eq_some_iff.1 (zl.symm.trans left)
    obtain ⟨y, rfl, rfl⟩ := Option.map_eq_some_iff.1 (yl.symm.trans left')
    obtain rfl : z.2 = c := Option.some_inj.1 (zr.symm.trans right)
    obtain rfl : y.2 = d := Option.some_inj.1 (yr.symm.trans right')
    exact order z (hz z rfl) y (hy y rfl)
  time_left e mem := by
    obtain ⟨z, hz, rfl⟩ := List.mem_map.1 mem
    exact time_left z hz
  time_right e mem := by
    obtain ⟨z, hz, rfl⟩ := List.mem_map.1 mem
    exact time_right z hz

variable {es fs : List (Ranked Record)} (same : Concordant es fs)

include same

/-- The two answers for a kind: nothing, or the same record taking effect at the same time. -/
theorem pair (p : Record → Bool) :
    (Ranked.highest p es = none ∧ Ranked.highest p fs = none) ∨
      ∃ a b, Ranked.highest p es = some a ∧ Ranked.highest p fs = some b ∧
        a.content = b.content ∧ a.rank.time = b.rank.time := by
  have contents := same.highest p
  cases left : Ranked.highest p es with
  | none =>
      rw [left] at contents
      exact .inl ⟨rfl, by simpa using contents.symm⟩
  | some a =>
      rw [left] at contents
      obtain ⟨b, right, content⟩ := Option.map_eq_some_iff.1 contents.symm
      refine .inr ⟨a, b, rfl, right, content.symm, ?_⟩
      rw [same.time_left a (Ranked.leading_eq_some left).1,
        same.time_right b (Ranked.leading_eq_some right).1, content]

theorem map_time_highest (p : Record → Bool) :
    (Ranked.highest p es).map (·.rank.time) = (Ranked.highest p fs).map (·.rank.time) := by
  rcases same.pair p with ⟨none, none'⟩ | ⟨a, b, left, right, -, time⟩
  · rw [none, none']
  · rw [left, right, Option.map_some, Option.map_some, time]

theorem wipedAlike {p : Record → Bool} {a b : Ranked Record} (left : Ranked.highest p es = some a)
    (right : Ranked.highest p fs = some b) : WipedAlike es fs a b :=
  fun d d' del del' => same.lt_iff _ p d a d' b del left del' right

/-- Concordant lists are `Consonant`: what answers all questions alike answers those of a ledger
alike. -/
theorem consonant : Consonant es fs where
  kind k := by
    rcases same.pair k.has with none | ⟨a, b, left, right, content, time⟩
    · exact .inl none
    · exact .inr ⟨a, b, left, right, content, time, fun _ => same.wipedAlike left right⟩
  hide place := by
    rcases same.pair fun r => (r.hide? place).isSome with none | ⟨a, b, left, right, content, -⟩
    · exact .inl none
    · exact .inr ⟨a, b, left, right, congrArg _ content, fun _ => same.wipedAlike left right⟩
  deleted := same.map_time_highest _
  latest := same.map_time_highest _
  endpoints := same.lowest _
  fills := by
    have filled := congrArg Option.isSome (same.highest Record.fills)
    rw [Option.isSome_map, Option.isSome_map] at filled
    rw [Ranked.any_eq_isSome_highest, Ranked.any_eq_isSome_highest, filled]
  precedes place := same.lt_iff _ _

/-- Concordant lists give ledgers that `Agree`. -/
theorem agree : (Ledger.ofRecords es).Agree (Ledger.ofRecords fs) :=
  same.consonant.agree

end Concordant

end GraphLog
