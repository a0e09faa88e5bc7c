/-
**The write that wins, among any number of writes.**

A register is told about one write after another and keeps the one that ranks highest, or lowest in
the case of endpoints.  Here this is said of a whole list: among the entries whose contents have a
property, one is never beaten, and a register that met just the writes of such entries keeps that
of this one.  "The highest-ranked record of a kind" is `GraphLog.Ranked.highest` for the kind.

Main definitions:

* `GraphLog.Ranked.keep` — one step of a register, for either sense of winning;
* `GraphLog.Ranked.leading` — the entry with a property that no other beats;
* `GraphLog.Ranked.highest`, `GraphLog.Ranked.lowest` — the two senses;
* `GraphLog.Ranked.IsHighest` — what is said of the highest-ranked entry without a register;
* `GraphLog.Ranked.writes` — the writes that the entries of a list make to one register.

Main results:

* `GraphLog.Ranked.leading_eq_some` — **the leading entry is not beaten**;
* `GraphLog.Ranked.leading_filter` — entries without the property may be left out;
* `GraphLog.Ranked.highest_eq_some_iff` — the highest-ranked entry is the only one;
* `GraphLog.Ranked.foldl_keep_writes` — **a register holds the write of the leading entry**;
* `GraphLog.Ranked.leading_pairs` — only the relative order of ranks matters.
-/

import Mathlib.Data.List.Nodup
import Mathlib.Order.RelClasses
import GraphLog.Proofs.Rank

set_option relaxedAutoImplicit false
set_option autoImplicit false

namespace GraphLog.Ranked

variable {α β : Type}

/-! ### Registers in either sense -/

/-- A register after a write, where the write has to beat what is there. -/
def keep (beats : Rank → Rank → Prop) [DecidableRel beats] (current : Option (Ranked α))
    (write : Ranked α) : Option (Ranked α) :=
  match current with
  | some top => if beats write.rank top.rank then some write else some top
  | none => some write

theorem newest_eq_keep : @newest α = keep (· > ·) := by
  funext current write
  cases current <;> rfl

theorem oldest_eq_keep : @oldest α = keep (· < ·) := by
  funext current write
  cases current <;> rfl

/-! ### The leading entry -/

section Leading

variable (beats : Rank → Rank → Prop) [DecidableRel beats]

/-- **The entry with a property that no other such entry beats**, the first if there are several:
what `keep` leaves of them. -/
def leading (p : α → Bool) (entries : List (Ranked α)) : Option (Ranked α) :=
  (entries.filter (p ·.content)).foldl (keep beats) none

theorem keep_eq_some {current : Option (Ranked α)} {write w : Ranked α}
    (h : keep beats current write = some w) : write = w ∨ current = some w := by
  cases current with
  | none => exact .inl (Option.some_inj.1 h)
  | some top =>
      simp only [keep] at h
      split at h
      · exact .inl (Option.some_inj.1 h)
      · exact .inr h

theorem foldl_keep_ne_none (writes : List (Ranked α)) (top : Ranked α) :
    writes.foldl (keep beats) (some top) ≠ none := by
  induction writes generalizing top with
  | nil => simp
  | cons write writes ih =>
      rw [List.foldl_cons]
      simp only [keep]
      split <;> exact ih _

variable {beats}

/-- What a rank is not beaten by after a step, it was not beaten by before the step. -/
theorem keep_unbeaten [IsStrictTotalOrder Rank beats] {current : Option (Ranked α)}
    {write : Ranked α} {rank : Rank}
    (after : ∀ top, keep beats current write = some top → ¬beats top.rank rank) :
    ¬beats write.rank rank ∧ ∀ top, current = some top → ¬beats top.rank rank := by
  cases current with
  | none => exact ⟨after write rfl, by simp⟩
  | some top =>
      simp only [keep] at after
      by_cases won : beats write.rank top.rank
      · have kept := after write (if_pos won)
        refine ⟨kept, ?_⟩
        rintro _ ⟨⟩ h
        exact kept (trans_of beats won h)
      · have kept := after top (if_neg won)
        refine ⟨fun h => ?_, by rintro _ ⟨⟩; exact kept⟩
        rcases trichotomous_of beats write.rank top.rank with won' | same | lost
        · exact won won'
        · exact kept (same ▸ h)
        · exact kept (trans_of beats lost h)

/-- What a register holds was written to it, and is beaten neither by what was written nor by what
was there before. -/
theorem foldl_keep_eq_some [IsStrictTotalOrder Rank beats] {writes : List (Ranked α)}
    {current : Option (Ranked α)} {w : Ranked α} (h : writes.foldl (keep beats) current = some w) :
    (w ∈ writes ∨ current = some w) ∧ (∀ x ∈ writes, ¬beats x.rank w.rank) ∧
      ∀ top, current = some top → ¬beats top.rank w.rank := by
  induction writes generalizing current with
  | nil =>
      refine ⟨.inr h, by simp, ?_⟩
      intro top same
      have : top = w := Option.some_inj.1 (same.symm.trans h)
      rw [this]
      exact irrefl_of beats _
  | cons write writes ih =>
      rw [List.foldl_cons] at h
      obtain ⟨mem, unbeaten, after⟩ := ih h
      obtain ⟨here, before⟩ := keep_unbeaten after
      refine ⟨?_, List.forall_mem_cons.2 ⟨here, unbeaten⟩, before⟩
      rcases mem with mem | kept
      · exact .inl (List.mem_cons_of_mem _ mem)
      · rcases keep_eq_some beats kept with rfl | kept
        · exact .inl List.mem_cons_self
        · exact .inr kept

/-- The `leading` entry is not beaten. -/
theorem leading_eq_some [IsStrictTotalOrder Rank beats] {p : α → Bool} {entries : List (Ranked α)}
    {e : Ranked α} (h : leading beats p entries = some e) :
    e ∈ entries ∧ p e.content ∧ ∀ x ∈ entries, p x.content → ¬beats x.rank e.rank := by
  obtain ⟨mem, unbeaten, -⟩ := foldl_keep_eq_some h
  have mem : e ∈ entries.filter (p ·.content) := by simpa using mem
  obtain ⟨mem, has⟩ := List.mem_filter.1 mem
  exact ⟨mem, has, fun x hx hp => unbeaten x (List.mem_filter.2 ⟨hx, hp⟩)⟩

theorem leading_eq_none_iff {p : α → Bool} {entries : List (Ranked α)} :
    leading beats p entries = none ↔ ∀ x ∈ entries, p x.content = false := by
  unfold leading
  constructor
  · intro h x mem
    cases hp : p x.content with
    | false => rfl
    | true =>
        have mem : x ∈ entries.filter (p ·.content) := List.mem_filter.2 ⟨mem, hp⟩
        cases writes : entries.filter (p ·.content) with
        | nil => rw [writes] at mem; exact absurd mem List.not_mem_nil
        | cons first rest =>
            rw [writes] at h
            exact absurd h (foldl_keep_ne_none beats rest first)
  · intro h
    have none : entries.filter (p ·.content) = [] := by
      rw [List.filter_eq_nil_iff]
      intro x mem
      simp [h x mem]
    rw [none]
    rfl

/-- Entries without a property may be left out. -/
theorem leading_filter {p : α → Bool} {q : Ranked α → Bool} {entries : List (Ranked α)}
    (silent : ∀ e ∈ entries, q e = false → p e.content = false) :
    leading beats p (entries.filter q) = leading beats p entries := by
  unfold leading
  rw [List.filter_filter]
  refine congrArg (List.foldl _ none) (List.filter_congr fun e mem => ?_)
  cases kept : q e with
  | true => rw [Bool.and_true]
  | false => rw [silent e mem kept, Bool.false_and]

end Leading

/-- **The highest-ranked entry with a property.** -/
abbrev highest (p : α → Bool) (entries : List (Ranked α)) : Option (Ranked α) :=
  leading (· > ·) p entries

theorem any_eq_isSome_highest (p : α → Bool) (entries : List (Ranked α)) :
    entries.any (p ·.content) = (highest p entries).isSome := by
  rw [Bool.eq_iff_iff, Option.isSome_iff_ne_none, ne_eq, leading_eq_none_iff]
  simp

/-- An entry with a property that none ranks above which has it too. -/
structure IsHighest (p : α → Bool) (entries : List (Ranked α)) (e : Ranked α) : Prop where
  mem : e ∈ entries
  has : p e.content
  le : ∀ x ∈ entries, p x.content → x.rank ≤ e.rank

theorem isHighest_of_highest {p : α → Bool} {entries : List (Ranked α)} {e : Ranked α}
    (h : highest p entries = some e) : IsHighest p entries e := by
  obtain ⟨mem, has, unbeaten⟩ := leading_eq_some h
  exact ⟨mem, has, fun x hx hp => not_lt.1 (unbeaten x hx hp)⟩

/-- Where ranks are distinct, only one entry `IsHighest`. -/
theorem highest_eq_some_iff {p : α → Bool} {entries : List (Ranked α)} {e : Ranked α}
    (distinct : (entries.map (·.rank)).Nodup) :
    highest p entries = some e ↔ IsHighest p entries e := by
  refine ⟨isHighest_of_highest, fun h => ?_⟩
  cases found : highest p entries with
  | none =>
      have absent := leading_eq_none_iff.1 found e h.mem
      rw [h.has] at absent
      exact absurd absent (by simp)
  | some a =>
      have leads := isHighest_of_highest found
      have same : a.rank = e.rank := le_antisymm (h.le a leads.mem leads.has)
        (leads.le e h.mem h.has)
      rw [List.inj_on_of_nodup_map distinct leads.mem h.mem same]

/-- The lowest-ranked entry with a property. -/
abbrev lowest (p : α → Bool) (entries : List (Ranked α)) : Option (Ranked α) :=
  leading (· < ·) p entries

/-! ### Writes -/

/-- The write that an entry makes to a register, if it makes one. -/
def write? (f : α → Option β) (e : Ranked α) : Option (Ranked β) :=
  (f e.content).map (Ranked.mk e.rank)

/-- The writes that entries make to a register. -/
def writes (f : α → Option β) (entries : List (Ranked α)) : List (Ranked β) :=
  entries.filterMap (write? f)

theorem content_bind_write? (f : α → Option β) (e : Option (Ranked α)) :
    (e.bind (write? f)).map (·.content) = (e.map (·.content)).bind f := by
  cases e with
  | none => rfl
  | some e => cases h : f e.content <;> simp [write?, h]

/-- A write competes like the entry that makes it. -/
theorem keep_write? (beats : Rank → Rank → Prop) [DecidableRel beats] {f : α → Option β}
    {current : Option (Ranked α)} {e : Ranked α} {w : Ranked β} (made : write? f e = some w)
    (held : ∀ top, current = some top → (write? f top).isSome) :
    keep beats (current.bind (write? f)) w = (keep beats current e).bind (write? f) := by
  have rank : w.rank = e.rank := by
    obtain ⟨b, -, rfl⟩ := Option.map_eq_some_iff.1 made
    rfl
  cases current with
  | none => simpa [keep] using made.symm
  | some top =>
      obtain ⟨b, hb, top'⟩ := Option.map_eq_some_iff.1 (Option.eq_some_of_isSome (held top rfl))
      have topRank : ((write? f top).get (held top rfl)).rank = top.rank := by
        rw [← top']
      simp only [Option.bind_some, keep]
      rw [Option.eq_some_of_isSome (held top rfl)]
      simp only [rank, topRank]
      split
      · simp [made]
      · simp

/-- A register holds the write of the `leading` entry. -/
theorem foldl_keep_writes (beats : Rank → Rank → Prop) [DecidableRel beats] (f : α → Option β)
    (entries : List (Ranked α)) :
    (writes f entries).foldl (keep beats) none =
      (leading beats (fun a => (f a).isSome) entries).bind (write? f) := by
  suffices general : ∀ current : Option (Ranked α),
      (∀ top, current = some top → (write? f top).isSome) →
      (writes f entries).foldl (keep beats) (current.bind (write? f)) =
        ((entries.filter fun e => (f e.content).isSome).foldl (keep beats) current).bind
          (write? f) from general none (by simp)
  induction entries with
  | nil => intro current _; rfl
  | cons e entries ih =>
      intro current held
      cases made : write? f e with
      | none =>
          have silent : f e.content = none := by simpa [write?] using made
          simpa [writes, made, silent] using ih current held
      | some w =>
          have loud : (f e.content).isSome := by
            obtain ⟨b, hb, -⟩ := Option.map_eq_some_iff.1 made
            simp [hb]
          simp only [writes, List.filterMap_cons, made, List.foldl_cons, List.filter_cons, loud,
            if_true]
          rw [keep_write? beats made held]
          refine ih _ fun top kept => ?_
          rcases keep_eq_some beats kept with rfl | kept
          · simp [made]
          · exact held top kept

/-! ### Two rankings of the same entries -/

section Pairs

variable {pairs : List (Ranked α × Ranked α)}

/-- **Only the relative order of ranks matters**: if two lists go through the same contents and
rank those with a property in the same order, then their leading entries correspond. -/
theorem leading_pairs (beats : Rank → Rank → Prop) [DecidableRel beats] (p : α → Bool)
    (contents : ∀ z ∈ pairs, z.1.content = z.2.content)
    (order : ∀ z ∈ pairs, ∀ y ∈ pairs, p z.1.content → p y.1.content →
      (beats z.1.rank y.1.rank ↔ beats z.2.rank y.2.rank)) :
    ∃ winner : Option (Ranked α × Ranked α), (∀ z, winner = some z → z ∈ pairs) ∧
      leading beats p (pairs.map Prod.fst) = winner.map Prod.fst ∧
      leading beats p (pairs.map Prod.snd) = winner.map Prod.snd := by
  suffices general : ∀ rest, rest ⊆ pairs → ∀ current : Option (Ranked α × Ranked α),
      (∀ z, current = some z → z ∈ pairs ∧ p z.1.content) →
      ∃ winner : Option (Ranked α × Ranked α), (∀ z, winner = some z → z ∈ pairs) ∧
        ((rest.map Prod.fst).filter (p ·.content)).foldl (keep beats) (current.map Prod.fst) =
          winner.map Prod.fst ∧
        ((rest.map Prod.snd).filter (p ·.content)).foldl (keep beats) (current.map Prod.snd) =
          winner.map Prod.snd from general pairs (List.Subset.refl _) none (by simp)
  intro rest
  induction rest with
  | nil =>
      intro _ current mem
      exact ⟨current, fun z h => (mem z h).1, rfl, rfl⟩
  | cons z rest ih =>
      intro sub current mem
      obtain ⟨here, sub⟩ := List.cons_subset.1 sub
      have same := contents z here
      by_cases hp : p z.1.content
      · -- both registers meet a write, and decide alike
        have new : ∀ y, some z = some y → y ∈ pairs ∧ p y.1.content := by
          rintro _ ⟨⟩
          exact ⟨here, hp⟩
        simp only [List.map_cons, List.filter_cons, hp, same ▸ hp, if_true, List.foldl_cons]
        cases current with
        | none => exact ih sub (some z) new
        | some top =>
            obtain ⟨there, hp'⟩ := mem top rfl
            have alike := order z here top there hp hp'
            simp only [Option.map_some, keep]
            by_cases won : beats z.1.rank top.1.rank
            · rw [if_pos won, if_pos (alike.1 won)]
              exact ih sub (some z) new
            · rw [if_neg won, if_neg (mt alike.2 won)]
              exact ih sub (some top) mem
      · have hp' : ¬p z.2.content := same ▸ hp
        simp only [List.map_cons, List.filter_cons, hp, hp']
        exact ih sub current mem

/-- Entries that correspond by `leading_pairs` have the same content. -/
theorem map_content_leading_pairs (beats : Rank → Rank → Prop) [DecidableRel beats] (p : α → Bool)
    (contents : ∀ z ∈ pairs, z.1.content = z.2.content)
    (order : ∀ z ∈ pairs, ∀ y ∈ pairs, p z.1.content → p y.1.content →
      (beats z.1.rank y.1.rank ↔ beats z.2.rank y.2.rank)) :
    (leading beats p (pairs.map Prod.fst)).map (·.content) =
      (leading beats p (pairs.map Prod.snd)).map (·.content) := by
  obtain ⟨winner, mem, left, right⟩ := leading_pairs beats p contents order
  rw [left, right, Option.map_map, Option.map_map]
  exact Option.map_congr fun z hz => contents z (mem z hz)

/-- The highest-ranked entry of one list is ranked by the other below the highest-ranked entry of
that list, or is it. -/
theorem exists_pair_of_highest {p : α → Bool} (contents : ∀ z ∈ pairs, z.1.content = z.2.content)
    {a : Ranked α} (found : highest p (pairs.map Prod.fst) = some a) :
    ∃ z ∈ pairs, ∃ y ∈ pairs, a = z.1 ∧ highest p (pairs.map Prod.snd) = some y.2 ∧
      p z.1.content ∧ p y.1.content ∧ y.1.rank ≤ z.1.rank ∧ z.2.rank ≤ y.2.rank := by
  have top := isHighest_of_highest found
  obtain ⟨z, hz, rfl⟩ := List.mem_map.1 top.mem
  cases found' : highest p (pairs.map Prod.snd) with
  | none =>
      have absent := leading_eq_none_iff.1 found' z.2 (List.mem_map.2 ⟨z, hz, rfl⟩)
      rw [← contents z hz, top.has] at absent
      exact absurd absent (by simp)
  | some b =>
      have top' := isHighest_of_highest found'
      obtain ⟨y, hy, rfl⟩ := List.mem_map.1 top'.mem
      have has := top'.has
      rw [← contents y hy] at has
      refine ⟨z, hz, y, hy, rfl, rfl, top.has, has, ?_, ?_⟩
      · exact top.le y.1 (List.mem_map.2 ⟨y, hy, rfl⟩) has
      · exact top'.le z.2 (List.mem_map.2 ⟨z, hz, rfl⟩) (contents z hz ▸ top.has)

end Pairs

end GraphLog.Ranked
