/-
**Which creation an edge has its endpoints from.**

An edge may be created more than once, and its endpoints are meant to be fixed by the first
creation.  They are kept from the lowest rank, while everything else is kept from the highest: of
two creations the endpoints are those of the one that would lose.  At different times this is the
earlier one, and where the last arrival wins a tie it is the first to arrive.  Where the first
arrival wins, however, ranks count arrivals backwards, and the creation that loses a tie is the last
to arrive.  So there a creation that arrives later replaces the endpoints of one at the same time.

Main definitions:

* `GraphLog.Record.ArrivedBefore` — the order of arrival, where the input decides between equal
  numbers;
* `GraphLog.TieBreak.Loses` — a record loses a tie;
* `GraphLog.View.Founds` — the creation that comes first, and loses its ties.

Main results:

* `GraphLog.Rank.ofRecord_lt_iff` — a rank is lower if it is earlier, or loses a tie;
* `GraphLog.View.Founds.concat` — what a creation that arrives later changes;
* `GraphLog.View.foldElement_endpoints` — **an edge has the endpoints of the creation that founds
  it**;
* `GraphLog.View.endpoints_replaced_of_tie` — where the first arrival wins, that need not be the
  first to arrive.
-/

import GraphLog.Proofs.Folds

set_option relaxedAutoImplicit false
set_option autoImplicit false

namespace GraphLog

open Ranked (lowest)

/-! ### Ties -/

/-- A record arrived before another.  Where their numbers are equal, their places in the input
decide. -/
def Record.ArrivedBefore (p : Nat) (r : Record) (q : Nat) (s : Record) : Prop :=
  r.sequence < s.sequence ∨ r.sequence = s.sequence ∧ p < q

/-- **A record loses a tie with another**, given the places of both: by `ArrivedBefore`, in the
direction of the rule.  Endpoints are the one thing that the loser supplies. -/
def TieBreak.Loses (tieBreak : TieBreak) (p : Nat) (r : Record) (q : Nat) (s : Record) : Prop :=
  match tieBreak with
  | .lastArrival => r.ArrivedBefore p q s
  | .firstArrival => s.ArrivedBefore q p r

/-- A rank is lower than another if it is earlier, or if its record `Loses` a tie. -/
theorem Rank.ofRecord_lt_iff (tieBreak : TieBreak) (p q : Nat) (r s : Record) :
    ofRecord tieBreak p r < ofRecord tieBreak q s ↔ r.effectiveTime < s.effectiveTime ∨
      r.effectiveTime = s.effectiveTime ∧ tieBreak.Loses p r q s := by
  rw [lt_iff, time_ofRecord, time_ofRecord]
  refine or_congr_right (and_congr_right fun _ => ?_)
  cases tieBreak <;>
    simp only [ofRecord, TieBreak.Loses, Record.ArrivedBefore, UInt64.lt_iff_toNat_lt,
      ← UInt64.toNat_inj] <;>
    omega

/-! ### Creations of edges -/

namespace Record

theorem endpoints?_eq_some_iff {r : Record} {ends : Endpoints} :
    r.endpoints? = some ends ↔ r.mutation = .create (some ends) := by
  cases m : r.mutation <;> simp [endpoints?, m]

/-- The records that bring endpoints are the creations of edges. -/
theorem isSome_endpoints?_iff {r : Record} :
    r.endpoints?.isSome ↔ r.mutation.kind = .create ∧ r.element.kind = .edge := by
  have target := r.checkTarget_eq_ok
  rcases r with ⟨⟨⟨kind, id⟩, slot, time, v, m, n⟩, valid⟩
  cases m with
  | create ends =>
      cases slot <;> cases kind <;> cases ends <;>
        simp_all [Draft.checkTarget, endpoints?, Mutation.kind]
  | _ => simp [endpoints?, Mutation.kind]

end Record

namespace View

variable (v : View)

/-- **The creation that counts and comes first**, which is the earliest one, and of several at one
time the one that loses every tie. -/
structure Founds (records : List Record) (place : Nat) (r : Record) : Prop where
  here : records[place]? = some r
  counts : v.counts r
  creates : r.mutation.kind = .create
  first : ∀ other s, other ≠ place → records[other]? = some s → v.counts s →
    s.mutation.kind = .create → r.effectiveTime < s.effectiveTime ∨
      r.effectiveTime = s.effectiveTime ∧ v.options.tieBreak.Loses place r other s

variable {v} {records : List Record}

/-- A creation that comes first is ranked below the others. -/
theorem Founds.lt {p q : Nat} {r s : Record} (founds : v.Founds records p r) (apart : q ≠ p)
    (there : records[q]? = some s) (counts : v.counts s) (creates : s.mutation.kind = .create) :
    (v.ranked p r).rank < (v.ranked q s).rank :=
  (Rank.ofRecord_lt_iff ..).2 (founds.first q s apart there counts creates)

/-- Only one creation `Founds` an edge. -/
theorem Founds.unique {p q : Nat} {r s : Record} (left : v.Founds records p r)
    (right : v.Founds records q s) : r = s := by
  by_cases same : q = p
  · subst same
    exact Option.some_inj.1 (left.here.symm.trans right.here)
  · have lt := left.lt same right.here right.counts right.creates
    have gt := right.lt (Ne.symm same) left.here left.counts left.creates
    exact absurd gt (lt_asymm lt)

/-- What another creation does to the one that `Founds` the edge, if it is put behind all records
and arrived no earlier.  It takes its place if it takes effect earlier, and where the first arrival
wins also if it takes effect at the same time. -/
theorem Founds.concat {p : Nat} {r s : Record} (founds : v.Founds records p r)
    (arrived : r.sequence ≤ s.sequence) (counts : v.counts s)
    (creates : s.mutation.kind = .create) :
    if s.effectiveTime < r.effectiveTime ∨
        s.effectiveTime = r.effectiveTime ∧ v.options.tieBreak = .firstArrival
    then v.Founds (records ++ [s]) records.length s
    else v.Founds (records ++ [s]) p r := by
  obtain ⟨inside, -⟩ := List.getElem?_eq_some_iff.1 founds.here
  have lower : (v.ranked records.length s).rank < (v.ranked p r).rank ↔
      s.effectiveTime < r.effectiveTime ∨
        s.effectiveTime = r.effectiveTime ∧ v.options.tieBreak = .firstArrival :=
    Rank.lt_ofRecord_iff_of_ordered inside fun _ => arrived
  have old_or_new : ∀ {q t}, (records ++ [s])[q]? = some t →
      records[q]? = some t ∨ q = records.length ∧ t = s := by
    intro q t there
    rw [List.getElem?_append, List.getElem?_singleton] at there
    split at there
    · exact .inl there
    · next behind =>
      split at there
      · next last => exact .inr ⟨by omega, (Option.some_inj.1 there).symm⟩
      · cases there
  split
  · next earlier =>
    have lt := lower.2 earlier
    refine ⟨List.getElem?_concat_length, counts, creates, ?_⟩
    intro q t apart there counts' creates'
    refine (Rank.ofRecord_lt_iff ..).1 ?_
    rcases old_or_new there with old | ⟨rfl, -⟩
    · by_cases same : q = p
      · obtain rfl : t = r := Option.some_inj.1 (old.symm.trans (same ▸ founds.here))
        exact same ▸ lt
      · exact lt.trans (founds.lt same old counts' creates')
    · exact absurd rfl apart
  · next later =>
    have notLower := mt lower.1 later
    have ne : (v.ranked p r).rank ≠ (v.ranked records.length s).rank :=
      Rank.ofRecord_ne_of_places (Nat.ne_of_lt inside)
    refine ⟨(List.getElem?_append_left inside).trans founds.here, founds.counts, founds.creates, ?_⟩
    intro q t apart there counts' creates'
    rcases old_or_new there with old | ⟨rfl, rfl⟩
    · exact founds.first q t apart old counts' creates'
    · exact (Rank.ofRecord_lt_iff ..).1 (lt_of_le_of_ne (not_lt.1 notLower) ne)

/-- Of the creations of an edge, the `lowest`-ranked one comes first. -/
theorem founds_of_lowest (edges : ∀ r ∈ records, r.element.kind = .edge) {e : Ranked Record}
    (found : lowest (·.endpoints?.isSome) (v.entries 0 records) = some e) :
    ∃ place, v.Founds records place e.content := by
  obtain ⟨mem, brings, unbeaten⟩ := Ranked.leading_eq_some found
  obtain ⟨p, r, here, counts, rfl⟩ := mem_entries_iff.1 mem
  have creates := (Record.isSome_endpoints?_iff.1 brings).1
  refine ⟨p, here, counts, creates, fun q s apart there counts' creates' => ?_⟩
  have brings' : s.endpoints?.isSome :=
    Record.isSome_endpoints?_iff.2 ⟨creates', edges s (List.mem_of_getElem? there)⟩
  have le := not_lt.1 (unbeaten _ (mem_entries_iff.2 ⟨q, s, there, counts', rfl⟩) brings')
  rw [Nat.zero_add, Nat.zero_add] at le
  have ne : (v.ranked p r).rank ≠ (v.ranked q s).rank := Rank.ofRecord_ne_of_places apart.symm
  exact (Rank.ofRecord_lt_iff ..).1 (lt_of_le_of_ne le ne)

/-- The endpoints that records add up to. -/
theorem endpoints_stateOf (v : View) (element : Element) (records : List Record) :
    (v.stateOf element records).endpoints =
      ((lowest (·.endpoints?.isSome) (v.entries 0 records)).map (·.content)).bind
        Record.endpoints? := by
  rw [stateOf, Ledger.endpoints_stateFor, Ledger.endpoints_ofRecords, Ranked.content_bind_write?]

/-- **An edge has the endpoints of the creation that founds it**, and none if no creation counts. -/
theorem foldElement_endpoints (v : View) {element : Element} (edge : element.kind = .edge)
    (records : List Record) (own : ∀ r ∈ records, r.element = element) :
    ∃ state, v.foldElement element records = .ok state ∧
      (state.endpoints = none ↔ ∀ r ∈ records, v.counts r → r.mutation.kind ≠ .create) ∧
      ∀ ends, state.endpoints = some ends ↔
        ∃ place r, v.Founds records place r ∧ r.mutation = .create (some ends) := by
  have edges : ∀ r ∈ records, r.element.kind = .edge := fun r mem => own r mem ▸ edge
  refine ⟨v.stateOf element records, foldElement_eq v own, ?_⟩
  rw [endpoints_stateOf]
  cases found : lowest (·.endpoints?.isSome) (v.entries 0 records) with
  | none =>
      have absent : ∀ r ∈ records, v.counts r → r.mutation.kind ≠ .create := by
        intro r mem counts creates
        obtain ⟨e, here, rfl⟩ := exists_mem_entries_iff.2 ⟨mem, counts⟩
        have silent := Ranked.leading_eq_none_iff.1 found e here
        rw [Record.isSome_endpoints?_iff.2 ⟨creates, edges _ mem⟩] at silent
        cases silent
      refine ⟨iff_of_true rfl absent, fun ends => iff_of_false (by simp) ?_⟩
      rintro ⟨place, r, founds, -⟩
      exact absent r (List.mem_of_getElem? founds.here) founds.counts founds.creates
  | some e =>
      obtain ⟨place, founds⟩ := founds_of_lowest edges found
      have brings : e.content.endpoints?.isSome := (Ranked.leading_eq_some found).2.1
      rw [Option.map_some, Option.bind_some]
      refine ⟨iff_of_false (Option.isSome_iff_ne_none.1 brings) fun absent => ?_, fun ends => ?_⟩
      · exact absent _ (List.mem_of_getElem? founds.here) founds.counts founds.creates
      · rw [Record.endpoints?_eq_some_iff]
        constructor
        · exact fun creates => ⟨place, e.content, founds, creates⟩
        · rintro ⟨place', r, founds', creates⟩
          rw [founds.unique founds', creates]

/-- Two creations at one moment, of which the first to arrive founds the edge. -/
theorem foldElement_endpoints_of_tie :
    let v : View := ⟨{}, .empty, none⟩
    let edge : Element := ⟨.edge, "e"⟩
    let ends : Endpoints := ⟨"a", "b", "knows"⟩
    let ends' : Endpoints := ⟨"c", "d", "likes"⟩
    let created : Record := ⟨⟨edge, .existence, 5, .unrestricted, .create (some ends), 1⟩, rfl⟩
    let again : Record := ⟨⟨edge, .existence, 5, .unrestricted, .create (some ends'), 2⟩, rfl⟩
    let records := [again, created]
    (edge.kind = .edge ∧ ∀ r ∈ records, r.element = edge) ∧
      ∃ state, v.foldElement edge records = .ok state ∧
        (state.endpoints = none ↔ ∀ r ∈ records, v.counts r → r.mutation.kind ≠ .create) ∧
        ∀ ends, state.endpoints = some ends ↔
          ∃ place r, v.Founds records place r ∧ r.mutation = .create (some ends) := by
  intro v edge ends ends' created again records
  have own : ∀ r ∈ records, r.element = edge := by decide
  exact ⟨⟨rfl, own⟩, foldElement_endpoints v rfl records own⟩

/-- Under `TieBreak.firstArrival`, a creation that arrives later replaces the endpoints that one at
the same time has fixed. -/
theorem endpoints_replaced_of_tie :
    let v : View := ⟨{ tieBreak := .firstArrival }, .empty, none⟩
    let edge : Element := ⟨.edge, "e"⟩
    let ends : Endpoints := ⟨"a", "b", "knows"⟩
    let ends' : Endpoints := ⟨"c", "d", "likes"⟩
    let created : Record := ⟨⟨edge, .existence, 5, .unrestricted, .create (some ends), 1⟩, rfl⟩
    let again : Record := ⟨⟨edge, .existence, 5, .unrestricted, .create (some ends'), 2⟩, rfl⟩
    (v.foldElement edge [created]).map (·.endpoints) = .ok (some ends) ∧
      (v.foldElement edge [created, again]).map (·.endpoints) = .ok (some ends') := by
  decide +kernel

end View

end GraphLog
