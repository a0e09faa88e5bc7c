/-
**Folds without a cache.**

A fold asks a cache for verdicts, refuses records of other elements and numbers the places of its
input.  For records of one element all of this comes to a function: the records that count, each
with its rank, are gathered in a ledger, and what the ledger shows is the state.

Main definitions:

* `GraphLog.View.counts` — a record counts: it is within the horizon, and it is a deletion or the
  caller satisfies its label;
* `GraphLog.View.entries` — the records that count, each with its rank;
* `GraphLog.View.stateOf` — the state that they add up to.

Main results:

* `GraphLog.View.foldElement_eq` — **a fold of an element's own records gives that state**;
* `GraphLog.View.foldPartition_eq` — **a fold of all records gives one for each element**;
* `GraphLog.View.mem_entries_iff`, `GraphLog.View.contents_entries` — the entries are the records
  that count, at their places;
* `GraphLog.View.nodup_ranks_entries` — their ranks tell them apart.
-/

import GraphLog.Fold.Basic
import GraphLog.Proofs.Resolution

set_option relaxedAutoImplicit false
set_option autoImplicit false

namespace GraphLog

namespace View

variable (v : View)

/-- **A record counts**: it takes effect within the horizon, and it is a deletion or the caller
satisfies its label. -/
def counts (r : Record) : Bool :=
  !v.isBeyond r.effectiveTime && (r.mutation.isSoftDelete || v.held.sees r.visibility)

/-- A record with the `Rank.ofRecord` that it has at a place. -/
def ranked (place : Nat) (r : Record) : Ranked Record :=
  ⟨Rank.ofRecord v.options.tieBreak place r, r⟩

/-- **The records that count, each with its rank**; the first record stands at `place`. -/
def entries (place : Nat) : List Record → List (Ranked Record)
  | [] => []
  | r :: rs =>
    if v.counts r then v.ranked place r :: entries (place + 1) rs else entries (place + 1) rs

/-- The state that records add up to, the `Ledger.stateFor` of their entries. -/
def stateOf (element : Element) (records : List Record) : ElementState :=
  (Ledger.ofRecords (v.entries 0 records)).stateFor v.options v.held.sees element v.asOf

theorem element_stateOf (element : Element) (records : List Record) :
    (v.stateOf element records).element = element :=
  Ledger.element_stateFor ..

/-! ### Folds of an element's own records -/

open Judged (Gives)

theorem gives_admits (r : Record) : Gives v.held (v.admits Visibility.judged r) (v.counts r) := by
  unfold admits counts
  by_cases beyond : v.isBeyond r.effectiveTime
  · simpa [beyond] using Gives.pure false
  · by_cases deletes : r.mutation.isSoftDelete
    · simpa [beyond, deletes] using Gives.pure true
    · simpa [beyond, deletes] using Gives.judged r.visibility

theorem gives_admitted (place : Nat) (records : List Record) :
    Gives v.held (v.admitted (v.admits Visibility.judged) place records)
      (v.entries place records) := by
  induction records generalizing place with
  | nil => exact Gives.pure _
  | cons r rs ih =>
      unfold admitted entries
      refine Gives.bind (gives_admits v r) (Gives.bind (ih (place + 1)) ?_)
      exact Gives.pure _

theorem gives_reduce (element : Element) (records : List Record) :
    Gives v.held (v.reduce element records) (v.stateOf element records) :=
  Gives.bind (gives_admitted v 0 records) (Ledger.gives_resolve _ v.options element v.asOf)

theorem checkAll_eq_ok {element : Element} {records : List Record}
    (own : ∀ r ∈ records, r.element = element) : checkAll element records = .ok () := by
  induction records with
  | nil => rfl
  | cons r rs ih =>
      obtain ⟨here, rest⟩ := List.forall_mem_cons.1 own
      have same : element.checkSame r.element = .ok () := by
        simp [Element.checkSame, here]
      rw [checkAll, same]
      exact ih rest

/-- A fold refuses records of other elements, and else the cache plays no part in what it gives. -/
theorem foldElement_eq_map (element : Element) (records : List Record) :
    v.foldElement element records =
      (checkAll element records).map fun _ => v.stateOf element records := by
  have state : v.judge (v.reduce element records) = v.stateOf element records :=
    v.options.judge_eq (gives_reduce v element records)
  rw [foldElement, state]
  rfl

/-- **A fold of an element's own records gives a state**, their `stateOf`. -/
theorem foldElement_eq {element : Element} {records : List Record}
    (own : ∀ r ∈ records, r.element = element) :
    v.foldElement element records = .ok (v.stateOf element records) := by
  rw [foldElement_eq_map, checkAll_eq_ok own]
  rfl

/-- A fold that finds the element by itself takes that of the first record. -/
theorem fold_eq {element : Element} {records : List Record}
    (own : ∀ r ∈ records, r.element = element) (nonempty : records ≠ []) :
    v.fold records = .ok (some (v.stateOf element records)) := by
  cases records with
  | nil => exact absurd rfl nonempty
  | cons first rest =>
      rw [fold, own first List.mem_cons_self, foldElement_eq v own]
      rfl

/-- **A partition gives one state for each element** that the records are about: the `stateOf` the
records of the element. -/
theorem foldPartition_eq (records : List Record) :
    v.foldPartition records =
      (elements records).map fun e => v.stateOf e (records.filter (·.element = e)) :=
  v.options.judge_eq (Gives.mapM fun _ _ => gives_reduce v _ _)

/-! ### The elements of records -/

theorem mem_elements {records : List Record} {e : Element} :
    e ∈ elements records ↔ ∃ r ∈ records, r.element = e := by
  rw [elements, Std.ExtTreeSet.mem_toList, Std.ExtTreeSet.mem_ofList, List.contains_iff_mem,
    List.mem_map]

/-- Elements that are listed upwards are listed in one way. -/
theorem elements_eq_of_mem_iff {records : List Record} {es : List Element}
    (ordered : es.Pairwise fun a b => compare a b = .lt)
    (mem : ∀ e, e ∈ es ↔ ∃ r ∈ records, r.element = e) : elements records = es := by
  have ordered' : (elements records).Pairwise fun a b => compare a b = .lt :=
    Std.ExtTreeSet.ordered_toList
  have distinct {xs : List Element} (up : xs.Pairwise fun a b => compare a b = .lt) : xs.Nodup :=
    up.imp fun {a b} lt same => by simp [same] at lt
  refine List.Perm.eq_of_pairwise (fun a b _ _ lt gt => ?_) ordered' ordered
    ((List.perm_ext_iff_of_nodup (distinct ordered') (distinct ordered)).2 fun e => ?_)
  · exact absurd (Std.TransCmp.lt_trans lt gt) (by simp)
  · rw [mem_elements, mem]

/-! ### Entries -/

variable {v}

/-- The `entries` of a fold are the records that count, each ranked at its place. -/
theorem mem_entries_iff {place : Nat} {records : List Record} {e : Ranked Record} :
    e ∈ v.entries place records ↔
      ∃ p r, records[p]? = some r ∧ v.counts r ∧ e = v.ranked (place + p) r := by
  induction records generalizing place with
  | nil => simp [entries]
  | cons first rest ih =>
      have split : e ∈ v.entries place (first :: rest) ↔
          (v.counts first ∧ e = v.ranked place first) ∨ e ∈ v.entries (place + 1) rest := by
        rw [entries]
        by_cases h : v.counts first <;> simp [h]
      rw [split, ih]
      constructor
      · rintro (⟨counts, rfl⟩ | ⟨p, r, here, counts, rfl⟩)
        · exact ⟨0, first, rfl, counts, rfl⟩
        · exact ⟨p + 1, r, here, counts, by rw [Nat.add_right_comm, Nat.add_assoc]⟩
      · rintro ⟨p, r, here, counts, rfl⟩
        cases p with
        | zero =>
            obtain rfl : first = r := Option.some_inj.1 here
            exact .inl ⟨counts, rfl⟩
        | succ p =>
            exact .inr ⟨p, r, here, counts, by rw [Nat.add_right_comm, Nat.add_assoc]⟩

theorem eq_ranked_of_mem {place : Nat} {records : List Record} {e : Ranked Record}
    (mem : e ∈ v.entries place records) : ∃ p, e = v.ranked p e.content := by
  obtain ⟨p, r, -, -, rfl⟩ := mem_entries_iff.1 mem
  exact ⟨place + p, rfl⟩

/-- Views that break ties alike and have the same `counts` have the same entries. -/
theorem entries_congr (v w : View) (rules : w.options.tieBreak = v.options.tieBreak)
    (alike : w.counts = v.counts) (place : Nat) (records : List Record) :
    w.entries place records = v.entries place records := by
  induction records generalizing place with
  | nil => rfl
  | cons r rs ih => rw [entries, entries, ih, alike, ranked, ranked, rules]

/-- No two `entries` have one rank, because they stand at different places. -/
theorem nodup_ranks_entries (place : Nat) (records : List Record) :
    ((v.entries place records).map (·.rank)).Nodup := by
  induction records generalizing place with
  | nil => exact List.nodup_nil
  | cons r rs ih =>
      rw [entries]
      split
      · rw [List.map_cons, List.nodup_cons]
        refine ⟨fun mem => ?_, ih (place + 1)⟩
        obtain ⟨e, he, same⟩ := List.mem_map.1 mem
        obtain ⟨p, s, -, -, rfl⟩ := mem_entries_iff.1 he
        exact Rank.ofRecord_ne_of_places (by omega) same
      · exact ih (place + 1)

/-- The entries are the records that count, in the order of the input. -/
theorem contents_entries (place : Nat) (records : List Record) :
    (v.entries place records).map (·.content) = records.filter v.counts := by
  induction records generalizing place with
  | nil => rfl
  | cons r rs ih =>
      rw [entries, List.filter_cons]
      split
      · rw [List.map_cons, ih]
        rfl
      · exact ih (place + 1)

theorem exists_mem_entries_iff {place : Nat} {records : List Record} {r : Record} :
    (∃ e ∈ v.entries place records, e.content = r) ↔ r ∈ records ∧ v.counts r := by
  rw [← List.mem_map, contents_entries, List.mem_filter]

theorem time_of_mem {place : Nat} {records : List Record} {e : Ranked Record}
    (mem : e ∈ v.entries place records) : e.rank.time = e.content.effectiveTime := by
  obtain ⟨p, h⟩ := eq_ranked_of_mem mem
  rw [h]
  exact Rank.time_ofRecord p

end View

end GraphLog
