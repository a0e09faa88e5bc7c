/-
**Reading a history page by page loses nothing.**

A reader who knows only the place of the last event asks for the events behind that place.  This
goes on exactly where the page before ended, as long as no two events share a place: in an order of
reading, the events behind the last of a page are the events that the page left over.  By induction
the pages one after the other are the whole history, and there are as many of them as its length
asks for.  Around any place, whether an event stands there or not, the events on the two sides are
the whole history but the events at the place.

Main definitions:

* `GraphLog.History.Ascending` — no two events of a history share a place.

Main results:

* `GraphLog.History.ascending_of_nodup` — events with different places are in strict order;
* `GraphLog.History.scan_after_page` — **a page goes on where the page before ended**;
* `GraphLog.History.flatten_pages`, `GraphLog.History.length_pages` — the pages from a place
  onwards, and how many there are;
* `GraphLog.History.reverse_scan_append_scan` — the two sides of a place;
* `GraphLog.History.pages_covers`, `GraphLog.History.pages_ofEvents` — **all pages of a history,
  and the two sides of a place**.
-/

import GraphLog.Proofs.Histories

set_option relaxedAutoImplicit false
set_option autoImplicit false

namespace GraphLog

open Std (TransCmp LawfulEqCmp OrientedCmp)

namespace HistoryOrder

theorem ne_of_isBehind (order : HistoryOrder) {a b : EventId} (behind : order.isBehind a b) :
    b ≠ a := by
  rintro rfl
  rw [isBehind_self] at behind
  cases behind

/-- Of two places only one lies behind the other: `isBehind` is asymmetric. -/
theorem not_isBehind_of_isBehind (order : HistoryOrder) {a b : EventId}
    (behind : order.isBehind a b) : order.isBehind b a = false := by
  by_contra turned
  have both := order.isBehind_trans behind (Bool.of_not_eq_false turned)
  exact order.ne_of_isBehind both rfl

/-- What lies behind a place when reading backwards does not when reading forwards. -/
theorem ascending_isBehind_eq_false {cursor id : EventId}
    (before : descending.isBehind cursor id) : ascending.isBehind cursor id = false :=
  descending.not_isBehind_of_isBehind before

end HistoryOrder

namespace History

/-! ### Histories in strict order -/

/-- **No two events of a history share a place**: each lies behind those in front of it. -/
def Ascending (h : History) : Prop :=
  h.events.Pairwise fun a b => HistoryOrder.ascending.isBehind a.id b.id

theorem ascending_of_nodup {h : History} (distinct : (h.events.map Event.id).Nodup) :
    h.Ascending := by
  have apart : h.events.Pairwise fun a b => a.id ≠ b.id := by
    rw [← List.pairwise_map, ← List.nodup_iff_pairwise_ne]
    exact distinct
  refine (h.ordered.and apart).imp fun {a b} h => ?_
  obtain ⟨le, ne⟩ := h
  show (compare a.id b.id).isLT
  cases compared : compare a.id b.id with
  | lt => rfl
  | eq => exact absurd (LawfulEqCmp.eq_of_compare compared) ne
  | gt => simp [compared] at le

section Pages

variable {h : History} (order : HistoryOrder)

/-- Reading by `scan` goes from place to place, always further. -/
theorem Ascending.pairwise_scan (ascending : h.Ascending) (after : Option EventId) :
    (h.scan order after).Pairwise fun a b => order.isBehind a.id b.id := by
  refine List.Pairwise.filter _ ?_
  cases order with
  | ascending => exact ascending
  | descending => exact List.pairwise_reverse.2 ascending

/-- Of events in strict order, those behind the last of a page are those that the page leaves
over. -/
theorem filter_isBehind_getLast {events : List Event} {n : Nat}
    (strict : events.Pairwise fun a b => order.isBehind a.id b.id) (more : events.take n ≠ []) :
    events.filter (fun e => order.isBehind ((events.take n).getLast more).id e.id) =
      events.drop n := by
  have split := List.take_append_drop n events
  rw [← split, List.pairwise_append] at strict
  obtain ⟨onPage, -, across⟩ := strict
  have ends := List.dropLast_append_getLast more
  have isLast := List.getLast_mem more
  generalize (events.take n).getLast more = last at ends isLast ⊢
  have none : (events.take n).filter (fun e => order.isBehind last.id e.id) = [] := by
    rw [← ends, List.pairwise_append] at onPage
    obtain ⟨-, -, inFront⟩ := onPage
    rw [← ends, List.filter_append, List.append_eq_nil_iff]
    constructor
    · refine List.filter_eq_nil_iff.2 fun a ha => ?_
      simpa using order.not_isBehind_of_isBehind (inFront a ha last (List.mem_singleton_self last))
    · simp [order.isBehind_self]
  have all : (events.drop n).filter (fun e => order.isBehind last.id e.id) = events.drop n :=
    List.filter_eq_self.2 fun b hb => across last isLast b hb
  conv_lhs => rw [← split, List.filter_append, none, all, List.nil_append]

/-- **A page goes on where the page before ended**: a `scan` from behind the last event of a page
gives the events that the page left over. -/
theorem scan_after_page (ascending : h.Ascending) (after : Option EventId) {n : Nat}
    (more : (h.scan order after).take n ≠ []) :
    h.scan order (some (((h.scan order after).take n).getLast more).id) =
      (h.scan order after).drop n := by
  rw [scan_after h order after (List.take_subset n _ (List.getLast_mem more))]
  exact filter_isBehind_getLast order (ascending.pairwise_scan order after) more

/-- **The pages from a place onwards are the events behind it**, one page after the other. -/
theorem flatten_pages (ascending : h.Ascending) {n : Nat} (positive : 1 ≤ n)
    (after : Option EventId) :
    (h.pages order (some n) after).flatten = h.scan order after := by
  fun_induction h.pages order (some n) after with
  | case1 after page more ih =>
      have rest : h.scan order (some (page.getLast more).id) = (h.scan order after).drop n :=
        scan_after_page order ascending after more
      rw [List.flatten_cons, ih, rest]
      exact List.take_append_drop n _
  | case2 after page done =>
      have empty : (h.scan order after).take n = [] := not_not.1 done
      rcases List.take_eq_nil_iff.1 empty with zero | nil
      · omega
      · rw [nil, List.flatten_nil]

/-- No page is asked for in vain: there are as many as the events behind a place fill. -/
theorem length_pages (ascending : h.Ascending) {n : Nat} (positive : 1 ≤ n)
    (after : Option EventId) :
    (h.pages order (some n) after).length = ((h.scan order after).length + n - 1) / n := by
  fun_induction h.pages order (some n) after with
  | case1 after page more ih =>
      have rest : h.scan order (some (page.getLast more).id) = (h.scan order after).drop n :=
        scan_after_page order ascending after more
      have unread : 1 ≤ (h.scan order after).length :=
        List.length_pos_of_ne_nil fun nil => more (List.take_eq_nil_iff.2 (.inr nil))
      rw [List.length_cons, ih, rest, List.length_drop]
      generalize (h.scan order after).length = count at unread
      -- A page takes away `n` events, or all that are left.
      rw [show count + n - 1 = (count - 1) + n by omega, Nat.add_div_right _ positive]
      rcases Nat.lt_or_ge count n with short | full
      · rw [Nat.div_eq_of_lt (by omega), Nat.div_eq_of_lt (by omega)]
      · rw [show count - n + n - 1 = count - 1 by omega]
  | case2 after page done =>
      have empty : (h.scan order after).take n = [] := not_not.1 done
      rcases List.take_eq_nil_iff.1 empty with zero | nil
      · omega
      · rw [nil, List.length_nil, List.length_nil, Nat.div_eq_of_lt (by omega)]

end Pages

/-! ### The two sides of a place -/

/-- The two sides of a place, read away from it, are the events that do not stand there.  The place
need not be that of an event, and events may share theirs. -/
theorem reverse_filter_isBehind_append {events : List Event}
    (ordered : Ordered events) (cursor : EventId) :
    events.filter (fun e => HistoryOrder.descending.isBehind cursor e.id) ++
        events.filter (fun e => HistoryOrder.ascending.isBehind cursor e.id) =
      events.filter (·.id ≠ cursor) := by
  induction events with
  | nil => rfl
  | cons e events ih =>
      obtain ⟨inFront, ordered⟩ := List.pairwise_cons.1 ordered
      specialize ih ordered
      cases compared : compare cursor e.id with
      | lt =>
          -- From here on all events lie behind the place.
          have behind : ∀ b ∈ e :: events, HistoryOrder.ascending.isBehind cursor b.id := by
            intro b hb
            rw [HistoryOrder.isBehind, Ordering.isLT_iff_eq_lt]
            rcases List.mem_cons.1 hb with rfl | later
            · exact compared
            · exact TransCmp.lt_of_lt_of_isLE compared (inFront b later)
          have none : (e :: events).filter
              (fun b => HistoryOrder.descending.isBehind cursor b.id) = [] :=
            List.filter_eq_nil_iff.2 fun b hb =>
              Bool.not_eq_true _ ▸ HistoryOrder.ascending.not_isBehind_of_isBehind (behind b hb)
          have apart : ∀ b ∈ e :: events, decide (b.id ≠ cursor) = true := fun b hb =>
            decide_eq_true (HistoryOrder.ascending.ne_of_isBehind (behind b hb))
          rw [none, List.filter_eq_self.2 behind, List.filter_eq_self.2 apart, List.nil_append]
      | eq =>
          obtain rfl : cursor = e.id := LawfulEqCmp.eq_of_compare compared
          simpa [HistoryOrder.isBehind_self] using ih
      | gt =>
          have inFront : HistoryOrder.descending.isBehind cursor e.id := by
            rw [HistoryOrder.isBehind, Ordering.isLT_iff_eq_lt]
            exact OrientedCmp.lt_of_gt compared
          have notBehind := HistoryOrder.ascending_isBehind_eq_false inFront
          have apart := HistoryOrder.descending.ne_of_isBehind inFront
          simpa [inFront, notBehind, apart] using ih

/-- No event lies on both sides of a place. -/
theorem disjoint_scan (h : History) (cursor : EventId) :
    (h.scan .descending (some cursor)).Disjoint (h.scan .ascending (some cursor)) := by
  intro e before behind
  have before : HistoryOrder.descending.isBehind cursor e.id := (List.mem_filter.1 before).2
  have behind : HistoryOrder.ascending.isBehind cursor e.id := (List.mem_filter.1 behind).2
  rw [HistoryOrder.ascending_isBehind_eq_false before] at behind
  cases behind

theorem reverse_scan_append_scan (h : History) (cursor : EventId) :
    (h.scan .descending (some cursor)).reverse ++ h.scan .ascending (some cursor) =
      h.events.filter (·.id ≠ cursor) := by
  rw [← reverse_filter_isBehind_append h.ordered cursor]
  simp only [scan, HistoryOrder.arrange, Option.all_some, List.filter_reverse, List.reverse_reverse]

/-! ### Whole histories -/

/-- Reading a history in an order of reading is reading all its `events`. -/
theorem perm_arrange (order : HistoryOrder) (events : List Event) :
    (order.arrange events).Perm events := by
  cases order with
  | ascending => exact .refl _
  | descending => exact List.reverse_perm _

/-- The pages of any history whose events have different places, and the two sides of a place:
`pages_ofEvents` for a history however it came about. -/
theorem pages_covers (h : History) (distinct : (h.events.map Event.id).Nodup) {n : Nat}
    (positive : 1 ≤ n) (order : HistoryOrder) (cursor : EventId) :
    let pages := h.pages order (some n) none
    let behind := fun side => h.query ⟨some cursor, side, none⟩
    (∀ after, (h.pages order (some n) after).flatten = h.query ⟨after, order, none⟩) ∧
      pages.flatten = order.arrange h.events ∧
      pages.flatten.Perm h.events ∧
      pages.length = (h.events.length + n - 1) / n ∧
      (behind .descending).Disjoint (behind .ascending) ∧
      (behind .descending).reverse ++ behind .ascending = h.events.filter (·.id ≠ cursor) := by
  intro pages behind
  have ascending := ascending_of_nodup distinct
  have whole : h.scan order none = order.arrange h.events := List.filter_eq_self.2 fun _ _ => rfl
  have flat : pages.flatten = order.arrange h.events :=
    (flatten_pages order ascending positive none).trans whole
  refine ⟨flatten_pages order ascending positive, flat, ?_, ?_, disjoint_scan h cursor,
    reverse_scan_append_scan h cursor⟩
  · rw [flat]
    exact perm_arrange order h.events
  · rw [length_pages order ascending positive none, whole, (perm_arrange order h.events).length_eq]

/-- **All pages of a history, and the two sides of a place.**  The pages that are read one behind
the other, until one is empty, are together what is read at once: from the start these are all
events, in the order of reading, on as few pages as can hold them.  What lies behind a place in one
order and in the other has no event in common, and is together all events in order but the one at
the place, if there is one. -/
theorem pages_ofEvents {events : List Event} (distinct : (events.map Event.id).Nodup) {n : Nat}
    (positive : 1 ≤ n) (order : HistoryOrder) (cursor : EventId) :
    let h := ofEvents events
    let pages := h.pages order (some n) none
    let behind := fun side => h.query ⟨some cursor, side, none⟩
    (∀ after, (h.pages order (some n) after).flatten = h.query ⟨after, order, none⟩) ∧
      pages.flatten = order.arrange h.events ∧
      pages.flatten.Perm events ∧
      pages.length = (events.length + n - 1) / n ∧
      (behind .descending).Disjoint (behind .ascending) ∧
      (behind .descending).reverse ++ behind .ascending = h.events.filter (·.id ≠ cursor) := by
  intro h pages behind
  have perm := ofEvents_perm events
  have places : (h.events.map Event.id).Nodup := (perm.map _).nodup_iff.2 distinct
  obtain ⟨onwards, flat, all, count, sides⟩ := pages_covers h places positive order cursor
  refine ⟨onwards, flat, all.trans perm, ?_, sides⟩
  rw [count, perm.length_eq]

/-- Three events at one moment, two of them with the same number, read backwards in twos; the place
in their midst is that of none. -/
theorem pages_ofEvents_of_shared_moment :
    let events : List Event :=
      [⟨⟨⟨⟨.vertex, "b"⟩, .existence, 5, .unrestricted, .create none, 1⟩, rfl⟩⟩,
        ⟨⟨⟨⟨.vertex, "a"⟩, .existence, 5, .unrestricted, .create none, 2⟩, rfl⟩⟩,
        ⟨⟨⟨⟨.vertex, "a"⟩, .existence, 5, .unrestricted, .create none, 1⟩, rfl⟩⟩]
    let order := HistoryOrder.descending
    let cursor : EventId := ⟨5, 1, ⟨.vertex, "c"⟩, .existence⟩
    let h := ofEvents events
    let pages := h.pages order (some 2) none
    let behind := fun side => h.query ⟨some cursor, side, none⟩
    ((events.map Event.id).Nodup ∧ 1 ≤ 2) ∧
      (∀ after, (h.pages order (some 2) after).flatten = h.query ⟨after, order, none⟩) ∧
      pages.flatten = order.arrange h.events ∧
      pages.flatten.Perm events ∧
      pages.length = (events.length + 2 - 1) / 2 ∧
      (behind .descending).Disjoint (behind .ascending) ∧
      (behind .descending).reverse ++ behind .ascending = h.events.filter (·.id ≠ cursor) := by
  intro events order cursor h pages behind
  have distinct : (events.map Event.id).Nodup := by decide
  exact ⟨⟨distinct, by decide⟩, pages_ofEvents distinct (by decide) order cursor⟩

end History

end GraphLog
