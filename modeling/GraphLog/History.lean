/-
**Histories: events in order, read page by page.**

A history lists the events of some records by their places, which are unique as long as no two
records arrived with the same number.  A page is read behind a place, in either order; the place
need not belong to an event.  A caller may be given the events whose labels allow it, or all
events with the verdict beside each.

Main definitions:

* `GraphLog.History` — events in ascending order of their places;
* `GraphLog.History.ofRecords` — the history that a caller is given;
* `GraphLog.History.query` — a page of a history;
* `GraphLog.History.pages` — all pages, each read behind the last event of the page before;
* `GraphLog.annotate` — events with the verdict of a caller beside each.

Main results:

* `GraphLog.History.length_scan_lt` — reading on behind an event leaves fewer events to read.
-/

import GraphLog.Fold.View
import GraphLog.Record.Basic

set_option relaxedAutoImplicit false
set_option autoImplicit false

namespace GraphLog

open Std

/-- The two orders in which a history is read. -/
inductive HistoryOrder where
  | ascending
  | descending
deriving DecidableEq, Repr, Inhabited

namespace HistoryOrder

def name : HistoryOrder → String
  | ascending => "ascending"
  | descending => "descending"

def all : List HistoryOrder :=
  [ascending, descending]

def ofName? (name : String) : Option HistoryOrder :=
  all.find? (·.name == name)

/-- An ascending list in this order. -/
def arrange {α : Type} : HistoryOrder → List α → List α
  | ascending, xs => xs
  | descending, xs => xs.reverse

/-- A place lies behind another when reading in this order. -/
def isBehind : HistoryOrder → (cursor id : EventId) → Bool
  | ascending, cursor, id => (compare cursor id).isLT
  | descending, cursor, id => (compare id cursor).isLT

theorem isBehind_self (order : HistoryOrder) (id : EventId) : order.isBehind id id = false := by
  cases order <;> simp [isBehind]

theorem isBehind_trans (order : HistoryOrder) {a b c : EventId} (h : order.isBehind a b)
    (k : order.isBehind b c) : order.isBehind a c := by
  cases order <;> simp only [isBehind, Ordering.isLT_iff_eq_lt] at h k ⊢
  · exact TransCmp.lt_trans h k
  · exact TransCmp.lt_trans k h

end HistoryOrder

/-- Which part of a history is asked for. -/
structure HistoryQuery where
  -- the place behind which reading starts
  after : Option EventId := none
  order : HistoryOrder := .ascending
  limit : Option Nat := none
deriving DecidableEq, Inhabited

/-- The events come in ascending order of their places, which they may share. -/
abbrev History.Ordered (events : List Event) : Prop :=
  events.Pairwise fun a b => (compare a.id b.id).isLE

/-- **A history**: events in ascending order of their places. -/
@[ext]
structure History where
  events : List Event
  ordered : History.Ordered events
deriving DecidableEq

namespace History

/-- Of any two events, one may stand in front of the other. -/
theorem isLE_or_isLE (a b : Event) :
    ((compare a.id b.id).isLE || (compare b.id a.id).isLE) = true := by
  by_cases le : (compare a.id b.id).isLE
  · rw [le, Bool.true_or]
  · have lt : compare b.id a.id = .lt := OrientedCmp.lt_of_not_isLE le
    simp [lt]

/-- Puts events in order; events of one place stay in the order in which they come. -/
def ofEvents (events : List Event) : History where
  events := events.mergeSort fun a b => (compare a.id b.id).isLE
  ordered := List.pairwise_mergeSort (fun _ _ _ => TransCmp.isLE_trans) isLE_or_isLE events

instance : Inhabited History := ⟨ofEvents []⟩

/-- **The history that a caller is given**: `ofEvents` of the records whose labels allow it, or of
all records if nobody asks in particular. -/
def ofRecords (options : FoldOptions) (caller : Option Authorizations) (records : List Record) :
    History :=
  let told := match caller with
    | some held => options.judge held (records.filterM fun (r : Record) => r.visibility.judged)
    | none => records
  ofEvents (told.map Event.mk)

/-- The events behind a place, in an order of reading: those whose places are `isBehind` it. -/
def scan (h : History) (order : HistoryOrder) (after : Option EventId) : List Event :=
  (order.arrange h.events).filter fun e => after.all (order.isBehind · e.id)

/-- **A page of a history**: as much of a `scan` as the limit allows. -/
def query (h : History) (q : HistoryQuery) : List Event :=
  match q.limit with
  | some n => (h.scan q.order q.after).take n
  | none => h.scan q.order q.after

theorem query_subset_scan (h : History) (q : HistoryQuery) :
    h.query q ⊆ h.scan q.order q.after := by
  unfold query
  split
  · exact List.take_subset ..
  · exact fun _ => id

theorem scan_after (h : History) (order : HistoryOrder) (after : Option EventId) {last : Event}
    (mem : last ∈ h.scan order after) :
    h.scan order (some last.id) =
      (h.scan order after).filter fun e => order.isBehind last.id e.id := by
  obtain ⟨-, behind⟩ := List.mem_filter.1 mem
  simp only [scan, List.filter_filter]
  refine List.filter_congr fun e _ => ?_
  cases after with
  | none => simp
  | some cursor =>
    by_cases h : order.isBehind last.id e.id
    · simp [h, order.isBehind_trans (by simpa using behind) h]
    · simp [h]

/-- Reading on behind an event leaves fewer events to read, so `pages` comes to an end. -/
theorem length_scan_lt (h : History) (order : HistoryOrder) (after : Option EventId)
    {last : Event} (mem : last ∈ h.scan order after) :
    (h.scan order (some last.id)).length < (h.scan order after).length := by
  rw [scan_after h order after mem]
  exact List.length_filter_lt_length_iff_exists.2 ⟨last, mem, by simp [order.isBehind_self]⟩

/-- **All pages of a history**, each read behind the last event of the page before it, until a page
is empty. -/
def pages (h : History) (order : HistoryOrder) (limit : Option Nat) (after : Option EventId) :
    List (List Event) :=
  let page := h.query ⟨after, order, limit⟩
  if more : page ≠ [] then page :: h.pages order limit (some (page.getLast more).id) else []
termination_by (h.scan order after).length
decreasing_by
  exact h.length_scan_lt order after
    (h.query_subset_scan ⟨after, order, limit⟩ (List.getLast_mem more))

end History

/-- Events with the verdict of a caller beside each. -/
def annotate (options : FoldOptions) (held : Authorizations) (events : List Event) :
    List AnnotatedEvent :=
  options.judge held <| events.mapM fun e => do
    return ⟨e, ← e.record.visibility.judged⟩

end GraphLog
