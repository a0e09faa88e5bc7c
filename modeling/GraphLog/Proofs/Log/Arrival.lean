/-
**What a log holds after any number of appends.**

A log keeps the entries of an element in the order of a scan, and finds the place of a new entry by
halving.  Halving looks at few of the entries, so it finds the right place only because the entries
are in order already.  That they are is handed on from one insertion to the next.

Each append numbers its record and puts it among the entries of its element.  This module says what
one append does to what a log holds, and from it what a whole run of calls does: the log holds the
records of the run, each with the number of its arrival, and no other.

Main definitions:

* `GraphLog.LogEntry.InOrder` — entries stand in the order of a scan;
* `GraphLog.Log.Call`, `GraphLog.Log.run` — calls that append one record or several, and a run;
* `GraphLog.Log.Holds` — a log holds just these records.

Main results:

* `GraphLog.bisect_spec` — halving finds where a test begins to fail, if it does so once;
* `GraphLog.LogEntry.insert_perm` — an insertion adds its entry and keeps the others;
* `GraphLog.LogEntry.InOrder.insert` — an insertion leaves the entries in order;
* `GraphLog.Log.Holds.append` — **one append**;
* `GraphLog.Log.run_eq_extend` — a run of calls appends the records of its calls;
* `GraphLog.Log.holds_run` — **a whole run**;
* `GraphLog.Log.Holds.perm_entries`, `GraphLog.Log.Holds.size_eq` — the entries of all elements are
  those of the records, and as many.
-/

import Mathlib.Data.List.Nodup
import Mathlib.Data.List.Perm.Basic
import GraphLog.Log
import GraphLog.Proofs.Intake

set_option relaxedAutoImplicit false
set_option autoImplicit false

namespace GraphLog

open Std (TransCmp LawfulEqCmp OrientedCmp)

/-! ### Halving -/

section Bisection

variable {α : Type} (test : α → Bool)

theorem bisect_le_length (xs : List α) : bisect test xs ≤ xs.length := by
  fun_induction bisect test xs with
  | case1 xs split => exact Nat.zero_le _
  | case2 xs middle back split passes ih =>
      have behind := congrArg List.length split
      simp only [List.length_drop, List.length_cons] at behind
      omega
  | case3 xs middle back split fails ih =>
      rw [List.length_take] at ih
      omega

/-- **Halving finds where a test begins to fail**, if it passes on everything in front of a member
on which it passes: `bisect` counts the members in front. -/
theorem bisect_spec (xs : List α) (split : xs.Pairwise fun a b => test b → test a) :
    (∀ x ∈ xs.take (bisect test xs), test x) ∧ ∀ x ∈ xs.drop (bisect test xs), ¬test x := by
  fun_induction bisect test xs with
  | case1 xs none =>
      have short : xs.length ≤ xs.length / 2 := List.drop_eq_nil_iff.1 none
      have empty : xs = [] := List.length_eq_zero_iff.1 (by omega)
      simp [empty]
  | case2 xs middle back halves passes ih =>
      -- the front half and the middle pass, and the place lies in the back half
      have whole : xs = xs.take (xs.length / 2) ++ middle :: back := by
        rw [← halves, List.take_append_drop]
      have length : (xs.take (xs.length / 2)).length = xs.length / 2 := by
        rw [List.length_take]
        omega
      generalize xs.take (xs.length / 2) = front at whole length
      rw [← length, Nat.add_assoc, whole, List.take_length_add_append, List.drop_length_add_append,
        Nat.add_comm 1, List.take_succ_cons, List.drop_succ_cons]
      rw [whole, List.pairwise_append, List.pairwise_cons] at split
      obtain ⟨-, ⟨-, split⟩, before⟩ := split
      obtain ⟨taken, dropped⟩ := ih split
      refine ⟨fun x mem => ?_, dropped⟩
      rcases List.mem_append.1 mem with mem | mem
      · exact before x mem middle List.mem_cons_self passes
      · rcases List.mem_cons.1 mem with rfl | mem
        · exact passes
        · exact taken x mem
  | case3 xs middle back halves fails ih =>
      -- the middle and the back half fail, and the place lies in the front half
      have whole : xs = xs.take (xs.length / 2) ++ middle :: back := by
        rw [← halves, List.take_append_drop]
      have within := bisect_le_length test (xs.take (xs.length / 2))
      generalize xs.take (xs.length / 2) = front at whole within ih
      rw [whole, List.take_append_of_le_length within, List.drop_append_of_le_length within]
      rw [whole, List.pairwise_append, List.pairwise_cons] at split
      obtain ⟨split, ⟨after, -⟩, -⟩ := split
      obtain ⟨taken, dropped⟩ := ih split
      refine ⟨taken, fun x mem => ?_⟩
      rcases List.mem_append.1 mem with mem | mem
      · exact dropped x mem
      · rcases List.mem_cons.1 mem with rfl | mem
        · exact fails
        · exact fun passes => fails (after x mem passes)

end Bisection

/-! ### Insertion -/

namespace LogEntry

instance : TransCmp order := by
  unfold order
  infer_instance

/-- Entries stand in the order of a scan, which `insert` relies on. -/
def InOrder (entries : List LogEntry) : Prop :=
  entries.Pairwise fun a b => (order a b).isLE

/-- An insertion adds its entry and keeps the others: `insert` only moves entries. -/
theorem insert_perm (e : LogEntry) (entries : List LogEntry) :
    (e.insert entries).Perm (e :: entries) := by
  have parts := List.take_append_drop
    (bisect (fun existing => (order existing e).isLE) entries) entries
  have moved : (e.insert entries).Perm (e :: (_ ++ _)) := List.perm_middle
  rwa [parts] at moved

/-- **An insertion leaves the entries in order.** -/
theorem InOrder.insert {entries : List LogEntry} (ordered : InOrder entries) (e : LogEntry) :
    InOrder (e.insert entries) := by
  -- of entries in order, those that come before the new one stand at the front
  have split : entries.Pairwise fun a b => (order b e).isLE → (order a e).isLE :=
    ordered.imp fun le before => TransCmp.isLE_trans le before
  obtain ⟨front, back⟩ := bisect_spec (fun existing => (order existing e).isLE) entries split
  have parts := ordered
  rw [InOrder, ← List.take_append_drop
    (bisect (fun existing => (order existing e).isLE) entries) entries] at parts
  obtain ⟨taken, dropped, across⟩ := List.pairwise_append.1 parts
  refine List.pairwise_append.2 ⟨taken, List.pairwise_cons.2 ⟨fun x mem => ?_, dropped⟩, ?_⟩
  · have later : order e x = .lt := OrientedCmp.lt_of_not_isLE (back x mem)
    rw [later]
    rfl
  · intro a ha b hb
    rcases List.mem_cons.1 hb with rfl | hb
    · exact front a ha
    · exact across a ha b hb

end LogEntry

/-! ### Calls -/

/-- The entry of a record that has arrived. -/
def LogEntry.ofRecord (r : Record) : LogEntry :=
  ⟨.ofRecord r, r.sequence⟩

namespace Log

/-- A call that appends one record, or several in turn. -/
inductive Call where
  | append (r : Record)
  | extend (rs : List Record)

def Call.records : Call → List Record
  | append r => [r]
  | extend rs => rs

/-- The numbers that a `Call` is answered with, and the log after it. -/
def call (log : Log) : Call → List UInt64 × Log
  | .append r => ([(log.append r).1], (log.append r).2)
  | .extend rs => log.extend rs

/-- The numbers that a run of calls is answered with, and the log after it. -/
def run (log : Log) : List Call → List UInt64 × Log
  | [] => ([], log)
  | c :: cs => ((log.call c).1 ++ ((log.call c).2.run cs).1, ((log.call c).2.run cs).2)

theorem extend_append (log : Log) (rs ss : List Record) :
    log.extend (rs ++ ss) =
      ((log.extend rs).1 ++ ((log.extend rs).2.extend ss).1, ((log.extend rs).2.extend ss).2) := by
  induction rs generalizing log with
  | nil => rfl
  | cons r rs ih => simp [extend, ih]

/-- A run of calls appends the records of its calls, one after the other, as one `extend` would. -/
theorem run_eq_extend (log : Log) (calls : List Call) :
    log.run calls = log.extend (calls.flatMap Call.records) := by
  induction calls generalizing log with
  | nil => rfl
  | cons c cs ih =>
      have step : log.call c = log.extend c.records := by cases c <;> rfl
      rw [run, List.flatMap_cons, extend_append, step, ih]

/-! ### What a log holds -/

/-- **A log holds just these records**, which have arrived. -/
structure Holds (log : Log) (arrived : List Record) : Prop where
  /-- The entries of an element are those of its records. -/
  perm : ∀ e, (log.entriesOf e).Perm ((arrived.filter (·.element = e)).map LogEntry.ofRecord)
  /-- Entries stand in the order of a scan. -/
  ordered : ∀ e, LogEntry.InOrder (log.entriesOf e)
  /-- There is a place for the elements of the records only. -/
  mem_entries : ∀ e, e ∈ log.entries ↔ ∃ r ∈ arrived, r.element = e

theorem holds_empty (options : FoldOptions) : (empty options).Holds [] where
  perm e := by simp [empty, entriesOf]
  ordered e := by simp [empty, entriesOf, LogEntry.InOrder]
  mem_entries e := by simp [empty]

section Step

variable (log : Log) (r : Record)

/-- An `append` adds an entry to those of the element of its record, and to no others. -/
theorem entriesOf_append (e : Element) :
    (log.append r).2.entriesOf e =
      if r.element = e then
        (LogEntry.ofRecord (r.stamped log.intake.next)).insert (log.entriesOf e)
      else log.entriesOf e := by
  have own : (log.append r).2.entries =
      log.entries.insert r.element
        ((LogEntry.ofRecord (r.stamped log.intake.next)).insert (log.entriesOf r.element)) := rfl
  rw [entriesOf, own, Std.ExtTreeMap.getElem?_insert]
  by_cases h : r.element = e
  · simp [h]
  · simp [h, entriesOf]

variable {log} {arrived : List Record} (holds : log.Holds arrived)

include holds

/-- After an `append` a log holds the record as well, with its number. -/
theorem Holds.append : (log.append r).2.Holds (arrived ++ [r.stamped log.intake.next]) where
  perm e := by
    rw [entriesOf_append, List.filter_append]
    by_cases h : r.element = e
    · have filtered : [r.stamped log.intake.next].filter (·.element = e) =
          [r.stamped log.intake.next] := by simp [Record.stamped, h]
      rw [if_pos h, filtered, List.map_append]
      exact (LogEntry.insert_perm _ _).trans
        (((holds.perm e).cons _).trans (List.perm_append_singleton _ _).symm)
    · have filtered : [r.stamped log.intake.next].filter (·.element = e) = [] := by
        simp [Record.stamped, h]
      rw [if_neg h, filtered, List.append_nil]
      exact holds.perm e
  ordered e := by
    rw [entriesOf_append]
    split
    · exact (holds.ordered e).insert _
    · exact holds.ordered e
  mem_entries e := by
    have own : (log.append r).2.entries =
        log.entries.insert r.element
          ((LogEntry.ofRecord (r.stamped log.intake.next)).insert (log.entriesOf r.element)) := rfl
    rw [own, Std.ExtTreeMap.mem_insert, LawfulEqCmp.compare_eq_iff_eq, holds.mem_entries]
    simp [or_and_right, exists_or, Record.stamped, or_comm]

end Step

/-! ### A whole run -/

/-- After several appends a log holds all of their records, numbered from the next number on. -/
theorem Holds.extend {log : Log} {arrived : List Record} (holds : log.Holds arrived)
    (rs : List Record) : (log.extend rs).2.Holds (arrived ++ arrivals log.intake.next rs) := by
  induction rs generalizing log arrived with
  | nil => simpa [Log.extend, arrivals] using holds
  | cons r rs ih =>
      have rest := ih (holds.append r)
      rwa [List.append_assoc] at rest

/-- The answers to appends are the numbers of their records. -/
theorem answers_extend (log : Log) (rs : List Record) :
    (log.extend rs).1 = (arrivals log.intake.next rs).map (·.sequence) := by
  induction rs generalizing log with
  | nil => rfl
  | cons r rs ih =>
      have rest := ih (log.append r).2
      rw [extend, arrivals, List.map_cons]
      exact congrArg _ rest

/-- Appends leave the rules of a log alone. -/
theorem options_extend (log : Log) (rs : List Record) :
    (log.extend rs).2.options = log.options := by
  induction rs generalizing log with
  | nil => rfl
  | cons r rs ih => exact ih (log.append r).2

section Run

variable (options : FoldOptions) (calls : List Call)

theorem answers_run :
    ((empty options).run calls).1 =
      (arrivals 1 (calls.flatMap Call.records)).map (·.sequence) := by
  rw [run_eq_extend]
  exact answers_extend _ _

/-- **After a run a fresh log holds the records of the run**, numbered from one on. -/
theorem holds_run :
    ((empty options).run calls).2.Holds (arrivals 1 (calls.flatMap Call.records)) := by
  rw [run_eq_extend]
  exact (holds_empty options).extend _

theorem options_run : ((empty options).run calls).2.options = options := by
  rw [run_eq_extend]
  exact options_extend _ _

end Run

/-! ### The number of entries -/

/-- Members that are sorted into classes are together the members of these classes. -/
theorem perm_flatMap_filter {α κ : Type} [DecidableEq κ] {keys : List κ} (f : α → κ) (xs : List α)
    (distinct : keys.Nodup) :
    (keys.flatMap fun k => xs.filter (f · = k)).Perm (xs.filter (f · ∈ keys)) := by
  induction keys with
  | nil => simp
  | cons k ks ih =>
      obtain ⟨new, distinct⟩ := List.nodup_cons.1 distinct
      have first : (xs.filter (f · ∈ k :: ks)).filter (f · = k) = xs.filter (f · = k) := by
        rw [List.filter_filter]
        refine List.filter_congr fun x _ => ?_
        by_cases h : f x = k <;> simp [h]
      have rest : (xs.filter (f · ∈ k :: ks)).filter (fun x => !decide (f x = k)) =
          xs.filter (f · ∈ ks) := by
        rw [List.filter_filter]
        refine List.filter_congr fun x _ => ?_
        by_cases h : f x = k <;> simp [h, new]
      have split := List.filter_append_perm (f · = k) (xs.filter (f · ∈ k :: ks))
      rw [first, rest] at split
      exact ((ih distinct).append_left _).trans split

/-- The entries of a log, of all elements, are those of its records. -/
theorem Holds.perm_entries {log : Log} {arrived : List Record} (holds : log.Holds arrived) :
    (log.entries.toList.flatMap fun (_, entries) => entries).Perm
      (arrived.map LogEntry.ofRecord) := by
  have own : ∀ p ∈ log.entries.toList, p.2 = log.entriesOf p.1 := by
    intro p mem
    rw [entriesOf, Std.ExtTreeMap.mem_toList_iff_getElem?_eq_some.1 mem]
    rfl
  have all : arrived.filter (·.element ∈ log.entries.keys) = arrived := by
    refine List.filter_eq_self.2 fun r mem => decide_eq_true ?_
    exact Std.ExtTreeMap.mem_keys.2 ((holds.mem_entries _).2 ⟨r, mem, rfl⟩)
  calc log.entries.toList.flatMap fun (_, entries) => entries
    _ = log.entries.keys.flatMap log.entriesOf := by
      rw [← Std.ExtTreeMap.map_fst_toList_eq_keys, List.flatMap_map]
      exact List.flatMap_congr own
    List.Perm _ (log.entries.keys.flatMap fun e =>
        (arrived.filter (·.element = e)).map LogEntry.ofRecord) :=
      List.Perm.flatMap_left _ fun e _ => holds.perm e
    _ = (log.entries.keys.flatMap fun e => arrived.filter (·.element = e)).map
          LogEntry.ofRecord := List.map_flatMap.symm
    List.Perm _ (arrived.map LogEntry.ofRecord) := by
      refine List.Perm.map _ ?_
      have sorted := perm_flatMap_filter (fun r : Record => r.element) arrived
        (Std.ExtTreeMap.nodup_keys (t := log.entries))
      rwa [all] at sorted

/-- A log has as many entries as it holds records: its `size` counts those of all elements. -/
theorem Holds.size_eq {log : Log} {arrived : List Record} (holds : log.Holds arrived) :
    log.size = arrived.length := by
  rw [size, holds.perm_entries.length_eq, List.length_map]

end Log

end GraphLog
