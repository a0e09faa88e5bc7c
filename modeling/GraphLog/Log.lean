/-
**A log: records by element, ready to be scanned.**

The log keeps records in their raw form, together with the number of their arrival.  The entries
of an element stand in the order of a scan: by slot, then by the time at which they were written,
then by arrival.

Main definitions:

* `GraphLog.bisect` — how much of a list passes a test, found by halving;
* `GraphLog.LogEntry` — a raw record with its number;
* `GraphLog.Log` — the entries by element, and the counter of arrivals;
* `GraphLog.Log.append` — the log after a record, and the number it was given;
* `GraphLog.Log.records` — the records of an element, in the order of a scan;
* `GraphLog.Log.fold`, `GraphLog.Log.foldAll`, `GraphLog.Log.history` — what a caller sees.
-/

import Std.Data.ExtTreeMap
import GraphLog.Intake

set_option relaxedAutoImplicit false
set_option autoImplicit false

namespace GraphLog

open Std

/-- How many members at the front of a list pass a test, found by halving the list.  Those that pass
have to stand in front of those that fail. -/
def bisect {α : Type} (test : α → Bool) (xs : List α) : Nat :=
  match split : xs.drop (xs.length / 2) with
  | [] => 0
  | middle :: back =>
    if test middle then xs.length / 2 + 1 + bisect test back
    else bisect test (xs.take (xs.length / 2))
termination_by xs.length
decreasing_by
  all_goals
    have behind := congrArg List.length split
    simp only [List.length_drop, List.length_cons, List.length_take] at behind ⊢
    omega

/-- **A raw record with the number of its arrival.** -/
structure LogEntry where
  raw : RawRecord
  sequence : UInt64
deriving DecidableEq, Inhabited

namespace LogEntry

/-- The order of a scan: by slot, then by time, then by arrival. -/
def order : LogEntry → LogEntry → Ordering :=
  compareLex (compareOn (·.raw.slot))
    (compareLex (compareOn (·.raw.timestamp)) (compareOn sequence))

/-- The record of an entry by `RawRecord.decode`, stamped with its number. -/
def decode (e : LogEntry) : Except Failure Record :=
  e.raw.decode.map (·.stamped e.sequence)

/-- Entries in the order of a scan after another one came, which stands behind its equals.  Its
place is found by `bisect`. -/
def insert (e : LogEntry) (entries : List LogEntry) : List LogEntry :=
  let place := bisect (fun existing => (order existing e).isLE) entries
  entries.take place ++ e :: entries.drop place

end LogEntry

/-- **Records by element.** -/
structure Log where
  options : FoldOptions
  intake : Intake
  entries : ExtTreeMap Element (List LogEntry)

namespace Log

def empty (options : FoldOptions) : Log :=
  ⟨options, ⟨1⟩, ∅⟩

/-- The entries of an element, in the order of a scan. -/
def entriesOf (log : Log) (element : Element) : List LogEntry :=
  log.entries[element]?.getD []

/-- **The number that a record is given, and the log with the record.** -/
def append (log : Log) (r : Record) : UInt64 × Log :=
  let (sequence, intake) := log.intake.claim
  let entry : LogEntry := ⟨.ofRecord r, sequence⟩
  (sequence, { log with
    intake
    entries := log.entries.insert r.element (entry.insert (log.entriesOf r.element)) })

/-- The numbers that records are given one after the other, and the log with all of them. -/
def extend (log : Log) : List Record → List UInt64 × Log
  | [] => ([], log)
  | r :: rs =>
    let (sequence, log) := log.append r
    let (sequences, log) := log.extend rs
    (sequence :: sequences, log)

def size (log : Log) : Nat :=
  (log.entries.toList.flatMap fun (_, entries) => entries).length

def isEmpty (log : Log) : Bool :=
  log.entries.isEmpty

/-- The elements that records are about, in order. -/
def elements (log : Log) : List Element :=
  log.entries.keys

/-- The raw records of an element. -/
def scan (log : Log) (element : Element) : List RawRecord :=
  (log.entriesOf element).map (·.raw)

/-- The records of an element, in the order of a `scan`. -/
def records (log : Log) (element : Element) : Except Failure (List Record) :=
  (log.entriesOf element).mapM LogEntry.decode

/-- What a caller sees of an element: the `View.foldElement` of its `records`. -/
def fold (log : Log) (held : Authorizations) (asOf : Option Int64) (element : Element) :
    Except Failure ElementState := do
  let view : View := ⟨log.options, held, asOf⟩
  (view.foldElement element (← log.records element)).mapError .fold

/-- What a caller sees of all `elements`, in order. -/
def foldAll (log : Log) (held : Authorizations) (asOf : Option Int64) :
    Except Failure (List ElementState) := do
  let view : View := ⟨log.options, held, asOf⟩
  return view.foldPartition (← log.elements.mapM log.records).flatten

/-- The history of an element that a caller is given: `History.ofRecords` of its `records`. -/
def history (log : Log) (caller : Option Authorizations) (element : Element) :
    Except Failure History := do
  return .ofRecords log.options caller (← log.records element)

end Log

end GraphLog
