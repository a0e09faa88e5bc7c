/-
**Slots: the facets of an element that records version.**

Each record speaks about one slot of its element: whether the element exists, one instance of a
property, or one edge at a vertex.  Records of different slots do not compete.

Main definitions:

* `GraphLog.Slot` — the slots;
* `GraphLog.Slot.toText` — a slot as narrations show it;
* `GraphLog.Slot.order` — existence first, then properties by key, name and label, then edges.
-/

import GraphLog.Element
import GraphLog.Label.Visibility

set_option relaxedAutoImplicit false
set_option autoImplicit false

namespace GraphLog

open Std

namespace Visibility

/-- Visibilities are ordered by their texts. -/
def order : Visibility → Visibility → Ordering :=
  compareOn text

instance : Ord Visibility := ⟨order⟩

instance : TransOrd Visibility := inferInstanceAs (TransCmp (compareOn text))

instance : LawfulEqOrd Visibility where
  eq_of_compare {a b} h := by
    have texts : compare a.text b.text = .eq := h
    cases a
    cases b
    simpa using LawfulEqCmp.eq_of_compare texts

end Visibility

/-- **A facet of an element that records version.** -/
inductive Slot where
  -- whether the element exists, who may see it, and who is kept from it
  | existence
  -- one instance of a property: a name may occur under several keys and labels
  | property (key name : String) (visibility : Visibility)
  -- one edge at a vertex
  | adjacency (edge : String) (direction : Direction)
deriving DecidableEq, Inhabited

namespace Slot

/-- What a slot is called in complaints. -/
def sort : Slot → String
  | existence => "existence"
  | property .. => "property"
  | adjacency .. => "adjacency"

/-- A property as narrations show it: key and name, and the label unless it `isUnrestricted`. -/
def propertyText (key name : String) (visibility : Visibility) : String :=
  if visibility.isUnrestricted then s!"{key}:{name}" else s!"{key}:{name}[{visibility.text}]"

/-- A slot as narrations show it. -/
def toText : Slot → String
  | existence => "existence"
  | property key name visibility => propertyText key name visibility
  | adjacency edge direction => s!"{direction.name}:{edge}"

/-- Existence comes first, then properties, then edges. -/
def rank : Slot → Nat
  | existence => 0
  | property .. => 1
  | adjacency .. => 2

/-- The parts of a property, by which properties are ordered. -/
def propertyParts : Slot → String × String × Visibility
  | property key name visibility => (key, name, visibility)
  | _ => ("", "", .unrestricted)

/-- The parts of an edge, by which edges are ordered. -/
def adjacencyParts : Slot → String × Direction
  | adjacency edge direction => (edge, direction)
  | _ => ("", .outward)

/-- Slots are ordered by `rank`, and within a rank by their parts. -/
def order : Slot → Slot → Ordering :=
  compareLex (compareOn rank) <| compareLex
    (compareLex (compareOn (·.propertyParts.1))
      (compareLex (compareOn (·.propertyParts.2.1)) (compareOn (·.propertyParts.2.2))))
    (compareLex (compareOn (·.adjacencyParts.1)) (compareOn (·.adjacencyParts.2)))

instance : Ord Slot := ⟨order⟩

instance : TransOrd Slot := by
  show TransCmp order
  unfold order
  infer_instance

instance : LawfulEqOrd Slot where
  eq_of_compare {a b} h := by
    have h : order a b = .eq := h
    simp only [order, compareLex, compareOn, Ordering.then_eq_eq] at h
    obtain ⟨ranks, ⟨keys, names, labels⟩, edges, directions⟩ := h
    replace keys := LawfulEqCmp.eq_of_compare keys
    replace names := LawfulEqCmp.eq_of_compare names
    replace labels := LawfulEqCmp.eq_of_compare labels
    replace edges := LawfulEqCmp.eq_of_compare edges
    replace directions := LawfulEqCmp.eq_of_compare directions
    replace ranks := LawfulEqCmp.eq_of_compare ranks
    cases a <;> cases b <;>
      simp_all [rank, propertyParts, adjacencyParts]

end Slot

end GraphLog
