/-
**Graph elements: vertices and edges, and how an edge lies between vertices.**

An element is known by its kind and an opaque id.  A vertex sees each of its edges from one side,
and an edge carries the two vertices it was created between.

Main definitions:

* `GraphLog.ElementKind`, `GraphLog.Direction` — with their names, tags and orders;
* `GraphLog.Element` — a kind and an id, ordered by kind and then by id;
* `GraphLog.Endpoints` — where an edge starts and ends, and its label.
-/

set_option relaxedAutoImplicit false
set_option autoImplicit false

namespace GraphLog

open Std

/-! ### Kinds -/

/-- The two kinds of graph element. -/
inductive ElementKind where
  | vertex
  | edge
deriving DecidableEq, Repr, Inhabited

namespace ElementKind

def name : ElementKind → String
  | vertex => "vertex"
  | edge => "edge"

/-- The byte that stands for a kind in frames: the letter `V` or `E`. -/
def tag : ElementKind → UInt8
  | vertex => 0x56
  | edge => 0x45

def all : List ElementKind :=
  [vertex, edge]

def ofName? (name : String) : Option ElementKind :=
  all.find? (·.name == name)

/-- The kind that a byte stands for, as `tag` gives it. -/
def ofTag? (tag : UInt8) : Option ElementKind :=
  all.find? (·.tag == tag)

/-- Vertices come before edges. -/
def index : ElementKind → Nat
  | vertex => 0
  | edge => 1

instance : Ord ElementKind := ⟨compareOn index⟩

instance : TransOrd ElementKind := inferInstanceAs (TransCmp (compareOn index))

instance : LawfulEqOrd ElementKind where
  eq_of_compare {a b} h := by cases a <;> cases b <;> first | rfl | exact absurd h (by decide)

theorem ofTag?_tag (k : ElementKind) : ofTag? k.tag = some k := by
  cases k <;> rfl

theorem tag_of_ofTag? {b : UInt8} {k : ElementKind} (h : ofTag? b = some k) : k.tag = b := by
  simpa using List.find?_some h

theorem ofName?_name (k : ElementKind) : ofName? k.name = some k := by
  cases k <;> rfl

end ElementKind

/-! ### Directions -/

/-- The side from which a vertex sees an edge. -/
inductive Direction where
  | outward
  | inward
deriving DecidableEq, Repr, Inhabited

namespace Direction

def name : Direction → String
  | outward => "out"
  | inward => "in"

/-- The byte that stands for a direction in frames: the letter `O` or `I`. -/
def tag : Direction → UInt8
  | outward => 0x4F
  | inward => 0x49

def all : List Direction :=
  [outward, inward]

def ofName? (name : String) : Option Direction :=
  all.find? (·.name == name)

/-- The direction that a byte stands for, as `tag` gives it. -/
def ofTag? (tag : UInt8) : Option Direction :=
  all.find? (·.tag == tag)

/-- Outward comes before inward. -/
def index : Direction → Nat
  | outward => 0
  | inward => 1

instance : Ord Direction := ⟨compareOn index⟩

instance : TransOrd Direction := inferInstanceAs (TransCmp (compareOn index))

instance : LawfulEqOrd Direction where
  eq_of_compare {a b} h := by cases a <;> cases b <;> first | rfl | exact absurd h (by decide)

theorem ofTag?_tag (d : Direction) : ofTag? d.tag = some d := by
  cases d <;> rfl

theorem tag_of_ofTag? {b : UInt8} {d : Direction} (h : ofTag? b = some d) : d.tag = b := by
  simpa using List.find?_some h

theorem ofName?_name (d : Direction) : ofName? d.name = some d := by
  cases d <;> rfl

end Direction

/-! ### Elements -/

/-- **A graph element: its kind and its id**, which is unique within the kind. -/
structure Element where
  kind : ElementKind
  id : String
deriving DecidableEq, Repr, Inhabited

namespace Element

/-- The text of an element: kind and id with a colon between them. -/
def toText (e : Element) : String :=
  s!"{e.kind.name}:{e.id}"

/-- Elements are ordered by `kind` and then by `id`. -/
def order : Element → Element → Ordering :=
  compareLex (compareOn kind) (compareOn id)

instance : Ord Element := ⟨order⟩

instance : TransOrd Element :=
  inferInstanceAs (TransCmp (compareLex (compareOn kind) (compareOn id)))

instance : LawfulEqOrd Element where
  eq_of_compare {a b} h := by
    have h : (compare a.kind b.kind).then (compare a.id b.id) = .eq := h
    obtain ⟨kinds, ids⟩ := Ordering.then_eq_eq.1 h
    cases a
    cases b
    exact Element.mk.injEq .. ▸ ⟨LawfulEqCmp.eq_of_compare kinds, LawfulEqCmp.eq_of_compare ids⟩

end Element

/-- Where an edge starts and ends, and its label; fixed when the edge is created. -/
structure Endpoints where
  outVertex : String
  inVertex : String
  label : String
deriving DecidableEq, Repr, Inhabited

end GraphLog
