/-
**Reading the parts of a document.**

A structure is read from an object whose members have the names of its fields, or from the array
of its fields in order.  Members with other names are passed over.  When several things are wrong,
the first in reading order is reported, and a missing field comes after everything that is there;
so the readings of the fields are gathered side by side, each fault with its place, and the least
place wins.

Main definitions:

* `GraphLog.Json.Fault` — what is wrong with a document;
* `GraphLog.Json.Gather` — readings side by side, of whose faults the first is reported;
* `GraphLog.Json.structured` — reads a structure;
* `GraphLog.Json.tagged` — splits off the member that says which case a document is;
* `GraphLog.Json.named` — reads one of several names.
-/

import GraphLog.Failure
import GraphLog.Json.Basic

set_option relaxedAutoImplicit false
set_option autoImplicit false

namespace GraphLog.Json

/-- **What is wrong with a document.** -/
inductive Fault where
  | label (error : Label.ParseError)
  | defect (defect : Defect)
  -- a field is missing, or something of another shape stands in its place
  | shape
deriving DecidableEq

/-- A `Fault` and its place among the members. -/
structure Located where
  -- the number of members in front
  place : Nat
  fault : Fault

/-- The earlier of two faults. -/
def Located.first (a b : Located) : Located :=
  if b.place < a.place then b else a

/-- **Readings side by side**: the values of all, or the first fault of any. -/
structure Gather (α : Type) where
  outcome : Except Located α

namespace Gather

/-- Applies a gathered function to a gathered value. -/
def apply {α β : Type} (f : Gather (α → β)) (x : Gather α) : Gather β :=
  match f.outcome, x.outcome with
  | .ok f, .ok x => ⟨.ok (f x)⟩
  | .error e, .ok _ => ⟨.error e⟩
  | .ok _, .error e => ⟨.error e⟩
  | .error a, .error b => ⟨.error (a.first b)⟩

instance : Applicative Gather where
  pure x := ⟨.ok x⟩
  seq f x := f.apply (x ())

end Gather

/-- The members of a structure, with the names that its fields have. -/
structure Members where
  names : List String
  entries : List (String × Json)

namespace Members

/-- The first member with a name, and its place. -/
def find? (ms : Members) (name : String) : Option (Nat × Json) :=
  (ms.entries.zipIdx.find? fun ((n, _), _) => n == name).map fun ((_, j), place) => (place, j)

def readAt {α : Type} (read : Json → Except Fault α) (place : Nat) (j : Json) : Gather α :=
  ⟨(read j).mapError (Located.mk place)⟩

/-- A field that must be there. -/
def required {α : Type} (ms : Members) (name : String) (read : Json → Except Fault α) :
    Gather α :=
  match ms.find? name with
  | some (place, j) => readAt read place j
  | none => ⟨.error ⟨ms.entries.length, .shape⟩⟩

/-- A field that may be missing. -/
def defaulted {α : Type} (ms : Members) (name : String) (default : α)
    (read : Json → Except Fault α) : Gather α :=
  match ms.find? name with
  | some (place, j) => readAt read place j
  | none => pure default

/-- Reads a value that may be `null`. -/
def nullable {α : Type} (read : Json → Except Fault α) : Json → Except Fault (Option α)
  | .null => .ok none
  | j => (read j).map some

/-- A field that may be missing or, as in `nullable`, `null`. -/
def optional {α : Type} (ms : Members) (name : String) (read : Json → Except Fault α) :
    Gather (Option α) :=
  ms.defaulted name none (nullable read)

/-- The member neither repeats a field nor breaks the syntax, and it has a name; `seen` are the
names before it. -/
def admissible (names seen : List String) (name : String) (j : Json) : Bool :=
  match j with
  | misnamed _ => false
  | j => if names.contains name then !seen.contains name else j.wellFormed

/-- The place of the first member that is not `admissible`: it repeats a field, has no name or,
where it is passed over, breaks the syntax. -/
def firstUnsound (names : List String) (seen : List String) (place : Nat) :
    List (String × Json) → Option Nat
  | [] => none
  | (name, j) :: rest =>
    if admissible names seen name j then firstUnsound names (name :: seen) (place + 1) rest
    else some place

/-- No member repeats a field, each has a name, and none that is passed over breaks the syntax. -/
def sound (ms : Members) : Gather Unit :=
  match firstUnsound ms.names [] 0 ms.entries with
  | none => pure ()
  | some place => ⟨.error ⟨place, .shape⟩⟩

/-- The members of a document with these fields: those of an object, or the items of an array in
the order of the fields.  Items in excess break the shape. -/
def ofJson (names : List String) : Json → Except Fault Members
  | .object entries => .ok ⟨names, entries⟩
  | .array items =>
    let excess := (items.drop names.length).map fun _ => ("", malformed)
    .ok ⟨names, names.zip items ++ excess⟩
  | _ => .error .shape

end Members

/-- **Reads a structure** with these fields, whose readings stand side by side as in `Gather`. -/
def structured {α : Type} (names : List String) (build : Members → Gather α) (j : Json) :
    Except Fault α := do
  let ms ← Members.ofJson names j
  let gathered := (fun value () => value) <$> build ms <*> ms.sound
  gathered.outcome.mapError Located.fault

/-- How deep a document with a tag may be nested. -/
def maxDepth : Nat := 126

/-- **The case that a document says it is, and the document without saying so.**  The tag is a
member of an object, or the first item of an array; the whole document has to be readable. -/
def tagged (tag : String) (j : Json) : Except Fault (String × Json) :=
  if !j.readable || maxDepth < j.depth then .error .shape
  else
    match j with
    | object entries =>
      match entries.filter (·.1 == tag) with
      | [(_, text name)] => .ok (name, object (entries.filter (·.1 != tag)))
      | _ => .error .shape
    | array (text name :: items) => .ok (name, array items)
    | _ => .error .shape

/-! ### Leaves -/

def asBool : Json → Except Fault Bool
  | bool b => .ok b
  | _ => .error .shape

def asText : Json → Except Fault String
  | text s => .ok s
  | _ => .error .shape

/-- A value that fits, or a fault of shape. -/
def fitting {α : Type} : Option α → Except Fault α
  | some a => .ok a
  | none => .error .shape

/-- Reads an integer of 64 bits with a sign, by `Integer.signed?`. -/
def asInt64 : Json → Except Fault Int64
  | integer n => fitting (Integer.signed? n)
  | _ => .error .shape

/-- Reads an integer of 64 bits without a sign, by `Integer.unsigned?`. -/
def asUInt64 : Json → Except Fault UInt64
  | integer n => fitting (Integer.unsigned? n)
  | _ => .error .shape

def asByte : Json → Except Fault UInt8
  | integer n => if 0 ≤ n ∧ n < 256 then .ok (UInt8.ofNat n.toNat) else .error .shape
  | _ => .error .shape

/-- Reads a number; whole ones are rounded by `Double.ofInt`. -/
def asDouble : Json → Except Fault Double
  | integer n => .ok (.ofInt n)
  | float x => .ok x
  | _ => .error .shape

def asList {α : Type} (read : Json → Except Fault α) : Json → Except Fault (List α)
  | array items => items.mapM read
  | _ => .error .shape

def asVisibility : Json → Except Fault Visibility
  | text s => (Visibility.ofText s).mapError .label
  | _ => .error .shape

def isNull : Json → Bool
  | null => true
  | _ => false

/-- The document says nothing, or is an object without members. -/
def isVoid : Json → Bool
  | null | object [] => true
  | _ => false

/-- Reads one of several names: as a text, or as the only member of an object, whose value says
nothing. -/
def named {α : Type} (void : Json → Bool) (ofName? : String → Option α) (j : Json) :
    Except Fault α :=
  let name? := match j with
    | text name => some name
    | object [(name, j)] => if void j then some name else none
    | _ => none
  fitting (name?.bind ofName?)

end GraphLog.Json
