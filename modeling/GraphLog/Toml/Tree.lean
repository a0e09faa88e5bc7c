/-
**The tables of a settings text, as they are built up.**

A table may be opened once by a header.  A table that is only a step on the way to another can
still be opened later, and keys with dots lead through it without adding to it; one that came from
the dots of a key can take further keys of the same table, but no header; and a value is closed.
Headers in double brackets add rows, and paths lead through the row that was added last.

Main definitions:

* `GraphLog.Toml.Node` — values, tables and rows;
* `GraphLog.Toml.Table.assign`, `GraphLog.Toml.Table.opened`, `GraphLog.Toml.Table.rowAdded` — the
  three ways in which a text adds to its tables;
* `GraphLog.Toml.Node.toJson` — the document that results.
-/

import GraphLog.Json.Basic

set_option relaxedAutoImplicit false
set_option autoImplicit false

namespace GraphLog.Toml

/-- How a table came to be. -/
inductive Origin where
  -- a header names a table within it
  | step
  -- a key with dots leads through it
  | dotted
  -- a header names it
  | header
deriving DecidableEq, Repr

/-- **What a name stands for.** -/
inductive Node where
  -- a value, closed to further keys
  | value (document : Json)
  | table (origin : Origin) (members : List (String × Node))
  -- rows of tables, the last one first
  | rows (rows : List (List (String × Node)))

abbrev Table := List (String × Node)

namespace Node

/-- The document that results. -/
def toJson : Node → Json
  | value j => j
  | table _ ms => .object (members ms)
  | rows rs => .array (objects rs).reverse
where
  members : List (String × Node) → List (String × Json)
    | [] => []
    | (name, node) :: ms => (name, node.toJson) :: members ms
  objects : List (List (String × Node)) → List Json
    | [] => []
    | ms :: rs => .object (members ms) :: objects rs

end Node

/-- The document has no members or items. -/
def isVoid : Json → Bool
  | .object [] | .array [] => true
  | _ => false

namespace Table

/-- The table with another node under a name. -/
def put (t : Table) (name : String) (node : Node) : Table :=
  match t with
  | [] => [(name, node)]
  | (other, old) :: rest =>
    if other = name then (name, node) :: rest else (other, old) :: put rest name node

/-- Changes the table at the end of a path of headers, which leads through every table and through
the last of several rows. -/
def alter (change : Table → Option Table) : (path : List String) → Table → Option Table
  | [], t => change t
  | name :: path, t =>
    match t.lookup name with
    | none => (alter change path []).map fun inner => t.put name (.table .step inner)
    | some (.table origin inner) =>
      (alter change path inner).map fun inner => t.put name (.table origin inner)
    | some (.rows (last :: rows)) =>
      (alter change path last).map fun last => t.put name (.rows (last :: rows))
    | some (.rows []) | some (.value _) => none

/-- **Assigns a value to a key with dots**, whose names in front lead through tables that no header
names and through the last of several rows.  Only a table that came from dots itself, and the one
where the key starts, can take the last name; `takes` says so of the table at hand. -/
def assign (j : Json) : (takes : Bool) → (names : List String) → Table → Option Table
  | _, [], _ => none
  | takes, [name], t =>
    match t.lookup name with
    | none => if takes then some (t.put name (.value j)) else none
    | some _ => none
  | _, name :: names, t =>
    match t.lookup name with
    | none => (assign j true names []).map fun inner => t.put name (.table .dotted inner)
    | some (.table .dotted inner) =>
      (assign j true names inner).map fun inner => t.put name (.table .dotted inner)
    | some (.table .step inner) =>
      (assign j false names inner).map fun inner => t.put name (.table .step inner)
    | some (.rows (last :: rows)) =>
      (assign j false names last).map fun last => t.put name (.rows (last :: rows))
    | some _ => none

/-- The table after the header of a table within it, whose `Origin` is then that header. -/
def opened (name : String) (t : Table) : Option Table :=
  match t.lookup name with
  | none => some (t.put name (.table .header []))
  | some (.table .step inner) => some (t.put name (.table .header inner))
  | some _ => none

/-- The table after the header of a row within it. -/
def rowAdded (name : String) (t : Table) : Option Table :=
  match t.lookup name with
  | none => some (t.put name (.rows [[]]))
  | some (.rows rows) => some (t.put name (.rows ([] :: rows)))
  | some _ => none

end Table

end GraphLog.Toml
