/-
**Reading a settings text.**

A settings text has one key with its value on each line, and headers that say to which table the
keys below belong.  What is read is a document, so that settings are checked like any other.
Keys with very many names and values with very many levels are refused, so that whatever walks the
document later does not go too deep.

Main definitions:

* `GraphLog.Toml.key` — the key at the front of a text;
* `GraphLog.Toml.value` — the value at the front of a text;
* `GraphLog.Toml.read` — the document of a text, if it is a settings text.

The number of steps is bounded by the length of the text, as every value, item and line takes at
least one character.
-/

import GraphLog.Toml.Scalar
import GraphLog.Toml.Tree

set_option relaxedAutoImplicit false
set_option autoImplicit false

namespace GraphLog.Toml

/-! ### Blanks, comments and keys -/

/-- The rest of a text behind the line break or the end of the text that is due. -/
def endOfLine (cs : List Char) : Option (List Char) :=
  if cs.isEmpty then some [] else lineBreak cs

/-- The rest of a text behind the end of a line, as in `endOfLine`, in front of which there may be a
comment. -/
def lineEnd (cs : List Char) : Option (List Char) :=
  match skipBlank cs with
  | '#' :: rest => endOfLine (rest.dropWhile isPlain)
  | rest => endOfLine rest

/-- The rest of a text behind blanks, line breaks and comments. -/
def skipGap (inComment : Bool) : List Char → List Char
  | [] => []
  | '\n' :: rest => skipGap false rest
  | '\r' :: '\n' :: rest => skipGap false rest
  | c :: rest =>
    if inComment then if isPlain c then skipGap true rest else c :: rest
    else if c = '#' then skipGap true rest
    else if isBlank c then skipGap false rest
    else c :: rest

/-- The character may stand in a key without quotes. -/
def isKeyLetter (c : Char) : Bool :=
  c.isAlphanum || c == '_' || c == '-'

/-- The name at the front of a text: quoted on one line, as in `basic` or `literal`, or bare. -/
def name (cs : List Char) : Option (String × List Char) :=
  match cs with
  | '"' :: rest => (basic rest).map fun (letters, rest) => (String.ofList letters, rest)
  | '\'' :: rest => (literal rest).map fun (letters, rest) => (String.ofList letters, rest)
  | cs =>
    let letters := cs.takeWhile isKeyLetter
    if letters.isEmpty then none else some (String.ofList letters, cs.dropWhile isKeyLetter)

/-- How many names a key may have, and how deep arrays and tables on one line may be nested. -/
def maxDepth : Nat := 79

/-- The key at the front of a text, of at most so many names. -/
def names : (limit : Nat) → List Char → Option (List String × List Char)
  | 0, _ => none
  | limit + 1, cs => do
    let (first, rest) ← name (skipBlank cs)
    match skipBlank rest with
    | '.' :: rest =>
      let (more, rest) ← names limit rest
      return (first :: more, rest)
    | rest => return ([first], rest)

/-- The key at the front of a text: names with dots between them. -/
def key (cs : List Char) : Option (List String × List Char) :=
  names maxDepth cs

/-! ### Values -/

/-- The value at the front of a text, if it has no parts. -/
def leaf (cs : List Char) : Option (Json × List Char) :=
  match cs with
  | '"' :: _ | '\'' :: _ =>
    (quoted cs).map fun (letters, rest) => (.text (String.ofList letters), rest)
  | cs => do
    let (letters, rest) := word cs
    return (← ofWord letters, rest)

mutual

/-- The value at the front of a text, in at most `fuel` steps and with at most `levels` more levels
of arrays and tables. -/
def value : (fuel levels : Nat) → List Char → Option (Json × List Char)
  | 0, _, _ => none
  | _, 0, '[' :: _ => none
  | _, 0, '\x7b' :: _ => none
  | fuel + 1, levels + 1, '[' :: rest => do
    let (items, rest) ← items fuel levels (skipGap false rest)
    return (.array items, rest)
  | fuel + 1, levels + 1, '\x7b' :: rest =>
    match skipBlank rest with
    | '\x7d' :: rest => some (.object [], rest)
    | rest => do
      let (table, rest) ← members fuel levels [] rest
      return ((Node.table .header table).toJson, rest)
  | _, _, cs => leaf cs

/-- The items of an array up to its bracket; a comma may stand behind the last one. -/
def items : (fuel levels : Nat) → List Char → Option (List Json × List Char)
  | 0, _, _ => none
  | _, _, ']' :: rest => some ([], rest)
  | fuel + 1, levels, cs => do
    let (item, rest) ← value fuel levels cs
    match skipGap false rest with
    | ',' :: rest =>
      let (more, rest) ← items fuel levels (skipGap false rest)
      return (item :: more, rest)
    | ']' :: rest => return ([item], rest)
    | _ => none

/-- The members of a table on one line up to its brace; at least one is due. -/
def members : (fuel levels : Nat) → Table → List Char → Option (Table × List Char)
  | 0, _, _, _ => none
  | fuel + 1, levels, table, cs => do
    let (names, rest) ← key cs
    let '=' :: rest := rest | none
    let (j, rest) ← value fuel levels (skipBlank rest)
    let table ← table.assign j true names
    match skipBlank rest with
    | ',' :: rest => members fuel levels table rest
    | '\x7d' :: rest => return (table, rest)
    | _ => none

end

/-! ### Lines -/

/-- The tables so far, and the path of the one that keys are assigned to. -/
structure Progress where
  root : Table
  -- the path of the open table
  path : List String

/-- Opens the table that a header names, or adds the row. -/
def Progress.header (p : Progress) (change : String → Table → Option Table)
    (names : List String) : Option Progress := do
  let root ← p.root.alter (change (← names.getLast?)) names.dropLast
  return ⟨root, names⟩

/-- A line of a settings text: nothing, a header, or a key with its value.  Headers go to
`Progress.header`, keys to `Table.assign`. -/
def line (p : Progress) (cs : List Char) : Option (Progress × List Char) := do
  match skipBlank cs with
  | '[' :: '[' :: rest =>
    let (names, rest) ← key rest
    let ']' :: ']' :: rest := rest | none
    return (← p.header Table.rowAdded names, ← lineEnd rest)
  | '[' :: rest =>
    let (names, rest) ← key rest
    let ']' :: rest := rest | none
    return (← p.header Table.opened names, ← lineEnd rest)
  | rest =>
    match lineEnd rest with
    | some rest => return (p, rest)
    | none =>
      let (names, rest) ← key rest
      let '=' :: rest := rest | none
      let (j, rest) ← value (2 * rest.length + 2) maxDepth (skipBlank rest)
      let root ← p.root.alter (Table.assign j true names) p.path
      return (⟨root, p.path⟩, ← lineEnd rest)

def lines : (fuel : Nat) → Progress → List Char → Option Progress
  | _, p, [] => some p
  | 0, _, _ => none
  | fuel + 1, p, cs => do
    let (p, rest) ← line p cs
    lines fuel p rest

/-- The rest of a text behind the mark of its byte order. -/
def skipMark : List Char → List Char
  | '\uFEFF' :: rest => rest
  | cs => cs

/-- **The document of a text**, if it is a settings text. -/
def read (s : String) : Option Json := do
  let cs := skipMark s.toList
  let p ← lines cs.length ⟨[], []⟩ cs
  return (Node.table .header p.root).toJson

end GraphLog.Toml
