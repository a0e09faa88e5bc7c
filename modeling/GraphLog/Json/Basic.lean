/-
**Documents: the trees that JSON texts stand for, and how they are written.**

A text is read as far as it makes sense, and the tree says where it stopped.  This matters because
a record is refused for the first fault in reading order: a bad label in front of a syntax error
is the fault that is reported.  Members keep their order and their repetitions for the same
reason, and integers are kept apart from numbers with a point.

A document is written as an indented text.  Infinite numbers and those that are not numbers have no
literal and are written as `null`, as are the two constructors that stand for faults of a text.

Main definitions:

* `GraphLog.Json` — a document;
* `GraphLog.Json.wellFormed` — nothing in it breaks the syntax;
* `GraphLog.Json.readable` — moreover, every literal in it has a value;
* `GraphLog.Json.depth` — how deep its arrays and objects are nested;
* `GraphLog.Json.quote` — a text between quotes, with its escapes;
* `GraphLog.Json.pretty` — **a document over several lines**, two blanks for each level.
-/

import GraphLog.Number

set_option relaxedAutoImplicit false
set_option autoImplicit false

namespace GraphLog

/-! ### Documents -/

/-- **A document**, as far as its text makes sense. -/
inductive Json where
  | null
  | bool (value : Bool)
  -- an integer, of at most 64 bits
  | integer (value : Int)
  -- a number with a point or an exponent, or one that is no integer of 64 bits
  | float (value : Double)
  | text (value : String)
  | array (items : List Json)
  -- an object, its members in order and with repetitions
  | object (members : List (String × Json))
  -- a literal without a value: a number too large, or a text with half a surrogate pair
  | unreadable
  -- the value of a member whose name is such a text
  | misnamed (value : Json)
  -- here the text stops being a document
  | malformed
deriving Inhabited

namespace Json

/-- Nothing in the document breaks the syntax. -/
def wellFormed : Json → Bool
  | malformed => false
  | misnamed j => j.wellFormed
  | array items => all items
  | object members => allMembers members
  | _ => true
where
  all : List Json → Bool
    | [] => true
    | j :: js => j.wellFormed && all js
  allMembers : List (String × Json) → Bool
    | [] => true
    | (_, j) :: ms => j.wellFormed && allMembers ms

/-- Nothing breaks the syntax, as in `wellFormed`, and every literal has a value. -/
def readable : Json → Bool
  | malformed => false
  | unreadable => false
  | misnamed _ => false
  | array items => all items
  | object members => allMembers members
  | _ => true
where
  all : List Json → Bool
    | [] => true
    | j :: js => j.readable && all js
  allMembers : List (String × Json) → Bool
    | [] => true
    | (_, j) :: ms => j.readable && allMembers ms

/-- How deep arrays and objects are nested. -/
def depth : Json → Nat
  | misnamed j => j.depth
  | array items => ofItems items + 1
  | object members => ofMembers members + 1
  | _ => 0
where
  ofItems : List Json → Nat
    | [] => 0
    | j :: js => max j.depth (ofItems js)
  ofMembers : List (String × Json) → Nat
    | [] => 0
    | (_, j) :: ms => max j.depth (ofMembers ms)

/-- The first member of an object with this name. -/
def member? (j : Json) (name : String) : Option Json :=
  match j with
  | object members => members.lookup name
  | _ => none

/-- A truth value, text, integer or list, written as a document. -/
def ofOption {α : Type} (f : α → Json) : Option α → Json
  | none => null
  | some a => f a

/-! ### Writing -/

/-- The four hexadecimal digits of a number. -/
def hex4 (n : Nat) : List Char :=
  let ds := Nat.toDigits 16 n
  List.replicate (4 - ds.length) '0' ++ ds

/-- The form of a character between the quotes of `quote`. -/
def escaped (c : Char) : List Char :=
  if c = '"' then ['\\', '"']
  else if c = '\\' then ['\\', '\\']
  else if c = '\x08' then ['\\', 'b']
  else if c = '\x0c' then ['\\', 'f']
  else if c = '\n' then ['\\', 'n']
  else if c = '\r' then ['\\', 'r']
  else if c = '\t' then ['\\', 't']
  else if c.toNat < 0x20 then '\\' :: 'u' :: hex4 c.toNat
  else [c]

def quote (s : String) : String :=
  "\"" ++ String.ofList (s.toList.flatMap escaped) ++ "\""

def ofDouble (x : Double) : String :=
  if x.isFinite then Layout.document.write x else "null"

/-- The start of a line at a level. -/
def newline (level : Nat) : String :=
  "\n" ++ String.ofList (List.replicate (2 * level) ' ')

/-- Lines between brackets, the closing one a level further out. -/
def bracketed (left right : String) (level : Nat) (lines : List String) : String :=
  if lines.isEmpty then left ++ right
  else
    left ++ newline (level + 1) ++ ("," ++ newline (level + 1)).intercalate lines ++
      newline level ++ right

/-- **A document over several lines**, starting at a level.  Arrays and objects are `bracketed`. -/
def pretty (level : Nat) : Json → String
  | null => "null"
  | bool b => toString b
  | integer n => toString n
  | float x => ofDouble x
  | text s => quote s
  | array js => bracketed "[" "]" level (items (level + 1) js)
  | object ms => bracketed "\x7b" "\x7d" level (members (level + 1) ms)
  | misnamed j => j.pretty level
  | unreadable => "null"
  | malformed => "null"
where
  items (level : Nat) : List Json → List String
    | [] => []
    | j :: js => j.pretty level :: items level js
  members (level : Nat) : List (String × Json) → List String
    | [] => []
    | (name, j) :: ms => (quote name ++ ": " ++ j.pretty level) :: members level ms

end Json

end GraphLog
