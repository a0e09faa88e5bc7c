/-
**What the command line reads: settings and record files.**

Settings are optional, and so is each of them; a setting with an unknown name is refused, because
it is likely to be a misspelt one.

A record file has one record on each line.  Blank lines and lines that start with a number sign are
passed over.  A record that comes without a number of arrival is numbered behind the greatest number
in the file, in the order of the lines, so that it does not compete with the numbers that are given.

Main definitions:

* `GraphLog.Settings` — the settings;
* `GraphLog.Settings.ofText` — reading them;
* `GraphLog.RecordFile.read` — the records of a text, or the line that holds none;
* `GraphLog.RecordFile.numbered` — the records with their numbers.
-/

import GraphLog.Fold.Document
import GraphLog.Intake

set_option relaxedAutoImplicit false
set_option autoImplicit false

namespace GraphLog

/-! ### Settings -/

/-- The settings of the command line. -/
structure Settings where
  fold : FoldOptions := {}
  -- what a caller holds who does not say so
  defaultTokens : Option (List String) := none
deriving Inhabited

namespace Settings

def names : List String :=
  ["fold", "default_auths"]

/-- Every member of a document is a setting. -/
def isKnown : Json → Bool
  | .object members => members.all fun (name, _) => names.contains name
  | _ => false

def ofDocument : Json → Except Json.Fault Settings :=
  Json.structured names fun ms =>
    Settings.mk <$> ms.defaulted "fold" {} FoldOptions.ofSetting
      <*> ms.optional "default_auths" (Json.asList Json.asText)

/-- **Reads settings from a settings text**, by way of `Toml.read`. -/
def ofText (text : String) : Option Settings := do
  let document ← Toml.read text
  if isKnown document then (ofDocument document).toOption else none

end Settings

/-! ### Record files -/

namespace RecordFile

/-- A line that holds no record. -/
structure BadLine where
  -- the number of the line, from one on
  line : Nat
  fault : Json.Fault
deriving DecidableEq

def isIdle (line : String) : Bool :=
  line.isEmpty || line.front == '#'

/-- The records of lines that are not idle, each by `Record.ofText`; the first line has the number
`line`. -/
def ofLines (line : Nat) : List String → Except BadLine (List Record)
  | [] => .ok []
  | text :: rest => do
    let text := Text.trim text
    if isIdle text then ofLines (line + 1) rest
    else
      let record ← (Record.ofText text).mapError (BadLine.mk line)
      return record :: (← ofLines (line + 1) rest)

def highest (records : List Record) : UInt64 :=
  (records.map (·.sequence)).foldl max 0

/-- The number behind another one; the last one stays where it is. -/
def following (n : UInt64) : UInt64 :=
  if n = 0 - 1 then n else n + 1

/-- Records with numbers from a counter, of which each record claims one. -/
def assign (intake : Intake) : List Record → List Record
  | [] => []
  | r :: rs =>
    let (sequence, intake) := intake.claim
    (if r.sequence = 0 then r.stamped sequence else r) :: assign intake rs

/-- The records with their numbers: those without one `assign` numbers from behind the `highest`
on. -/
def numbered (records : List Record) : List Record :=
  assign ⟨following (highest records)⟩ records

/-- **The numbered records of a text**, or the first line that holds none. -/
def read (text : String) : Except BadLine (List Record) :=
  (ofLines 1 (text.splitOn "\n")).map numbered

end RecordFile

end GraphLog
