/-
**Reports: what the commands show.**

A report has two forms: lines for a reader, and a document.  Warnings go with the lines only.

Main definitions:

* `GraphLog.Frame.toJson` — the sort of a frame, and what it holds;
* `GraphLog.Report` — the two forms and the warnings;
* `GraphLog.Report.ofLabel`, `GraphLog.Report.ofFrame`, `GraphLog.Report.ofStates` — and their
  companions for the other commands.
-/

import GraphLog.Command.Invocation
import GraphLog.Fold.Document
import GraphLog.History
import GraphLog.Record.Listing
import GraphLog.Wire.Frame

set_option relaxedAutoImplicit false
set_option autoImplicit false

namespace GraphLog

/-! ### Frames as documents -/

namespace Frame

/-- What the sort of a frame is called. -/
def sort : Frame → String
  | mutation _ => "payload"
  | record _ => "record"
  | event _ => "event"

/-- What a frame holds, as a document. -/
def content : Frame → Json
  | mutation m => m.toJson
  | record r => r.toJson
  | event e => e.toJson

/-- A frame as a document: its sort, and what it holds. -/
def toJson (f : Frame) : Json :=
  .object [("frame", .text f.sort), ("value", f.content)]

end Frame

/-! ### Reports -/

/-- **What a command shows.** -/
structure Report where
  lines : List String
  warnings : List String := []
  document : Json

namespace Report

def joined (lines : List String) : String :=
  String.join (lines.map (· ++ "\n"))

/-- **What is shown in a form.** -/
def output (r : Report) : ReportFormat → String
  | .text => joined r.lines
  | .json => joined [r.document.pretty 0]

/-- What is warned about in a form. -/
def complaints (r : Report) : ReportFormat → String
  | .text => joined r.warnings
  | .json => ""

/-! ### Layout -/

def heading (title : String) : String :=
  "▸ " ++ title

/-- A text with blanks in front, up to a number of characters. -/
def padded (width : Nat) (text : String) : String :=
  String.ofList (List.replicate (width - text.length) ' ') ++ text

/-- Rows under a heading, aligned at the colon.  The width is that of the longest key in bytes,
although blanks make up for characters. -/
def part (title : String) (rows : List (String × String)) : List String :=
  let width := (rows.map (·.1.utf8ByteSize)).foldl max 0
  heading title :: rows.map fun (key, value) => s!"  {padded width key}: {value}"

/-- Entries under a heading, which goes away with the last of them. -/
def entries (title : String) (items : List String) : List String :=
  if items.isEmpty then [] else heading title :: items.map ("  - " ++ ·)

def bracketed (v : Visibility) : String :=
  s!"[{v.text}]"

/-! ### Labels -/

/-- The parts of a label, with its canonical text by `Label.toText`. -/
def ofLabel (expression : String) (label : Label) : Report :=
  let canonical := label.toText
  let tokens := label.tokens.toList
  { lines := part "label" [("expression", expression), ("canonical", canonical),
      ("tokens", ", ".intercalate tokens)]
    document := .object [("expression", .text expression), ("canonical", .text canonical),
      ("tokens", .array (tokens.map .text))] }

/-- The verdict on a label. -/
def ofVerdict (held : Authorizations) (v : Visibility) : Report :=
  let visible := held.sees v
  { lines := [if visible then "visible" else "not visible"]
    document := .object [("expression", .text v.text),
      ("auths", .array (held.toList.map .text)), ("visible", .bool visible)] }

/-! ### Frames -/

/-- The name and the number of a kind of mutation. -/
def kindText (k : MutationKind) : String :=
  s!"{k.name} ({k.number.toNat})"

def frameRows : Frame → List (String × String)
  | .mutation m => [("type", kindText m.kind), ("fields", m.listed)]
  | .record r =>
    [("element", r.element.toText), ("slot", r.slot.toText),
      ("timestamp", toString r.timestamp.toInt), ("sequence", toString r.sequence.toNat),
      ("visibility", bracketed r.visibility), ("mutation", (Event.mk r).describe)]
  | .event e =>
    [("id", e.id.toText), ("type", kindText e.kind),
      ("visibility", bracketed e.record.visibility), ("mutation", e.describe)]

/-- A frame, with its document by `Frame.toJson`. -/
def ofFrame (f : Frame) : Report :=
  { lines := part f.sort (frameRows f), document := f.toJson }

/-- Records as frames, by the digits of `Text.Hex.encode`. -/
def ofRecords (records : List Record) : Report :=
  let frames := records.map fun r => Text.Hex.encode r.encode
  { lines := frames, document := .array (frames.map .text) }

/-! ### States -/

/-- What is said behind something that a hide applies to. -/
def hiddenNote (hidden : Bool) : String :=
  if hidden then " (hidden)" else ""

/-- What is said about a label that is a condition. -/
def conditionNote (v : Visibility) : String :=
  if v.isUnrestricted then "" else s!" {bracketed v}"

/-- The rows of a property and its metadata. -/
def propertyRows (p : PropertyState) : List (String × String) :=
  let key := s!"{p.key}:{p.name}"
  (key, p.value.narrated ++ conditionNote p.visibility ++ hiddenNote p.hidden) ::
    p.metadata.map fun m => (s!"{key}.{m.key}", m.value.narrated)

def stateRows (s : ElementState) : List (String × String) :=
  let visibility := if s.visibility.isUnrestricted then [] else
    [("visibility", bracketed s.visibility)]
  let endpoints := s.endpoints.toList.map fun ends =>
    ("endpoints", s!"{ends.outVertex} -[{ends.label}]-> {ends.inVertex}")
  let deleted := s.softDeletedAt.toList.map fun time => ("deleted at", toString time.toInt)
  visibility ++ endpoints ++ deleted ++ s.properties.flatMap propertyRows

def edgeLine (e : EdgeState) : String :=
  let label := e.label.getD "?"
  s!"{e.direction.name} {e.edge} ({label}) {e.other}{hiddenNote e.hidden}"

def stateLines (s : ElementState) : List String :=
  part s!"{s.element.toText} ({s.status.name})" (stateRows s) ++
    if s.status = .deleted then [] else entries "edges" (s.edges.map edgeLine)

/-- The warning about an element that hides keep back. -/
def stateWarnings (s : ElementState) : List String :=
  if s.hiddenBy.isEmpty then []
  else
    let labels := ", ".intercalate (s.hiddenBy.map bracketed)
    [s!"⚠ {s.element.toText} hidden by {labels}"]

/-- The states of elements. -/
def ofStates (states : List ElementState) : Report :=
  { lines := states.flatMap stateLines
    warnings := states.flatMap stateWarnings
    document := .array (states.map ElementState.toJson) }

/-! ### Histories -/

/-- Events of a history. -/
def ofEvents (events : List Event) : Report :=
  { lines := events.map Event.toText, document := .array (events.map Event.toJson) }

/-- Events with the verdicts of a caller. -/
def ofAnnotated (events : List AnnotatedEvent) : Report :=
  { lines := events.map (·.event.toText)
    document := .array (events.map AnnotatedEvent.toJson) }

end Report

end GraphLog
