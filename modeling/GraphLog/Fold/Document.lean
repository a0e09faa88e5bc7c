/-
**Options and states as documents.**

Main definitions:

* `GraphLog.FoldOptions.toJson`, `GraphLog.FoldOptions.ofJson` — the rules of a fold, each of which
  may be left out;
* `GraphLog.FoldOptions.ofSetting`, `GraphLog.FoldOptions.ofSettings` — the same, from a setting
  or a whole settings text;
* `GraphLog.ElementState.toJson` — what a caller sees of an element.
-/

import GraphLog.Fold.State
import GraphLog.Fold.View
import GraphLog.Record.Document
import GraphLog.Toml.Reader

set_option relaxedAutoImplicit false
set_option autoImplicit false

namespace GraphLog

open Json (Fault structured named)

/-! ### Options -/

namespace FoldOptions

/-- The rules of a fold as a document. -/
def toJson (o : FoldOptions) : Json :=
  .object [("tie_break", .text o.tieBreak.name), ("hide_audience", .text o.hideAudience.name),
    ("include_hidden", .bool o.includeHidden), ("memoize_labels", .bool o.memoizeLabels)]

def names : List String :=
  ["tie_break", "hide_audience", "include_hidden", "memoize_labels"]

/-- Reads the rules of a fold from a document in which `void` says what says nothing. -/
def ofDocument (void : Json → Bool) : Json → Except Fault FoldOptions :=
  structured names fun ms =>
    FoldOptions.mk
      <$> ms.defaulted "tie_break" .lastArrival (named void TieBreak.ofName?)
      <*> ms.defaulted "hide_audience" .nonHolders (named void HideAudience.ofName?)
      <*> ms.defaulted "include_hidden" false Json.asBool
      <*> ms.defaulted "memoize_labels" true Json.asBool

/-- **Reads the rules of a fold**; what is left out has its default. -/
def ofJson : Json → Except Fault FoldOptions :=
  ofDocument Json.isNull

/-- Reads the rules of a fold from a setting, as `ofJson` does.  In a list, what stands behind the
rules is passed over. -/
def ofSetting : Json → Except Fault FoldOptions
  | .array items => ofDocument Toml.isVoid (.array (items.take names.length))
  | j => ofDocument Toml.isVoid j

/-- Reads the rules of a fold from a settings text. -/
def ofSettings (text : String) : Option FoldOptions := do
  (ofSetting (← Toml.read text)).toOption

end FoldOptions

/-! ### States -/

/-- A metadata entry that is left, as a document. -/
def MetadataState.toJson (m : MetadataState) : Json :=
  .object [("key", .text m.key), ("value", m.value.toJson), ("visibility", m.visibility.toJson),
    ("timestamp", Json.ofInt64 m.timestamp)]

/-- A property that is left, as a document. -/
def PropertyState.toJson (p : PropertyState) : Json :=
  .object [("key", .text p.key), ("name", .text p.name), ("visibility", p.visibility.toJson),
    ("value", p.value.toJson), ("timestamp", Json.ofInt64 p.timestamp),
    ("metadata", .array (p.metadata.map MetadataState.toJson)), ("hidden", .bool p.hidden)]

/-- An edge that is left, as a document. -/
def EdgeState.toJson (e : EdgeState) : Json :=
  .object [("edge_id", .text e.edge), ("direction", e.direction.toJson),
    ("label", Json.ofOption .text e.label), ("other_vertex_id", .text e.other),
    ("visibility", e.visibility.toJson), ("timestamp", Json.ofInt64 e.timestamp),
    ("hidden", .bool e.hidden)]

/-- What a caller sees of an element, as a document. -/
def ElementState.toJson (s : ElementState) : Json :=
  .object [("element", s.element.toJson), ("status", .text s.status.name),
    ("visibility", s.visibility.toJson), ("endpoints", Json.ofOption Endpoints.toJson s.endpoints),
    ("properties", .array (s.properties.map PropertyState.toJson)),
    ("edges", .array (s.edges.map EdgeState.toJson)),
    ("hidden_by", .array (s.hiddenBy.map Visibility.toJson)),
    ("soft_deleted_at", Json.ofOption Json.ofInt64 s.softDeletedAt),
    ("last_modified", Json.ofOption Json.ofInt64 s.lastModified),
    ("as_of", Json.ofOption Json.ofInt64 s.asOf)]

end GraphLog
