/-
**Running a command.**

A command reads at most two files, the settings and the records, and then gives a report or says
why there is none.  Files are given by a function, so that nothing here depends on a disk.

Main definitions:

* `GraphLog.Files` — the files that a command may read;
* `GraphLog.CommandError` — why there is no report, with its wording;
* `GraphLog.Invocation.run` — **the report of an invocation**.
-/

import GraphLog.Command.Input
import GraphLog.Command.Report

set_option relaxedAutoImplicit false
set_option autoImplicit false

namespace GraphLog

/-- Why a file has no text. -/
inductive FileFault where
  | missing
  | directory
  | unreadable (reason : String)
deriving DecidableEq, Repr

def FileFault.message : FileFault → String
  | missing => "No such file or directory (os error 2)"
  | directory => "Is a directory (os error 21)"
  | unreadable reason => reason

/-- The files that a command may read. -/
structure Files where
  read : String → Except FileFault String
  -- where the settings are that nobody names
  settingsPath : Option String

/-- **Why there is no report.** -/
inductive CommandError where
  | settingsFile (path : String) (fault : FileFault)
  | settings (path : String)
  | recordFile (path : String) (fault : FileFault)
  | record (path : String) (bad : RecordFile.BadLine)
  | label (error : Label.ParseError)
  | digits (fault : Text.Hex.Fault)
  | frame (failure : Failure)
deriving DecidableEq

/-- The wording of a fault of a document. -/
def Json.Fault.message : Json.Fault → String
  | label error => error.message
  | defect d => Failure.message (.invalid d)
  | shape => "not a record"

def CommandError.message : CommandError → String
  | settingsFile path fault => s!"failed to read CLI config {path}: {fault.message}"
  | settings path => s!"failed to parse CLI config {path}"
  | recordFile path fault => s!"failed to read {path}: {fault.message}"
  | record path bad => s!"{path}:{bad.line}: {bad.fault.message}"
  | label error => error.message
  | digits fault => fault.message
  | frame failure => failure.message

namespace Files

/-- The `Settings` at a path; without a path or a file there, nothing is set. -/
def settings (files : Files) (path : Option String) : Except CommandError Settings :=
  match path.or files.settingsPath with
  | none => .ok {}
  | some path =>
    match files.read path with
    | .error .missing => .ok {}
    | .error fault => .error (.settingsFile path fault)
    | .ok text =>
      match Settings.ofText text with
      | some settings => .ok settings
      | none => .error (.settings path)

def records (files : Files) (path : String) : Except CommandError (List Record) := do
  let text ← (files.read path).mapError (.recordFile path)
  (RecordFile.read text).mapError (.record path)

end Files

namespace Invocation

/-- What the caller holds: as said, or else as set. -/
def held (i : Invocation) (settings : Settings) : Authorizations :=
  match i.tokens with
  | some list => .ofText list
  | none => .ofList (settings.defaultTokens.getD [])

/-- The rules of a fold: as set, and then as said. -/
def foldOptions (base : FoldOptions) (tieBreak : Option TieBreak)
    (hideAudience : Option HideAudience) (includeHidden : Bool) : FoldOptions :=
  { base with
    tieBreak := tieBreak.getD base.tieBreak
    hideAudience := hideAudience.getD base.hideAudience
    includeHidden := includeHidden || base.includeHidden }

/-- The report of a command for a caller. -/
def report (files : Files) (settings : Settings) (held : Authorizations) :
    Command → Except CommandError Report
  | .parse expression => do
    let label ← (Label.parse expression).mapError .label
    return .ofLabel expression label
  | .eval expression => do
    let v ← (Visibility.ofText expression).mapError .label
    return .ofVerdict held v
  | .decode digits => do
    let bytes ← (Text.Hex.decode (Text.toBytes (Text.trim digits))).mapError .digits
    let frame ← (Frame.decode bytes).mapError .frame
    return .ofFrame frame
  | .encode file => do return .ofRecords (← files.records file)
  | .fold file tieBreak hideAudience includeHidden asOf => do
    let records ← files.records file
    let view : View := ⟨foldOptions settings.fold tieBreak hideAudience includeHidden, held, asOf⟩
    return .ofStates (view.foldPartition records)
  | .history file all newestFirst limit => do
    let records ← files.records file
    let history := History.ofRecords settings.fold (if all then none else some held) records
    let order := if newestFirst then .descending else .ascending
    let events := history.query ⟨none, order, limit.map (·.toNat)⟩
    return if all then .ofAnnotated (annotate settings.fold held events) else .ofEvents events

/-- **The report of an invocation**; the `settings` are read first, and then the `report` is
made. -/
def run (files : Files) (i : Invocation) : Except CommandError Report := do
  let settings ← files.settings i.settingsPath
  report files settings (i.held settings) i.command

end Invocation

end GraphLog
