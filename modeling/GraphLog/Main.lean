/-
**The program.**

It reads the arguments, the settings and the records, prints the report, and ends with zero; with
one, if there is no report; and with two, if the arguments make no sense.

Main definitions:

* `main` — the program.
-/

import GraphLog.Command.Help
import GraphLog.Command.Run

set_option relaxedAutoImplicit false
set_option autoImplicit false

namespace GraphLog

def Command.file? : Command → Option String
  | .parse _ | .eval _ | .decode _ => none
  | .encode file | .fold file .. | .history file .. => some file

/-- The text of a file on the disk. -/
def readText (path : String) : IO (Except FileFault String) := do
  try
    return .ok (← IO.FS.readFile path)
  catch fault =>
    match fault with
    | .noFileOrDirectory .. => return .error .missing
    | .inappropriateType .. => return .error .directory
    | fault => return .error (.unreadable (toString fault))

/-- The path of the settings that nobody names. -/
def defaultSettingsPath : IO (Option String) := do
  let base ← match ← IO.getEnv "XDG_CONFIG_HOME" with
    | some base => pure (some base)
    | none => pure ((← IO.getEnv "HOME").map (· ++ "/.config"))
  return base.map (· ++ "/strata/cli.toml")

/-- The files that an invocation may read, read ahead. -/
def Invocation.files (i : Invocation) : IO Files := do
  let settingsPath ← defaultSettingsPath
  let paths := (i.settingsPath.or settingsPath).toList ++ i.command.file?.toList
  let texts ← paths.mapM fun path => return (path, ← readText path)
  return { read := fun path => (texts.lookup path).getD (.error .missing), settingsPath }

def Invocation.perform (i : Invocation) : IO UInt32 := do
  match i.run (← i.files) with
  | .ok report =>
    IO.print (report.output i.format)
    IO.eprint (report.complaints i.format)
    return 0
  | .error fault =>
    IO.eprintln s!"error: {fault.message}"
    return 1

end GraphLog

open GraphLog

/-- **The program.** -/
def main (arguments : List String) : IO UInt32 := do
  let settingsVariable ← IO.getEnv "STRATA_CONFIG"
  match Request.ofArguments settingsVariable arguments with
  | .ok (.report i) => i.perform
  | .ok (.help command) => IO.print (helpText settingsVariable command); return 0
  | .ok .version => IO.print versionText; return 0
  | .error why => IO.eprint why.text; return 2
