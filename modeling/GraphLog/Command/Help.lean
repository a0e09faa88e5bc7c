/-
**The help: commands, operands and options in columns.**

Headings and names are written with the sequences that a terminal shows in bold letters.  The help
is given without them, and without whatever else steers a terminal, as the settings variable that
it quotes may hold anything.

Main definitions:

* `GraphLog.helpText` — the help about a command, or about all of them;
* `GraphLog.versionText` — the version;
* `GraphLog.Refusal.text` — a refusal, with a hint at the help.
-/

import GraphLog.Command.Invocation

set_option relaxedAutoImplicit false
set_option autoImplicit false

namespace GraphLog

def programName : String := "strata"

def versionText : String :=
  s!"{programName} 0.1.0\n"

namespace Help

def bold (s : String) : String :=
  "\x1b[1m" ++ s ++ "\x1b[0m"

/-- A heading, in bold letters and underlined. -/
def heading (s : String) : String :=
  "\x1b[1m\x1b[4m" ++ s ++ ":\x1b[0m"

/-- How much room a text takes on a line. -/
def width (s : String) : Nat :=
  (Text.plain s).length

def spaces (n : Nat) : String :=
  String.ofList (List.replicate n ' ')

/-- A text with its further lines set in. -/
def indented (n : Nat) (s : String) : String :=
  ("\n" ++ spaces n).intercalate (s.splitOn "\n")

def columns (rows : List (String × String)) : List String :=
  let nameWidth := (rows.map (width ·.1)).foldl max 0
  rows.map fun (name, summary) =>
    "  " ++ name ++ spaces (nameWidth - width name) ++ "  " ++ indented (nameWidth + 4) summary

def usage (spec : OptionSpec) : String :=
  let letter := match spec.letter with
    | some c => bold (String.ofList ['-', c]) ++ ", "
    | none => "    "
  let more := match spec.role with
    | .value => s!" <{spec.valueName}>"
    | .count => "..."
    | _ => ""
  letter ++ bold ("--" ++ spec.name) ++ more

/-- What is said about an option, when the settings variable has this value. -/
def summary (settingsVariable : Option String) (spec : OptionSpec) : String :=
  let choices := ", ".intercalate spec.choices
  let setting := settingsVariable.getD ""
  " ".intercalate <| [spec.summary,
    if spec.name = "config" then s!"[env: STRATA_CONFIG={setting}]" else "",
    spec.usual.elim "" fun usual => s!"[default: {usual}]",
    if spec.choices.isEmpty then "" else s!"[possible values: {choices}]"].filter (· ≠ "")

def block (title : String) (rows : List (String × String)) : List String :=
  "" :: heading title :: columns rows

/-- The line that shows how the program is called. -/
def synopsis (words : List String) : String :=
  heading "Usage" ++ " " ++ " ".intercalate words

/-- The options of a command among the general ones: two at the same place of their lists stand
together, in the order of their names. -/
def together : List OptionSpec → List OptionSpec → List OptionSpec
  | [], general => general
  | own, [] => own
  | spec :: own, spec' :: general =>
    (if spec.name < spec'.name then [spec, spec'] else [spec', spec]) ++ together own general

def optionRows (settingsVariable : Option String) (specs : List OptionSpec) :
    List (String × String) :=
  specs.map fun spec => (usage spec, summary settingsVariable spec)

/-- The lines of the help about a command. -/
def ofCommand (settingsVariable : Option String) (spec : CommandSpec) : List String :=
  let operand := s!"<{spec.operand.name}>"
  [spec.summary, "", synopsis [bold s!"{programName} {spec.name}", "[OPTIONS]", operand]] ++
    block "Arguments" [(operand, "")] ++
    block "Options" (optionRows settingsVariable (together spec.options generalOptions))

/-- The lines of the help about all commands. -/
def ofProgram (settingsVariable : Option String) : List String :=
  ["Inspect visibility labels, wire frames and mutation logs", "",
    synopsis [bold programName, "[OPTIONS]", "<COMMAND>"]] ++
    block "Commands" (commands.map fun spec => (bold spec.name, spec.summary)) ++
    block "Options" (optionRows settingsVariable (generalOptions ++ [versionOption]))

end Help

/-- **The help about a command, or about all of them**: the lines of `ofCommand` or `ofProgram`,
without what steers a terminal. -/
def helpText (settingsVariable : Option String) (command : Option CommandSpec) : String :=
  let lines := command.elim (Help.ofProgram settingsVariable) (Help.ofCommand settingsVariable)
  Text.plain (String.join (lines.map (· ++ "\n")))

/-- A refusal, with a hint at the help. -/
def Refusal.text (why : Refusal) : String :=
  s!"error: {why.message}\n\nFor more information, try '--help'.\n"

end GraphLog
