/-
**Invocations: what the arguments ask for.**

There are six commands, each with one operand and options of its own; the general options may be
given in front of the command and behind it, and what is given behind it counts.

Main definitions:

* `GraphLog.Command` — the commands;
* `GraphLog.Invocation` — a command with the general options;
* `GraphLog.Request.ofArguments` — **reads arguments**.
-/

import GraphLog.Command.Arguments
import GraphLog.Fold.View
import GraphLog.Number

set_option relaxedAutoImplicit false
set_option autoImplicit false

namespace GraphLog

/-- **The commands.** -/
inductive Command where
  | parse (expression : String)
  | eval (expression : String)
  | decode (digits : String)
  | encode (file : String)
  | fold (file : String) (tieBreak : Option TieBreak) (hideAudience : Option HideAudience)
      (includeHidden : Bool) (asOf : Option Int64)
  | history (file : String) (all newestFirst : Bool) (limit : Option UInt64)
deriving DecidableEq, Repr

/-- In which form a report is given. -/
inductive ReportFormat where
  | text
  | json
deriving DecidableEq, Repr

/-- **A command with the general options.** -/
structure Invocation where
  format : ReportFormat
  -- what the caller holds, as a list with commas
  tokens : Option String
  settingsPath : Option String
  verbosity : Nat
  command : Command
deriving DecidableEq, Repr

/-! ### Numbers in arguments -/

/-- The number of a run of decimal digits. -/
def decimal? (digits : List Char) : Option Nat :=
  if digits.isEmpty || !digits.all Char.isDigit then none
  else some (digits.foldl (fun n d => n * 10 + (d.toNat - 48)) 0)

/-- An integer of 64 bits with a sign by `Integer.signed?`, which need not be written if it is a
plus. -/
def moment? (word : String) : Option Int64 :=
  let number? : Option Int := match word.toList with
    | '-' :: digits => (decimal? digits).map fun n => -(n : Int)
    | '+' :: digits => (decimal? digits).map Int.ofNat
    | digits => (decimal? digits).map Int.ofNat
  number?.bind Integer.signed?

/-- A number of 64 bits by `Integer.unsigned?`, in front of which a plus may stand. -/
def amount? (word : String) : Option UInt64 :=
  let number? := match word.toList with
    | '+' :: digits => decimal? digits
    | digits => decimal? digits
  number?.bind fun n => Integer.unsigned? n

/-! ### Options and commands -/

def tieBreaks : List (String × TieBreak) :=
  [("last", .lastArrival), ("first", .firstArrival)]

def hideAudiences : List (String × HideAudience) :=
  [("non-holders", .nonHolders), ("holders", .holders)]

/-- The words for forms of a report. -/
def reportFormats : List (String × ReportFormat) :=
  [("text", .text), ("json", .json)]

/-- What a word stands for among choices. -/
def chosen {α : Type} (choices : List (String × α)) (word : Option String) : Option α :=
  word.bind fun word => choices.lookup word

/-- The general options.  Themes are for terminals; a report is the same in all of them. -/
def generalOptions : List OptionSpec := [
  { name := "format", role := .value, valueName := "FORMAT",
    choices := reportFormats.map (·.1), usual := some "text",
    summary := "Output format for structured responses" },
  { name := "auths", role := .value, valueName := "a,b",
    summary := "Comma-separated authorization tokens (defaults to the config file)" },
  { name := "config", role := .value, valueName := "PATH", admits := (· ≠ ""),
    summary := "CLI config file" },
  { name := "theme", role := .value, valueName := "THEME",
    choices := ["auto", "light", "dark", "plain"], usual := some "auto" },
  { name := "verbose", letter := some 'v', role := .count,
    summary := "Raise log verbosity (-v debug, -vv trace)" },
  { name := "help", letter := some 'h', role := .help, summary := "Print help" }]

/-- The option that asks for the version, in front of the command only. -/
def versionOption : OptionSpec :=
  { name := "version", letter := some 'V', role := .version, summary := "Print version" }

/-- A command that may be given. -/
structure CommandSpec where
  name : String
  summary : String
  operand : OperandSpec
  options : List OptionSpec
  build : String → Given → Command

/-- All commands. -/
def commands : List CommandSpec := [
  { name := "parse", operand := ⟨"EXPR", true⟩, options := [],
    summary := "Parse a visibility expression and print its canonical form",
    build := fun operand _ => .parse operand },
  { name := "eval", operand := ⟨"EXPR", true⟩, options := [],
    summary := "Evaluate a visibility expression against --auths",
    build := fun operand _ => .eval operand },
  { name := "decode", operand := ⟨"HEX", true⟩, options := [],
    summary := "Decode a hex-encoded payload, record or event frame",
    build := fun operand _ => .decode operand },
  { name := "encode", operand := ⟨"FILE", false⟩, options := [],
    summary := "Encode a JSON-lines record file as hex record frames",
    build := fun operand _ => .encode operand },
  { name := "fold", operand := ⟨"FILE", false⟩,
    options := [
      { name := "tie-break", role := .value, valueName := "TIE_BREAK",
        choices := tieBreaks.map (·.1), summary := "Same-timestamp ordering policy" },
      { name := "hide-audience", role := .value, valueName := "HIDE_AUDIENCE",
        choices := hideAudiences.map (·.1), summary := "Which callers a hide applies to" },
      { name := "include-hidden", role := .flag,
        summary := "Report hidden properties and edges, flagged" },
      { name := "as-of", role := .value, valueName := "TS", admits := fun v => (moment? v).isSome,
        summary := "Ignore records after this timestamp" }],
    summary := "Fold a JSON-lines record file into element state",
    build := fun operand g => .fold operand (chosen tieBreaks (g.value? "tie-break"))
      (chosen hideAudiences (g.value? "hide-audience")) (g.has "include-hidden")
      ((g.value? "as-of").bind moment?) },
  { name := "history", operand := ⟨"FILE", false⟩,
    options := [
      { name := "all", role := .flag,
        summary := "Narrate every record, annotated with the caller's verdict" },
      { name := "desc", role := .flag, summary := "Newest first" },
      { name := "limit", role := .value, valueName := "N",
        admits := fun v => (amount? v).isSome }],
    summary := "Print the ordered event history of a JSON-lines record file",
    build := fun operand g => .history operand (g.has "all") (g.has "desc")
      ((g.value? "limit").bind amount?) }]

/-! ### Requests -/

/-- What the arguments ask for. -/
inductive Request where
  | help (command : Option CommandSpec)
  | version
  | report (invocation : Invocation)

namespace Request

/-- The value of a general option: what is said behind the command counts. -/
def general? (before behind : Given) (name : String) : Option String :=
  (behind.value? name).or (before.value? name)

/-- How often more detail was asked for: what is said behind the command counts. -/
def verbosity (before behind : Given) : Nat :=
  if behind.has "verbose" then behind.count "verbose" else before.count "verbose"

/-- The invocation of a command with an operand. -/
def invocation (spec : CommandSpec) (before behind : Given) (settingsVariable : Option String)
    (operand : String) : Invocation where
  format := (chosen reportFormats (general? before behind "format")).getD .text
  tokens := general? before behind "auths"
  settingsPath := (general? before behind "config").or settingsVariable
  verbosity := verbosity before behind
  command := spec.build operand behind

/-- A path in the environment must not be empty, unless paths in front of the command and behind
it make up for it. -/
def checkVariable (before behind : Given) (settingsVariable : Option String) :
    Except Refusal Unit :=
  if settingsVariable = some "" ∧ ¬(before.has "config" ∧ behind.has "config") then
    .error (.badValue "config" "")
  else .ok ()

/-- What a `Stop` amounts to, in front of the command or behind it. -/
def ofStop (command : Option CommandSpec) : Stop → Except Refusal Request
  | .refused why => .error why
  | .help => .ok (.help command)
  | .version => .ok .version

/-- Reads the arguments of a command.  What stands in front of it has been judged, but the help
about the command comes before a refusal that `Given.scan` held back. -/
def ofCommand (spec : CommandSpec) (before : Except Refusal Given)
    (settingsVariable : Option String) (words : List String) : Except Refusal Request :=
  match Given.scan (spec.options ++ generalOptions) (some spec.operand) (.ok {}) words with
  | .error stop => ofStop (some spec) stop
  | .ok (behind, _) => do
    let behind ← behind
    let some operand := behind.operand | throw (.missingOperand spec.operand.name)
    let before ← before
    checkVariable before behind settingsVariable
    return .report (invocation spec before behind settingsVariable operand)

/-- **Reads arguments.**  A variable of the environment may say where the settings are. -/
def ofArguments (settingsVariable : Option String) (words : List String) :
    Except Refusal Request :=
  match Given.scan (generalOptions ++ [versionOption]) none (.ok {}) words with
  | .error stop => ofStop none stop
  | .ok (before, []) => do
    let _ ← before
    throw .missingCommand
  | .ok (before, name :: words) =>
    match commands.find? (·.name == name) with
    | some spec => ofCommand spec before settingsVariable words
    | none => .error (.unknownCommand name)

end Request

end GraphLog
