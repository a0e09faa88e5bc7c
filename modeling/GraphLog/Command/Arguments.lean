/-
**Arguments: options and operands.**

A word that starts with two dashes names an option, a word that starts with one dash lists
letters of options, and every other word is an operand; behind a bare `--` all words are operands.
An option with a value takes it from behind an equals sign or from the next word, which must not
look like an option itself.

Words are judged one after the other, so the first fault is the one that is reported, unless the
help or the version was asked for before it.  A word that is the value of an option or an operand
is judged late: only when the next option or operand comes up, or at the end.

Main definitions:

* `GraphLog.OptionSpec`, `GraphLog.OperandSpec` — an option and an operand that may be given;
* `GraphLog.Refusal` — why arguments are refused, with its wording in `GraphLog.Refusal.message`;
* `GraphLog.Given` — the options and operands so far;
* `GraphLog.Given.scan` — **reads words**, up to the operand that is not expected.
-/

import GraphLog.Text.Basic

set_option relaxedAutoImplicit false
set_option autoImplicit false

namespace GraphLog

/-- What an option does. -/
inductive OptionRole where
  | flag
  | count
  | value
  | help
  | version
deriving DecidableEq, Repr

/-- An option that may be given. -/
structure OptionSpec where
  name : String
  letter : Option Char := none
  role : OptionRole
  valueName : String := ""
  -- the values to choose from, if there are few
  choices : List String := []
  admits : String → Bool := fun value => choices.isEmpty || choices.contains value
  -- the value that counts when none is given
  usual : Option String := none
  summary : String := ""

/-- An operand that may be given. -/
structure OperandSpec where
  name : String
  admitsEmpty : Bool
deriving DecidableEq, Repr

/-- Why arguments are refused. -/
inductive Refusal where
  | unknownOption (word : String)
  | missingValue (option : String)
  | needlessValue (option value : String)
  | badValue (option value : String)
  | repeated (option : String)
  | excess (operand : String)
  | missingOperand (name : String)
  | emptyOperand (name : String)
  | unknownCommand (name : String)
  | missingCommand
deriving DecidableEq, Repr

def Refusal.message : Refusal → String
  | unknownOption word => s!"unexpected argument '{word}' found"
  | missingValue option => s!"a value is required for '--{option}' but none was supplied"
  | needlessValue option value => s!"unexpected value '{value}' for '--{option}' found"
  | badValue option value => s!"invalid value '{value}' for '--{option}'"
  | repeated option => s!"the argument '--{option}' cannot be used multiple times"
  | excess operand => s!"unexpected argument '{operand}' found"
  | missingOperand name => s!"the argument <{name}> was not provided"
  | emptyOperand name => s!"a value is required for <{name}> but none was supplied"
  | unknownCommand name => s!"unrecognized subcommand '{name}'"
  | missingCommand => "a subcommand is required but none was provided"

/-- Why reading words ends early. -/
inductive Stop where
  | refused (why : Refusal)
  | help
  | version
deriving DecidableEq, Repr

/-- **The options and the operand so far.** -/
structure Given where
  -- the options in order, each with its value or an empty text
  options : List (String × String) := []
  operand : Option String := none
deriving DecidableEq, Repr, Inhabited

namespace Given

def has (g : Given) (name : String) : Bool :=
  g.options.any (·.1 == name)

def value? (g : Given) (name : String) : Option String :=
  g.options.lookup name

def count (g : Given) (name : String) : Nat :=
  g.options.countP (·.1 == name)

/-- Takes an option that stands without a value. -/
def takeBare (g : Given) (spec : OptionSpec) : Except Stop Given :=
  match spec.role with
  | .help => .error .help
  | .version => .error .version
  | .value => .error (.refused (.missingValue spec.name))
  | .count => .ok { g with options := g.options ++ [(spec.name, "")] }
  | .flag =>
    if g.has spec.name then .error (.refused (.repeated spec.name))
    else .ok { g with options := g.options ++ [(spec.name, "")] }

def takeValue (g : Given) (spec : OptionSpec) (value : String) : Except Refusal Given :=
  if spec.role ≠ .value then .error (.needlessValue spec.name value)
  else if g.has spec.name then .error (.repeated spec.name)
  else if spec.admits value then .ok { g with options := g.options ++ [(spec.name, value)] }
  else .error (.badValue spec.name value)

/-- Takes the options whose letters a word lists. -/
def takeLetters (specs : List OptionSpec) (g : Given) : List Char → Except Stop Given
  | [] => .ok g
  | letter :: letters =>
    match specs.find? (·.letter == some letter) with
    | some spec => do takeLetters specs (← g.takeBare spec) letters
    | none => .error (.refused (.unknownOption (String.ofList ['-', letter])))

def isOptionLike (word : String) : Bool :=
  match word.toList with
  | '-' :: _ :: _ => true
  | _ => false

/-- Takes the operand; there is at most one. -/
def takeOperand (spec : OperandSpec) (g : Given) (word : String) : Except Refusal Given :=
  if g.operand.isSome then .error (.excess word)
  else if word = "" ∧ ¬spec.admitsEmpty then .error (.emptyOperand spec.name)
  else .ok { g with operand := some word }

/-- Takes words all of which are operands. -/
def takeOperands (spec : Option OperandSpec) (g : Given) (words : List String) :
    Except Refusal Given :=
  match spec with
  | some spec => words.foldlM (takeOperand spec) g
  | none => words.foldlM (fun _ word => .error (.excess word)) g

/-- What is said behind an equals sign, if there is one. -/
def attached? (body : List Char) : Option String :=
  match body.dropWhile (· != '=') with
  | '=' :: value => some (String.ofList value)
  | _ => none

def settled {α : Type} (judged : Except Refusal α) : Except Stop α :=
  judged.mapError .refused

/-- **Reads words.**  If no operand is expected, reading stops in front of the first one, and the
words that are left are given too.  The value or operand that was read last is judged already, but
its `Refusal` is held back. -/
def scan (specs : List OptionSpec) (operand : Option OperandSpec) (judged : Except Refusal Given) :
    List String → Except Stop (Except Refusal Given × List String)
  | [] => .ok (judged, [])
  | word :: words =>
    match word.toList with
    | ['-', '-'] => .ok (do takeOperands operand (← judged) words, [])
    | '-' :: '-' :: body => do
      let name := String.ofList (body.takeWhile (· != '='))
      match specs.find? (·.name == name), attached? body with
      | none, _ => .error (.refused (.unknownOption word))
      | some spec, some value =>
        let g ← settled judged
        scan specs operand (.ok (← settled (g.takeValue spec value))) words
      | some spec, none =>
        let g ← settled judged
        if spec.role = .value then
          match words with
          | value :: words =>
            if isOptionLike value then .error (.refused (.missingValue name))
            else scan specs operand (g.takeValue spec value) words
          | [] => .error (.refused (.missingValue name))
        else scan specs operand (.ok (← g.takeBare spec)) words
    | '-' :: letter :: letters => do
      let g ← settled judged
      scan specs operand (.ok (← g.takeLetters specs (letter :: letters))) words
    | _ =>
      match operand with
      | none => .ok (judged, word :: words)
      | some spec => do
        let g ← settled judged
        scan specs operand (g.takeOperand spec word) words

end Given

end GraphLog
