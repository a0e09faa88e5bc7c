/-
**Reading a label from its text.**

The text is read in one pass by a machine with a stack: below lie the groups that are still open,
on top the chain that is being read.  At each moment either an operand is due, or the machine is
inside a bare or a quoted token, or an operand has just ended.  The machine stops at the first
character that cannot follow.

One level of a label has one kind of operator, at most 64 groups are open at a time, and a group
with a single operand is that operand.

Main definitions:

* `GraphLog.Label.ParseError` — what is wrong with a text, and where;
* `GraphLog.Label.State` — what the machine remembers;
* `GraphLog.Label.step` — how a character changes it;
* `GraphLog.Label.parse` — **the label of a text**.
-/

import GraphLog.Label.Basic
import GraphLog.Text.Quoted

set_option relaxedAutoImplicit false
set_option autoImplicit false

namespace GraphLog.Label

/-- What is wrong with a text that stands for no label. -/
inductive Fault where
  | emptyTerm
  -- a group is not closed where it should be, or a parenthesis closes nothing
  | unbalancedParens
  | mixedOperators
  | unterminatedQuote
  | invalidEscape
  | emptyQuotedToken
  | invalidCharacter (c : Char)
  | tooDeep
  -- the label is complete and the text goes on
  | trailingInput
deriving DecidableEq, Repr

def Fault.message : Fault → String
  | .emptyTerm => "empty term"
  | .unbalancedParens => "unbalanced parentheses"
  | .mixedOperators => "cannot mix '&' and '|' without parentheses"
  | .unterminatedQuote => "unterminated quoted token"
  | .invalidEscape => "invalid escape in quoted token"
  | .emptyQuotedToken => "empty quoted token"
  | .invalidCharacter c => "unexpected character " ++ Text.quotedChar c
  | .tooDeep => "parentheses nested too deeply"
  | .trailingInput => "unexpected trailing input"

/-- **What is wrong with a text, and where**, counted in bytes of its UTF-8 form. -/
structure ParseError where
  position : Nat
  fault : Fault
deriving DecidableEq, Repr

def ParseError.message (e : ParseError) : String :=
  s!"{e.fault.message} at position {e.position}"

/-- The number of groups that may be open at a time; one more is `Fault.tooDeep`. -/
def maxNesting : Nat := 64

/-- What stands in front of an operand on its level. -/
inductive Pending where
  | nothing
  -- earlier operands, the last of them first, each followed by the operator
  | joined (operator : Operator) (earlier : List Label)
deriving Inhabited

/-- The label of a level whose last operand is given. -/
def Pending.close (before : Pending) (operand : Label) : Label :=
  match before with
  | nothing => operand
  | joined operator earlier => chain operator (earlier.reverse ++ [operand])

/-- Where the machine stands on the innermost level. -/
inductive Phase where
  | awaiting
  -- inside a bare token, its letters so far with the last first
  | word (letters : List Char)
  -- inside a quoted token that began at `start`
  | quoted (start : Nat) (letters : List Char)
  -- behind a backslash at `slash` inside a quoted token
  | escaped (start slash : Nat) (letters : List Char)
  | complete (operand : Label)

/-- **What the machine remembers**: the open groups, what is `Pending` on the innermost level, and
its `Phase`. -/
structure State where
  -- the open groups, innermost first: where each began and what stands in front of it
  outer : List (Nat × Pending)
  -- what stands in front of the current operand on the innermost level
  before : Pending
  phase : Phase

/-- The machine in front of a text. -/
def State.initial : State :=
  ⟨[], .nothing, .awaiting⟩

/-- The token whose letters were met, last first. -/
def token (letters : List Char) : Label :=
  term (String.ofList letters.reverse)

def startsOperand (c : Char) : Bool :=
  c == '(' || c == '"' || isBare c

def operator? (c : Char) : Option Operator :=
  if c = '&' then some .and else if c = '|' then some .or else none

/-- A character where an operand is due. -/
def begin (s : State) (position : Nat) (c : Char) : Except ParseError State :=
  if c = '(' then
    if s.outer.length = maxNesting then .error ⟨position, .tooDeep⟩
    else .ok ⟨(position, s.before) :: s.outer, .nothing, .awaiting⟩
  else if c = ')' ∨ c = '&' ∨ c = '|' then .error ⟨position, .emptyTerm⟩
  else if c = '"' then .ok { s with phase := .quoted position [] }
  else if isBare c then .ok { s with phase := .word [c] }
  else .error ⟨position, .invalidCharacter c⟩

/-- An operator behind an operand. -/
def extend (s : State) (operand : Label) (position : Nat) (operator : Operator) :
    Except ParseError State :=
  match s.before with
  | .nothing => .ok { s with before := .joined operator [operand], phase := .awaiting }
  | .joined earlierOperator earlier =>
    if earlierOperator = operator then
      .ok { s with before := .joined operator (operand :: earlier), phase := .awaiting }
    else .error ⟨position, .mixedOperators⟩

/-- A character behind an operand. -/
def follow (s : State) (operand : Label) (position : Nat) (c : Char) : Except ParseError State :=
  match operator? c, s.outer with
  | some operator, _ => extend s operand position operator
  | none, (start, before) :: outer =>
    if c = ')' then .ok ⟨outer, before, .complete (s.before.close operand)⟩
    else .error ⟨start, .unbalancedParens⟩
  | none, [] =>
    if c = ')' then .error ⟨position, .unbalancedParens⟩
    else if startsOperand c then .error ⟨position, .trailingInput⟩
    else .error ⟨position, .invalidCharacter c⟩

/-- **How a character changes the machine.** -/
def step (s : State) (position : Nat) (c : Char) : Except ParseError State :=
  match s.phase with
  | .awaiting => begin s position c
  | .word letters =>
    if isBare c then .ok { s with phase := .word (c :: letters) }
    else follow s (token letters) position c
  | .quoted start letters =>
    if c = '"' then
      if letters = [] then .error ⟨start, .emptyQuotedToken⟩
      else .ok { s with phase := .complete (token letters) }
    else if c = '\\' then .ok { s with phase := .escaped start position letters }
    else .ok { s with phase := .quoted start (c :: letters) }
  | .escaped start slash letters =>
    if c = '"' ∨ c = '\\' then .ok { s with phase := .quoted start (c :: letters) }
    else .error ⟨slash, .invalidEscape⟩
  | .complete operand => follow s operand position c

/-- The label of a text whose last operand has ended. -/
def closed (s : State) (operand : Label) : Except ParseError Label :=
  match s.outer with
  | [] => .ok (s.before.close operand)
  | (start, _) :: _ => .error ⟨start, .unbalancedParens⟩

/-- What the machine makes of the end of the text.  `closed` gives the label where the last operand
has ended. -/
def finish (s : State) (position : Nat) : Except ParseError Label :=
  match s.phase with
  | .awaiting => .error ⟨position, .emptyTerm⟩
  | .word letters => closed s (token letters)
  | .quoted start _ => .error ⟨start, .unterminatedQuote⟩
  | .escaped start _ _ => .error ⟨start, .unterminatedQuote⟩
  | .complete operand => closed s operand

/-- Reads a text to its end, one `step` for each character; its first character stands at
`position`. -/
def run (s : State) (position : Nat) : List Char → Except ParseError Label
  | [] => finish s position
  | c :: cs =>
    match step s position c with
    | .ok s => run s (position + c.utf8Size) cs
    | .error e => .error e

/-- **The label of a text.**  The empty text is `Label.always`, no condition. -/
def parse (text : String) : Except ParseError Label :=
  if text = "" then .ok always else run .initial 0 text.toList

end GraphLog.Label
