/-
**Labels: the conditions under which a caller may see a record.**

A label is a boolean expression without negation over tokens.  Tokens are compared character for
character; `Secret` and `secret` are different capabilities.  Whether a caller satisfies a label is
decided from left to right, and only as far as needed; a tree that no text stands for (a chain of
fewer than two operands, a token without letters) is refused when the decision reaches the defect.
A caller who holds nothing still sees whatever carries no label.

A label has a canonical text.  The operands of a chain stand between its operators; an operand that
is a chain itself stands in parentheses, and nothing else does.  A token of letters, digits and five
marks stands bare; any other token is quoted, with a backslash in front of each quote and backslash
inside.

Main definitions:

* `GraphLog.Authorizations` — the tokens that a caller holds;
* `GraphLog.Authorizations.ofText` — the set that a list with commas names;
* `GraphLog.Label` — the trees;
* `GraphLog.Label.evaluate` — **whether a caller satisfies a label**;
* `GraphLog.Label.tokens` — the tokens that a label mentions;
* `GraphLog.Label.quote` — the written form of a token;
* `GraphLog.Label.render`, `GraphLog.Label.toText` — the canonical text.
-/

import Std.Data.ExtTreeSet
import GraphLog.Text.Basic

set_option relaxedAutoImplicit false
set_option autoImplicit false

namespace GraphLog

/-! ### The tokens of a caller -/

/-- **The set of tokens that a caller holds.** -/
structure Authorizations where
  tokens : Std.ExtTreeSet String

namespace Authorizations

def empty : Authorizations :=
  ⟨∅⟩

/-- The set of the tokens in a list. -/
def ofList (tokens : List String) : Authorizations :=
  ⟨Std.ExtTreeSet.ofList tokens⟩

/-- The set that a list with commas names.  Blanks around a token are taken off by `Text.trim`, and
empty entries name nothing. -/
def ofText (list : String) : Authorizations :=
  ofList (((list.splitOn ",").map Text.trim).filter (· ≠ ""))

/-- The caller holds exactly this token. -/
def holds (held : Authorizations) (token : String) : Bool :=
  held.tokens.contains token

def toList (held : Authorizations) : List String :=
  held.tokens.toList

def size (held : Authorizations) : Nat :=
  held.tokens.size

def isEmpty (held : Authorizations) : Bool :=
  held.tokens.isEmpty

@[simp]
theorem holds_empty (token : String) : empty.holds token = false := by
  simp [holds, empty]

@[simp]
theorem holds_ofList (tokens : List String) (token : String) :
    (ofList tokens).holds token = tokens.contains token := by
  simp [holds, ofList]

end Authorizations

/-! ### Conditions -/

/-- **A condition on the tokens a caller holds.** -/
inductive Label where
  | always
  | term (token : String)
  | and (operands : List Label)
  | or (operands : List Label)
deriving Inhabited

/-- The two operators. -/
inductive Operator where
  | and
  | or
deriving DecidableEq, Repr

/-- The character that an operator is written as. -/
def Operator.symbol : Operator → Char
  | .and => '&'
  | .or => '|'

/-- The name of an operator in complaints. -/
def Operator.name : Operator → String
  | .and => "and"
  | .or => "or"

/-- Why a tree is refused by `Label.evaluate`. -/
inductive EvaluationError where
  | tooFewOperands (operator : Operator) (count : Nat)
  | emptyToken
deriving DecidableEq, Repr

def EvaluationError.message : EvaluationError → String
  | .tooFewOperands operator count =>
    s!"{operator.name} node requires at least two operands (got {count})"
  | .emptyToken => "term node carries an empty token"

namespace Label

/-- The chain of operands that an operator joins. -/
def chain : Operator → List Label → Label
  | .and, operands => and operands
  | .or, operands => or operands

/-- **Whether a caller satisfies a label.**  A chain of fewer than two operands is refused before
any of them is looked at; the operands are looked at in order, until one settles the answer. -/
def evaluate (held : Authorizations) : Label → Except EvaluationError Bool
  | always => .ok true
  | term token => if token = "" then .error .emptyToken else .ok (held.holds token)
  | and operands =>
    if operands.length < 2 then .error (.tooFewOperands .and operands.length)
    else all held operands
  | or operands =>
    if operands.length < 2 then .error (.tooFewOperands .or operands.length)
    else any held operands
where
  all (held : Authorizations) : List Label → Except EvaluationError Bool
    | [] => .ok true
    | label :: labels =>
      match label.evaluate held with
      | .ok true => all held labels
      | verdict => verdict
  any (held : Authorizations) : List Label → Except EvaluationError Bool
    | [] => .ok false
    | label :: labels =>
      match label.evaluate held with
      | .ok false => any held labels
      | verdict => verdict

/-- The tokens of a label from left to right, with repetitions. -/
def leaves : Label → List String
  | always => []
  | term token => [token]
  | and operands => ofAll operands
  | or operands => ofAll operands
where
  ofAll : List Label → List String
    | [] => []
    | label :: labels => label.leaves ++ ofAll labels

/-- The tokens that a label mentions: the set of its `leaves`. -/
def tokens (label : Label) : Std.ExtTreeSet String :=
  Std.ExtTreeSet.ofList label.leaves

/-- Decides whether two labels are the same tree. -/
def decEq : (a b : Label) → Decidable (a = b)
  | always, always => isTrue rfl
  | term s, term t => if h : s = t then isTrue (h ▸ rfl) else isFalse (by simp [h])
  | and as, and bs =>
    match decEqAll as bs with
    | isTrue h => isTrue (h ▸ rfl)
    | isFalse h => isFalse (by simp [h])
  | or as, or bs =>
    match decEqAll as bs with
    | isTrue h => isTrue (h ▸ rfl)
    | isFalse h => isFalse (by simp [h])
  | always, term _ | always, and _ | always, or _ | term _, always | term _, and _ | term _, or _
  | and _, always | and _, term _ | and _, or _ | or _, always | or _, term _ | or _, and _ =>
    isFalse (by simp)
where
  decEqAll : (as bs : List Label) → Decidable (as = bs)
    | [], [] => isTrue rfl
    | a :: as, b :: bs =>
      match decEq a b, decEqAll as bs with
      | isTrue h, isTrue hs => isTrue (h ▸ hs ▸ rfl)
      | isFalse h, _ => isFalse (by simp [h])
      | _, isFalse h => isFalse (by simp [h])
    | [], _ :: _ => isFalse (by simp)
    | _ :: _, [] => isFalse (by simp)

instance : DecidableEq Label := decEq

/-! ### The written form of a token -/

/-- The characters that need no quotes: ASCII letters and digits, and the marks `_-:./`. -/
def isBare (c : Char) : Bool :=
  c.isAlphanum || c == '_' || c == '-' || c == ':' || c == '.' || c == '/'

/-- A character inside quotes: a backslash goes in front of a quote and of a backslash. -/
def escape (c : Char) : List Char :=
  if c = '"' ∨ c = '\\' then ['\\', c] else [c]

/-- The written form of a token: bare where all its characters are `isBare`, else quoted. -/
def quote (token : List Char) : List Char :=
  if token ≠ [] ∧ token.all isBare then token
  else '"' :: token.flatMap escape ++ ['"']

/-! ### The canonical text -/

/-- The label is a chain of operands. -/
def isChain : Label → Bool
  | and _ | or _ => true
  | always | term _ => false

/-- **The characters of the canonical text.** -/
def render : Label → List Char
  | always => []
  | term token => quote token.toList
  | and operands => joined '&' operands
  | or operands => joined '|' operands
where
  joined (symbol : Char) : List Label → List Char
    | [] => []
    | [label] => enclosed label.isChain label.render
    | label :: labels => enclosed label.isChain label.render ++ symbol :: joined symbol labels
  enclosed (chained : Bool) (text : List Char) : List Char :=
    if chained then '(' :: text ++ [')'] else text

/-- The canonical text of a label, made of the characters of `render`. -/
def toText (label : Label) : String :=
  String.ofList label.render

end Label

end GraphLog
