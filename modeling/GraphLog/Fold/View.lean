/-
**Views: who looks at a log, from when, and by which rules.**

Main definitions:

* `GraphLog.TieBreak` — which of two records at the same time wins;
* `GraphLog.HideAudience` — whom a hide is for;
* `GraphLog.FoldOptions` — the rules of a fold;
* `GraphLog.View` — the rules, the caller and the horizon.
-/

import GraphLog.Label.Visibility

set_option relaxedAutoImplicit false
set_option autoImplicit false

namespace GraphLog

/-- **Which of two records wins that take effect at the same time.** -/
inductive TieBreak where
  | lastArrival
  | firstArrival
deriving DecidableEq, Repr, Inhabited

namespace TieBreak

def name : TieBreak → String
  | lastArrival => "last_arrival_wins"
  | firstArrival => "first_arrival_wins"

def all : List TieBreak :=
  [lastArrival, firstArrival]

def ofName? (name : String) : Option TieBreak :=
  all.find? (·.name == name)

end TieBreak

/-- Whom a hide is for: those who satisfy its label, or the others. -/
inductive HideAudience where
  | nonHolders
  | holders
deriving DecidableEq, Repr, Inhabited

namespace HideAudience

def name : HideAudience → String
  | nonHolders => "non_holders"
  | holders => "holders"

def all : List HideAudience :=
  [nonHolders, holders]

def ofName? (name : String) : Option HideAudience :=
  all.find? (·.name == name)

/-- A hide applies to a caller, given whether the caller satisfies its label. -/
def applies : HideAudience → (satisfied : Bool) → Bool
  | nonHolders, satisfied => !satisfied
  | holders, satisfied => satisfied

end HideAudience

/-- **The rules of a fold.** -/
structure FoldOptions where
  tieBreak : TieBreak := .lastArrival
  hideAudience : HideAudience := .nonHolders
  -- hidden properties and edges stay in the state, marked as such
  includeHidden : Bool := false
  memoizeLabels : Bool := true
deriving DecidableEq, Repr, Inhabited

/-- The result of a `Judged` computation on behalf of a caller, from a fresh cache. -/
def FoldOptions.judge {α : Type} (options : FoldOptions) (held : Authorizations)
    (computation : Judged α) : α :=
  (computation.run (.new held options.memoizeLabels)).1

/-- **Who looks at a log, from when, and by which rules.** -/
structure View where
  options : FoldOptions
  held : Authorizations
  -- the last moment that counts; without it every moment does
  asOf : Option Int64

namespace View

/-- The result of a computation that asks for verdicts on behalf of the caller, as in
`FoldOptions.judge`. -/
def judge {α : Type} (v : View) (computation : Judged α) : α :=
  v.options.judge v.held computation

/-- A moment lies behind the horizon. -/
def isBeyond (v : View) (time : Int64) : Bool :=
  match v.asOf with
  | some horizon => horizon < time
  | none => false

end View

end GraphLog
