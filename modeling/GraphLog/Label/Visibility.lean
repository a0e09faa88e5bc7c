/-
**Visibilities: texts that are known to be labels, and the verdicts on them.**

Records carry the text of a label and not its tree, because texts are what is compared: a hide is
lifted by a label of the same spelling and by no other.  A visibility is a text together with the
proof that it parses, so whether a caller sees it can be decided without a failure.

A fold asks about the same few labels for many records.  A cache remembers the verdict on each text
for one caller; the label without a condition is not worth remembering, and a cache that is switched
off remembers nothing.

Main definitions:

* `GraphLog.Visibility` — a text that parses;
* `GraphLog.Visibility.ofText` — the check;
* `GraphLog.Visibility.label` — the tree;
* `GraphLog.Authorizations.sees` — whether a caller satisfies a visibility;
* `GraphLog.VerdictCache` — the caller and the verdicts so far;
* `GraphLog.VerdictCache.judge` — **the verdict on a label, and the cache after it**.
-/

import Std.Data.ExtTreeMap
import GraphLog.Label.Parser

set_option relaxedAutoImplicit false
set_option autoImplicit false

namespace GraphLog

/-! ### Texts that parse -/

/-- **A text that is known to be a label.** -/
structure Visibility where
  text : String
  parses : (Label.parse text).isOk
deriving DecidableEq

namespace Visibility

def unrestricted : Visibility :=
  ⟨"", rfl⟩

instance : Inhabited Visibility := ⟨unrestricted⟩

/-- Checks that a text is one that `Label.parse` takes. -/
def ofText (text : String) : Except Label.ParseError Visibility :=
  match h : Label.parse text with
  | .ok _ => .ok ⟨text, by simp [h, Except.isOk, Except.toBool]⟩
  | .error e => .error e

def isUnrestricted (v : Visibility) : Bool :=
  v.text == ""

def label (v : Visibility) : Label :=
  match h : Label.parse v.text with
  | .ok label => label
  | .error _ => absurd v.parses (by simp [h, Except.isOk, Except.toBool])

@[simp]
theorem isUnrestricted_unrestricted : unrestricted.isUnrestricted = true := rfl

theorem parse_text (v : Visibility) : Label.parse v.text = .ok v.label := by
  have parses := v.parses
  unfold label
  split
  · assumption
  · next h => simp [h, Except.isOk, Except.toBool] at parses

theorem ofText_text (v : Visibility) : ofText v.text = .ok v := by
  unfold ofText
  split
  · rfl
  · next h => simp [parse_text] at h

theorem text_of_ofText {text : String} {v : Visibility} (h : ofText text = .ok v) :
    v.text = text := by
  unfold ofText at h
  split at h
  · cases h
    rfl
  · cases h

end Visibility

/-- Whether a caller satisfies a visibility.  The tree of a visibility comes from a text, so
`Label.evaluate` does not fail on it. -/
def Authorizations.sees (held : Authorizations) (v : Visibility) : Bool :=
  match v.label.evaluate held with
  | .ok verdict => verdict
  | .error _ => false

/-! ### Verdicts that are remembered -/

/-- **The verdicts on labels so far, for one caller.** -/
structure VerdictCache where
  held : Authorizations
  remembers : Bool
  verdicts : Std.ExtTreeMap String Bool

namespace VerdictCache

/-- The cache of a caller about whom nothing was asked so far. -/
def new (held : Authorizations) (remembers : Bool) : VerdictCache :=
  ⟨held, remembers, ∅⟩

/-- The number of texts with a verdict. -/
def size (cache : VerdictCache) : Nat :=
  cache.verdicts.size

def note (cache : VerdictCache) (v : Visibility) (verdict : Bool) : VerdictCache :=
  if cache.remembers then { cache with verdicts := cache.verdicts.insert v.text verdict }
  else cache

/-- What the cache remembers about a text. -/
def remembered? (cache : VerdictCache) (v : Visibility) : Option Bool :=
  if cache.remembers then cache.verdicts[v.text]? else none

/-- **The verdict on a label, and the cache after it.** -/
def judge (v : Visibility) (cache : VerdictCache) : Bool × VerdictCache :=
  if v.isUnrestricted then (true, cache)
  else
    match cache.remembered? v with
    | some verdict => (verdict, cache)
    | none => (cache.held.sees v, cache.note v (cache.held.sees v))

end VerdictCache

/-- A computation that asks a `VerdictCache` for verdicts. -/
abbrev Judged := StateM VerdictCache

/-- `VerdictCache.judge` as a step of a computation. -/
def Visibility.judged (v : Visibility) : Judged Bool :=
  VerdictCache.judge v

end GraphLog
