/-
**The grammar of labels.**

The parser reads a label in one pass and keeps a stack; what a label is can be said without either.
An expression is one operand, or several with the same operator between them; an operand is an
expression in parentheses or a token, bare or quoted.  A phrase stands at the front of a text, so
the grammar says of two texts that the first is a phrase followed by the second.  How deep
parentheses may nest is an index of the grammar and goes down by one inside a group; what stands
beside a group has no part in it.

Main definitions:

* `GraphLog.Label.Phrase` — expressions, operands, and operands behind an operator;
* `GraphLog.Label.Derives` — **the grammar**;
* `GraphLog.Label.Continues` — how a level goes on behind an operand.

Main results:

* `GraphLog.Label.derives_expression_iff` — an expression is an operand and what continues it;
* `GraphLog.Label.Continues.next` — one more operand on a level.
-/

import GraphLog.Label.Parser

set_option relaxedAutoImplicit false
set_option autoImplicit false

namespace GraphLog.Label

/-! ### Phrases -/

/-- What a part of a text may be. -/
inductive Phrase where
  | expression (tree : Label)
  | operand (tree : Label)
  | operands (operator : Operator) (trees : List Label)

/-- The text does not start with a character of a bare token, one that `isBare`. -/
def StartsNoWord (text : List Char) : Prop :=
  ∀ c rest, text = c :: rest → isBare c = false

/-- **The grammar**: `Derives nesting phrase text rest` says that `text` is such a phrase followed
by `rest`, with at most `nesting` parentheses open at a time.

```text
expression := operand ('&' operand)+ | operand ('|' operand)+ | operand
operand    := '(' expression ')' | word | quoted
```

A word is as long as it can be, and inside quotes a backslash stands in front of each quote and
backslash and of nothing else. -/
inductive Derives : Nat → Phrase → List Char → List Char → Prop where
  -- a single operand is not wrapped
  | single {nesting : Nat} {t : Label} {text rest : List Char}
      (operand : Derives nesting (.operand t) text rest) :
      Derives nesting (.expression t) text rest
  | chain {nesting : Nat} {operator : Operator} {t : Label} {ts : List Label}
      {text middle rest : List Char} (first : Derives nesting (.operand t) text middle)
      (others : Derives nesting (.operands operator ts) middle rest) :
      Derives nesting (.expression (Label.chain operator (t :: ts))) text rest
  | last {nesting : Nat} {operator : Operator} {t : Label} {text rest : List Char}
      (operand : Derives nesting (.operand t) text rest) :
      Derives nesting (.operands operator [t]) (operator.symbol :: text) rest
  | more {nesting : Nat} {operator : Operator} {t : Label} {ts : List Label}
      {text middle rest : List Char} (operand : Derives nesting (.operand t) text middle)
      (others : Derives nesting (.operands operator ts) middle rest) :
      Derives nesting (.operands operator (t :: ts)) (operator.symbol :: text) rest
  -- a group is the expression inside
  | group {nesting : Nat} {t : Label} {text rest : List Char}
      (inside : Derives nesting (.expression t) text (')' :: rest)) :
      Derives (nesting + 1) (.operand t) ('(' :: text) rest
  -- a bare token, up to the first character that cannot be part of it
  | word {nesting : Nat} {letters rest : List Char} (nonempty : letters ≠ [])
      (bare : ∀ c ∈ letters, isBare c) (ends : StartsNoWord rest) :
      Derives nesting (.operand (.term (String.ofList letters))) (letters ++ rest) rest
  | quoted {nesting : Nat} {letters rest : List Char} (nonempty : letters ≠ []) :
      Derives nesting (.operand (.term (String.ofList letters)))
        ('"' :: letters.flatMap escape ++ '"' :: rest) rest

/-! ### Levels -/

namespace Pending

/-- The operator may stand behind the next operand. -/
def Allows (before : Pending) (operator : Operator) : Prop :=
  match before with
  | nothing => True
  | joined earlier _ => earlier = operator

/-- The operands in front, the last of them first, as a `Pending` keeps them. -/
def earlier : Pending → List Label
  | nothing => []
  | joined _ operands => operands

end Pending

/-- **How a level goes on behind an operand**: it ends, or further operands follow behind an
operator that the level `Allows`.  The tree is that of the whole level. -/
def Continues (nesting : Nat) (before : Pending) (operand : Label) (text rest : List Char)
    (tree : Label) : Prop :=
  text = rest ∧ tree = before.close operand ∨
    ∃ operator others, before.Allows operator ∧
      Derives nesting (.operands operator others) text rest ∧
      tree = Label.chain operator (before.earlier.reverse ++ operand :: others)

section

variable {nesting : Nat} {before : Pending} {operand following tree : Label}
  {text middle rest : List Char}

theorem Continues.stop : Continues nesting before operand text text (before.close operand) :=
  .inl ⟨rfl, rfl⟩

/-- One more operand.  What continues the next operand continues this one. -/
theorem Continues.next {operator : Operator} (allowed : before.Allows operator)
    (derives : Derives nesting (.operand following) text middle)
    (continues : Continues nesting (.joined operator (operand :: before.earlier)) following middle
      rest tree) :
    Continues nesting before operand (operator.symbol :: text) rest tree := by
  rcases continues with ⟨rfl, rfl⟩ | ⟨same, others, rfl, behind, rfl⟩
  · refine .inr ⟨operator, [following], allowed, .last derives, ?_⟩
    simp [Pending.close]
  · refine .inr ⟨operator, following :: others, allowed, .more derives behind, ?_⟩
    simp [Pending.earlier]

theorem derives_expression_iff :
    Derives nesting (.expression tree) text rest ↔
      ∃ t middle, Derives nesting (.operand t) text middle ∧
        Continues nesting .nothing t middle rest tree := by
  constructor
  · intro h
    cases h with
    | single operand => exact ⟨_, _, operand, .stop⟩
    | chain first others => exact ⟨_, _, first, .inr ⟨_, _, trivial, others, rfl⟩⟩
  · intro h
    obtain ⟨t, middle, first, ⟨rfl, rfl⟩ | ⟨operator, others, -, behind, rfl⟩⟩ := h
    · exact .single first
    · exact .chain first behind

end

end GraphLog.Label
