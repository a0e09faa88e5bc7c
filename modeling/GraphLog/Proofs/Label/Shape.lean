/-
**The shape of the trees that texts stand for.**

There are trees that no text stands for: a chain of fewer than two operands, a token without
letters, a missing condition inside a chain.  What is read from a text is none of these, and it is
no deeper than parentheses may nest.  The grammar shows this, phrase by phrase: inside each group
one level fewer is left.

Main definitions:

* `GraphLog.Label.Proper` — **the trees of conditions**;
* `GraphLog.Label.levels` — how deep operators are nested in a tree;
* `GraphLog.Label.Phrase.IsShallow` — what the grammar says about the shape of a phrase.

Main results:

* `GraphLog.Label.Derives.isShallow` — what is derived has this shape;
* `GraphLog.Label.proper_of_parse` — **what is read from a text is a condition** of limited depth.
-/

import GraphLog.Proofs.Label.Parser

set_option relaxedAutoImplicit false
set_option autoImplicit false

namespace GraphLog.Label

/-! ### Shapes -/

/-- **The trees of conditions**: tokens have letters, chains have two operands or more, and nothing
inside is without a condition. -/
inductive Proper : Label → Prop where
  | term {token : String} (nonempty : token ≠ "") : Proper (.term token)
  | and {operands : List Label} (several : 2 ≤ operands.length)
      (each : ∀ t ∈ operands, Proper t) : Proper (.and operands)
  | or {operands : List Label} (several : 2 ≤ operands.length)
      (each : ∀ t ∈ operands, Proper t) : Proper (.or operands)

/-- How deep operators are nested in a tree. -/
def levels : Label → Nat
  | always | term _ => 0
  | and operands | or operands => deepest operands + 1
where
  deepest : List Label → Nat
    | [] => 0
    | label :: labels => max label.levels (deepest labels)

theorem deepest_le_iff {operands : List Label} {n : Nat} :
    levels.deepest operands ≤ n ↔ ∀ t ∈ operands, t.levels ≤ n := by
  induction operands with
  | nil => simp [levels.deepest]
  | cons t ts ih => rw [levels.deepest, Nat.max_le, ih, List.forall_mem_cons]

theorem Proper.chain {operands : List Label} (operator : Operator) (several : 2 ≤ operands.length)
    (each : ∀ t ∈ operands, Proper t) : Proper (Label.chain operator operands) := by
  cases operator with
  | and => exact .and several each
  | or => exact .or several each

@[simp] theorem levels_chain (operator : Operator) (operands : List Label) :
    (Label.chain operator operands).levels = levels.deepest operands + 1 := by
  cases operator <;> simp [Label.chain, levels]

/-! ### The shape of what is derived -/

/-- The shape of a phrase inside which at most `nesting` parentheses are open at a time: an operand
has that many `levels`, and a level of operands is one more. -/
def Phrase.IsShallow (nesting : Nat) : Phrase → Prop
  | .expression tree => tree.Proper ∧ tree.levels ≤ nesting + 1
  | .operand tree => tree.Proper ∧ tree.levels ≤ nesting
  | .operands _ trees => trees ≠ [] ∧ ∀ t ∈ trees, t.Proper ∧ t.levels ≤ nesting

theorem proper_ofList {letters : List Char} (nonempty : letters ≠ []) :
    Proper (.term (String.ofList letters)) := by
  refine .term fun empty => nonempty ?_
  simpa using empty

/-- **What is derived has this shape**: what `Derives` gives is `Proper` and no deeper than its
parentheses. -/
theorem Derives.isShallow {nesting : Nat} {phrase : Phrase} {text rest : List Char}
    (derives : Derives nesting phrase text rest) : phrase.IsShallow nesting := by
  induction derives with
  | single _ ih =>
      obtain ⟨proper, shallow⟩ := ih
      exact ⟨proper, Nat.le_succ_of_le shallow⟩
  | @chain nesting operator t ts _ _ _ _ _ first others =>
      obtain ⟨nonempty, others⟩ := others
      have each : ∀ u ∈ t :: ts, u.Proper ∧ u.levels ≤ nesting :=
        List.forall_mem_cons.2 ⟨first, others⟩
      have several : 2 ≤ (t :: ts).length := by
        have := List.length_pos_iff.2 nonempty
        simp only [List.length_cons]
        omega
      refine ⟨.chain operator several fun u mem => (each u mem).1, ?_⟩
      rw [levels_chain]
      exact Nat.succ_le_succ (deepest_le_iff.2 fun u mem => (each u mem).2)
  | last _ ih => exact ⟨by simp, List.forall_mem_singleton.2 ih⟩
  | more _ _ ih others => exact ⟨by simp, List.forall_mem_cons.2 ⟨ih, others.2⟩⟩
  | group _ ih => exact ih
  | word nonempty => exact ⟨proper_ofList nonempty, Nat.zero_le _⟩
  | quoted nonempty => exact ⟨proper_ofList nonempty, Nat.zero_le _⟩

/-! ### The shape of what is read -/

/-- What `parse` reads from a text without letters is no condition, and any other text is derived
with what is read from it. -/
theorem derives_of_parse {text : String} {tree : Label} (read : parse text = .ok tree) :
    text = "" ∧ tree = .always ∨ Derives maxNesting (.expression tree) text.toList [] := by
  unfold parse at read
  split at read
  · next empty => exact .inl ⟨empty, (Except.ok.inj read).symm⟩
  · obtain ⟨operand, rest, derives, closes⟩ := demands_of_run (Nat.zero_le _) read
    exact .inr (derives_expression_iff.2 ⟨operand, rest, derives, closes⟩)

/-- What is read from a text is a condition, unless the text is empty, and has at most one level
more than parentheses may nest. -/
theorem proper_of_parse {text : String} {tree : Label} (read : parse text = .ok tree)
    (nonempty : text ≠ "") : tree.Proper ∧ tree.levels ≤ maxNesting + 1 := by
  rcases derives_of_parse read with ⟨empty, -⟩ | derives
  · exact absurd empty nonempty
  · exact derives.isShallow

end GraphLog.Label
