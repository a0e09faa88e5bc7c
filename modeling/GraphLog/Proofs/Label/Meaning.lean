/-
**What a label means, and that evaluating it finds this out.**

A label without negation is true or false once it is known which tokens are true.  The evaluation
of a label goes from left to right, stops as soon as it can, and may refuse a tree; what the label
means is said here without any of this.  The two are the same for every tree that is read from a
text, so whether a caller satisfies a visibility is always decided.  Since there is no negation,
a caller who holds more tokens satisfies whatever a caller with fewer of them does.

Main definitions:

* `GraphLog.Label.Satisfied` — **what a label means**;
* `GraphLog.Label.Settled` — evaluating a label gives what it means;
* `held ⊆ more` for callers — each token of the one is a token of the other.

Main results:

* `GraphLog.Label.Satisfied.mono` — only the tokens of a label matter, and more of them do no harm;
* `GraphLog.Label.Proper.settled` — **evaluating a condition never fails**;
* `GraphLog.Authorizations.sees_iff`, `GraphLog.Authorizations.sees_of_subset` — what this means for
  visibilities;
* `GraphLog.Label.meaning_of_parse` — **the trees that texts stand for, and their meaning**.
-/

import GraphLog.Label.Visibility
import GraphLog.Proofs.Label.Shape

set_option relaxedAutoImplicit false
set_option autoImplicit false

namespace GraphLog

/-- Whoever holds more tokens holds each of these. -/
instance : HasSubset Authorizations :=
  ⟨fun held more => ∀ token, held.holds token → more.holds token⟩

namespace Label

/-! ### What a label means -/

/-- **What a label means** once it is known which tokens hold. -/
inductive Satisfied (holds : String → Prop) : Label → Prop where
  | always : Satisfied holds .always
  | term {token : String} (h : holds token) : Satisfied holds (.term token)
  | and {operands : List Label} (each : ∀ t ∈ operands, Satisfied holds t) :
      Satisfied holds (.and operands)
  | or {operands : List Label} {t : Label} (mem : t ∈ operands) (h : Satisfied holds t) :
      Satisfied holds (.or operands)

section

variable {holds : String → Prop} {operands : List Label}

theorem satisfied_term_iff {token : String} : (term token).Satisfied holds ↔ holds token := by
  constructor
  · rintro ⟨⟩
    assumption
  · exact .term

theorem satisfied_and_iff :
    (and operands).Satisfied holds ↔ ∀ t ∈ operands, t.Satisfied holds := by
  constructor
  · rintro ⟨⟩
    assumption
  · exact .and

theorem satisfied_or_iff :
    (or operands).Satisfied holds ↔ ∃ t ∈ operands, t.Satisfied holds := by
  constructor
  · rintro ⟨⟩
    exact ⟨_, by assumption, by assumption⟩
  · intro h
    obtain ⟨t, mem, h⟩ := h
    exact .or mem h

end

theorem mem_ofAll_iff {token : String} {operands : List Label} :
    token ∈ leaves.ofAll operands ↔ ∃ t ∈ operands, token ∈ t.leaves := by
  induction operands with
  | nil => simp [leaves.ofAll]
  | cons t ts ih => simp [leaves.ofAll, ih]

theorem mem_tokens_iff {token : String} {t : Label} : token ∈ t.tokens ↔ token ∈ t.leaves := by
  rw [tokens, Std.ExtTreeSet.mem_ofList, List.contains_iff_mem]

/-- Only the `leaves` of a label matter, and more of them do no harm. -/
theorem Satisfied.mono {holds holds' : String → Prop} {t : Label} (satisfied : t.Satisfied holds)
    (more : ∀ token ∈ t.leaves, holds token → holds' token) : t.Satisfied holds' := by
  induction satisfied with
  | always => exact .always
  | @term token h => exact .term (more token (by simp [leaves]) h)
  | and _ ih =>
      refine .and fun t mem => ih t mem fun token leaf => more token ?_
      exact mem_ofAll_iff.2 ⟨t, mem, leaf⟩
  | @or _ t mem _ ih =>
      refine .or mem (ih fun token leaf => more token ?_)
      exact mem_ofAll_iff.2 ⟨t, mem, leaf⟩

/-! ### Evaluation -/

/-- **Evaluating a label gives what it means** for a caller: `evaluate` decides whether it is
`Satisfied`. -/
def Settled (held : Authorizations) (t : Label) : Prop :=
  ∃ verdict, t.evaluate held = .ok verdict ∧ (verdict ↔ t.Satisfied fun token => held.holds token)

section

variable {held : Authorizations} {operands : List Label}

/-- Operands that all have to hold are settled up to the first that does not: `evaluate.all` looks
no further. -/
theorem exists_evaluate_all (each : ∀ t ∈ operands, t.Settled held) :
    ∃ verdict, evaluate.all held operands = .ok verdict ∧
      (verdict ↔ ∀ t ∈ operands, t.Satisfied fun token => held.holds token) := by
  induction operands with
  | nil => exact ⟨true, rfl, by simp⟩
  | cons t ts ih =>
      obtain ⟨⟨verdict, evaluates, means⟩, each⟩ := List.forall_mem_cons.1 each
      rw [evaluate.all, evaluates]
      cases verdict with
      | false =>
          have fails : ¬t.Satisfied fun token => held.holds token :=
            fun h => by simpa using means.2 h
          exact ⟨false, rfl, by simp [fails]⟩
      | true =>
          obtain ⟨rest, evaluates', means'⟩ := ih each
          have passes : t.Satisfied fun token => held.holds token := means.1 rfl
          exact ⟨rest, evaluates', by simp [means', passes]⟩

/-- Operands of which one has to hold are settled up to the first that does: `evaluate.any` looks no
further. -/
theorem exists_evaluate_any (each : ∀ t ∈ operands, t.Settled held) :
    ∃ verdict, evaluate.any held operands = .ok verdict ∧
      (verdict ↔ ∃ t ∈ operands, t.Satisfied fun token => held.holds token) := by
  induction operands with
  | nil => exact ⟨false, rfl, by simp⟩
  | cons t ts ih =>
      obtain ⟨⟨verdict, evaluates, means⟩, each⟩ := List.forall_mem_cons.1 each
      rw [evaluate.any, evaluates]
      cases verdict with
      | false =>
          obtain ⟨rest, evaluates', means'⟩ := ih each
          have fails : ¬t.Satisfied fun token => held.holds token :=
            fun h => by simpa using means.2 h
          exact ⟨rest, evaluates', by simp [means', fails]⟩
      | true =>
          have passes : t.Satisfied fun token => held.holds token := means.1 rfl
          exact ⟨true, rfl, by simp [passes]⟩

/-- **Evaluating a condition never fails**, and gives what it means: what is `Proper` is
`Settled`. -/
theorem Proper.settled {t : Label} (proper : t.Proper) : t.Settled held := by
  induction proper with
  | @term token nonempty =>
      refine ⟨held.holds token, if_neg nonempty, ?_⟩
      rw [satisfied_term_iff]
  | and several _ ih =>
      obtain ⟨verdict, evaluates, means⟩ := exists_evaluate_all ih
      refine ⟨verdict, ?_, means.trans satisfied_and_iff.symm⟩
      rw [evaluate, if_neg (Nat.not_lt.2 several), evaluates]
  | or several _ ih =>
      obtain ⟨verdict, evaluates, means⟩ := exists_evaluate_any ih
      refine ⟨verdict, ?_, means.trans satisfied_or_iff.symm⟩
      rw [evaluate, if_neg (Nat.not_lt.2 several), evaluates]

theorem settled_always : always.Settled held :=
  ⟨true, by rw [evaluate], by simpa using Satisfied.always⟩

theorem settled_of_parse (held : Authorizations) {text : String} {tree : Label}
    (read : parse text = .ok tree) : tree.Settled held := by
  rcases derives_of_parse read with ⟨-, rfl⟩ | derives
  · exact settled_always
  · exact derives.isShallow.1.settled

/-- A label that is settled holds exactly if it evaluates to that. -/
theorem Settled.evaluate_eq_ok_true_iff {t : Label} (settled : t.Settled held) :
    t.evaluate held = .ok true ↔ t.Satisfied fun token => held.holds token := by
  obtain ⟨verdict, evaluates, means⟩ := settled
  rw [← means, evaluates, Except.ok.injEq]

end

end Label

/-! ### Visibilities -/

namespace Authorizations

/-- Whether a caller satisfies a visibility is always decided, and `sees` is the decision. -/
theorem evaluate_label (held : Authorizations) (v : Visibility) :
    v.label.evaluate held = .ok (held.sees v) := by
  obtain ⟨verdict, evaluates, -⟩ := Label.settled_of_parse held v.parse_text
  rw [sees, evaluates]

theorem sees_iff (held : Authorizations) (v : Visibility) :
    held.sees v ↔ v.label.Satisfied fun token => held.holds token := by
  rw [← (Label.settled_of_parse held v.parse_text).evaluate_eq_ok_true_iff, evaluate_label,
    Except.ok.injEq]

/-- Whoever holds more tokens sees whatever a caller with fewer of them sees. -/
theorem sees_of_subset {held more : Authorizations} (subset : held ⊆ more) {v : Visibility}
    (seen : held.sees v) : more.sees v := by
  rw [sees_iff] at seen ⊢
  exact seen.mono fun token _ => subset token

end Authorizations

namespace Label

/-- **The trees that texts stand for, and their meaning.**  Only the empty text is no condition; any
other is a condition with at most one level of operators more than parentheses may nest.  Evaluating
it never fails and gives what it means, for which only the tokens count that it mentions; holding
more of them does no harm.  So a caller satisfies a visibility or does not. -/
theorem meaning_of_parse (text : String) (tree : Label) (read : parse text = .ok tree) :
    (tree = .always ↔ text = "") ∧
      (text ≠ "" → tree.Proper ∧ tree.levels ≤ maxNesting + 1) ∧
      (∀ held : Authorizations, ∃ verdict, tree.evaluate held = .ok verdict ∧
        (verdict ↔ tree.Satisfied fun token => held.holds token)) ∧
      (∀ held other : Authorizations,
        (∀ token ∈ tree.tokens, held.holds token = other.holds token) →
          tree.evaluate held = tree.evaluate other) ∧
      (∀ held more : Authorizations, held ⊆ more → tree.evaluate held = .ok true →
        tree.evaluate more = .ok true) ∧
      ∀ (v : Visibility) (held : Authorizations),
        parse v.text = .ok v.label ∧ v.label.evaluate held = .ok (held.sees v) := by
  have settled (held : Authorizations) : tree.Settled held := settled_of_parse held read
  refine ⟨⟨?_, ?_⟩, proper_of_parse read, settled, ?_, ?_, ?_⟩
  · rintro rfl
    rcases derives_of_parse read with ⟨empty, -⟩ | derives
    · exact empty
    · cases derives.isShallow.1
  · rintro rfl
    exact (Except.ok.inj read).symm
  · intro held other alike
    obtain ⟨verdict, evaluates, means⟩ := settled held
    obtain ⟨verdict', evaluates', means'⟩ := settled other
    have same : verdict = verdict' := by
      rw [Bool.eq_iff_iff, means, means']
      constructor
      · intro h
        exact h.mono fun token leaf holds => alike token (mem_tokens_iff.2 leaf) ▸ holds
      · intro h
        exact h.mono fun token leaf holds => (alike token (mem_tokens_iff.2 leaf)).symm ▸ holds
    rw [evaluates, evaluates', same]
  · intro held more subset holds
    rw [(settled held).evaluate_eq_ok_true_iff] at holds
    rw [(settled more).evaluate_eq_ok_true_iff]
    exact holds.mono fun token _ => subset token
  · intro v held
    exact ⟨v.parse_text, held.evaluate_label v⟩

/-- A group and a quoted token inside a chain. -/
theorem meaning_of_parse_of_group :
    let text := "(b|\"c d\")&a"
    let tree : Label := .and [.or [.term "b", .term "c d"], .term "a"]
    parse text = .ok tree ∧
      (tree = .always ↔ text = "") ∧
      (text ≠ "" → tree.Proper ∧ tree.levels ≤ maxNesting + 1) ∧
      (∀ held : Authorizations, ∃ verdict, tree.evaluate held = .ok verdict ∧
        (verdict ↔ tree.Satisfied fun token => held.holds token)) ∧
      (∀ held other : Authorizations,
        (∀ token ∈ tree.tokens, held.holds token = other.holds token) →
          tree.evaluate held = tree.evaluate other) ∧
      (∀ held more : Authorizations, held ⊆ more → tree.evaluate held = .ok true →
        tree.evaluate more = .ok true) ∧
      ∀ (v : Visibility) (held : Authorizations),
        parse v.text = .ok v.label ∧ v.label.evaluate held = .ok (held.sees v) := by
  intro text tree
  have read : parse text = .ok tree := by
    unfold text tree
    rfl
  exact ⟨read, meaning_of_parse text tree read⟩

end Label

end GraphLog
