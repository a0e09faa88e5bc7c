/-
**What it means that parentheses are unbalanced.**

The machine complains of unbalanced parentheses behind a complete operand: if a group is open there,
and neither an operator nor the end of the group comes next, or if no group is open and one is
closed.  At the end of the text the parenthesis that is complained of has indeed no counterpart, and
neither has one that closes nothing.  But if a group is open and some other character comes next,
then the machine does not read on, and the parenthesis that closes the group may well follow.  Of a
complaint one of two things is therefore true: the parenthesis has no counterpart, or it has one,
and between them an expression is followed by a stray character.  Outside of groups such a character
is complained of as what it is.

That an expression stands behind the parenthesis is read off the machine in the direction of the
text: what was read of each open level is the head of an expression, whatever its next operand is.

Main definitions:

* `GraphLog.Label.Unmatched` — **a parenthesis has no counterpart**;
* `GraphLog.Label.Stray` — a stray character stands in a group that is closed;
* `GraphLog.Label.Heads` — what was read of a level is the head of an expression;
* `GraphLog.Label.State.HasRead` — **what the machine has read**.

Main results:

* `GraphLog.Label.hasRead_of_moves`, `GraphLog.Label.Visits.hasRead` — what was read of the open
  levels, over a step and over a run;
* `GraphLog.Label.parse_unbalancedParens` — **complaints about parentheses**;
* `GraphLog.Label.not_unmatched_of_stray` — balanced parentheses that are said to be unbalanced.
-/

import GraphLog.Proofs.Label.Parser
import GraphLog.Proofs.Label.Complaints

set_option relaxedAutoImplicit false
set_option autoImplicit false

namespace GraphLog.Label

open String (utf8Len)

/-! ### Parentheses and their counterparts -/

/-- The group that starts in front of the text is closed in it, by a parenthesis that stands on the
`level` of the group. -/
def IsClosed (back : List Char) : Prop :=
  ∃ inside rest, back = inside ++ ')' :: rest ∧ Place.level.after inside = some .level

/-- The group that ends behind the text was opened in it. -/
def IsOpened (front : List Char) : Prop :=
  ∃ before inside, front = before ++ '(' :: inside ∧ quotingAfter before = .outside ∧
    Place.level.after inside = some .level

/-- **A parenthesis without counterpart** stands at this position, outside of quotes. -/
def Unmatched (text : List Char) (position : Nat) : Prop :=
  ∃ front back, position = utf8Len front ∧ quotingAfter front = .outside ∧
    (text = front ++ '(' :: back ∧ ¬IsClosed back ∨ text = front ++ ')' :: back ∧ ¬IsOpened front)

/-- **A stray character in a closed group**: behind the parenthesis at this position stands an
expression, and behind the expression a character that neither continues it nor closes the group. -/
def Stray (text : List Char) (position : Nat) : Prop :=
  ∃ front back nesting tree c rest, position = utf8Len front ∧ quotingAfter front = .outside ∧
    text = front ++ '(' :: back ∧ IsClosed back ∧ nesting < maxNesting ∧
    Derives nesting (.expression tree) back (c :: rest) ∧ operator? c = none ∧ c ≠ ')'

/-- A position cuts a text in one way only, since `utf8Len` grows with each character. -/
theorem append_inj_of_utf8Len {front front' back back' : List Char}
    (same : front ++ back = front' ++ back') (length : utf8Len front = utf8Len front') :
    front = front' ∧ back = back' := by
  induction front generalizing front' with
  | nil =>
      cases front' with
      | nil => exact ⟨rfl, same⟩
      | cons c front' =>
          have size := c.utf8Size_pos
          rw [String.utf8Len_nil, String.utf8Len_cons] at length
          omega
  | cons c front ih =>
      cases front' with
      | nil =>
          have size := c.utf8Size_pos
          rw [String.utf8Len_nil, String.utf8Len_cons] at length
          omega
      | cons d front' =>
          obtain ⟨rfl, behind⟩ := List.cons.inj same
          rw [String.utf8Len_cons, String.utf8Len_cons] at length
          obtain ⟨rfl, rfl⟩ := ih behind (by omega)
          exact ⟨rfl, rfl⟩

/-- The parenthesis in front of a closed group has a counterpart, so it is not `Unmatched`. -/
theorem Stray.not_unmatched {text : List Char} {position : Nat} (stray : Stray text position) :
    ¬Unmatched text position := by
  obtain ⟨front, back, _, _, _, _, rfl, -, rfl, closed, -⟩ := stray
  rintro ⟨front', back', length, -, ⟨split, notClosed⟩ | ⟨split, -⟩⟩
  · obtain ⟨-, same⟩ := append_inj_of_utf8Len split length
    obtain ⟨-, rfl⟩ := List.cons.inj same
    exact notClosed closed
  · obtain ⟨-, same⟩ := append_inj_of_utf8Len split length
    exact absurd (List.cons.inj same).1 (by decide)

/-- So many levels deeper the same happens. -/
theorem Place.next_deeper {p place : Place} {c : Char} (k : Nat) (next : p.next c = some place) :
    Place.next ⟨p.quoting, p.depth + k⟩ c = some ⟨place.quoting, place.depth + k⟩ := by
  unfold Place.next at next ⊢
  split at next
  · next opens =>
      obtain rfl := Option.some_inj.1 next
      rw [if_pos opens, Nat.add_right_comm]
  · next opens =>
      rw [if_neg opens]
      split at next
      · next closes =>
          rw [if_pos closes]
          obtain ⟨quoting, depth⟩ := p
          cases depth with
          | zero => cases next
          | succ depth =>
              obtain rfl := Option.some_inj.1 next
              rw [Nat.add_right_comm]
      · next closes =>
          obtain rfl := Option.some_inj.1 next
          rw [if_neg closes]

theorem Place.after_deeper {p place : Place} {text : List Char} (k : Nat)
    (after : p.after text = some place) :
    Place.after ⟨p.quoting, p.depth + k⟩ text = some ⟨place.quoting, place.depth + k⟩ := by
  induction text generalizing p with
  | nil =>
      obtain rfl := Option.some_inj.1 after
      rfl
  | cons c text ih =>
      obtain ⟨between, next, after⟩ := Option.bind_eq_some_iff.1 after
      exact Option.bind_eq_some_iff.2 ⟨_, Place.next_deeper k next, ih after⟩

/-- A text that ends on the `level` where it starts does not close the group in front of it. -/
theorem not_isClosed_of_level {inside : List Char}
    (level : Place.level.after inside = some .level) : ¬IsClosed inside := by
  rintro ⟨front, rest, rfl, balanced⟩
  rw [Place.after_append, balanced] at level
  cases level

/-- Nor was the group behind it opened in it. -/
theorem not_isOpened_of_level {front : List Char}
    (level : Place.level.after front = some .level) : ¬IsOpened front := by
  rintro ⟨before, inside, rfl, outside, balanced⟩
  rw [Place.after_append] at level
  obtain ⟨⟨quoting, depth⟩, reached, after⟩ := Option.bind_eq_some_iff.1 level
  obtain rfl : quoting = .outside := (Place.quoting_of_after reached).trans outside
  -- The parenthesis leads one level deeper, and the text behind it stays there.
  have deeper : Place.after ⟨.outside, 0 + (depth + 1)⟩ inside = some ⟨.outside, 0 + (depth + 1)⟩ :=
    Place.after_deeper (depth + 1) balanced
  rw [Nat.zero_add] at deeper
  cases deeper.symm.trans after

/-! ### What was read of a level -/

/-- The head of an expression stands between `level` and `here`: together with an operand and what
`Continues` it, an expression. -/
def Heads (nesting : Nat) (before : Pending) (level here : List Char) : Prop :=
  ∀ operand middle rest tree, Derives nesting (.operand operand) here middle →
    Continues nesting before operand middle rest tree →
    Derives nesting (.expression tree) level rest

theorem Heads.start {nesting : Nat} {level : List Char} : Heads nesting .nothing level level :=
  fun _ _ _ _ derives continues => derives_expression_iff.2 ⟨_, _, derives, continues⟩

/-- One more operand belongs to the head. -/
theorem Heads.next {nesting : Nat} {before : Pending} {operator : Operator} {operand : Label}
    {level here rest : List Char} (heads : Heads nesting before level here)
    (allowed : before.Allows operator)
    (derives : Derives nesting (.operand operand) here (operator.symbol :: rest)) :
    Heads nesting (.joined operator (operand :: before.earlier)) level rest :=
  fun _ _ _ _ following continues =>
    heads _ _ _ _ derives (Continues.next allowed following continues)

/-- With its last operand a head is an expression. -/
theorem Heads.close {nesting : Nat} {before : Pending} {operand : Label}
    {level here rest : List Char} (heads : Heads nesting before level here)
    (derives : Derives nesting (.operand operand) here rest) :
    Derives nesting (.expression (before.close operand)) level rest :=
  heads _ _ _ _ derives .stop

/-- Where the open groups stand in the text, innermost first, if the innermost level starts at
`level`: each behind one of the `Heads` of an expression. -/
def Groups (text : List Char) : List (Nat × Pending) → List Char → Prop
  | [], level => level = text
  | (start, above) :: outer, level =>
    ∃ front around, text = front ++ '(' :: level ∧ start = utf8Len front ∧
      quotingAfter front = .outside ∧
      Heads (maxNesting - outer.length) above around ('(' :: level) ∧ Groups text outer around

/-- What was read of the operand that starts at `here`. -/
def Phase.HasRead (nesting : Nat) (here rest : List Char) : Phase → Prop
  | .awaiting => here = rest
  | .word letters =>
    letters ≠ [] ∧ (∀ c ∈ letters, isBare c) ∧ here = letters.reverse ++ rest
  | .quoted _ letters => here = '"' :: letters.reverse.flatMap escape ++ rest
  | .escaped _ _ letters => here = '"' :: letters.reverse.flatMap escape ++ '\\' :: rest
  | .complete operand => Derives nesting (.operand operand) here rest

/-- **What the machine has read**: groups, each behind the head of an expression, behind the
innermost a head as well, and a part of the operand behind that. -/
structure State.HasRead (s : State) (text rest : List Char) : Prop where
  bounded : s.outer.length ≤ maxNesting
  parts : ∃ level here, Groups text s.outer level ∧
    Heads (maxNesting - s.outer.length) s.before level here ∧
    s.phase.HasRead (maxNesting - s.outer.length) here rest

/-- At a character that cannot be part of it, a bare token is an operand. -/
theorem State.HasRead.leave {outer : List (Nat × Pending)} {before : Pending}
    {text letters rest : List Char} (read : State.HasRead ⟨outer, before, .word letters⟩ text rest)
    (ends : StartsNoWord rest) :
    State.HasRead ⟨outer, before, .complete (token letters)⟩ text rest := by
  obtain ⟨bounded, level, _, groups, heads, nonempty, bare, rfl⟩ := read
  refine ⟨bounded, level, _, groups, heads, ?_⟩
  exact .word (by simpa using nonempty) (by simpa using bare) ends

/-- **What was read of the open levels, over a step**: if the machine `Moves`, it still `HasRead`
them. -/
theorem hasRead_of_moves {s s' : State} {c : Char} {front rest : List Char}
    (moves : Moves s (utf8Len front) c s') (outside : quotingAfter front = s.phase.quoting)
    (read : s.HasRead (front ++ c :: rest) (c :: rest)) : s'.HasRead (front ++ c :: rest) rest := by
  have bounded := moves.length_outer_le read.bounded
  generalize at' : utf8Len front = position at moves
  induction moves with
  | @group outer before _ free =>
      obtain ⟨-, around, _, groups, heads, rfl⟩ := read
      refine ⟨bounded, rest, rest, ?_, .start, rfl⟩
      exact ⟨front, around, rfl, at'.symm, outside, heads, groups⟩
  | quote =>
      obtain ⟨-, level, _, groups, heads, rfl⟩ := read
      exact ⟨bounded, level, _, groups, heads, rfl⟩
  | word bare =>
      obtain ⟨-, level, _, groups, heads, rfl⟩ := read
      exact ⟨bounded, level, _, groups, heads, by simp, by simpa using bare, rfl⟩
  | letter bare =>
      obtain ⟨-, level, _, groups, heads, -, all, rfl⟩ := read
      exact ⟨bounded, level, _, groups, heads, by simp, List.forall_mem_cons.2 ⟨bare, all⟩, by simp⟩
  | leave other behind ih =>
      refine ih outside (read.leave ?_) bounded at'
      rintro _ _ ⟨⟩
      exact other
  | plain noQuote noSlash =>
      obtain ⟨-, level, _, groups, heads, rfl⟩ := read
      exact ⟨bounded, level, _, groups, heads, by simp [Phase.HasRead, escape, noQuote, noSlash]⟩
  | slash =>
      obtain ⟨-, level, _, groups, heads, rfl⟩ := read
      exact ⟨bounded, level, _, groups, heads, rfl⟩
  | escaped mark =>
      obtain ⟨-, level, _, groups, heads, rfl⟩ := read
      exact ⟨bounded, level, _, groups, heads, by simp [Phase.HasRead, escape, mark]⟩
  | unquote nonempty =>
      obtain ⟨-, level, _, groups, heads, rfl⟩ := read
      exact ⟨bounded, level, _, groups, heads, .quoted (by simpa using nonempty)⟩
  | operator allowed =>
      obtain ⟨-, level, _, groups, heads, derives⟩ := read
      exact ⟨bounded, level, rest, groups, heads.next allowed derives, rfl⟩
  | @close outer before above _ start operand =>
      obtain ⟨full, level, here, ⟨front', around, -, -, -, heads', groups⟩, heads, derives⟩ := read
      refine ⟨bounded, around, _, groups, heads', ?_⟩
      -- One more group may be open around the closed one than inside it.
      have nesting : maxNesting - outer.length = maxNesting - (outer.length + 1) + 1 := by
        have full : outer.length + 1 ≤ maxNesting := full
        omega
      show Derives (maxNesting - outer.length) _ _ _
      rw [nesting]
      exact .group (heads.close derives)

/-- What was read of the open levels, over a run. -/
theorem Visits.hasRead {text rest : List Char} {s : State} {position : Nat}
    (visits : Visits text s position rest) : s.HasRead text rest := by
  induction visits with
  | start => exact ⟨Nat.zero_le _, text, text, rfl, .start, rfl⟩
  | next visits moves ih =>
      obtain ⟨front, rfl, rfl, quoting⟩ := visits.exists_front
      exact hasRead_of_moves moves quoting ih

/-! ### Complaints about parentheses -/

/-- What the machine saw when it complains of unbalanced parentheses: one that is `Unmatched`, or a
character that is `Stray`. -/
theorem unmatched_or_stray_of_stops {s : State} {position : Nat} {front rest : List Char}
    {e : ParseError} (stops : Stops s position rest e) (fault : e.fault = .unbalancedParens)
    (length : position = utf8Len front) (traced : s.Traced front)
    (read : s.HasRead (front ++ rest) rest) :
    Unmatched (front ++ rest) e.position ∨ Stray (front ++ rest) e.position := by
  induction stops with
  | @unclosed outer before above _ start operand rest noEnd =>
      cases rest with
      | nil =>
          obtain ⟨around, inside, rfl, rfl, outside, level⟩ := traced.opened 0 start above rfl
          refine .inl ⟨around, inside, rfl, outside, .inl ⟨by simp, ?_⟩⟩
          exact not_isClosed_of_level level
      | cons c rest =>
          obtain ⟨full, level, here, ⟨around, _, split, rfl, outside, -, -⟩, heads, derives⟩ := read
          by_cases closed : IsClosed level
          · refine .inr ⟨around, level, _, _, c, rest, rfl, outside, split, closed, ?_,
              heads.close derives, noEnd c rest rfl⟩
            have full : outer.length + 1 ≤ maxNesting := full
            show maxNesting - (outer.length + 1) < maxNesting
            omega
          · exact .inl ⟨around, level, rfl, outside, .inl ⟨split, closed⟩⟩
  | @unopened _ _ _ rest =>
      subst length
      have outside : quotingAfter front = .outside := (Place.quoting_of_after traced.place).symm
      exact .inl ⟨front, rest, rfl, outside, .inr ⟨rfl, not_isOpened_of_level traced.place⟩⟩
  | leave ends _ ih => exact ih fault length traced.leave (read.leave ends)
  | _ => cases fault

/-- Behind an expression in a group, anything but an operator and the end of the group makes the
machine complain of the parenthesis in front of the group. -/
theorem run_of_strayed {outer : List (Nat × Pending)} {before above : Pending} {operand : Label}
    {start : Nat} {rest : List Char} (position : Nat) (noEnd : StartsNoEnd rest) :
    run ⟨(start, above) :: outer, before, .complete operand⟩ position rest =
      .error ⟨start, .unbalancedParens⟩ := by
  cases rest with
  | nil => rfl
  | cons c rest =>
      obtain ⟨noOperator, noClose⟩ := noEnd c rest rfl
      simp only [run, step, follow, noOperator, if_neg noClose]

/-- **Complaints about parentheses.**  If a text is said to have unbalanced parentheses, then the
parenthesis at the given position has no counterpart, unless a stray character stands in its group.
And of a group at the start of the text in which an expression is followed by neither an operator
nor the end of the group, just this is always said, be the group closed further on or not. -/
theorem parse_unbalancedParens (text : String) :
    (∀ position, parse text = .error ⟨position, .unbalancedParens⟩ →
      (Unmatched text.toList position ↔ ¬Stray text.toList position)) ∧
    ∀ back tree rest, text.toList = '(' :: back →
      Derives (maxNesting - 1) (.expression tree) back rest → StartsNoEnd rest →
      parse text = .error ⟨0, .unbalancedParens⟩ := by
  constructor
  · intro position fails
    obtain ⟨s, here, rest, visits, stops⟩ := exists_visits_of_parse fails
    obtain ⟨front, split, length, traced, -⟩ := visits.traced
    have read := visits.hasRead
    rw [split] at read ⊢
    have seen := unmatched_or_stray_of_stops stops rfl length traced read
    exact ⟨fun unmatched stray => stray.not_unmatched unmatched, seen.resolve_right⟩
  · intro back tree rest group derives noEnd
    have free : ([] : List (Nat × Pending)).length ≠ maxNesting := by decide
    obtain ⟨before, operand, position, -, reads⟩ :=
      derives.runs [(0, .nothing)] (0 + '('.utf8Size) (by decide)
    have whole : run .initial 0 text.toList = .error ⟨0, .unbalancedParens⟩ := by
      rw [group]
      exact ((Moves.group free).run_cons back).trans (reads.trans (run_of_strayed position noEnd))
    unfold parse
    split
    · next empty =>
        rw [empty] at group
        cases group
    · exact whole

/-- Balanced parentheses that are said to be unbalanced.  The stray character is the space. -/
theorem not_unmatched_of_stray :
    parse "(a b)" = .error ⟨0, .unbalancedParens⟩ ∧
      Place.level.after "(a b)".toList = some .level ∧ ¬Unmatched "(a b)".toList 0 := by
  refine ⟨by rfl, by decide, Stray.not_unmatched ?_⟩
  have closed : IsClosed ['a', ' ', 'b', ')'] := ⟨['a', ' ', 'b'], [], rfl, by decide⟩
  have ends : StartsNoWord [' ', 'b', ')'] := by
    rintro _ _ ⟨⟩
    decide
  have operand : Derives 63 (.operand (.term (String.ofList ['a'])))
      (['a'] ++ [' ', 'b', ')']) [' ', 'b', ')'] :=
    .word (by decide) (List.forall_mem_singleton.2 rfl) ends
  have nesting : 63 < maxNesting := Nat.lt_succ_self 63
  exact ⟨[], _, 63, _, ' ', _, rfl, rfl, rfl, closed, nesting, .single operand, rfl, by decide⟩

end GraphLog.Label
