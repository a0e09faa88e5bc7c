/-
**Where the machine that reads labels stops.**

A text that is no label stops the machine, at one of its characters or at its end.  As the ways on
are listed, the ways in which it stops are listed here: for each state, what may follow that leaves
it no way on, and what it then complains about.  Every complaint about a text is one of these, made
in a state to which the machine has come by the text in front; and wherever it stands, it has read
just the part of the text that is as long as its position says.

Main definitions:

* `GraphLog.Label.Stops` — **how the machine stops**;
* `GraphLog.Label.Visits` — where the machine gets to over a text.

Main results:

* `GraphLog.Label.stops_of_step`, `GraphLog.Label.stops_of_finish` — the machine stops in no other
  way;
* `GraphLog.Label.Visits.exists_front` — the position is the length of what was read;
* `GraphLog.Label.exists_visits_of_parse` — **every complaint comes from a visit**.
-/

import Mathlib.Data.String.Basic
import GraphLog.Proofs.Label.Levels

set_option relaxedAutoImplicit false
set_option autoImplicit false

namespace GraphLog.Label

open String (utf8Len)

/-! ### How the machine stops -/

/-- Neither an operator nor the end of a group comes next. -/
def StartsNoEnd (text : List Char) : Prop :=
  ∀ c rest, text = c :: rest → operator? c = none ∧ c ≠ ')'

/-- **How the machine stops** in front of a text, with a complaint. -/
inductive Stops : State → Nat → List Char → ParseError → Prop where
  -- an operand is due
  | tooDeep {outer : List (Nat × Pending)} {before : Pending} {position : Nat} {rest : List Char}
      (full : outer.length = maxNesting) :
      Stops ⟨outer, before, .awaiting⟩ position ('(' :: rest) ⟨position, .tooDeep⟩
  | nothing {outer : List (Nat × Pending)} {before : Pending} {position : Nat} {text : List Char}
      (ends : ∀ c rest, text = c :: rest → c = ')' ∨ c = '&' ∨ c = '|') :
      Stops ⟨outer, before, .awaiting⟩ position text ⟨position, .emptyTerm⟩
  | foreign {outer : List (Nat × Pending)} {before : Pending} {position : Nat} {c : Char}
      {rest : List Char} (noStart : startsOperand c = false)
      (noEnd : operator? c = none ∧ c ≠ ')') :
      Stops ⟨outer, before, .awaiting⟩ position (c :: rest) ⟨position, .invalidCharacter c⟩
  -- inside quotes
  | emptyToken {outer : List (Nat × Pending)} {before : Pending} {position start : Nat}
      {rest : List Char} :
      Stops ⟨outer, before, .quoted start []⟩ position ('"' :: rest) ⟨start, .emptyQuotedToken⟩
  | unquoted {outer : List (Nat × Pending)} {before : Pending} {position start : Nat}
      {letters : List Char} :
      Stops ⟨outer, before, .quoted start letters⟩ position [] ⟨start, .unterminatedQuote⟩
  | unescaped {outer : List (Nat × Pending)} {before : Pending} {position start slash : Nat}
      {letters : List Char} :
      Stops ⟨outer, before, .escaped start slash letters⟩ position [] ⟨start, .unterminatedQuote⟩
  | escape {outer : List (Nat × Pending)} {before : Pending} {position start slash : Nat}
      {letters rest : List Char} {c : Char} (noMark : ¬(c = '"' ∨ c = '\\')) :
      Stops ⟨outer, before, .escaped start slash letters⟩ position (c :: rest)
        ⟨slash, .invalidEscape⟩
  -- an operand has ended
  | mixed {outer : List (Nat × Pending)} {before : Pending} {position : Nat} {operand : Label}
      {operator : Operator} {rest : List Char} (forbidden : ¬before.Allows operator) :
      Stops ⟨outer, before, .complete operand⟩ position (operator.symbol :: rest)
        ⟨position, .mixedOperators⟩
  | unclosed {outer : List (Nat × Pending)} {before above : Pending} {position start : Nat}
      {operand : Label} {text : List Char} (noEnd : StartsNoEnd text) :
      Stops ⟨(start, above) :: outer, before, .complete operand⟩ position text
        ⟨start, .unbalancedParens⟩
  | unopened {before : Pending} {position : Nat} {operand : Label} {rest : List Char} :
      Stops ⟨[], before, .complete operand⟩ position (')' :: rest) ⟨position, .unbalancedParens⟩
  | trailing {before : Pending} {position : Nat} {operand : Label} {c : Char} {rest : List Char}
      (starts : startsOperand c) :
      Stops ⟨[], before, .complete operand⟩ position (c :: rest) ⟨position, .trailingInput⟩
  | stray {before : Pending} {position : Nat} {operand : Label} {c : Char} {rest : List Char}
      (noStart : startsOperand c = false) (noEnd : operator? c = none ∧ c ≠ ')') :
      Stops ⟨[], before, .complete operand⟩ position (c :: rest) ⟨position, .invalidCharacter c⟩
  -- a bare token has ended, and what comes next stops the machine as behind an operand
  | leave {outer : List (Nat × Pending)} {before : Pending} {position : Nat}
      {letters text : List Char} {e : ParseError} (ends : StartsNoWord text)
      (behind : Stops ⟨outer, before, .complete (token letters)⟩ position text e) :
      Stops ⟨outer, before, .word letters⟩ position text e

theorem startsOperand_eq_false_iff {c : Char} :
    startsOperand c = false ↔ c ≠ '(' ∧ c ≠ '"' ∧ isBare c = false := by
  simp [startsOperand, and_assoc]

theorem operator?_eq_none_iff {c : Char} : operator? c = none ↔ c ≠ '&' ∧ c ≠ '|' := by
  unfold operator?
  by_cases and : c = '&'
  · simp [and]
  · by_cases or : c = '|'
    · simp [or]
    · simp [and, or]

section Characters

variable {s : State} {operand : Label} {position : Nat} {c : Char} {rest : List Char}
  {e : ParseError}

/-- Where an operand is due, `begin` complains in these ways. -/
theorem stops_of_begin {outer : List (Nat × Pending)} {before : Pending} {phase : Phase}
    (h : begin ⟨outer, before, phase⟩ position c = .error e) :
    Stops ⟨outer, before, .awaiting⟩ position (c :: rest) e := by
  unfold begin at h
  split at h
  · next opens =>
      subst opens
      split at h
      · next full =>
          obtain rfl := Except.error.inj h
          exact .tooDeep full
      · cases h
  · next opens =>
      split at h
      · next ends =>
          obtain rfl := Except.error.inj h
          refine .nothing ?_
          rintro _ _ ⟨⟩
          exact ends
      · next ends =>
          obtain ⟨closes, noOperator⟩ := not_or.1 ends
          split at h
          · cases h
          · next quote =>
              split at h
              · cases h
              · next bare =>
                  obtain rfl := Except.error.inj h
                  exact .foreign
                    (startsOperand_eq_false_iff.2 ⟨opens, quote, eq_false_of_ne_true bare⟩)
                    ⟨operator?_eq_none_iff.2 (not_or.1 noOperator), closes⟩

/-- Behind an operand, `follow` complains in these ways. -/
theorem stops_of_follow {outer : List (Nat × Pending)} {before : Pending} {phase : Phase}
    (h : follow ⟨outer, before, phase⟩ operand position c = .error e) :
    Stops ⟨outer, before, .complete operand⟩ position (c :: rest) e := by
  unfold follow at h
  cases found : operator? c with
  | some operator =>
      rw [found] at h
      obtain rfl := operator?_eq_some_iff.1 found
      unfold extend at h
      cases before with
      | nothing => cases h
      | joined earlierOperator earlier =>
          by_cases same : earlierOperator = operator
          · simp [same] at h
          · simp only [if_neg same, Except.error.injEq] at h
            obtain rfl := h
            exact .mixed same
  | none =>
      rw [found] at h
      cases outer with
      | cons group outer =>
          by_cases closes : c = ')'
          · simp [closes] at h
          · simp only [if_neg closes, Except.error.injEq] at h
            obtain rfl := h
            refine .unclosed ?_
            rintro _ _ ⟨⟩
            exact ⟨found, closes⟩
      | nil =>
          by_cases closes : c = ')'
          · simp only [if_pos closes, Except.error.injEq] at h
            obtain rfl := h
            subst closes
            exact .unopened
          · cases starts : startsOperand c with
            | true =>
                simp only [if_neg closes, starts, if_true, Except.error.injEq] at h
                obtain rfl := h
                exact .trailing starts
            | false =>
                simp only [if_neg closes, starts, Bool.false_eq_true, if_false,
                  Except.error.injEq] at h
                obtain rfl := h
                exact .stray starts ⟨found, closes⟩

/-- **At a character the machine stops in no other way** than it `Stops`. -/
theorem stops_of_step (h : step s position c = .error e) : Stops s position (c :: rest) e := by
  obtain ⟨outer, before, phase⟩ := s
  cases phase with
  | awaiting => exact stops_of_begin h
  | word letters =>
      by_cases bare : isBare c
      · cases (if_pos bare).symm.trans h
      · refine .leave ?_ (stops_of_follow ((if_neg bare).symm.trans h))
        rintro _ _ ⟨⟩
        exact eq_false_of_ne_true bare
  | quoted start letters =>
      by_cases quote : c = '"'
      · by_cases none : letters = []
        · simp only [step, if_pos quote, if_pos none, Except.error.injEq] at h
          obtain rfl := h
          subst quote
          subst none
          exact .emptyToken
        · simp [step, quote, none] at h
      · by_cases slash : c = '\\'
        · simp [step, slash] at h
        · simp [step, quote, slash] at h
  | escaped start slash letters =>
      by_cases mark : c = '"' ∨ c = '\\'
      · simp [step, mark] at h
      · simp only [step, if_neg mark, Except.error.injEq] at h
        obtain rfl := h
        exact .escape mark
  | complete operand => exact stops_of_follow h

/-- At the end of the text the machine stops in no other way either. -/
theorem stops_of_finish (h : finish s position = .error e) : Stops s position [] e := by
  obtain ⟨outer, before, phase⟩ := s
  have open' {operand : Label} (h : closed ⟨outer, before, phase⟩ operand = .error e) :
      Stops ⟨outer, before, .complete operand⟩ position [] e := by
    cases outer with
    | nil => cases h
    | cons group outer =>
        obtain rfl := Except.error.inj h
        exact .unclosed nofun
  cases phase with
  | awaiting =>
      obtain rfl := Except.error.inj h
      exact .nothing nofun
  | word letters => exact .leave nofun (open' h)
  | quoted start letters =>
      obtain rfl := Except.error.inj h
      exact .unquoted
  | escaped start slash letters =>
      obtain rfl := Except.error.inj h
      exact .unescaped
  | complete operand => exact open' h

end Characters

/-! ### Where the machine gets to -/

/-- **Where the machine gets to over a text**: `Visits text s position rest` says that it comes to
the state `s` and to this position, with `rest` still to be read. -/
inductive Visits (text : List Char) : State → Nat → List Char → Prop where
  | start : Visits text .initial 0 text
  | next {s s' : State} {position : Nat} {c : Char} {rest : List Char}
      (visits : Visits text s position (c :: rest)) (moves : Moves s position c s') :
      Visits text s' (position + c.utf8Size) rest

/-- The position is the length of what was read, in bytes: its `utf8Len`. -/
theorem Visits.exists_front {text rest : List Char} {s : State} {position : Nat}
    (visits : Visits text s position rest) :
    ∃ front, text = front ++ rest ∧ position = utf8Len front ∧
      quotingAfter front = s.phase.quoting := by
  induction visits with
  | start => exact ⟨[], rfl, rfl, rfl⟩
  | @next s s' position c rest _ moves ih =>
      obtain ⟨front, rfl, rfl, quoting⟩ := ih
      refine ⟨front ++ [c], by simp, by simp, ?_⟩
      rw [moves.quoting, ← quoting, quotingAfter, List.foldl_append]
      rfl

/-- What stops a `run` stops it at a place that it visits. -/
theorem exists_visits_of_run {text rest : List Char} {s : State} {position : Nat} {e : ParseError}
    (visits : Visits text s position rest) (fails : run s position rest = .error e) :
    ∃ s' position' rest', Visits text s' position' rest' ∧ Stops s' position' rest' e := by
  induction rest generalizing s position with
  | nil => exact ⟨s, position, [], visits, stops_of_finish fails⟩
  | cons c rest ih =>
      cases stepped : step s position c with
      | error e' =>
          simp only [run, stepped, Except.error.injEq] at fails
          obtain rfl := fails
          exact ⟨s, position, c :: rest, visits, stops_of_step stepped⟩
      | ok s' =>
          have moves := step_eq_ok_iff.1 stepped
          rw [moves.run_cons] at fails
          exact ih (.next visits moves) fails

/-- **Every complaint comes from a visit**, at which the machine stops. -/
theorem exists_visits_of_parse {text : String} {e : ParseError} (fails : parse text = .error e) :
    ∃ s position rest, Visits text.toList s position rest ∧ Stops s position rest e := by
  unfold parse at fails
  split at fails
  · cases fails
  · exact exists_visits_of_run .start fails

end GraphLog.Label
