/-
**What a character can do to the machine that reads labels.**

The machine decides by nested cases what a character means.  Here all that it can do is listed once:
each way on is a constructor, with the conditions under which it is open.  Facts about reading
labels are then proved by going through this list, and the cases of the machine are not opened
again.

Main definitions:

* `GraphLog.Label.Moves` — **the ways on**;
* `GraphLog.Label.Reaches` — ways on, one after the other.

Main results:

* `GraphLog.Label.step_eq_ok_iff` — the machine goes on in just these ways;
* `GraphLog.Label.run_cons_eq_ok_iff`, `GraphLog.Label.reaches_of_run` — a run that gives a label
  follows them.
-/

import Mathlib.Logic.Basic
import GraphLog.Proofs.Label.Grammar

set_option relaxedAutoImplicit false
set_option autoImplicit false

namespace GraphLog.Label

/-! ### One character -/

theorem operator?_eq_some_iff {c : Char} {operator : Operator} :
    operator? c = some operator ↔ c = operator.symbol := by
  constructor
  · intro h
    unfold operator? at h
    split at h
    · next same =>
        obtain rfl := Option.some_inj.1 h
        exact same
    · split at h
      · next same =>
          obtain rfl := Option.some_inj.1 h
          exact same
      · cases h
  · rintro rfl
    cases operator <;> rfl

/-- The characters that have a part of their own in labels are not those of bare tokens. -/
theorem isBare_mark {c : Char} (h : c ∈ ['(', ')', '&', '|', '"']) : isBare c = false := by
  simp only [List.mem_cons, List.not_mem_nil, or_false] at h
  rcases h with rfl | rfl | rfl | rfl | rfl <;> rfl

theorem ne_of_isBare {c d : Char} (bare : isBare c) (mark : d ∈ ['(', ')', '&', '|', '"']) :
    c ≠ d := by
  rintro rfl
  rw [isBare_mark mark] at bare
  cases bare

section Characters

variable {s s' : State} {operand : Label} {position : Nat} {c : Char}

/-- Where an operand is due, a group, a quoted token or a bare one may `begin`. -/
theorem begin_eq_ok_iff :
    begin s position c = .ok s' ↔
      c = '(' ∧ s.outer.length ≠ maxNesting ∧
          s' = ⟨(position, s.before) :: s.outer, .nothing, .awaiting⟩ ∨
        c = '"' ∧ s' = { s with phase := .quoted position [] } ∨
        isBare c ∧ s' = { s with phase := .word [c] } := by
  unfold begin
  by_cases opens : c = '('
  · have bare : isBare '(' = false := isBare_mark (by decide)
    by_cases full : s.outer.length = maxNesting
    · simp [opens, full, bare]
    · simp [opens, full, bare, eq_comm]
  · by_cases mark : c = ')' ∨ c = '&' ∨ c = '|'
    · have bare : isBare c = false := isBare_mark (by rcases mark with rfl | rfl | rfl <;> decide)
      have quote : c ≠ '"' := by
        rintro rfl
        simp at mark
      simp [opens, mark, bare, quote]
    · by_cases quote : c = '"'
      · have bare : isBare '"' = false := isBare_mark (by decide)
        simp [quote, bare, eq_comm]
      · by_cases bare : isBare c
        · simp [opens, mark, quote, bare, eq_comm]
        · simp [opens, mark, quote, bare]

theorem extend_eq_ok_iff {operator : Operator} :
    extend s operand position operator = .ok s' ↔
      s.before.Allows operator ∧
        s' = ⟨s.outer, .joined operator (operand :: s.before.earlier), .awaiting⟩ := by
  unfold extend Pending.Allows Pending.earlier
  cases s.before with
  | nothing => simp [eq_comm]
  | joined earlierOperator earlier =>
      by_cases same : earlierOperator = operator
      · simp [same, eq_comm]
      · simp [same]

/-- Behind an operand, an operator or the end of the group may `follow`. -/
theorem follow_eq_ok_iff :
    follow s operand position c = .ok s' ↔
      (∃ operator, c = operator.symbol ∧ extend s operand position operator = .ok s') ∨
        c = ')' ∧ ∃ start before outer, s.outer = (start, before) :: outer ∧
          s' = ⟨outer, before, .complete (s.before.close operand)⟩ := by
  unfold follow
  cases found : operator? c with
  | some operator =>
      have same := operator?_eq_some_iff.1 found
      have open' : c ≠ ')' := by
        rintro rfl
        cases operator <;> exact absurd same (by decide)
      constructor
      · intro h
        exact .inl ⟨operator, same, h⟩
      · rintro (⟨operator', same', h⟩ | ⟨closes, -⟩)
        · rw [operator?_eq_some_iff.2 same'] at found
          obtain rfl := Option.some_inj.1 found
          exact h
        · exact absurd closes open'
  | none =>
      constructor
      · intro h
        refine .inr ?_
        cases groups : s.outer with
        | nil =>
            rw [groups] at h
            by_cases closes : c = ')'
            · simp [closes] at h
            · by_cases starts : startsOperand c
              · simp [closes, starts] at h
              · simp [closes, starts] at h
        | cons group outer =>
            rw [groups] at h
            by_cases closes : c = ')'
            · simp only [if_pos closes, Except.ok.injEq] at h
              exact ⟨closes, _, _, _, rfl, h.symm⟩
            · simp [closes] at h
      · rintro (⟨operator, same, -⟩ | ⟨closes, start, before, outer, groups, rfl⟩)
        · rw [operator?_eq_some_iff.2 same] at found
          cases found
        · rw [groups]
          exact if_pos closes

end Characters

/-! ### The ways on -/

/-- **What a character can do to the machine.** -/
inductive Moves : State → Nat → Char → State → Prop where
  | group {outer : List (Nat × Pending)} {before : Pending} {position : Nat}
      (free : outer.length ≠ maxNesting) :
      Moves ⟨outer, before, .awaiting⟩ position '('
        ⟨(position, before) :: outer, .nothing, .awaiting⟩
  | quote {outer : List (Nat × Pending)} {before : Pending} {position : Nat} :
      Moves ⟨outer, before, .awaiting⟩ position '"' ⟨outer, before, .quoted position []⟩
  | word {outer : List (Nat × Pending)} {before : Pending} {position : Nat} {c : Char}
      (bare : isBare c) : Moves ⟨outer, before, .awaiting⟩ position c ⟨outer, before, .word [c]⟩
  | letter {outer : List (Nat × Pending)} {before : Pending} {position : Nat} {c : Char}
      {letters : List Char} (bare : isBare c) :
      Moves ⟨outer, before, .word letters⟩ position c ⟨outer, before, .word (c :: letters)⟩
  -- a bare token has ended, and the character does what it does behind an operand
  | leave {outer : List (Nat × Pending)} {before : Pending} {position : Nat} {c : Char}
      {letters : List Char} {s : State} (other : isBare c = false)
      (behind : Moves ⟨outer, before, .complete (token letters)⟩ position c s) :
      Moves ⟨outer, before, .word letters⟩ position c s
  | plain {outer : List (Nat × Pending)} {before : Pending} {position start : Nat} {c : Char}
      {letters : List Char} (noQuote : c ≠ '"') (noSlash : c ≠ '\\') :
      Moves ⟨outer, before, .quoted start letters⟩ position c
        ⟨outer, before, .quoted start (c :: letters)⟩
  | slash {outer : List (Nat × Pending)} {before : Pending} {position start : Nat}
      {letters : List Char} :
      Moves ⟨outer, before, .quoted start letters⟩ position '\\'
        ⟨outer, before, .escaped start position letters⟩
  | escaped {outer : List (Nat × Pending)} {before : Pending} {position start slash : Nat}
      {c : Char} {letters : List Char} (mark : c = '"' ∨ c = '\\') :
      Moves ⟨outer, before, .escaped start slash letters⟩ position c
        ⟨outer, before, .quoted start (c :: letters)⟩
  | unquote {outer : List (Nat × Pending)} {before : Pending} {position start : Nat}
      {letters : List Char} (nonempty : letters ≠ []) :
      Moves ⟨outer, before, .quoted start letters⟩ position '"'
        ⟨outer, before, .complete (token letters)⟩
  | operator {outer : List (Nat × Pending)} {before : Pending} {position : Nat} {operand : Label}
      {operator : Operator} (allowed : before.Allows operator) :
      Moves ⟨outer, before, .complete operand⟩ position operator.symbol
        ⟨outer, .joined operator (operand :: before.earlier), .awaiting⟩
  | close {outer : List (Nat × Pending)} {before above : Pending} {position start : Nat}
      {operand : Label} :
      Moves ⟨(start, above) :: outer, before, .complete operand⟩ position ')'
        ⟨outer, above, .complete (before.close operand)⟩

theorem moves_of_follow {outer : List (Nat × Pending)} {before : Pending} {operand : Label}
    {position : Nat} {c : Char} {phase : Phase} {s' : State}
    (h : follow ⟨outer, before, phase⟩ operand position c = .ok s') :
    Moves ⟨outer, before, .complete operand⟩ position c s' := by
  rcases follow_eq_ok_iff.1 h with
    ⟨operator, rfl, extended⟩ | ⟨rfl, start, above, outer, rfl, rfl⟩
  · obtain ⟨allowed, rfl⟩ := extend_eq_ok_iff.1 extended
    exact .operator allowed
  · exact .close

/-- **The machine goes on in just these ways.** -/
theorem step_eq_ok_iff {s s' : State} {position : Nat} {c : Char} :
    step s position c = .ok s' ↔ Moves s position c s' := by
  constructor
  · intro h
    obtain ⟨outer, before, phase⟩ := s
    cases phase with
    | awaiting =>
        rcases begin_eq_ok_iff.1 h with ⟨rfl, free, rfl⟩ | ⟨rfl, rfl⟩ | ⟨bare, rfl⟩
        · exact .group free
        · exact .quote
        · exact .word bare
    | word letters =>
        by_cases bare : isBare c
        · obtain rfl := Except.ok.inj ((if_pos bare).symm.trans h)
          exact .letter bare
        · have behind := moves_of_follow ((if_neg bare).symm.trans h)
          exact .leave (eq_false_of_ne_true bare) behind
    | quoted start letters =>
        by_cases quote : c = '"'
        · by_cases none : letters = []
          · simp [step, quote, none] at h
          · simp only [step, if_pos quote, if_neg none, Except.ok.injEq] at h
            obtain rfl := h
            obtain rfl := quote
            exact .unquote none
        · by_cases slash : c = '\\'
          · simp only [step, if_neg quote, if_pos slash, Except.ok.injEq] at h
            obtain rfl := h
            obtain rfl := slash
            exact .slash
          · simp only [step, if_neg quote, if_neg slash, Except.ok.injEq] at h
            obtain rfl := h
            exact .plain quote slash
    | escaped start slash letters =>
        by_cases mark : c = '"' ∨ c = '\\'
        · simp only [step, if_pos mark, Except.ok.injEq] at h
          obtain rfl := h
          exact .escaped mark
        · simp [step, mark] at h
    | complete operand => exact moves_of_follow h
  · intro h
    induction h with
    | group free => exact begin_eq_ok_iff.2 (.inl ⟨rfl, free, rfl⟩)
    | quote => exact begin_eq_ok_iff.2 (.inr (.inl ⟨rfl, rfl⟩))
    | word bare => exact begin_eq_ok_iff.2 (.inr (.inr ⟨bare, rfl⟩))
    | letter bare => exact if_pos bare
    | leave other behind ih =>
        refine (if_neg ?_).trans ih
        rw [other]
        exact Bool.false_ne_true
    | plain noQuote noSlash => simp [step, noQuote, noSlash]
    | slash => simp [step]
    | escaped mark => exact if_pos mark
    | unquote nonempty => simp [step, nonempty]
    | operator allowed =>
        exact follow_eq_ok_iff.2 (.inl ⟨_, rfl, extend_eq_ok_iff.2 ⟨allowed, rfl⟩⟩)
    | @close outer before above position start operand =>
        show follow ⟨(start, above) :: outer, before, _⟩ operand position ')' = _
        exact follow_eq_ok_iff.2 (.inr ⟨rfl, start, above, outer, rfl, rfl⟩)

/-- A `run` starts with a way on. -/
theorem Moves.run_cons {s s' : State} {position : Nat} {c : Char} (moves : Moves s position c s')
    (text : List Char) : run s position (c :: text) = run s' (position + c.utf8Size) text := by
  simp only [run, step_eq_ok_iff.2 moves]

/-- A run that gives a label starts with a way on, and goes on to give it. -/
theorem run_cons_eq_ok_iff {s : State} {position : Nat} {c : Char} {text : List Char}
    {result : Label} :
    run s position (c :: text) = .ok result ↔
      ∃ s', Moves s position c s' ∧ run s' (position + c.utf8Size) text = .ok result := by
  constructor
  · intro h
    cases stepped : step s position c with
    | error e => simp [run, stepped] at h
    | ok s' =>
        have moves := step_eq_ok_iff.1 stepped
        rw [moves.run_cons] at h
        exact ⟨s', moves, h⟩
  · intro h
    obtain ⟨s', moves, h⟩ := h
    rw [moves.run_cons, h]

/-- The machine comes from a state to another over a text, where it `Moves` over each character. -/
inductive Reaches : State → List Char → State → Prop where
  | nil {s : State} : Reaches s [] s
  | cons {s next last : State} {position : Nat} {c : Char} {text : List Char}
      (moves : Moves s position c next) (reaches : Reaches next text last) :
      Reaches s (c :: text) last

/-- A run that gives a label gets to every place of the text. -/
theorem reaches_of_run {front rest : List Char} {s : State} {position : Nat} {result : Label}
    (read : run s position (front ++ rest) = .ok result) :
    ∃ s' position', Reaches s front s' ∧ run s' position' rest = .ok result := by
  induction front generalizing s position with
  | nil => exact ⟨s, position, .nil, read⟩
  | cons c front ih =>
      obtain ⟨next, moves, read⟩ := run_cons_eq_ok_iff.1 read
      obtain ⟨s', position', reaches, read⟩ := ih read
      exact ⟨s', position', .cons moves reaches, read⟩

end GraphLog.Label
