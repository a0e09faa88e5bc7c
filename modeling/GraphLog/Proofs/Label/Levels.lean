/-
**Which characters of a text are on one level.**

Parentheses can be counted without reading a label: only whether one is inside quotes has to be
kept in mind.  Two characters outside quotes are on one level if the parentheses between them
balance and none of them closes the level.  What is said here holds of every text, whether it is a
label or not: a text with both operators on one level is none.

Main definitions:

* `GraphLog.Label.Quoting` — inside or outside of quotes;
* `GraphLog.Label.Place` — whether one is inside quotes, and how many groups deep;
* `GraphLog.Label.MixesOperators` — **both operators stand on one level**.

Main results:

* `GraphLog.Label.Reaches.quoting` — the machine knows whether it is inside quotes;
* `GraphLog.Label.not_mixesOperators_of_run` — **what is read does not mix operators**.
-/

import GraphLog.Proofs.Label.Machine

set_option relaxedAutoImplicit false
set_option autoImplicit false

namespace GraphLog.Label

/-! ### Inside and outside of quotes -/

/-- Where one is with regard to quotes. -/
inductive Quoting where
  | outside
  | inside
  | escaped
deriving DecidableEq, Repr

/-- Where one is behind a character. -/
def Quoting.next (q : Quoting) (c : Char) : Quoting :=
  match q with
  | outside => if c = '"' then inside else outside
  | inside => if c = '"' then outside else if c = '\\' then escaped else inside
  | escaped => inside

/-- Where one is behind a text that starts outside of quotes. -/
def quotingAfter (text : List Char) : Quoting :=
  text.foldl Quoting.next .outside

/-- Where the machine is. -/
def Phase.quoting : Phase → Quoting
  | .quoted .. => .inside
  | .escaped .. => .escaped
  | .awaiting | .word _ | .complete _ => .outside

theorem Moves.quoting {s s' : State} {position : Nat} {c : Char} (moves : Moves s position c s') :
    s'.phase.quoting = s.phase.quoting.next c := by
  have other {c : Char} (bare : isBare c) : c ≠ '"' := ne_of_isBare bare (by decide)
  induction moves with
  | word bare => simp [Phase.quoting, Quoting.next, other bare]
  | letter bare => simp [Phase.quoting, Quoting.next, other bare]
  | leave _ _ ih => exact ih
  | plain noQuote noSlash => simp [Phase.quoting, Quoting.next, noQuote, noSlash]
  | @operator _ _ _ _ operator _ => cases operator <;> rfl
  | _ => rfl

/-- The machine knows whether it is inside quotes: its `phase` agrees with `quotingAfter` the
text. -/
theorem Reaches.quoting {s s' : State} {text : List Char} (reaches : Reaches s text s') :
    s'.phase.quoting = text.foldl Quoting.next s.phase.quoting := by
  induction reaches with
  | nil => rfl
  | cons moves _ ih => rw [ih, moves.quoting, List.foldl_cons]

/-! ### Levels -/

/-- Whether one is inside quotes, and how many groups deep. -/
structure Place where
  quoting : Quoting
  depth : Nat
deriving DecidableEq, Repr

namespace Place

/-- The `Place` outside of quotes, on the level where one started. -/
def level : Place :=
  ⟨.outside, 0⟩

/-- Where one is behind a character, unless it closes the level where one started. -/
def next (p : Place) (c : Char) : Option Place :=
  if p.quoting = .outside ∧ c = '(' then some ⟨.outside, p.depth + 1⟩
  else if p.quoting = .outside ∧ c = ')' then
    match p.depth with
    | 0 => none
    | depth + 1 => some ⟨.outside, depth⟩
  else some ⟨p.quoting.next c, p.depth⟩

/-- Where one is behind a text, by `next` for each character, unless it closes the level where one
started. -/
def after (p : Place) : List Char → Option Place
  | [] => some p
  | c :: text => (p.next c).bind (·.after text)

end Place

theorem Place.after_append (p : Place) (front back : List Char) :
    p.after (front ++ back) = (p.after front).bind (·.after back) := by
  induction front generalizing p with
  | nil => rfl
  | cons c front ih =>
      rw [List.cons_append, after, after]
      cases p.next c with
      | none => rfl
      | some place => exact ih place

/-- **Both operators stand on one level of the text**, at any depth and outside of quotes. -/
def MixesOperators (text : List Char) : Prop :=
  ∃ front middle back, ∃ operator operator' : Operator,
    text = front ++ operator.symbol :: (middle ++ operator'.symbol :: back) ∧
      operator ≠ operator' ∧ quotingAfter front = .outside ∧
      Place.level.after middle = some Place.level

/-! ### The machine on one level -/

/-- The open groups, and what stands in front of the operand, of a machine that is so many groups
deep inside a level which is joined by this operator and around which the groups of `outer` are
open. -/
def Within (outer : List (Nat × Pending)) (operator : Operator) :
    (depth : Nat) → List (Nat × Pending) → Pending → Prop
  | 0, groups, before => groups = outer ∧ ∃ earlier, before = .joined operator earlier
  | depth + 1, groups, _ => ∃ inner start earlier,
    groups = inner ++ (start, .joined operator earlier) :: outer ∧ inner.length = depth

theorem Place.depth_of_next {p place : Place} {c : Char} (next : p.next c = some place)
    (plain : p.quoting = .outside → c ≠ '(' ∧ c ≠ ')') : place.depth = p.depth := by
  have opens : ¬(p.quoting = .outside ∧ c = '(') := fun h => (plain h.1).1 h.2
  have closes : ¬(p.quoting = .outside ∧ c = ')') := fun h => (plain h.1).2 h.2
  rw [Place.next, if_neg opens, if_neg closes] at next
  obtain rfl := Option.some_inj.1 next
  rfl

theorem Place.quoting_of_next {p place : Place} {c : Char} (next : p.next c = some place) :
    place.quoting = p.quoting.next c := by
  unfold Place.next at next
  split at next
  · next opens =>
      obtain rfl := Option.some_inj.1 next
      rw [opens.1, opens.2]
      rfl
  · split at next
    · next closes =>
        rw [closes.1, closes.2]
        split at next
        · cases next
        · obtain rfl := Option.some_inj.1 next
          rfl
    · obtain rfl := Option.some_inj.1 next
      rfl

/-- A character of a bare token, one that `isBare`, opens no group and closes none. -/
theorem no_paren_of_isBare {c : Char} (bare : isBare c) : c ≠ '(' ∧ c ≠ ')' :=
  ⟨ne_of_isBare bare (by decide), ne_of_isBare bare (by decide)⟩

/-- A level keeps its operator: a step stays `Within` the level unless it closes it. -/
theorem Moves.within {s s' : State} {position : Nat} {c : Char} {outer : List (Nat × Pending)}
    {operator : Operator} {depth : Nat} {place : Place} (moves : Moves s position c s')
    (within : Within outer operator depth s.outer s.before)
    (next : Place.next ⟨s.phase.quoting, depth⟩ c = some place) :
    Within outer operator place.depth s'.outer s'.before := by
  induction moves with
  | group =>
      obtain rfl := Option.some_inj.1 next
      cases depth with
      | zero =>
          obtain ⟨rfl, earlier, rfl⟩ := within
          exact ⟨[], _, earlier, rfl, rfl⟩
      | succ depth =>
          obtain ⟨inner, start, earlier, rfl, rfl⟩ := within
          exact ⟨_ :: inner, start, earlier, rfl, rfl⟩
  | quote =>
      rw [Place.depth_of_next next fun _ => ⟨by decide, by decide⟩]
      exact within
  | word bare =>
      rw [Place.depth_of_next next fun _ => no_paren_of_isBare bare]
      exact within
  | letter bare =>
      rw [Place.depth_of_next next fun _ => no_paren_of_isBare bare]
      exact within
  | leave _ _ ih => exact ih within next
  | plain | slash | escaped | unquote =>
      rw [Place.depth_of_next next nofun]
      exact within
  | @operator _ before _ operand operator' allowed =>
      rw [Place.depth_of_next next fun _ => by cases operator' <;> decide]
      cases depth with
      | zero =>
          obtain ⟨rfl, earlier, rfl⟩ := within
          obtain rfl : operator = operator' := allowed
          exact ⟨rfl, _, rfl⟩
      | succ depth => exact within
  | close =>
      cases depth with
      | zero => cases next
      | succ depth =>
          obtain rfl := Option.some_inj.1 next
          obtain ⟨inner, start, earlier, groups, rfl⟩ := within
          cases inner with
          | nil =>
              obtain ⟨group, rfl⟩ := List.cons.inj groups
              obtain ⟨-, rfl⟩ := Prod.mk.inj group
              exact ⟨rfl, earlier, rfl⟩
          | cons group inner =>
              obtain ⟨-, rfl⟩ := List.cons.inj groups
              exact ⟨inner, start, earlier, rfl, rfl⟩

/-- A level keeps its operator over any text that does not close it, by `Moves.within` for each
character. -/
theorem Reaches.within {s s' : State} {text : List Char} {outer : List (Nat × Pending)}
    {operator : Operator} {depth : Nat} {place : Place} (reaches : Reaches s text s')
    (within : Within outer operator depth s.outer s.before)
    (after : Place.after ⟨s.phase.quoting, depth⟩ text = some place) :
    Within outer operator place.depth s'.outer s'.before ∧ s'.phase.quoting = place.quoting := by
  induction reaches generalizing depth with
  | nil =>
      obtain rfl := Option.some_inj.1 after
      exact ⟨within, rfl⟩
  | @cons s next _ _ c text moves _ ih =>
      obtain ⟨between, stepped, after⟩ := Option.bind_eq_some_iff.1 after
      have quoting : between.quoting = next.phase.quoting :=
        (Place.quoting_of_next stepped).trans moves.quoting.symm
      refine ih (moves.within within stepped) ?_
      rw [← quoting]
      exact after

/-- An operator outside of quotes joins the level, which has to allow it. -/
theorem Moves.joins {s s' : State} {position : Nat} {c : Char} {operator : Operator}
    (moves : Moves s position c s') (symbol : c = operator.symbol)
    (outside : s.phase.quoting = .outside) :
    s.before.Allows operator ∧ s'.phase = .awaiting ∧
      ∃ earlier, s'.before = .joined operator earlier := by
  have notBare : isBare operator.symbol = false := by cases operator <;> rfl
  have bareless {c : Char} (bare : isBare c) : c ≠ operator.symbol := by
    rintro rfl
    rw [notBare] at bare
    cases bare
  induction moves with
  | group | quote | close => cases operator <;> exact absurd symbol (by decide)
  | word bare => exact absurd symbol (bareless bare)
  | letter bare => exact absurd symbol (bareless bare)
  | leave _ _ ih => exact ih symbol rfl
  | plain | slash | escaped | unquote => cases outside
  | @operator _ _ _ _ operator' allowed =>
      obtain rfl : operator' = operator := by
        cases operator <;> cases operator' <;> first | rfl | exact absurd symbol (by decide)
      exact ⟨allowed, rfl, _, rfl⟩

/-- **What is read does not mix operators.** -/
theorem not_mixesOperators_of_run {text : List Char} {position : Nat} {result : Label}
    (read : run .initial position text = .ok result) : ¬MixesOperators text := by
  intro h
  obtain ⟨front, middle, back, operator, operator', rfl, different, outside, level⟩ := h
  -- The run is cut at the two operators.
  obtain ⟨s₁, _, reaches₁, read⟩ := reaches_of_run read
  obtain ⟨s₂, moves₁, read⟩ := run_cons_eq_ok_iff.1 read
  obtain ⟨s₃, _, reaches₂, read⟩ := reaches_of_run read
  obtain ⟨s₄, moves₂, -⟩ := run_cons_eq_ok_iff.1 read
  obtain ⟨-, awaiting, joined⟩ := moves₁.joins rfl (reaches₁.quoting.trans outside)
  have quoting : s₂.phase.quoting = .outside := congrArg Phase.quoting awaiting
  have level : Place.after ⟨s₂.phase.quoting, 0⟩ middle = some Place.level := by
    rw [quoting]
    exact level
  have within : Within s₂.outer operator 0 s₂.outer s₂.before := ⟨rfl, joined⟩
  -- Behind the text between them the level is the same, and still joined by the first.
  obtain ⟨⟨-, earlier, before⟩, outside⟩ := reaches₂.within within level
  obtain ⟨allowed, -, -⟩ := moves₂.joins rfl outside
  rw [before] at allowed
  exact different allowed

end GraphLog.Label
