/-
**What a complaint about a text shows.**

A complaint gives a position in bytes.  The machine keeps positions of three kinds, where it stands,
where each open group and where a quoted token began, and all of them are the length of a part of
the text in front of a character; so a position never lies inside a character.  What stands at the
position bears out the complaint.  For this it is enough to know of each open level where it is in
the text: the parenthesis that opened it and the operator that joins it were passed outside of
quotes, and as many groups have been opened since as stand above it on the stack.

Main definitions:

* `GraphLog.Label.Shows` — **what a complaint shows**, in the text in front of it and behind;
* `GraphLog.Label.Passed` — a character that was passed, seen from where one is now;
* `GraphLog.Label.State.Traced` — **where the open levels are in the text**;
* `GraphLog.Label.State.positions` — the positions that the machine keeps.

Main results:

* `GraphLog.Label.State.Traced.next` — a step keeps track of the levels;
* `GraphLog.Label.Visits.traced` — **so does a whole run**;
* `GraphLog.Label.exists_shows_of_stops` — the machine complains of what the text shows;
* `GraphLog.Label.parse_shows` — **complaints and positions**.
-/

import GraphLog.Proofs.Label.Stops

set_option relaxedAutoImplicit false
set_option autoImplicit false

namespace GraphLog.Label

open String (utf8Len)

/-! ### Complaints -/

/-- **What a complaint shows**: `Shows front back fault` says that the fault is seen in the text
`front ++ back` between the two parts. -/
inductive Shows : List Char → List Char → Fault → Prop where
  -- no operand: the text ends, or an operator or the end of a group comes next
  | emptyTerm {front back : List Char} (outside : quotingAfter front = .outside)
      (due : ∀ c rest, back = c :: rest → c = ')' ∨ c = '&' ∨ c = '|') :
      Shows front back .emptyTerm
  | unbalancedParens {front rest : List Char} {c : Char} (outside : quotingAfter front = .outside)
      (paren : c = '(' ∨ c = ')') : Shows front (c :: rest) .unbalancedParens
  -- another operator stands on the same level
  | mixedOperators {before inside rest : List Char} {operator operator' : Operator}
      (different : operator ≠ operator') (outside : quotingAfter before = .outside)
      (level : Place.level.after inside = some .level) :
      Shows (before ++ operator.symbol :: inside) (operator'.symbol :: rest) .mixedOperators
  -- the closing quote is missing
  | unterminatedQuote {front letters slash : List Char} (outside : quotingAfter front = .outside)
      (last : slash = [] ∨ slash = ['\\']) :
      Shows front ('"' :: (letters.flatMap escape ++ slash)) .unterminatedQuote
  | invalidEscape {front rest : List Char} {c : Char} (inside : quotingAfter front = .inside)
      (noMark : c ≠ '"' ∧ c ≠ '\\') : Shows front ('\\' :: c :: rest) .invalidEscape
  | emptyQuotedToken {front rest : List Char} (outside : quotingAfter front = .outside) :
      Shows front ('"' :: '"' :: rest) .emptyQuotedToken
  | invalidCharacter {front rest : List Char} {c : Char} (outside : quotingAfter front = .outside)
      (noMark : c ∉ ['&', '|', '(', ')', '"']) (notBare : isBare c = false) :
      Shows front (c :: rest) (.invalidCharacter c)
  -- so many groups are open
  | tooDeep {front rest : List Char}
      (deep : Place.level.after front = some ⟨.outside, maxNesting⟩) :
      Shows front ('(' :: rest) .tooDeep
  -- an operand begins, though no group is open and no operator stands in front of it
  | trailingInput {front rest : List Char} {c : Char}
      (level : Place.level.after front = some .level) (starts : c = '(' ∨ c = '"' ∨ isBare c) :
      Shows front (c :: rest) .trailingInput

/-! ### What was passed -/

theorem Place.quoting_of_after {p place : Place} {text : List Char}
    (after : p.after text = some place) : place.quoting = text.foldl Quoting.next p.quoting := by
  induction text generalizing p with
  | nil =>
      obtain rfl := Option.some_inj.1 after
      rfl
  | cons c text ih =>
      obtain ⟨between, next, after⟩ := Option.bind_eq_some_iff.1 after
      rw [ih after, Place.quoting_of_next next, List.foldl_cons]

/-- A character other than a parenthesis outside of quotes keeps the level of a `Place`. -/
theorem Place.next_of_plain {p : Place} {c : Char}
    (plain : p.quoting = .outside → c ≠ '(' ∧ c ≠ ')') :
    p.next c = some ⟨p.quoting.next c, p.depth⟩ := by
  have opens : ¬(p.quoting = .outside ∧ c = '(') := fun h => (plain h.1).1 h.2
  have closes : ¬(p.quoting = .outside ∧ c = ')') := fun h => (plain h.1).2 h.2
  rw [next, if_neg opens, if_neg closes]

/-- One more character. -/
theorem Place.after_concat {p place place' : Place} {front : List Char} {c : Char}
    (before : p.after front = some place) (next : place.next c = some place') :
    p.after (front ++ [c]) = some place' := by
  rw [after_append, before]
  show (place.next c).bind (·.after []) = some place'
  rw [next]
  rfl

/-- A character that was passed, at a position outside of quotes: behind it the text comes to
`place`, without closing the level that the character stands on. -/
def Passed (front : List Char) (c : Char) (position : Nat) (place : Place) : Prop :=
  ∃ before inside, front = before ++ c :: inside ∧ position = utf8Len before ∧
    quotingAfter before = .outside ∧ Place.level.after inside = some place

theorem Passed.here {front : List Char} (c : Char) (outside : quotingAfter front = .outside) :
    Passed (front ++ [c]) c (utf8Len front) .level :=
  ⟨front, [], rfl, rfl, outside, rfl⟩

theorem Passed.next {front : List Char} {c d : Char} {position : Nat} {place place' : Place}
    (passed : Passed front c position place) (next : place.next d = some place') :
    Passed (front ++ [d]) c position place' := by
  obtain ⟨before, inside, rfl, rfl, outside, after⟩ := passed
  exact ⟨before, inside ++ [d], by simp, rfl, outside, Place.after_concat after next⟩

/-! ### The levels of the machine -/

/-- What stands in front of the current operand on each level, innermost first: `before`, and then
what is `outer`. -/
def State.levels (s : State) : List Pending :=
  s.before :: s.outer.map (·.2)

/-- **Where the open levels are in the text** that was read, each behind a parenthesis that was
`Passed`. -/
structure State.Traced (s : State) (front : List Char) : Prop where
  /-- As many groups are open in the text as on the stack. -/
  place : Place.level.after front = some ⟨s.phase.quoting, s.outer.length⟩
  /-- An open group starts at its parenthesis. -/
  opened : ∀ k start above, s.outer[k]? = some (start, above) →
    Passed front '(' start ⟨s.phase.quoting, k⟩
  /-- The operator of a level stands on it. -/
  joined : ∀ k operator earlier, s.levels[k]? = some (.joined operator earlier) →
    ∃ position, Passed front operator.symbol position ⟨s.phase.quoting, k⟩

/-- The quotes and the backslash behind which the machine is. -/
def Phase.Quotes (front : List Char) : Phase → Prop
  | .quoted start letters =>
    ∃ before, front = before ++ '"' :: letters.reverse.flatMap escape ∧ start = utf8Len before ∧
      quotingAfter before = .outside
  | .escaped start slash letters =>
    ∃ before, front = before ++ '"' :: letters.reverse.flatMap escape ++ ['\\'] ∧
      start = utf8Len before ∧
      slash = utf8Len (before ++ '"' :: letters.reverse.flatMap escape) ∧
      quotingAfter before = .outside
  | .awaiting | .word _ | .complete _ => True

/-- What a character does to the `levels`: it opens one, closes one, or stays on the innermost,
which it may join. -/
theorem Moves.levels {s s' : State} {position : Nat} {c : Char} (moves : Moves s position c s') :
    (c = '(' ∧ s.phase.quoting = .outside ∧ s'.outer = (position, s.before) :: s.outer ∧
        s'.before = .nothing) ∨
      (c = ')' ∧ s.phase.quoting = .outside ∧ ∃ start, s.outer = (start, s'.before) :: s'.outer) ∨
      s'.outer = s.outer ∧ (s.phase.quoting = .outside → c ≠ '(' ∧ c ≠ ')') ∧
        (s'.before = s.before ∨
          ∃ operator earlier, c = operator.symbol ∧ s.phase.quoting = .outside ∧
            s'.before = .joined operator earlier) := by
  induction moves with
  | group => exact .inl ⟨rfl, rfl, rfl, rfl⟩
  | close => exact .inr (.inl ⟨rfl, rfl, _, rfl⟩)
  | leave _ _ ih => exact ih
  | word bare | letter bare => exact .inr (.inr ⟨rfl, fun _ => no_paren_of_isBare bare, .inl rfl⟩)
  | quote => exact .inr (.inr ⟨rfl, fun _ => ⟨by decide, by decide⟩, .inl rfl⟩)
  | plain | slash | escaped | unquote => exact .inr (.inr ⟨rfl, nofun, .inl rfl⟩)
  | @operator _ _ _ _ operator _ =>
      refine .inr (.inr ⟨rfl, fun _ => ?_, .inr ⟨operator, _, rfl, rfl, rfl⟩⟩)
      cases operator <;> decide

section Step

variable {s s' : State} {front : List Char} {c : Char}

/-- A group that is opened is the innermost, and the numbers of the others go up by one. -/
theorem State.Traced.deepen (traced : s.Traced front) (outside : s.phase.quoting = .outside)
    (outside' : s'.phase.quoting = .outside)
    (groups : s'.outer = (utf8Len front, s.before) :: s.outer) (before : s'.before = .nothing) :
    s'.Traced (front ++ ['(']) := by
  have deeper (k : Nat) :
      Place.next ⟨s.phase.quoting, k⟩ '(' = some ⟨s'.phase.quoting, k + 1⟩ := by
    rw [outside, outside']
    rfl
  refine ⟨?_, ?_, ?_⟩
  · rw [groups]
    exact Place.after_concat traced.place (deeper _)
  · intro k start above found
    rw [groups] at found
    cases k with
    | zero =>
        obtain ⟨rfl, -⟩ := Prod.mk.inj (Option.some_inj.1 found)
        rw [outside']
        exact .here '(' ((Place.quoting_of_after traced.place).symm.trans outside)
    | succ k => exact (traced.opened k start above found).next (deeper k)
  · intro k operator earlier found
    rw [State.levels, groups, before] at found
    cases k with
    | zero => cases Option.some_inj.1 found
    | succ k =>
        obtain ⟨position, passed⟩ := traced.joined k operator earlier found
        exact ⟨position, passed.next (deeper k)⟩

/-- When the innermost group is closed, the numbers of the others go down by one. -/
theorem State.Traced.rise {start : Nat} (traced : s.Traced front)
    (outside : s.phase.quoting = .outside) (outside' : s'.phase.quoting = .outside)
    (groups : s.outer = (start, s'.before) :: s'.outer) : s'.Traced (front ++ [')']) := by
  have higher (k : Nat) :
      Place.next ⟨s.phase.quoting, k + 1⟩ ')' = some ⟨s'.phase.quoting, k⟩ := by
    rw [outside, outside']
    rfl
  have levels : s.levels = s.before :: s'.levels := by
    rw [State.levels, groups]
    rfl
  refine ⟨?_, ?_, ?_⟩
  · refine Place.after_concat traced.place ?_
    rw [groups]
    exact higher _
  · intro k start' above found
    refine (traced.opened (k + 1) start' above ?_).next (higher k)
    rw [groups]
    exact found
  · intro k operator earlier found
    rw [← List.getElem?_cons_succ, ← levels] at found
    obtain ⟨position, passed⟩ := traced.joined (k + 1) operator earlier found
    exact ⟨position, passed.next (higher k)⟩

/-- On the innermost level nothing changes but the operator that joins it. -/
theorem State.Traced.stay (traced : s.Traced front)
    (along : ∀ k, Place.next ⟨s.phase.quoting, k⟩ c = some ⟨s'.phase.quoting, k⟩)
    (groups : s'.outer = s.outer)
    (before : s'.before = s.before ∨
      ∃ operator earlier, c = operator.symbol ∧ s.phase.quoting = .outside ∧
        s'.before = .joined operator earlier) : s'.Traced (front ++ [c]) := by
  refine ⟨?_, ?_, ?_⟩
  · rw [groups]
    exact Place.after_concat traced.place (along _)
  · intro k start above found
    rw [groups] at found
    exact (traced.opened k start above found).next (along k)
  · intro k operator earlier found
    have kept (found : s.levels[k]? = some (.joined operator earlier)) :
        ∃ position, Passed (front ++ [c]) operator.symbol position ⟨s'.phase.quoting, k⟩ := by
      obtain ⟨position, passed⟩ := traced.joined k operator earlier found
      exact ⟨position, passed.next (along k)⟩
    rw [State.levels, groups] at found
    rcases before with before | ⟨joining, earlier', rfl, outside, before⟩
    · rw [before] at found
      exact kept found
    · rw [before] at found
      cases k with
      | zero =>
          obtain ⟨rfl, -⟩ := Pending.joined.inj (Option.some_inj.1 found)
          have here := along 0
          rw [outside] at here
          have outside' : s'.phase.quoting = .outside :=
            (Place.quoting_of_next here).trans (by cases joining <;> rfl)
          rw [outside']
          exact ⟨_, .here _ ((Place.quoting_of_after traced.place).symm.trans outside)⟩
      | succ k => exact kept found

/-- That a bare token has ended changes nothing. -/
theorem State.Traced.leave {outer : List (Nat × Pending)} {before : Pending} {letters : List Char}
    (traced : State.Traced ⟨outer, before, .word letters⟩ front) :
    State.Traced ⟨outer, before, .complete (token letters)⟩ front :=
  ⟨traced.place, traced.opened, traced.joined⟩

/-- A step keeps track of the levels: what `Moves` keeps the state `Traced`. -/
theorem State.Traced.next (traced : s.Traced front) (moves : Moves s (utf8Len front) c s') :
    s'.Traced (front ++ [c]) := by
  have phase := moves.quoting
  rcases moves.levels with
    ⟨rfl, outside, groups, before⟩ | ⟨rfl, outside, start, groups⟩ | ⟨groups, plain, before⟩
  · rw [outside] at phase
    exact traced.deepen outside phase groups before
  · rw [outside] at phase
    exact traced.rise outside phase groups
  · refine traced.stay (fun k => ?_) groups before
    rw [phase]
    exact Place.next_of_plain plain

end Step

/-- A step keeps track of quotes. -/
theorem Moves.quotes {s s' : State} {front : List Char} {c : Char}
    (moves : Moves s (utf8Len front) c s') (quoting : quotingAfter front = s.phase.quoting)
    (quotes : s.phase.Quotes front) : s'.phase.Quotes (front ++ [c]) := by
  cases moves with
  | quote => exact ⟨front, rfl, rfl, quoting⟩
  | plain noQuote noSlash =>
      obtain ⟨before, rfl, rfl, outside⟩ := quotes
      exact ⟨before, by simp [escape, noQuote, noSlash], rfl, outside⟩
  | slash =>
      obtain ⟨before, rfl, rfl, outside⟩ := quotes
      exact ⟨before, rfl, rfl, rfl, outside⟩
  | escaped mark =>
      obtain ⟨before, rfl, rfl, rfl, outside⟩ := quotes
      exact ⟨before, by simp [escape, mark], rfl, outside⟩
  | leave other behind => cases behind <;> trivial
  | _ => trivial

/-- A run keeps track of the levels, and of quotes. -/
theorem Visits.traced {text rest : List Char} {s : State} {position : Nat}
    (visits : Visits text s position rest) :
    ∃ front, text = front ++ rest ∧ position = utf8Len front ∧ s.Traced front ∧
      s.phase.Quotes front := by
  induction visits with
  | start =>
      refine ⟨[], rfl, rfl, ⟨rfl, nofun, ?_⟩, trivial⟩
      intro k operator earlier found
      cases k <;> cases found
  | @next s s' position c rest _ moves ih =>
      obtain ⟨front, rfl, rfl, traced, quotes⟩ := ih
      have quoting : quotingAfter front = s.phase.quoting :=
        (Place.quoting_of_after traced.place).symm
      exact ⟨front ++ [c], by simp, by simp, traced.next moves, moves.quotes quoting quotes⟩

/-! ### Complaints and positions -/

theorem Quoting.eq_inside_of_next {q : Quoting} (next : q.next '\\' = .escaped) : q = .inside := by
  cases q with
  | inside => rfl
  | outside | escaped => cases next

/-- A character behind an operand that neither goes on nor is an operand shows as much, as
`Fault.invalidCharacter`. -/
theorem shows_invalidCharacter {front rest : List Char} {c : Char}
    (outside : quotingAfter front = .outside) (noStart : startsOperand c = false)
    (noEnd : operator? c = none ∧ c ≠ ')') : Shows front (c :: rest) (.invalidCharacter c) := by
  obtain ⟨opens, quote, bare⟩ := startsOperand_eq_false_iff.1 noStart
  obtain ⟨and, or⟩ := operator?_eq_none_iff.1 noEnd.1
  exact .invalidCharacter outside (by simp [opens, quote, and, or, noEnd.2]) bare

/-- **The machine complains of what the text shows**: where it `Stops`, the text `Shows` the
fault. -/
theorem exists_shows_of_stops {s : State} {position : Nat} {front rest : List Char} {e : ParseError}
    (stops : Stops s position rest e) (length : position = utf8Len front) (traced : s.Traced front)
    (quotes : s.phase.Quotes front) :
    ∃ before back, front ++ rest = before ++ back ∧ e.position = utf8Len before ∧
      Shows before back e.fault := by
  have quoting : quotingAfter front = s.phase.quoting := (Place.quoting_of_after traced.place).symm
  induction stops with
  | @tooDeep outer _ _ rest full =>
      refine ⟨front, '(' :: rest, rfl, length, .tooDeep ?_⟩
      rw [← full]
      exact traced.place
  | @nothing _ _ _ text ends => exact ⟨front, text, rfl, length, .emptyTerm quoting ends⟩
  | foreign noStart noEnd =>
      exact ⟨front, _, rfl, length, shows_invalidCharacter quoting noStart noEnd⟩
  | @emptyToken _ _ _ _ rest =>
      obtain ⟨before, rfl, rfl, outside⟩ := quotes
      exact ⟨before, '"' :: '"' :: rest, by simp, rfl, .emptyQuotedToken outside⟩
  | @unquoted _ _ _ _ letters =>
      obtain ⟨before, rfl, rfl, outside⟩ := quotes
      exact ⟨before, '"' :: (letters.reverse.flatMap escape ++ []), by simp, rfl,
        .unterminatedQuote outside (.inl rfl)⟩
  | @unescaped _ _ _ _ _ letters =>
      obtain ⟨before, rfl, rfl, rfl, outside⟩ := quotes
      exact ⟨before, '"' :: (letters.reverse.flatMap escape ++ ['\\']), by simp, rfl,
        .unterminatedQuote outside (.inr rfl)⟩
  | @escape _ _ _ _ _ _ rest c noMark =>
      obtain ⟨before, rfl, rfl, rfl, -⟩ := quotes
      refine ⟨_, '\\' :: c :: rest, by simp, rfl, .invalidEscape ?_ (not_or.1 noMark)⟩
      rw [quotingAfter, List.foldl_append] at quoting
      exact Quoting.eq_inside_of_next quoting
  | @mixed _ pending _ _ operator' rest forbidden =>
      cases pending with
      | nothing => exact absurd trivial forbidden
      | joined operator earlier =>
          obtain ⟨position, before, inside, rfl, -, outside, level⟩ :=
            traced.joined 0 operator earlier rfl
          exact ⟨_, operator'.symbol :: rest, rfl, length, .mixedOperators forbidden outside level⟩
  | @unclosed _ _ above _ start _ text _ =>
      obtain ⟨before, inside, rfl, rfl, outside, -⟩ := traced.opened 0 start above rfl
      exact ⟨before, '(' :: (inside ++ text), by simp, rfl, .unbalancedParens outside (.inl rfl)⟩
  | unopened => exact ⟨front, _, rfl, length, .unbalancedParens quoting (.inr rfl)⟩
  | trailing starts =>
      refine ⟨front, _, rfl, length, .trailingInput traced.place ?_⟩
      simpa [startsOperand, or_assoc] using starts
  | stray noStart noEnd =>
      exact ⟨front, _, rfl, length, shows_invalidCharacter quoting noStart noEnd⟩
  | leave _ _ ih => exact ih length traced.leave trivial quoting

/-- The positions that the machine keeps inside a token. -/
def Phase.positions : Phase → List Nat
  | .quoted start _ => [start]
  | .escaped start slash _ => [start, slash]
  | .awaiting | .word _ | .complete _ => []

/-- The positions that the machine keeps: where open groups, a quoted token and an escape began. -/
def State.positions (s : State) : List Nat :=
  s.outer.map (·.1) ++ s.phase.positions

theorem exists_length_of_mem_positions {s : State} {front : List Char} {position : Nat}
    (traced : s.Traced front) (quotes : s.phase.Quotes front) (mem : position ∈ s.positions) :
    ∃ before back, front = before ++ back ∧ position = utf8Len before := by
  rcases List.mem_append.1 mem with mem | mem
  · obtain ⟨⟨start, above⟩, group, rfl⟩ := List.mem_map.1 mem
    obtain ⟨k, found⟩ := List.mem_iff_getElem?.1 group
    obtain ⟨before, inside, rfl, rfl, -, -⟩ := traced.opened k start above found
    exact ⟨before, '(' :: inside, rfl, rfl⟩
  · obtain ⟨outer, pending, phase⟩ := s
    cases phase with
    | awaiting | word | complete => cases mem
    | quoted start letters =>
        obtain rfl := List.mem_singleton.1 mem
        obtain ⟨before, rfl, rfl, -⟩ := quotes
        exact ⟨before, _, rfl, rfl⟩
    | escaped start slash letters =>
        obtain ⟨before, rfl, rfl, rfl, -⟩ := quotes
        rcases List.mem_pair.1 mem with rfl | rfl
        · exact ⟨before, _, List.append_assoc _ _ _, rfl⟩
        · exact ⟨_, ['\\'], rfl, rfl⟩

/-- The length of a part in front is the position of a character, or the end. -/
theorem isValid_utf8Len {text : String} {front back : List Char}
    (split : text.toList = front ++ back) : String.Pos.Raw.IsValid text ⟨utf8Len front⟩ := by
  rw [String.Pos.Raw.isValid_iff_exists_append]
  refine ⟨String.ofList front, String.ofList back, ?_, ?_⟩
  · rw [← String.ofList_append, ← split, String.ofList_toList]
  · rw [String.rawEndPos, String.utf8ByteSize_ofList]

/-- **Complaints and positions.**  The position of a complaint is that of a character or the end of
the text, and there the text shows the fault.  Wherever the machine stands over a text, be it a
label or not, and whatever positions it keeps, none lies inside a character. -/
theorem parse_shows (text : String) :
    (∀ e, parse text = .error e →
      ∃ front back, text.toList = front ++ back ∧ e.position = utf8Len front ∧
        String.Pos.Raw.IsValid text ⟨e.position⟩ ∧ e.position ≤ text.utf8ByteSize ∧
        Shows front back e.fault) ∧
      ∀ s position rest, Visits text.toList s position rest →
        ∀ p ∈ position :: s.positions, String.Pos.Raw.IsValid text ⟨p⟩ := by
  constructor
  · intro e fails
    obtain ⟨s, position, rest, visits, stops⟩ := exists_visits_of_parse fails
    obtain ⟨front, split, length, traced, quotes⟩ := visits.traced
    obtain ⟨before, back, same, here, shows'⟩ := exists_shows_of_stops stops length traced quotes
    rw [same] at split
    have valid := isValid_utf8Len split
    rw [← here] at valid
    exact ⟨before, back, split, here, valid, valid.le_utf8ByteSize, shows'⟩
  · intro s position rest visits p mem
    obtain ⟨front, split, rfl, traced, quotes⟩ := visits.traced
    rcases List.mem_cons.1 mem with rfl | mem
    · exact isValid_utf8Len split
    · obtain ⟨before, back, rfl, rfl⟩ := exists_length_of_mem_positions traced quotes mem
      exact isValid_utf8Len (split.trans (List.append_assoc _ _ _))

-- The first letter takes two bytes.
example : parse "\"é\"&é" = .error ⟨5, .invalidCharacter 'é'⟩ := by rfl

end GraphLog.Label
