/-
**A text is read exactly if it is a label.**

The machine that reads labels is compared with their grammar.  What it still demands of the text at
any moment, the rest of the operand that it is in and the rest of each open group, is met by the
text whenever the run succeeds; at the start this says that the text is derived.  In turn the
machine runs over an operand that is derived in one go, whatever stands in front of it and however
many groups were closed before, as long as there is room for the groups inside.

Main definitions:

* `GraphLog.Label.Closes` — what the open groups demand of the text;
* `GraphLog.Label.State.Demands` — **what the machine demands of the text**.

Main results:

* `GraphLog.Label.demands_of_run` — what is read meets the demands;
* `GraphLog.Label.Derives.runs` — the machine runs over what is derived;
* `GraphLog.Label.parse_eq_ok_iff_derives` — **a text is read exactly if it is a label**.
-/

import GraphLog.Proofs.Label.Levels

set_option relaxedAutoImplicit false
set_option autoImplicit false

namespace GraphLog.Label

/-! ### What is read is a label -/

section Soundness

variable {result : Label}

/-- What the open groups still demand of the text behind an operand, for the whole to be a label:
each level `Continues` to the parenthesis that closes it, and the outermost level to the end. -/
def Closes (result : Label) :
    List (Nat × Pending) → Pending → Label → List Char → Prop
  | [], before, operand, text => Continues maxNesting before operand text [] result
  | (_, above) :: outer, before, operand, text =>
    ∃ rest tree,
      Continues (maxNesting - (outer.length + 1)) before operand text (')' :: rest) tree ∧
        Closes result outer above tree rest

/-- **What the machine still demands of the text**: the rest of the operand that it is in, and then
what the open groups demand. -/
def State.Demands (s : State) (result : Label) (text : List Char) : Prop :=
  match s.phase with
  | .awaiting =>
    ∃ operand rest, Derives (maxNesting - s.outer.length) (.operand operand) text rest ∧
      Closes result s.outer s.before operand rest
  | .word letters =>
    ∃ more rest, text = more ++ rest ∧ (∀ c ∈ more, isBare c) ∧ StartsNoWord rest ∧
      Closes result s.outer s.before (.term (String.ofList (letters.reverse ++ more))) rest
  | .quoted _ letters =>
    ∃ more rest, text = more.flatMap escape ++ '"' :: rest ∧ letters.reverse ++ more ≠ [] ∧
      Closes result s.outer s.before (.term (String.ofList (letters.reverse ++ more))) rest
  | .escaped _ _ letters =>
    ∃ c more rest, (c = '"' ∨ c = '\\') ∧ text = c :: more.flatMap escape ++ '"' :: rest ∧
      Closes result s.outer s.before (.term (String.ofList (letters.reverse ++ c :: more))) rest
  | .complete operand => Closes result s.outer s.before operand text

/-- One more operand on the innermost level. -/
theorem Closes.next {outer : List (Nat × Pending)} {before : Pending} {operator : Operator}
    {operand following : Label} {text rest : List Char} (allowed : before.Allows operator)
    (derives : Derives (maxNesting - outer.length) (.operand following) text rest)
    (closes : Closes result outer (.joined operator (operand :: before.earlier)) following rest) :
    Closes result outer before operand (operator.symbol :: text) := by
  cases outer with
  | nil => exact Continues.next allowed derives closes
  | cons group outer =>
      obtain ⟨rest, tree, continues, closes⟩ := closes
      exact ⟨rest, tree, continues.next allowed derives, closes⟩

/-- A step meets demands: what the machine demands after a character, it demanded before the
character of the text that starts with it. -/
theorem demands_of_moves {s s' : State} {position : Nat} {c : Char} {text : List Char}
    (moves : Moves s position c s') (bounded : s.outer.length ≤ maxNesting)
    (demands : s'.Demands result text) : s.Demands result (c :: text) := by
  induction moves with
  | @group outer before position free =>
      obtain ⟨operand, middle, derives, rest, tree, continues, closes⟩ := demands
      -- One more group may be open around this one than inside it.
      have nesting : maxNesting - outer.length = maxNesting - (outer.length + 1) + 1 := by
        have bounded : outer.length ≤ maxNesting := bounded
        omega
      refine ⟨tree, rest, ?_, closes⟩
      rw [nesting]
      exact .group (derives_expression_iff.2 ⟨operand, middle, derives, continues⟩)
  | quote =>
      obtain ⟨letters, rest, rfl, nonempty, closes⟩ := demands
      exact ⟨_, rest, .quoted nonempty, closes⟩
  | @word _ _ _ c bare =>
      obtain ⟨more, rest, rfl, all, ends, closes⟩ := demands
      refine ⟨_, rest, ?_, closes⟩
      exact .word (List.cons_ne_nil c more) (List.forall_mem_cons.2 ⟨bare, all⟩) ends
  | @letter _ _ _ c letters bare =>
      obtain ⟨more, rest, rfl, all, ends, closes⟩ := demands
      refine ⟨c :: more, rest, rfl, List.forall_mem_cons.2 ⟨bare, all⟩, ends, ?_⟩
      simpa using closes
  | @leave outer before _ c letters _ other behind ih =>
      have closes : Closes result outer before (token letters) (c :: text) := ih bounded demands
      refine ⟨[], c :: text, rfl, by simp, ?_, ?_⟩
      · rintro _ _ ⟨⟩
        exact other
      · simpa [token] using closes
  | @plain _ _ _ _ c _ noQuote noSlash =>
      obtain ⟨more, rest, rfl, nonempty, closes⟩ := demands
      refine ⟨c :: more, rest, ?_, by simp, by simpa using closes⟩
      simp [escape, noQuote, noSlash]
  | slash =>
      obtain ⟨c, more, rest, mark, rfl, closes⟩ := demands
      refine ⟨c :: more, rest, ?_, by simp, closes⟩
      simp [escape, mark]
  | @escaped _ _ _ _ _ c _ mark =>
      obtain ⟨more, rest, rfl, nonempty, closes⟩ := demands
      exact ⟨c, more, rest, mark, rfl, by simpa using closes⟩
  | @unquote outer before _ _ letters nonempty =>
      have closes : Closes result outer before (token letters) text := demands
      refine ⟨[], text, rfl, by simpa using nonempty, ?_⟩
      simpa [token] using closes
  | operator allowed =>
      obtain ⟨following, rest, derives, closes⟩ := demands
      exact Closes.next allowed derives closes
  | close => exact ⟨text, _, Continues.stop, demands⟩

/-- At the end of the text, where `finish` gives a label, the operand has to be complete and no
group may be open. -/
theorem demands_of_finish {s : State} {position : Nat} (finished : finish s position = .ok result) :
    s.Demands result [] := by
  have whole {s : State} {operand : Label} (h : closed s operand = .ok result) :
      Closes result s.outer s.before operand [] := by
    unfold closed at h
    cases groups : s.outer with
    | nil =>
        rw [groups] at h
        obtain rfl := Except.ok.inj h
        exact Continues.stop
    | cons group outer =>
        rw [groups] at h
        cases h
  obtain ⟨outer, before, phase⟩ := s
  cases phase with
  | awaiting => cases finished
  | word letters =>
      refine ⟨[], [], rfl, by simp, by simp [StartsNoWord], ?_⟩
      simpa [token] using whole finished
  | quoted start letters => cases finished
  | escaped start slash letters => cases finished
  | complete operand => exact whole finished

/-- Never more groups are open than may be, which is `maxNesting`. -/
theorem Moves.length_outer_le {s s' : State} {position : Nat} {c : Char}
    (moves : Moves s position c s') (bounded : s.outer.length ≤ maxNesting) :
    s'.outer.length ≤ maxNesting := by
  induction moves with
  | @group outer _ _ free =>
      have bounded : outer.length ≤ maxNesting := bounded
      show outer.length + 1 ≤ maxNesting
      omega
  | @close outer _ _ _ _ _ =>
      have bounded : outer.length + 1 ≤ maxNesting := bounded
      show outer.length ≤ maxNesting
      omega
  | leave _ _ ih => exact ih bounded
  | _ => exact bounded

/-- **What is read meets the demands**, from wherever the machine stands: by `demands_of_moves` for
each character. -/
theorem demands_of_run {text : List Char} {s : State} {position : Nat}
    (bounded : s.outer.length ≤ maxNesting) (read : run s position text = .ok result) :
    s.Demands result text := by
  induction text generalizing s position with
  | nil => exact demands_of_finish read
  | cons c text ih =>
      obtain ⟨s', moves, read⟩ := run_cons_eq_ok_iff.1 read
      exact demands_of_moves moves bounded (ih (moves.length_outer_le bounded) read)

end Soundness

/-! ### Labels are read -/

section Completeness

variable {outer : List (Nat × Pending)} {before : Pending}

/-- At a character that cannot be part of it, a bare token is complete. -/
theorem run_word_end {letters rest : List Char} (position : Nat) (ends : StartsNoWord rest) :
    run ⟨outer, before, .word letters⟩ position rest =
      run ⟨outer, before, .complete (token letters)⟩ position rest := by
  cases rest with
  | nil => rfl
  | cons c rest =>
      have other : isBare c = false := ends c rest rfl
      simp only [run, step, other, Bool.false_eq_true, if_false]
      rfl

theorem run_word {more rest : List Char} (letters : List Char) (position : Nat)
    (bare : ∀ c ∈ more, isBare c) (ends : StartsNoWord rest) :
    ∃ position', run ⟨outer, before, .word letters⟩ position (more ++ rest) =
      run ⟨outer, before, .complete (token (more.reverse ++ letters))⟩ position' rest := by
  induction more generalizing letters position with
  | nil => exact ⟨position, run_word_end position ends⟩
  | cons c more ih =>
      obtain ⟨first, bare⟩ := List.forall_mem_cons.1 bare
      obtain ⟨position', reads⟩ := ih (c :: letters) (position + c.utf8Size) bare
      refine ⟨position', ?_⟩
      rw [List.cons_append, (Moves.letter first).run_cons, reads, List.reverse_cons,
        List.append_assoc]
      rfl

theorem run_quoted {rest : List Char} (letters more : List Char) (start position : Nat)
    (nonempty : more.reverse ++ letters ≠ []) :
    ∃ position', run ⟨outer, before, .quoted start letters⟩ position
        (more.flatMap escape ++ '"' :: rest) =
      run ⟨outer, before, .complete (token (more.reverse ++ letters))⟩ position' rest := by
  induction more generalizing letters position with
  | nil => exact ⟨_, (Moves.unquote nonempty).run_cons rest⟩
  | cons c more ih =>
      have same : (c :: more).reverse ++ letters = more.reverse ++ c :: letters := by simp
      rw [same] at nonempty ⊢
      by_cases mark : c = '"' ∨ c = '\\'
      · obtain ⟨position', reads⟩ :=
          ih (c :: letters) (position + '\\'.utf8Size + c.utf8Size) nonempty
        refine ⟨position', ?_⟩
        have escaped : (c :: more).flatMap escape = '\\' :: c :: more.flatMap escape := by
          simp [escape, mark]
        rw [escaped, List.cons_append, Moves.slash.run_cons, List.cons_append,
          (Moves.escaped mark).run_cons, reads]
      · obtain ⟨position', reads⟩ := ih (c :: letters) (position + c.utf8Size) nonempty
        refine ⟨position', ?_⟩
        have escaped : (c :: more).flatMap escape = c :: more.flatMap escape := by
          simp [escape, mark]
        obtain ⟨noQuote, noSlash⟩ := not_or.1 mark
        rw [escaped, List.cons_append, (Moves.plain noQuote noSlash).run_cons, reads]

end Completeness

/-- From `s` the machine comes to the end of a level that has the tree `tree`. -/
def EndsLevel (s : State) (position : Nat) (text rest : List Char) (tree : Label) : Prop :=
  ∃ before operand position', before.close operand = tree ∧
    run s position text = run ⟨s.outer, before, .complete operand⟩ position' rest

/-- What a phrase means for the machine: wherever the machine may meet the phrase, it comes to the
end of the phrase, if there is room for the groups inside. -/
def Phrase.Runs (nesting : Nat) (phrase : Phrase) (text rest : List Char) : Prop :=
  match phrase with
  | .expression tree => ∀ outer position, outer.length + nesting ≤ maxNesting →
    EndsLevel ⟨outer, .nothing, .awaiting⟩ position text rest tree
  | .operand tree => ∀ outer before position, outer.length + nesting ≤ maxNesting →
    ∃ position', run ⟨outer, before, .awaiting⟩ position text =
      run ⟨outer, before, .complete tree⟩ position' rest
  | .operands operator trees => ∀ outer before first position, before.Allows operator →
    outer.length + nesting ≤ maxNesting →
    EndsLevel ⟨outer, before, .complete first⟩ position text rest
      (Label.chain operator (before.earlier.reverse ++ first :: trees))

/-- **The machine runs over what is derived**: by induction over what `Derives`, with one case for
each rule. -/
theorem Derives.runs {nesting : Nat} {phrase : Phrase} {text rest : List Char}
    (derives : Derives nesting phrase text rest) : phrase.Runs nesting text rest := by
  induction derives with
  | @single _ t _ _ _ ih =>
      intro outer position room
      obtain ⟨position', reads⟩ := ih outer .nothing position room
      exact ⟨.nothing, t, position', rfl, reads⟩
  | @chain _ operator t ts _ _ _ _ _ first others =>
      intro outer position room
      obtain ⟨position', reads⟩ := first outer .nothing position room
      obtain ⟨before, operand, position'', tree, reads'⟩ :=
        others outer .nothing t position' trivial room
      exact ⟨before, operand, position'', tree, reads.trans reads'⟩
  | @last _ operator t text _ _ ih =>
      intro outer before first position allowed room
      obtain ⟨position', reads⟩ := ih outer (.joined operator (first :: before.earlier))
        (position + operator.symbol.utf8Size) room
      refine ⟨_, t, position', ?_, ((Moves.operator allowed).run_cons text).trans reads⟩
      simp [Pending.close]
  | @more _ operator t ts text _ _ _ _ ih others =>
      intro outer before first position allowed room
      obtain ⟨position', reads⟩ := ih outer (.joined operator (first :: before.earlier))
        (position + operator.symbol.utf8Size) room
      obtain ⟨before', operand, position'', tree, reads'⟩ :=
        others outer (.joined operator (first :: before.earlier)) t position' rfl room
      refine ⟨before', operand, position'', ?_, ?_⟩
      · rw [tree]
        simp [Pending.earlier]
      · exact (((Moves.operator allowed).run_cons text).trans reads).trans reads'
  | @group nesting t text rest _ ih =>
      intro outer before position room
      have free : outer.length ≠ maxNesting := by omega
      obtain ⟨before', operand, position', tree, reads⟩ :=
        ih ((position, before) :: outer) (position + '('.utf8Size) (by simp; omega)
      refine ⟨position' + ')'.utf8Size, ?_⟩
      rw [(Moves.group free).run_cons, reads, Moves.close.run_cons, tree]
  | @word _ letters rest nonempty bare ends =>
      intro outer before position room
      obtain ⟨c, more, rfl⟩ := List.exists_cons_of_ne_nil nonempty
      obtain ⟨first, bare⟩ := List.forall_mem_cons.1 bare
      obtain ⟨position', reads⟩ := run_word [c] (position + c.utf8Size) bare ends
      refine ⟨position', ?_⟩
      rw [List.cons_append, (Moves.word first).run_cons, reads]
      simp [token]
  | @quoted _ letters rest nonempty =>
      intro outer before position room
      obtain ⟨position', reads⟩ := run_quoted [] letters position (position + '"'.utf8Size)
        (by simpa using nonempty)
      refine ⟨position', ?_⟩
      rw [List.cons_append, Moves.quote.run_cons, reads]
      simp [token]

/-- **A text is read exactly if it is a label.**  The empty text is no condition; any other is read
as a tree exactly if the grammar derives it with this tree.  A text that has both operators on one
level, however deep, is refused. -/
theorem parse_eq_ok_iff_derives (text : String) :
    (∀ tree, parse text = .ok tree ↔
      text = "" ∧ tree = .always ∨ Derives maxNesting (.expression tree) text.toList []) ∧
    (MixesOperators text.toList → ∃ e, parse text = .error e) := by
  have notEmpty {tree : Label} (h : parse text = .ok tree) :
      text = "" ∧ tree = .always ∨ run .initial 0 text.toList = .ok tree := by
    unfold parse at h
    split at h
    · next empty => exact .inl ⟨empty, (Except.ok.inj h).symm⟩
    · exact .inr h
  refine ⟨fun tree => ⟨fun h => ?_, ?_⟩, fun mixes => ?_⟩
  · rcases notEmpty h with empty | read
    · exact .inl empty
    · obtain ⟨operand, rest, derives, closes⟩ := demands_of_run (Nat.zero_le _) read
      exact .inr (derives_expression_iff.2 ⟨operand, rest, derives, closes⟩)
  · rintro (⟨rfl, rfl⟩ | derives)
    · rfl
    · obtain ⟨before, operand, position, rfl, reads⟩ := derives.runs [] 0 (Nat.le_of_eq (by simp))
      have read : run .initial 0 text.toList = .ok (before.close operand) := reads
      unfold parse
      split
      · next empty =>
          -- The empty text is not derived, because an operand is due in front of it.
          rw [empty] at read
          cases read
      · exact read
  · cases h : parse text with
    | error e => exact ⟨e, rfl⟩
    | ok tree =>
        rcases notEmpty h with ⟨rfl, -⟩ | read
        · obtain ⟨front, middle, back, operator, operator', same, -⟩ := mixes
          exact absurd same (by simp)
        · exact absurd mixes (not_mixesOperators_of_run read)

end GraphLog.Label
