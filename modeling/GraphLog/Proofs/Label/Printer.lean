/-
**The canonical text of a label is read as the label.**

The printer puts each chain that is an operand into parentheses and nothing else, and it quotes what
has to be quoted.  So the text that it writes is derived with the very tree that it was written for,
as long as parentheses may nest that deep: a chain takes one parenthesis for each level of operators
below its own.  In the text of a tree with more levels, the machine passes over the operands that
are shallow enough, and stops at a parenthesis that is one too many; nothing else can stop it.

Main definitions:

* `GraphLog.Label.asOperand`, `GraphLog.Label.further` — how operands are written;
* `GraphLog.Label.Overflows` — reading a tree as an operand goes too deep.

Main results:

* `GraphLog.Label.Proper.byChains` — induction over conditions, with one case for both operators;
* `GraphLog.Label.Proper.derives_asOperand`, `GraphLog.Label.Proper.derives_render` — **what is
  written is derived**, with the tree for which it is written;
* `GraphLog.Label.Proper.overflows` — what is written with too many levels is refused;
* `GraphLog.Label.Proper.parse_toText_of_shallow`, `GraphLog.Label.Proper.parse_toText_of_deep` —
  reading the canonical text of a condition;
* `GraphLog.Label.parse_toText` — **reading what was written**.
-/

import GraphLog.Proofs.Label.Shape

set_option relaxedAutoImplicit false
set_option autoImplicit false

namespace GraphLog.Label

/-! ### The text of a chain -/

/-- How a tree is written as an operand by `render`: a chain in parentheses. -/
def asOperand (t : Label) : List Char :=
  render.enclosed t.isChain t.render

/-- How further operands are written, each behind the operator. -/
def further (operator : Operator) (ts : List Label) : List Char :=
  ts.flatMap fun t => operator.symbol :: t.asOperand

@[simp] theorem further_nil (operator : Operator) : further operator [] = [] := rfl

@[simp] theorem further_cons (operator : Operator) (t : Label) (ts : List Label) :
    further operator (t :: ts) = operator.symbol :: (t.asOperand ++ further operator ts) :=
  List.flatMap_cons

theorem render_term (token : String) : (term token).render = quote token.toList := by
  rw [render]

theorem asOperand_term (token : String) : (term token).asOperand = quote token.toList := by
  rw [asOperand, render_term]
  rfl

theorem asOperand_chain (operator : Operator) (ts : List Label) :
    (chain operator ts).asOperand = '(' :: ((chain operator ts).render ++ [')']) := by
  cases operator <;> rfl

/-- A chain is written as its first operand and the further ones. -/
theorem render_chain_cons (operator : Operator) (t : Label) (ts : List Label) :
    (chain operator (t :: ts)).render = t.asOperand ++ further operator ts := by
  have unfolded : ∀ ts, (chain operator ts).render = render.joined operator.symbol ts := by
    intro ts
    cases operator <;> simp only [chain, render, Operator.symbol]
  rw [unfolded]
  induction ts generalizing t with
  | nil => simp [render.joined, asOperand]
  | cons u ts ih => simp [render.joined, asOperand, ih u]

/-- **Induction over conditions**, with one case for both operators. -/
@[elab_as_elim]
theorem Proper.byChains {motive : (t : Label) → t.Proper → Prop}
    (term : ∀ (token : String) (nonempty : token ≠ ""), motive (.term token) (.term nonempty))
    (chain : ∀ (operator : Operator) (ts : List Label) (several : 2 ≤ ts.length)
      (each : ∀ t ∈ ts, t.Proper), (∀ t mem, motive t (each t mem)) →
        motive (Label.chain operator ts) (.chain operator several each))
    {t : Label} (proper : t.Proper) : motive t proper := by
  induction proper with
  | term nonempty => exact term _ nonempty
  | and several each ih => exact chain .and _ several each ih
  | or several each ih => exact chain .or _ several each ih

/-! ### What is written is derived -/

section Derived

variable {nesting : Nat} {operator : Operator} {ts : List Label} {rest : List Char}

theorem startsNoWord_nil : StartsNoWord [] :=
  nofun

theorem startsNoWord_cons {c : Char} (rest : List Char) (other : isBare c = false) :
    StartsNoWord (c :: rest) := by
  rintro _ _ ⟨⟩
  exact other

/-- Neither `further` operands nor what may stand behind them continues a bare token. -/
theorem startsNoWord_further (operator : Operator) (ts : List Label) (ends : StartsNoWord rest) :
    StartsNoWord (further operator ts ++ rest) := by
  cases ts with
  | nil => exact ends
  | cons t ts =>
      have other : isBare operator.symbol = false := by cases operator <;> rfl
      rw [further_cons]
      exact startsNoWord_cons _ other

/-- A token is derived from its written form, bare or quoted, which is its `quote`. -/
theorem derives_quote {token : String} (nonempty : token ≠ "") (ends : StartsNoWord rest) :
    Derives nesting (.operand (.term token)) (quote token.toList ++ rest) rest := by
  have letters : token.toList ≠ [] := by simpa using nonempty
  rw [← String.ofList_toList (s := token)]
  generalize token.toList = cs at letters
  rw [String.toList_ofList, quote]
  split
  · next bare => exact .word letters (List.all_eq_true.1 bare.2) ends
  · have text : '"' :: cs.flatMap escape ++ ['"'] ++ rest =
        '"' :: cs.flatMap escape ++ '"' :: rest := by simp
    rw [text]
    exact .quoted letters

/-- Operands that are derived wherever they stand are derived behind one another. -/
theorem derives_further (nonempty : ts ≠ [])
    (each : ∀ t ∈ ts, ∀ rest, StartsNoWord rest →
      Derives nesting (.operand t) (t.asOperand ++ rest) rest) (ends : StartsNoWord rest) :
    Derives nesting (.operands operator ts) (further operator ts ++ rest) rest := by
  induction ts with
  | nil => exact absurd rfl nonempty
  | cons t ts ih =>
      obtain ⟨first, each⟩ := List.forall_mem_cons.1 each
      rw [further_cons, List.cons_append, List.append_assoc]
      cases ts with
      | nil => exact .last (first rest ends)
      | cons u us =>
          have first := first _ (startsNoWord_further operator (u :: us) ends)
          exact .more first (ih (List.cons_ne_nil u us) each)

theorem derives_render_chain (several : 2 ≤ ts.length)
    (each : ∀ t ∈ ts, ∀ rest, StartsNoWord rest →
      Derives nesting (.operand t) (t.asOperand ++ rest) rest) (ends : StartsNoWord rest) :
    Derives nesting (.expression (chain operator ts)) ((chain operator ts).render ++ rest)
      rest := by
  obtain ⟨t, ts, rfl⟩ := List.exists_cons_of_length_pos (Nat.lt_of_lt_of_le Nat.two_pos several)
  obtain ⟨first, each⟩ := List.forall_mem_cons.1 each
  have others : ts ≠ [] := by
    rintro rfl
    exact absurd several (by simp)
  rw [render_chain_cons, List.append_assoc]
  exact .chain (first _ (startsNoWord_further operator ts ends)) (derives_further others each ends)

/-- What is written for an operand is derived, if parentheses may nest as deep as the operand has
`levels`. -/
theorem Proper.derives_asOperand {t : Label} (proper : t.Proper) (shallow : t.levels ≤ nesting)
    (ends : StartsNoWord rest) : Derives nesting (.operand t) (t.asOperand ++ rest) rest := by
  induction proper using Proper.byChains generalizing nesting rest with
  | term token nonempty =>
      rw [asOperand_term]
      exact derives_quote nonempty ends
  | chain operator ts several _ ih =>
      rw [levels_chain] at shallow
      obtain ⟨inside, rfl⟩ := Nat.exists_eq_add_of_le' (Nat.le_of_add_left_le shallow)
      have each := deepest_le_iff.1 (Nat.le_of_succ_le_succ shallow)
      rw [asOperand_chain, List.cons_append, List.append_assoc]
      refine .group (derives_render_chain several (fun t mem _ => ih t mem (each t mem)) ?_)
      exact startsNoWord_cons rest rfl

/-- What `render` writes for a condition is derived, if it has at most one level more than
parentheses may nest. -/
theorem Proper.derives_render {t : Label} (proper : t.Proper) (shallow : t.levels ≤ nesting + 1) :
    Derives nesting (.expression t) t.render [] := by
  rw [← List.append_nil t.render]
  cases proper using Proper.byChains with
  | term token nonempty =>
      rw [render_term]
      exact .single (derives_quote nonempty startsNoWord_nil)
  | chain operator ts several proper =>
      rw [levels_chain] at shallow
      have each := deepest_le_iff.1 (Nat.le_of_succ_le_succ shallow)
      exact derives_render_chain several
        (fun t mem _ => (proper t mem).derives_asOperand (each t mem)) startsNoWord_nil

end Derived

/-! ### What is written too deep is refused -/

/-- **Reading a tree as an operand goes too deep** wherever the open groups leave too little room
for its `levels`. -/
def Overflows (t : Label) : Prop :=
  ∀ outer before position rest, outer.length ≤ maxNesting → maxNesting < outer.length + t.levels →
    ∃ place, run ⟨outer, before, .awaiting⟩ position (t.asOperand ++ rest) =
      .error ⟨place, .tooDeep⟩

section TooDeep

variable {outer : List (Nat × Pending)} {operator : Operator} {ts : List Label} {rest : List Char}

/-- An operand that fits is passed over. -/
theorem Proper.run_asOperand {t : Label} (proper : t.Proper)
    (fits : outer.length + t.levels ≤ maxNesting) (before : Pending) (position : Nat)
    (ends : StartsNoWord rest) :
    ∃ position', run ⟨outer, before, .awaiting⟩ position (t.asOperand ++ rest) =
      run ⟨outer, before, .complete t⟩ position' rest :=
  (proper.derives_asOperand (Nat.le_refl _) ends).runs outer before position fits

/-- Of operands behind one another, those that fit are passed over, and the first that does not fit
is refused because it `Overflows`. -/
theorem run_operands_tooDeep {t : Label} (proper : ∀ u ∈ t :: ts, u.Proper)
    (overflows : ∀ u ∈ t :: ts, u.Overflows) (open' : outer.length ≤ maxNesting)
    (deep : maxNesting < outer.length + levels.deepest (t :: ts)) {before : Pending}
    (allowed : before.Allows operator) (position : Nat) (ends : StartsNoWord rest) :
    ∃ place, run ⟨outer, before, .awaiting⟩ position
      (t.asOperand ++ (further operator ts ++ rest)) = .error ⟨place, .tooDeep⟩ := by
  induction ts generalizing t before position with
  | nil =>
      have alone : levels.deepest [t] = t.levels := Nat.max_zero _
      rw [alone] at deep
      exact overflows t List.mem_cons_self outer before position _ open' deep
  | cons u us ih =>
      obtain ⟨proper', proper⟩ := List.forall_mem_cons.1 proper
      obtain ⟨overflows', overflows⟩ := List.forall_mem_cons.1 overflows
      by_cases fits : outer.length + t.levels ≤ maxNesting
      · obtain ⟨position', passed⟩ := proper'.run_asOperand fits before position
          (startsNoWord_further operator (u :: us) ends)
        have joined : (Pending.joined operator (t :: before.earlier)).Allows operator := rfl
        rw [levels.deepest] at deep
        rw [passed, further_cons, List.cons_append, (Moves.operator allowed).run_cons,
          List.append_assoc]
        exact ih proper overflows (by omega) joined _
      · exact overflows' outer before position _ open' (Nat.lt_of_not_le fits)

/-- The text of a chain is refused on a level that leaves too little room for its operands. -/
theorem run_render_chain_tooDeep (several : 2 ≤ ts.length) (proper : ∀ t ∈ ts, t.Proper)
    (overflows : ∀ t ∈ ts, t.Overflows) (open' : outer.length ≤ maxNesting)
    (deep : maxNesting < outer.length + levels.deepest ts) (position : Nat)
    (ends : StartsNoWord rest) :
    ∃ place, run ⟨outer, .nothing, .awaiting⟩ position ((chain operator ts).render ++ rest) =
      .error ⟨place, .tooDeep⟩ := by
  obtain ⟨t, ts, rfl⟩ := List.exists_cons_of_length_pos (Nat.lt_of_lt_of_le Nat.two_pos several)
  have first : Pending.nothing.Allows operator := trivial
  rw [render_chain_cons, List.append_assoc]
  exact run_operands_tooDeep proper overflows open' deep first position ends

/-- **Every condition is refused where it does not fit**: its parenthesis is one too many, or one
inside it is. -/
theorem Proper.overflows {t : Label} (proper : t.Proper) : t.Overflows := by
  intro outer before position rest open' deep
  induction proper using Proper.byChains generalizing outer before position rest with
  | term token nonempty =>
      rw [levels] at deep
      omega
  | chain operator ts several proper ih =>
      rw [asOperand_chain, List.cons_append, List.append_assoc]
      by_cases full : outer.length = maxNesting
      · refine ⟨position, ?_⟩
        simp only [run, step, begin, if_pos, full]
      · have room : ((position, before) :: outer).length ≤ maxNesting :=
          Nat.lt_of_le_of_ne open' full
        have deep' : maxNesting < ((position, before) :: outer).length + levels.deepest ts := by
          rw [levels_chain] at deep
          rw [List.length_cons]
          omega
        rw [(Moves.group full).run_cons]
        exact run_render_chain_tooDeep several proper ih room deep' _ (startsNoWord_cons rest rfl)

end TooDeep

/-! ### Reading what was written -/

/-- A text is read by running the machine over it, unless the machine finds it empty. -/
theorem parse_of_run {text : String} {outcome : Except ParseError Label}
    (ran : run .initial 0 text.toList = outcome) (found : outcome ≠ .error ⟨0, .emptyTerm⟩) :
    parse text = outcome := by
  unfold parse
  split
  · next empty =>
      rw [empty] at ran
      exact absurd ran.symm found
  · exact ran

/-- What is derived is read, since the machine runs over it by `Derives.runs`. -/
theorem parse_of_derives {text : String} {tree : Label}
    (derives : Derives maxNesting (.expression tree) text.toList []) :
    parse text = .ok tree := by
  obtain ⟨before, operand, position, rfl, reads⟩ := derives.runs [] 0 (Nat.le_of_eq (by simp))
  exact parse_of_run reads nofun

/-- A condition with few enough `levels` is read back from its canonical text. -/
theorem Proper.parse_toText_of_shallow {t : Label} (proper : t.Proper)
    (shallow : t.levels ≤ maxNesting + 1) : parse t.toText = .ok t := by
  refine parse_of_derives ?_
  rw [toText, String.toList_ofList]
  exact proper.derives_render shallow

/-- The canonical text of a condition with more `levels` is refused, because the condition
`Overflows`. -/
theorem Proper.parse_toText_of_deep {t : Label} (proper : t.Proper)
    (deep : maxNesting + 1 < t.levels) :
    ∃ place, parse t.toText = .error ⟨place, .tooDeep⟩ := by
  cases proper using Proper.byChains with
  | term token nonempty =>
      rw [levels] at deep
      omega
  | chain operator ts several proper _ =>
      rw [levels_chain] at deep
      have deep' : maxNesting < ([] : List (Nat × Pending)).length + levels.deepest ts := by
        rw [List.length_nil]
        omega
      obtain ⟨place, refused⟩ : ∃ place, run .initial 0 ((Label.chain operator ts).render ++ []) =
          .error ⟨place, .tooDeep⟩ :=
        run_render_chain_tooDeep several proper (fun t mem => (proper t mem).overflows)
          (Nat.zero_le _) deep' 0 startsNoWord_nil
      refine ⟨place, parse_of_run ?_ (by simp)⟩
      rw [toText, String.toList_ofList, ← List.append_nil (render _)]
      exact refused

/-- What is read from a text is read again from its canonical text. -/
theorem parse_toText_of_parse {text : String} {tree : Label} (read : parse text = .ok tree) :
    parse tree.toText = .ok tree := by
  rcases derives_of_parse read with ⟨-, rfl⟩ | derives
  · rfl
  · obtain ⟨proper, shallow⟩ := derives.isShallow
    exact proper.parse_toText_of_shallow shallow

/-- **Reading what was written.**  The canonical text of a condition, or of no condition, is read as
that very tree if there is at most one level of operators more than parentheses may nest; with more
levels it is refused because it goes too deep.  So whatever was read from some text is read again
from its canonical text, which is that of no other tree that can be read, and which the tree that is
read from it has as well.  The written form of a token is read as the token. -/
theorem parse_toText :
    (∀ tree : Label, tree = .always ∨ tree.Proper →
      (tree.levels ≤ maxNesting + 1 → parse tree.toText = .ok tree) ∧
        (maxNesting + 1 < tree.levels →
          ∃ place, parse tree.toText = .error ⟨place, .tooDeep⟩)) ∧
      (∀ (text : String) (tree : Label), parse text = .ok tree →
        parse tree.toText = .ok tree ∧
          (∀ (text' : String) (tree' : Label), parse text' = .ok tree' →
            tree'.toText = tree.toText → tree' = tree) ∧
          ∀ again, parse tree.toText = .ok again → again.toText = tree.toText) ∧
      ∀ token : String, token ≠ "" →
        parse (String.ofList (quote token.toList)) = .ok (.term token) := by
  refine ⟨fun tree wellFormed => ?_, fun text tree read => ?_, fun token nonempty => ?_⟩
  · rcases wellFormed with rfl | proper
    · refine ⟨fun _ => rfl, fun deep => ?_⟩
      rw [levels] at deep
      omega
    · exact ⟨proper.parse_toText_of_shallow, proper.parse_toText_of_deep⟩
  · have back := parse_toText_of_parse read
    refine ⟨back, fun text' tree' read' same => ?_, fun again read' => ?_⟩
    · have back' := parse_toText_of_parse read'
      rw [same, back] at back'
      exact (Except.ok.inj back').symm
    · rw [Except.ok.inj (back.symm.trans read')]
  · have shallow : (term token).levels ≤ maxNesting + 1 := by
      rw [levels]
      exact Nat.zero_le _
    have back := (Proper.term nonempty).parse_toText_of_shallow shallow
    rw [toText, render_term] at back
    exact back

/-- So many chains inside one another. -/
def nested : Nat → Label
  | 0 => term "a"
  | n + 1 => and [nested n, term "b c"]

theorem proper_nested (n : Nat) : (nested n).Proper := by
  induction n with
  | zero => exact .term (by decide)
  | succ n ih =>
      have second : (term "b c").Proper := .term (by decide)
      exact .and (Nat.le_refl 2) (List.forall_mem_cons.2 ⟨ih, List.forall_mem_singleton.2 second⟩)

theorem levels_nested (n : Nat) : (nested n).levels = n := by
  induction n with
  | zero => rfl
  | succ n ih => simp [nested, levels, levels.deepest, ih]

/-- As many levels as may be, and one level more. -/
theorem parse_toText_of_nested :
    ((nested 65).Proper ∧ (nested 65).levels = maxNesting + 1 ∧
        parse (nested 65).toText = .ok (nested 65)) ∧
      (nested 66).Proper ∧ (nested 66).levels = maxNesting + 2 ∧
        ∃ place, parse (nested 66).toText = .error ⟨place, .tooDeep⟩ := by
  have fits : (nested 65).levels = maxNesting + 1 := levels_nested 65
  have deep : (nested 66).levels = maxNesting + 2 := levels_nested 66
  obtain ⟨written, -⟩ := parse_toText
  refine ⟨⟨proper_nested 65, fits, ?_⟩, proper_nested 66, deep, ?_⟩
  · exact (written _ (.inr (proper_nested 65))).1 (Nat.le_of_eq fits)
  · exact (written _ (.inr (proper_nested 66))).2 (by omega)

end GraphLog.Label
