/-
**Only a record of another element makes a fold fail.**

Whether a caller satisfies a label is found out from its text, which is read and evaluated when the
question comes up for the first time.  Both may fail for a text, and then whoever asked fails.  Here
folds and histories are read with questions of this kind: in the order in which the questions come,
and with the check of each record's element before its label is looked at.

A visibility is a text that parses, into a tree whose evaluation does not fail.  So no question
fails, wherever in a record the label stands, and what is left is the check of the elements.  It
comes before everything else, so a record of another element is refused even if the caller would not
see it or it lies behind the horizon.

Main definitions:

* `GraphLog.Attempt` — a computation that asks for verdicts and may fail;
* `GraphLog.Visibility.attempted` — **a question that reads and evaluates the text**;
* `GraphLog.View.tryFold`, `GraphLog.View.tryFoldElement`, `GraphLog.View.tryFoldPartition`,
  `GraphLog.History.tryOfRecords` — folds and histories with such questions.

Main results:

* `GraphLog.Visibility.attempted_eq` — **no question fails**;
* `GraphLog.Ledger.resolve_attempted`, `GraphLog.View.admitted_tryAdmits` — so nothing fails that
  asks questions, but for the check of the elements;
* `GraphLog.View.fold_outcomes` — **what a fold comes to**, and that questions have no part in
  whether it fails.
-/

import GraphLog.History
import GraphLog.Proofs.Folds
import GraphLog.Proofs.Label.Meaning

set_option relaxedAutoImplicit false
set_option autoImplicit false

namespace GraphLog

/-! ### Questions that may fail -/

/-- **A computation that asks for verdicts and may fail.** -/
abbrev Attempt := StateT VerdictCache (Except Failure)

/-- A computation that does not fail is one that may. -/
instance : MonadLift Judged Attempt :=
  ⟨fun computation cache => .ok (computation.run cache)⟩

instance : LawfulMonadLift Judged Attempt where
  monadLift_pure _ := rfl
  monadLift_bind _ _ := rfl

/-- A failure ends a computation. -/
def Attempt.ofExcept {α : Type} (outcome : Except Failure α) : Attempt α :=
  StateT.lift outcome

/-- The outcome of an `Attempt` on behalf of a caller, from a fresh cache. -/
def FoldOptions.tryJudge {α : Type} (options : FoldOptions) (held : Authorizations)
    (computation : Attempt α) : Except Failure α :=
  (computation.run (.new held options.memoizeLabels)).map (·.1)

/-- The verdict on a label, read from its text, and the cache after it.  This is
`VerdictCache.judge` without the knowledge that the text parses. -/
def VerdictCache.tryJudge (v : Visibility) (cache : VerdictCache) :
    Except Failure (Bool × VerdictCache) :=
  if v.isUnrestricted then .ok (true, cache)
  else
    match cache.remembered? v with
    | some verdict => .ok (verdict, cache)
    | none => do
      let label ← (Label.parse v.text).mapError Failure.parse
      let verdict ← (label.evaluate cache.held).mapError Failure.evaluation
      return (verdict, cache.note v verdict)

/-- A question that reads and evaluates the text of a label, for `Visibility.judged`. -/
def Visibility.attempted (v : Visibility) : Attempt Bool :=
  VerdictCache.tryJudge v

/-- **No question fails**, because the text of a visibility parses and its tree evaluates. -/
theorem Visibility.attempted_eq (v : Visibility) : v.attempted = monadLift v.judged := by
  funext cache
  change VerdictCache.tryJudge v cache = .ok (VerdictCache.judge v cache)
  unfold VerdictCache.tryJudge VerdictCache.judge
  split
  · rfl
  · cases cache.remembered? v with
    | some verdict => rfl
    | none =>
        rw [v.parse_text]
        simp only [Except.mapError, bind, Except.bind, pure, Except.pure,
          Authorizations.evaluate_label]

section Lists

variable {α β : Type} {xs : List α}

theorem monadLift_filterMapM {f : α → Judged (Option β)} {g : α → Attempt (Option β)}
    (each : ∀ x, g x = monadLift (f x)) :
    xs.filterMapM g = monadLift (xs.filterMapM f) := by
  induction xs with
  | nil => rfl
  | cons x xs ih =>
      rw [List.filterMapM_cons, List.filterMapM_cons, monadLift_bind, each]
      refine bind_congr fun y => ?_
      cases y with
      | none => exact ih
      | some b => rw [monadLift_bind, ih]; rfl

theorem monadLift_mapM {f : α → Judged β} {g : α → Attempt β}
    (each : ∀ x, g x = monadLift (f x)) : xs.mapM g = monadLift (xs.mapM f) := by
  induction xs with
  | nil => rfl
  | cons x xs ih =>
      rw [List.mapM_cons, List.mapM_cons, monadLift_bind, each]
      refine bind_congr fun y => ?_
      rw [monadLift_bind, ih]
      rfl

theorem monadLift_filterAuxM {f : α → Judged Bool} {g : α → Attempt Bool}
    (each : ∀ x, g x = monadLift (f x)) (kept : List α) :
    List.filterAuxM g xs kept = monadLift (List.filterAuxM f xs kept) := by
  induction xs generalizing kept with
  | nil => rfl
  | cons x xs ih =>
      rw [List.filterAuxM, List.filterAuxM, monadLift_bind, each]
      exact bind_congr fun b => ih _

theorem monadLift_filterM {f : α → Judged Bool} {g : α → Attempt Bool}
    (each : ∀ x, g x = monadLift (f x)) : xs.filterM g = monadLift (xs.filterM f) := by
  rw [List.filterM, List.filterM, monadLift_filterAuxM each, monadLift_bind]
  rfl

end Lists

/-! ### No question fails -/

theorem monadLift_ite {α : Type} {c : Prop} [Decidable c] {x y : Judged α} :
    (monadLift (if c then x else y) : Attempt α) = if c then monadLift x else monadLift y :=
  apply_ite ..

namespace Ledger

variable (l : Ledger) (options : FoldOptions)

theorem activeHides_attempted (slot : Slot) :
    l.activeHides Visibility.attempted options slot =
      monadLift (l.activeHides Visibility.judged options slot) :=
  monadLift_filterMapM fun label => by rw [Visibility.attempted_eq, monadLift_bind]; rfl

theorem metadataOf_attempted (slot : Slot) (since : Rank) :
    l.metadataOf Visibility.attempted slot since =
      monadLift (l.metadataOf Visibility.judged slot since) := by
  refine monadLift_filterMapM fun (place, entry) => ?_
  obtain ⟨rank, content⟩ := entry
  cases content with
  | none => rfl
  | some value =>
      simp only [Visibility.attempted_eq, monadLift_ite, monadLift_bind]
      rfl

theorem propertyOf_attempted (slot : Slot) (register : Ranked (Option Value)) :
    l.propertyOf Visibility.attempted options slot register =
      monadLift (l.propertyOf Visibility.judged options slot register) := by
  obtain ⟨rank, content⟩ := register
  cases content with
  | none => rfl
  | some value =>
      cases slot with
      | existence | adjacency => rfl
      | property key name label =>
          simp only [propertyOf, Visibility.attempted_eq, activeHides_attempted,
            metadataOf_attempted, monadLift_ite, monadLift_bind, monadLift_pure]

theorem edgeOf_attempted (slot : Slot) (register : Ranked (Option Incidence)) :
    l.edgeOf Visibility.attempted options slot register =
      monadLift (l.edgeOf Visibility.judged options slot register) := by
  obtain ⟨rank, content⟩ := register
  cases content with
  | none => rfl
  | some i =>
      simp only [edgeOf, Visibility.attempted_eq, activeHides_attempted, monadLift_ite,
        monadLift_bind, monadLift_pure]

theorem properties_attempted :
    l.properties Visibility.attempted options =
      monadLift (l.properties Visibility.judged options) :=
  monadLift_filterMapM fun p => l.propertyOf_attempted options p.1 p.2

theorem edgeStates_attempted :
    l.edgeStates Visibility.attempted options =
      monadLift (l.edgeStates Visibility.judged options) :=
  monadLift_filterMapM fun p => l.edgeOf_attempted options p.1 p.2

/-- **Nothing fails when a ledger is resolved**: the attempt comes to what `Ledger.resolve` gives by
the cache. -/
theorem resolve_attempted (element : Element) (asOf : Option Int64) :
    l.resolve Visibility.attempted options element asOf =
      monadLift (l.resolve Visibility.judged options element asOf) := by
  simp only [resolve, Visibility.attempted_eq, activeHides_attempted, properties_attempted,
    edgeStates_attempted, monadLift_ite, monadLift_bind, monadLift_pure]

end Ledger

namespace View

variable (v : View)

theorem admits_attempted (r : Record) :
    v.admits Visibility.attempted r = monadLift (v.admits Visibility.judged r) := by
  simp only [admits, Visibility.attempted_eq, monadLift_ite, monadLift_pure]

/-! ### Attempts at a fold -/

/-- A record takes part in the fold of an element.  If it is about another element it is refused,
before anything else is asked about it. -/
def tryAdmits (element : Element) (r : Record) : Attempt Bool := do
  Attempt.ofExcept ((element.checkSame r.element).mapError Failure.fold)
  v.admits Visibility.attempted r

/-- The state of an element from its records, with questions that may fail: `View.reduce` where
`View.tryAdmits` says which records take part. -/
def tryReduce (element : Element) (records : List Record) : Attempt ElementState :=
  v.reduceBy Visibility.attempted (v.tryAdmits element) element records

/-- An attempt at `foldElement`, the state of an element. -/
def tryFoldElement (element : Element) (records : List Record) : Except Failure ElementState :=
  v.options.tryJudge v.held (v.tryReduce element records)

/-- An attempt at `fold`, the state of the element of the first record. -/
def tryFold (records : List Record) : Except Failure (Option ElementState) :=
  match records with
  | [] => .ok none
  | first :: _ => some <$> v.tryFoldElement first.element records

/-- An attempt at `foldPartition`, the states of all elements. -/
def tryFoldPartition (records : List Record) : Except Failure (List ElementState) :=
  v.options.tryJudge v.held (forElements v.tryReduce records)

/-- The check of the elements alone makes records fail, and it goes first: `checkAll` before
`admitted`. -/
theorem admitted_tryAdmits (element : Element) (place : Nat) (records : List Record) :
    v.admitted (v.tryAdmits element) place records = (do
      Attempt.ofExcept ((checkAll element records).mapError Failure.fold)
      monadLift (v.admitted (v.admits Visibility.judged) place records)) := by
  induction records generalizing place with
  | nil => rfl
  | cons r rs ih =>
      rw [admitted, checkAll, admitted, tryAdmits, admits_attempted, ih]
      cases element.checkSame r.element with
      | error e => rfl
      | ok =>
          -- the question about this record does not fail, so the check of the others may go first
          change _ = (do
            Attempt.ofExcept ((checkAll element rs).mapError Failure.fold)
            monadLift _)
          cases checkAll element rs with
          | error e => rfl
          | ok => rfl

theorem tryReduce_eq (element : Element) (records : List Record) :
    v.tryReduce element records = (do
      Attempt.ofExcept ((checkAll element records).mapError Failure.fold)
      monadLift (v.reduce element records)) := by
  rw [tryReduce, reduceBy, admitted_tryAdmits, bind_assoc]
  refine bind_congr fun _ => ?_
  rw [reduce, reduceBy, monadLift_bind]
  exact bind_congr fun entries => Ledger.resolve_attempted ..

/-- An attempt at a state is the fold, with its failures. -/
theorem tryFoldElement_eq (element : Element) (records : List Record) :
    v.tryFoldElement element records = (v.foldElement element records).mapError Failure.fold := by
  rw [tryFoldElement, foldElement, tryReduce_eq]
  cases checkAll element records with
  | error e => rfl
  | ok => rfl

theorem tryFold_eq (records : List Record) :
    v.tryFold records = (v.fold records).mapError Failure.fold := by
  cases records with
  | nil => rfl
  | cons first rest =>
      rw [tryFold, fold, tryFoldElement_eq]
      cases v.foldElement first.element (first :: rest) <;> rfl

/-- An attempt at all states is the partition, and does not fail. -/
theorem tryFoldPartition_eq (records : List Record) :
    v.tryFoldPartition records = .ok (v.foldPartition records) := by
  have groups : forElements v.tryReduce records = monadLift (forElements v.reduce records) := by
    refine monadLift_mapM fun element => ?_
    have own : ∀ r ∈ records.filter (·.element = element), r.element = element :=
      fun r mem => of_decide_eq_true (List.mem_filter.1 mem).2
    rw [tryReduce_eq, checkAll_eq_ok own]
    rfl
  rw [tryFoldPartition, groups]
  rfl

end View

namespace History

/-- An attempt at `ofRecords`, the history that a caller is given. -/
def tryOfRecords (options : FoldOptions) (caller : Option Authorizations)
    (records : List Record) : Except Failure History := do
  let told ← match caller with
    | some held =>
      options.tryJudge held (records.filterM fun (r : Record) => r.visibility.attempted)
    | none => .ok records
  return ofEvents (told.map Event.mk)

/-- An attempt at a history is the history, and does not fail. -/
theorem tryOfRecords_eq (options : FoldOptions) (caller : Option Authorizations)
    (records : List Record) :
    tryOfRecords options caller records = .ok (ofRecords options caller records) := by
  cases caller with
  | none => rfl
  | some held =>
      have told : (records.filterM fun (r : Record) => r.visibility.attempted) = monadLift _ :=
        monadLift_filterM fun r => r.visibility.attempted_eq
      rw [tryOfRecords, told]
      rfl

end History

/-! ### Records of other elements -/

namespace Element

/-- Why a record of an element is refused by a fold of another: their kinds differ, or else their
ids. -/
inductive Mismatch (expected found : Element) : FoldError → Prop where
  | kinds (differ : expected.kind ≠ found.kind) :
      Mismatch expected found (.mixedKinds expected.kind found.kind)
  | ids (same : expected.kind = found.kind) (differ : expected.id ≠ found.id) :
      Mismatch expected found (.mixedElements expected found)

variable {expected found : Element}

theorem checkSame_eq_error_iff {e : FoldError} :
    expected.checkSame found = .error e ↔ expected.Mismatch found e := by
  unfold checkSame
  constructor
  · intro refused
    split at refused
    · next differ =>
      cases refused
      exact .kinds differ
    · next same =>
      split at refused
      · next differ =>
        cases refused
        exact .ids (not_not.1 same) differ
      · cases refused
  · rintro (differ | ⟨same, differ⟩)
    · rw [if_pos differ]
    · rw [if_neg (not_not.2 same), if_pos differ]

theorem checkSame_eq_ok_iff : expected.checkSame found = .ok () ↔ found = expected := by
  obtain ⟨kind, id⟩ := expected
  obtain ⟨kind', id'⟩ := found
  unfold checkSame
  constructor
  · intro passes
    split at passes
    · cases passes
    · next kinds =>
      split at passes
      · cases passes
      · next ids =>
        have kinds : kind = kind' := not_not.1 kinds
        have ids : id = id' := not_not.1 ids
        rw [kinds, ids]
  · rintro ⟨⟩
    simp

end Element

namespace View

variable (v : View)

theorem checkAll_eq_ok_iff {element : Element} {records : List Record} :
    checkAll element records = .ok () ↔ ∀ r ∈ records, r.element = element := by
  refine ⟨fun passes => ?_, checkAll_eq_ok⟩
  induction records with
  | nil => simp
  | cons r rs ih =>
      rw [checkAll] at passes
      cases here : element.checkSame r.element with
      | error e => rw [here] at passes; cases passes
      | ok =>
          rw [here] at passes
          exact List.forall_mem_cons.2 ⟨Element.checkSame_eq_ok_iff.1 here, ih passes⟩

/-- The first record of another element is the one that is refused, for the `Element.Mismatch` that
it has. -/
theorem checkAll_eq_error_iff {element : Element} {records : List Record} {e : FoldError} :
    checkAll element records = .error e ↔
      ∃ before r after, records = before ++ r :: after ∧ (∀ s ∈ before, s.element = element) ∧
        element.Mismatch r.element e := by
  induction records with
  | nil => simp [checkAll]
  | cons first rest ih =>
      rw [exists_first_cons_iff, ← ih, ← Element.checkSame_eq_error_iff,
        ← Element.checkSame_eq_ok_iff, checkAll]
      cases element.checkSame first.element with
      | error => simp [bind, Except.bind]
      | ok => simp [bind, Except.bind]

/-- A fold takes the element of the first record, and checks the others. -/
theorem fold_cons (first : Record) (rest : List Record) :
    v.fold (first :: rest) =
      (checkAll first.element rest).map fun _ =>
        some (v.stateOf first.element (first :: rest)) := by
  have here : first.element.checkSame first.element = .ok () := Element.checkSame_eq_ok_iff.2 rfl
  rw [fold, foldElement_eq_map, checkAll, here]
  cases h : checkAll first.element rest <;> rfl

theorem fold_eq_ok_none_iff {records : List Record} : v.fold records = .ok none ↔ records = [] := by
  cases records with
  | nil => exact iff_of_true rfl rfl
  | cons first rest =>
      rw [fold_cons]
      cases checkAll first.element rest <;> simp [Except.map]

/-- A fold gives a state if all records are about one element. -/
theorem exists_fold_eq_ok_some_iff {records : List Record} :
    (∃ state, v.fold records = .ok (some state)) ↔
      ∃ first rest, records = first :: rest ∧ ∀ r ∈ rest, r.element = first.element := by
  constructor
  · rintro ⟨state, folds⟩
    cases records with
    | nil => cases folds
    | cons first rest =>
        refine ⟨first, rest, rfl, checkAll_eq_ok_iff.1 ?_⟩
        rw [fold_cons] at folds
        cases h : checkAll first.element rest with
        | error e => rw [h] at folds; cases folds
        | ok => rfl
  · rintro ⟨first, rest, rfl, own⟩
    exact ⟨_, fold_eq v (List.forall_mem_cons.2 ⟨rfl, own⟩) (List.cons_ne_nil first rest)⟩

/-- A fold fails with the first record of another element. -/
theorem fold_eq_error_iff {records : List Record} {e : FoldError} :
    v.fold records = .error e ↔
      ∃ first before r after, records = first :: (before ++ r :: after) ∧
        (∀ s ∈ before, s.element = first.element) ∧ first.element.Mismatch r.element e := by
  cases records with
  | nil => simp [fold]
  | cons first rest =>
      have refused : v.fold (first :: rest) = .error e ↔
          checkAll first.element rest = .error e := by
        rw [fold_cons]
        cases checkAll first.element rest <;> simp [Except.map]
      rw [refused, checkAll_eq_error_iff]
      constructor
      · rintro ⟨before, r, after, rfl, own, mismatch⟩
        exact ⟨first, before, r, after, rfl, own, mismatch⟩
      · rintro ⟨_, before, r, after, ⟨⟩, own, mismatch⟩
        exact ⟨before, r, after, rfl, own, mismatch⟩

/-- A fold fails if some record is about another element than the first. -/
theorem exists_fold_eq_error_iff {records : List Record} :
    (∃ e, v.fold records = .error e) ↔
      ∃ first rest, records = first :: rest ∧ ∃ r ∈ rest, r.element ≠ first.element := by
  cases records with
  | nil => simp [fold]
  | cons first rest =>
      have passes : (∃ r ∈ rest, r.element ≠ first.element) ↔
          checkAll first.element rest ≠ .ok () := by
        rw [ne_eq, checkAll_eq_ok_iff]
        simp
      rw [fold_cons]
      constructor
      · rintro ⟨e, fails⟩
        refine ⟨first, rest, rfl, passes.2 fun passed => ?_⟩
        rw [passed] at fails
        cases fails
      · rintro ⟨_, _, ⟨⟩, foreign⟩
        cases h : checkAll first.element rest with
        | error e => exact ⟨e, rfl⟩
        | ok => exact absurd h (passes.1 foreign)

/-- **What a fold comes to.**  It gives nothing just if there is no record, and a state just if all
records are about the element of the first.  Otherwise it fails, and names the first record of
another element, whatever the caller and the horizon.  It would fail no more often if each question
about a label read and evaluated its text; and neither would a fold of an element, a partition or a
history, of which the last two do not fail at all. -/
theorem fold_outcomes (records : List Record) :
    (v.fold records = .ok none ↔ records = []) ∧
      ((∃ state, v.fold records = .ok (some state)) ↔
        ∃ first rest, records = first :: rest ∧ ∀ r ∈ rest, r.element = first.element) ∧
      ((∃ e, v.fold records = .error e) ↔
        ∃ first rest, records = first :: rest ∧ ∃ r ∈ rest, r.element ≠ first.element) ∧
      (∀ e, v.fold records = .error e ↔
        ∃ first before r after, records = first :: (before ++ r :: after) ∧
          (∀ s ∈ before, s.element = first.element) ∧ first.element.Mismatch r.element e) ∧
      v.tryFold records = (v.fold records).mapError Failure.fold ∧
      (∀ element, v.tryFoldElement element records =
        (v.foldElement element records).mapError Failure.fold) ∧
      v.tryFoldPartition records = .ok (v.foldPartition records) ∧
      ∀ caller, History.tryOfRecords v.options caller records =
        .ok (History.ofRecords v.options caller records) := by
  exact ⟨v.fold_eq_ok_none_iff, v.exists_fold_eq_ok_some_iff, v.exists_fold_eq_error_iff,
    fun _ => v.fold_eq_error_iff, v.tryFold_eq records,
    fun element => v.tryFoldElement_eq element records, v.tryFoldPartition_eq records,
    fun caller => History.tryOfRecords_eq v.options caller records⟩

end View

end GraphLog
