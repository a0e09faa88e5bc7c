/-
**One cache for many questions.**

A cache of verdicts changes with every question, and a partition hands it on from element to
element.  What is in it at any time can be said exactly: the verdicts on the labels that were asked
about, those without a condition excepted, each under the text of its label.  One question keeps
this true, so it is true after any number of them.  No verdict in the cache is ever stale, and so it
does not matter whether there is a memory, nor which questions were asked before: every fold,
history and annotation is the same with it and without it, and a partition shows of each element
what a fold of its records alone would show.

Main definitions:

* `GraphLog.VerdictCache.ask` — a cache is asked about labels in turn;
* `GraphLog.VerdictCache.Remembers` — **what a cache remembers** after such questions;
* `GraphLog.View.remembering` — the same view with or without a memory.

Main results:

* `GraphLog.VerdictCache.Remembers.judge`, `GraphLog.VerdictCache.Remembers.ask` — one question, and
  any number of them;
* `GraphLog.VerdictCache.Remembers.size_eq` — the size of a cache counts the texts;
* `GraphLog.View.indifferent_to_memory` — **whether verdicts are remembered changes no result**;
* `GraphLog.View.foldPartition_by_elements` — **a partition folds each element by itself**.
-/

import Mathlib.Data.Finset.Card
import GraphLog.Proofs.Folds
import GraphLog.Proofs.Histories

set_option relaxedAutoImplicit false
set_option autoImplicit false

namespace GraphLog

/-- Visibilities of one text are equal. -/
theorem Visibility.eq_of_text {v w : Visibility} (texts : v.text = w.text) : v = w := by
  cases v
  cases w
  simpa using texts

namespace VerdictCache

/-! ### What a cache remembers -/

/-- A cache is asked about labels in turn by `judge`: the verdicts, and the cache after the last. -/
def ask (cache : VerdictCache) : List Visibility → List Bool × VerdictCache
  | [] => ([], cache)
  | v :: vs =>
    ((judge v cache).1 :: ((judge v cache).2.ask vs).1, ((judge v cache).2.ask vs).2)

/-- **What a cache remembers after it was asked about some labels**: if it remembers anything, the
verdicts on these labels by their texts, but not on the empty text. -/
structure Remembers (held : Authorizations) (remembers : Bool) (asked : List Visibility)
    (cache : VerdictCache) : Prop where
  /-- The cache is about this caller. -/
  held_eq : cache.held = held
  /-- The cache is switched on, or it is switched off. -/
  remembers_eq : cache.remembers = remembers
  /-- The verdicts in the cache. -/
  getElem?_eq_some_iff : ∀ (text : String) (verdict : Bool),
    cache.verdicts[text]? = some verdict ↔
      remembers ∧ text ≠ "" ∧ ∃ v ∈ asked, v.text = text ∧ held.sees v = verdict

theorem remembers_new (held : Authorizations) (remembers : Bool) :
    Remembers held remembers [] (new held remembers) :=
  ⟨rfl, rfl, by simp [new]⟩

section

variable {held : Authorizations} {remembers : Bool} {asked : List Visibility}
  {cache : VerdictCache}

theorem Remembers.sound (h : Remembers held remembers asked cache) : cache.Sound held := by
  refine ⟨h.held_eq, fun v verdict stored => ?_⟩
  obtain ⟨-, -, w, -, texts, sees⟩ := (h.getElem?_eq_some_iff v.text verdict).1 stored
  rw [← Visibility.eq_of_text texts, sees]

/-- A question whose verdict is known already adds nothing. -/
theorem Remembers.again (h : Remembers held remembers asked cache) {v : Visibility}
    (known : remembers → v.text ≠ "" → cache.verdicts[v.text]? = some (held.sees v)) :
    Remembers held remembers (asked ++ [v]) cache := by
  refine ⟨h.held_eq, h.remembers_eq, fun text verdict => ?_⟩
  constructor
  · intro stored
    obtain ⟨on, nonempty, w, mem, said⟩ := (h.getElem?_eq_some_iff text verdict).1 stored
    exact ⟨on, nonempty, w, List.mem_append_left [v] mem, said⟩
  · rintro ⟨on, nonempty, w, mem, rfl, rfl⟩
    rcases List.mem_append.1 mem with earlier | now
    · exact (h.getElem?_eq_some_iff w.text _).2 ⟨on, nonempty, w, earlier, rfl, rfl⟩
    · obtain rfl := List.mem_singleton.1 now
      exact known on nonempty

/-- A verdict that is noted is remembered from now on. -/
theorem Remembers.insert (h : Remembers held true asked cache) {v : Visibility}
    (nonempty : v.text ≠ "") :
    Remembers held true (asked ++ [v])
      { cache with verdicts := cache.verdicts.insert v.text (held.sees v) } := by
  refine ⟨h.held_eq, h.remembers_eq, fun text verdict => ?_⟩
  rw [Std.ExtTreeMap.getElem?_insert]
  split
  · next texts =>
      obtain rfl := Std.LawfulEqCmp.eq_of_compare texts
      constructor
      · rintro ⟨⟩
        exact ⟨rfl, nonempty, v, by simp, rfl, rfl⟩
      · rintro ⟨-, -, w, -, same, rfl⟩
        rw [Visibility.eq_of_text same]
  · next texts =>
      have other : v.text ≠ text := by simpa using texts
      rw [h.getElem?_eq_some_iff]
      simp [other]

/-- The same is true of a cache that may be switched off, where `note` does nothing. -/
theorem Remembers.note (h : Remembers held remembers asked cache) {v : Visibility}
    (nonempty : v.text ≠ "") :
    Remembers held remembers (asked ++ [v]) (cache.note v (held.sees v)) := by
  cases remembers with
  | false =>
      have off : cache.note v (held.sees v) = cache := by
        simp [VerdictCache.note, h.remembers_eq]
      rw [off]
      exact h.again nofun
  | true =>
      have noted : cache.note v (held.sees v) =
          { cache with verdicts := cache.verdicts.insert v.text (held.sees v) } := by
        simp [VerdictCache.note, h.remembers_eq]
      rw [noted]
      exact h.insert nonempty

/-- **One question** gets the verdict of the tokens, and the cache remembers it as well. -/
theorem Remembers.judge (h : Remembers held remembers asked cache) (v : Visibility) :
    Remembers held remembers (asked ++ [v]) (judge v cache).2 := by
  unfold VerdictCache.judge
  split
  · next free =>
      have empty : v.text = "" := by simpa [Visibility.isUnrestricted] using free
      exact h.again fun _ nonempty => absurd empty nonempty
  · next bound =>
      have nonempty : v.text ≠ "" := by simpa [Visibility.isUnrestricted] using bound
      rw [h.held_eq]
      cases found : cache.remembered? v with
      | none => exact h.note nonempty
      | some verdict =>
          obtain ⟨-, stored⟩ : remembers = true ∧ cache.verdicts[v.text]? = some verdict := by
            simpa [remembered?, h.remembers_eq] using found
          rw [← h.sound.sees_eq v verdict stored] at stored
          exact h.again fun _ _ => stored

/-- Any number of questions: each gets the verdict of the tokens, and the cache remembers what it
was asked about. -/
theorem Remembers.ask (h : Remembers held remembers asked cache) (vs : List Visibility) :
    (cache.ask vs).1 = vs.map held.sees ∧
      Remembers held remembers (asked ++ vs) (cache.ask vs).2 := by
  induction vs generalizing asked cache with
  | nil =>
      rw [List.append_nil]
      exact ⟨rfl, h⟩
  | cons v vs ih =>
      obtain ⟨verdicts, rest⟩ := ih (h.judge v)
      refine ⟨?_, ?_⟩
      · rw [VerdictCache.ask, List.map_cons, judge_eq_sees h.sound, verdicts]
      · rw [List.append_assoc] at rest
        exact rest

/-- The `size` of a cache counts the texts that it was asked about, without the empty one. -/
theorem Remembers.size_eq (h : Remembers held remembers asked cache) :
    cache.size = if remembers then ((asked.map (·.text)).toFinset.erase "").card else 0 := by
  have mem : ∀ text, text ∈ cache.verdicts.keys ↔
      remembers ∧ text ≠ "" ∧ ∃ v ∈ asked, v.text = text := by
    intro text
    rw [Std.ExtTreeMap.mem_keys, Std.ExtTreeMap.mem_iff_isSome_getElem?, Option.isSome_iff_exists]
    simp only [h.getElem?_eq_some_iff]
    constructor
    · rintro ⟨-, on, nonempty, v, mem, text, -⟩
      exact ⟨on, nonempty, v, mem, text⟩
    · rintro ⟨on, nonempty, v, mem, text⟩
      exact ⟨_, on, nonempty, v, mem, text, rfl⟩
  rw [size, ← Std.ExtTreeMap.length_keys]
  cases remembers with
  | false =>
      have none : cache.verdicts.keys = [] :=
        List.eq_nil_iff_forall_not_mem.2 fun text stored => by simpa using ((mem text).1 stored).1
      rw [none]
      rfl
  | true =>
      have texts : (asked.map (·.text)).toFinset.erase "" = cache.verdicts.keys.toFinset := by
        ext text
        simp [mem]
      rw [if_pos rfl, texts, List.toFinset_card_of_nodup Std.ExtTreeMap.nodup_keys]

end

end VerdictCache

/-! ### Memory changes no result -/

namespace View

/-- The same view with or without a memory for verdicts. -/
def remembering (v : View) (remembers : Bool) : View :=
  { v with options := { v.options with memoizeLabels := remembers } }

variable (v : View) (remembers : Bool)

theorem entries_remembering (place : Nat) (records : List Record) :
    (v.remembering remembers).entries place records = v.entries place records :=
  entries_congr v (v.remembering remembers) rfl rfl place records

/-- Records add up to the same state, because no rule but the one about memory differs in the view
`remembering`. -/
theorem stateOf_remembering (e : Element) (records : List Record) :
    (v.remembering remembers).stateOf e records = v.stateOf e records := by
  rw [stateOf, stateOf, entries_remembering]
  rfl

theorem foldElement_remembering (e : Element) (records : List Record) :
    (v.remembering remembers).foldElement e records = v.foldElement e records := by
  rw [foldElement_eq_map, foldElement_eq_map, stateOf_remembering]

theorem fold_remembering (records : List Record) :
    (v.remembering remembers).fold records = v.fold records := by
  cases records with
  | nil => rfl
  | cons first rest => rw [fold, fold, foldElement_remembering]

theorem foldPartition_remembering (records : List Record) :
    (v.remembering remembers).foldPartition records = v.foldPartition records := by
  rw [foldPartition_eq, foldPartition_eq]
  exact List.map_congr_left fun e _ => stateOf_remembering v remembers e _

/-- **Whether verdicts are remembered changes no result**, be it that of a fold, of a partition or
of a history, or the verdicts beside the events of a history or of a page.  A cache gives every
question the answer that evaluating the label gives, and none of them fails.  If it is switched on,
it holds the verdicts on the labels that were asked about so far, the empty one excepted, and no
other; each is what evaluating the label of its text gives, and there are as many as there are
texts. -/
theorem indifferent_to_memory (v : View) (remembers : Bool) :
    let v' := v.remembering remembers
    (∀ records, v'.fold records = v.fold records) ∧
      (∀ e records, v'.foldElement e records = v.foldElement e records) ∧
      (∀ records, v'.foldPartition records = v.foldPartition records) ∧
      (∀ caller records, History.ofRecords v'.options caller records =
        History.ofRecords v.options caller records) ∧
      (∀ held events, annotate v'.options held events = annotate v.options held events) ∧
      ∀ asked : List Visibility,
        let verdicts := ((VerdictCache.new v.held remembers).ask asked).1
        let cache := ((VerdictCache.new v.held remembers).ask asked).2
        verdicts = asked.map v.held.sees ∧
          asked.mapM (fun label => label.label.evaluate v.held) = .ok verdicts ∧
          (∀ text verdict, cache.verdicts[text]? = some verdict ↔
            remembers ∧ text ≠ "" ∧ (∃ label ∈ asked, label.text = text) ∧
              ∃ tree, Label.parse text = .ok tree ∧ tree.evaluate v.held = .ok verdict) ∧
          cache.size = if remembers then ((asked.map (·.text)).toFinset.erase "").card else 0 := by
  intro v'
  refine ⟨v.fold_remembering remembers, v.foldElement_remembering remembers,
    v.foldPartition_remembering remembers, fun caller records => ?_, fun held events => ?_,
    fun asked => ?_⟩
  · rw [History.ofRecords_eq, History.ofRecords_eq]
  · rw [History.annotate_eq, History.annotate_eq]
  · obtain ⟨verdicts, remembered⟩ := (VerdictCache.remembers_new v.held remembers).ask asked
    rw [List.nil_append] at remembered
    refine ⟨verdicts, ?_, fun text verdict => ?_, remembered.size_eq⟩
    · rw [verdicts]
      exact mapM_eq_ok fun label _ => v.held.evaluate_label label
    · rw [remembered.getElem?_eq_some_iff]
      constructor
      · rintro ⟨on, nonempty, label, mem, rfl, rfl⟩
        exact ⟨on, nonempty, ⟨label, mem, rfl⟩, _, label.parse_text, v.held.evaluate_label label⟩
      · rintro ⟨on, nonempty, ⟨label, mem, rfl⟩, tree, read, evaluates⟩
        obtain rfl := Except.ok.inj (label.parse_text.symm.trans read)
        rw [v.held.evaluate_label label] at evaluates
        exact ⟨on, nonempty, label, mem, rfl, Except.ok.inj evaluates⟩

/-! ### Partitions -/

/-- **A partition folds each element by itself.**  It has one state for each element that the
records are about, in the order of the elements, and this is what a fold of the element's own
records gives, in the order in which they come.  None of these folds fails: each finds records of
its element only, and every label that it asks about has a verdict. -/
theorem foldPartition_by_elements (v : View) (records : List Record) :
    (elements records).Pairwise (fun a b => compare a b = .lt) ∧
      (∀ e, e ∈ elements records ↔ ∃ r ∈ records, r.element = e) ∧
      (v.foldPartition records).map (·.element) = elements records ∧
      (elements records).mapM (fun e => v.foldElement e (records.filter (·.element = e))) =
        .ok (v.foldPartition records) ∧
      ∀ label : Visibility, label.label.evaluate v.held = .ok (v.held.sees label) := by
  refine ⟨Std.ExtTreeSet.ordered_toList, fun e => mem_elements, ?_, ?_, v.held.evaluate_label⟩
  · rw [foldPartition_eq, List.map_map]
    exact (List.map_congr_left fun e _ => v.element_stateOf e _).trans (List.map_id _)
  · rw [foldPartition_eq]
    exact mapM_eq_ok fun e _ => v.foldElement_eq (by simp)

end View

end GraphLog
