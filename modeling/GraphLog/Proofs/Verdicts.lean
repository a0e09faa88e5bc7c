/-
**Asking a cache for verdicts is asking the caller's tokens.**

Folds and histories ask for verdicts through a cache, which changes with every question.  This
module says what such a computation gives: as long as the cache remembers right verdicts only, each
question is answered by `GraphLog.Authorizations.sees`, and the cache stays right.  So a computation
can be replaced by a function of the tokens, and no cache occurs in what is said about it.

Main definitions:

* `GraphLog.VerdictCache.Sound` — every remembered verdict is that of the tokens;
* `GraphLog.Judged.Gives` — what a computation gives, whatever a sound cache remembers.

Main results:

* `GraphLog.VerdictCache.judge_eq_sees`, `GraphLog.VerdictCache.Sound.judge` — one question;
* `GraphLog.Judged.Gives.bind`, `GraphLog.Judged.Gives.mapM`, `GraphLog.Judged.Gives.filterM`,
  `GraphLog.Judged.Gives.filterMapM` — computations of several questions;
* `GraphLog.FoldOptions.judge_eq` — **the result does not depend on what is remembered**.
-/

import GraphLog.Fold.View

set_option relaxedAutoImplicit false
set_option autoImplicit false

namespace GraphLog

/-- Everybody `sees` what has the visibility without a condition. -/
theorem Authorizations.sees_of_isUnrestricted (held : Authorizations) {v : Visibility}
    (h : v.isUnrestricted) : held.sees v = true := by
  have text : v.text = "" := by simpa [Visibility.isUnrestricted] using h
  have always : Label.parse v.text = .ok .always := by rw [text]; rfl
  have label : v.label = .always := by simpa [v.parse_text] using always
  simp [sees, label, Label.evaluate]

namespace VerdictCache

/-- **Every remembered verdict is that of the tokens.** -/
structure Sound (held : Authorizations) (cache : VerdictCache) : Prop where
  /-- The cache is about this caller. -/
  held_eq : cache.held = held
  /-- What is remembered about a label is the verdict on it. -/
  sees_eq : ∀ (v : Visibility) (verdict : Bool),
    cache.verdicts[v.text]? = some verdict → held.sees v = verdict

theorem sound_new (held : Authorizations) (remembers : Bool) :
    Sound held (new held remembers) :=
  ⟨rfl, by simp [new]⟩

/-- Visibilities of one text are equal, so a verdict that is noted by `note` under a text is right
for all of them. -/
theorem Sound.note {held : Authorizations} {cache : VerdictCache} (sound : Sound held cache)
    (v : Visibility) : Sound held (cache.note v (held.sees v)) := by
  unfold VerdictCache.note
  split
  · refine ⟨sound.held_eq, ?_⟩
    intro w verdict h
    rw [Std.ExtTreeMap.getElem?_insert] at h
    split at h
    · next texts =>
      have same : v = w := by
        cases v
        cases w
        simpa using Std.LawfulEqCmp.eq_of_compare texts
      rw [← same]
      exact Option.some_inj.1 h
    · exact sound.sees_eq w verdict h
  · exact sound

theorem judge_eq_sees {held : Authorizations} {cache : VerdictCache} (sound : Sound held cache)
    (v : Visibility) : (judge v cache).1 = held.sees v := by
  unfold judge
  split
  · next h => rw [held.sees_of_isUnrestricted h]
  · cases h : cache.remembered? v with
    | none => rw [sound.held_eq]
    | some verdict =>
        have remembered : cache.verdicts[v.text]? = some verdict := by
          unfold remembered? at h
          split at h
          · exact h
          · exact absurd h (by simp)
        exact (sound.sees_eq v verdict remembered).symm

theorem Sound.judge {held : Authorizations} {cache : VerdictCache} (sound : Sound held cache)
    (v : Visibility) : Sound held (judge v cache).2 := by
  unfold VerdictCache.judge
  split
  · exact sound
  · cases cache.remembered? v with
    | none => simpa [sound.held_eq] using sound.note v
    | some verdict => exact sound

end VerdictCache

/-! ### Computations -/

/-- **The computation gives `a`, whatever a sound cache remembers**, and leaves a sound cache. -/
def Judged.Gives {α : Type} (held : Authorizations) (computation : Judged α) (a : α) : Prop :=
  ∀ cache : VerdictCache, cache.Sound held →
    (computation.run cache).1 = a ∧ (computation.run cache).2.Sound held

namespace Judged.Gives

variable {α β : Type} {held : Authorizations}

theorem pure (a : α) : Gives held (Pure.pure a) a :=
  fun _ sound => ⟨rfl, sound⟩

theorem judged (v : Visibility) : Gives held v.judged (held.sees v) :=
  fun _ sound => ⟨VerdictCache.judge_eq_sees sound v, sound.judge v⟩

theorem bind {x : Judged α} {f : α → Judged β} {a : α} {b : β} (first : Gives held x a)
    (second : Gives held (f a) b) : Gives held (x >>= f) b := by
  intro cache sound
  obtain ⟨value, sound'⟩ := first cache sound
  have rest := second _ sound'
  rw [← value] at rest
  exact rest

theorem map {x : Judged α} {a : α} (f : α → β) (gives : Gives held x a) :
    Gives held (f <$> x) (f a) := by
  rw [map_eq_pure_bind]
  exact bind gives (pure (f a))

theorem ite {c : Prop} [Decidable c] {x y : Judged α} {a b : α} (yes : c → Gives held x a)
    (no : ¬c → Gives held y b) :
    Gives held (if c then x else y) (if c then a else b) := by
  split
  · next h => exact yes h
  · next h => exact no h

theorem filterMapM {f : α → Judged (Option β)} {g : α → Option β} {xs : List α}
    (each : ∀ x ∈ xs, Gives held (f x) (g x)) :
    Gives held (xs.filterMapM f) (xs.filterMap g) := by
  induction xs with
  | nil => exact pure []
  | cons x xs ih =>
      rw [List.filterMapM_cons]
      have rest := ih fun y mem => each y (List.mem_cons_of_mem x mem)
      refine bind (each x List.mem_cons_self) ?_
      cases h : g x with
      | none => simpa [List.filterMap_cons, h] using rest
      | some b => simpa [List.filterMap_cons, h] using map (b :: ·) rest

theorem mapM {f : α → Judged β} {g : α → β} {xs : List α}
    (each : ∀ x ∈ xs, Gives held (f x) (g x)) : Gives held (xs.mapM f) (xs.map g) := by
  induction xs with
  | nil => exact pure []
  | cons x xs ih =>
      rw [List.mapM_cons]
      have rest := ih fun y mem => each y (List.mem_cons_of_mem x mem)
      exact bind (each x List.mem_cons_self) (bind rest (pure _))

/-- What was kept already stands behind, the last in front. -/
theorem filterAuxM {f : α → Judged Bool} {g : α → Bool} {xs : List α}
    (each : ∀ x ∈ xs, Gives held (f x) (g x)) (kept : List α) :
    Gives held (List.filterAuxM f xs kept) ((xs.filter g).reverse ++ kept) := by
  induction xs generalizing kept with
  | nil => exact pure kept
  | cons x xs ih =>
      have rest := ih fun y mem => each y (List.mem_cons_of_mem x mem)
      rw [List.filterAuxM]
      refine bind (each x List.mem_cons_self) ?_
      cases h : g x with
      | true => simpa [List.filter_cons, h] using rest (x :: kept)
      | false => simpa [List.filter_cons, h] using rest kept

theorem filterM {f : α → Judged Bool} {g : α → Bool} {xs : List α}
    (each : ∀ x ∈ xs, Gives held (f x) (g x)) : Gives held (xs.filterM f) (xs.filter g) := by
  have kept := map List.reverse (filterAuxM each [])
  rw [List.append_nil, List.reverse_reverse, map_eq_pure_bind] at kept
  exact kept

end Judged.Gives

/-- The result of a computation that `Gives` one does not depend on what is remembered. -/
theorem FoldOptions.judge_eq {α : Type} (options : FoldOptions) {held : Authorizations}
    {computation : Judged α} {a : α} (gives : computation.Gives held a) :
    options.judge held computation = a :=
  (gives _ (VerdictCache.sound_new held options.memoizeLabels)).1

end GraphLog
