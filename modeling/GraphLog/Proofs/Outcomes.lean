/-
**When a computation that may fail gives a value, and when it fails.**

Reading, checking and folding are steps each of which may fail.  These lemmas take such a
computation apart where it is known to have given a value or an error, and put it together where its
steps are known to.  Of many computations in turn, the first that fails decides.

Main results:

* `GraphLog.bind_eq_ok_iff` — two steps give a value if both do;
* `GraphLog.map_eq_ok_iff`, `GraphLog.mapError_eq_ok_iff` — a value or an error that is changed;
* `GraphLog.bind_eq_error_iff`, `GraphLog.mapError_eq_error_iff` — the same where there is an error;
* `GraphLog.mapM_eq_ok` — many computations in turn;
* `GraphLog.exists_first_cons_iff` — the first entry of a list that is wanted;
* `GraphLog.forall_eq_ok_or_exists_first` — all of them give a value, or there is a first one that
  fails;
* `GraphLog.mapM_eq_error` — **the first one that fails decides**.
-/

set_option relaxedAutoImplicit false
set_option autoImplicit false

namespace GraphLog

variable {ε δ α β : Type} {x : Except ε α}

@[simp]
theorem bind_eq_ok_iff {f : α → Except ε β} {b : β} :
    x >>= f = .ok b ↔ ∃ a, x = .ok a ∧ f a = .ok b := by
  cases x with
  | error e =>
      constructor
      · rintro ⟨⟩
      · intro h
        obtain ⟨_, ⟨⟩, _⟩ := h
  | ok a =>
      constructor
      · intro h
        exact ⟨a, rfl, h⟩
      · intro h
        obtain ⟨_, ⟨⟩, h⟩ := h
        exact h

@[simp]
theorem map_eq_ok_iff {f : α → β} {b : β} : x.map f = .ok b ↔ ∃ a, x = .ok a ∧ b = f a := by
  cases x with
  | error e =>
      constructor
      · rintro ⟨⟩
      · intro h
        obtain ⟨_, ⟨⟩, _⟩ := h
  | ok a =>
      constructor
      · rintro ⟨⟩
        exact ⟨a, rfl, rfl⟩
      · intro h
        obtain ⟨_, ⟨⟩, rfl⟩ := h
        rfl

@[simp]
theorem mapError_eq_ok_iff {f : ε → δ} {a : α} : x.mapError f = .ok a ↔ x = .ok a := by
  cases x with
  | error e => constructor <;> rintro ⟨⟩
  | ok b =>
      constructor
      · rintro ⟨⟩
        rfl
      · rintro ⟨⟩
        rfl

@[simp]
theorem bind_eq_error_iff {f : α → Except ε β} {e : ε} :
    x >>= f = .error e ↔ x = .error e ∨ ∃ a, x = .ok a ∧ f a = .error e := by
  cases x with
  | error e' =>
      constructor
      · rintro ⟨⟩
        exact .inl rfl
      · rintro (⟨⟨⟩⟩ | ⟨_, ⟨⟩, _⟩)
        rfl
  | ok a =>
      constructor
      · intro h
        exact .inr ⟨a, rfl, h⟩
      · rintro (⟨⟨⟩⟩ | ⟨_, ⟨⟩, h⟩)
        exact h

@[simp]
theorem mapError_eq_error_iff {f : ε → δ} {d : δ} :
    x.mapError f = .error d ↔ ∃ e, x = .error e ∧ d = f e := by
  cases x with
  | error e =>
      constructor
      · rintro ⟨⟩
        exact ⟨e, rfl, rfl⟩
      · rintro ⟨_, ⟨⟩, rfl⟩
        rfl
  | ok a =>
      constructor
      · rintro ⟨⟩
      · rintro ⟨_, ⟨⟩, _⟩

/-- Computations that all give a value give their values one after the other. -/
theorem mapM_eq_ok {f : α → Except ε β} {g : α → β} {xs : List α}
    (each : ∀ x ∈ xs, f x = .ok (g x)) : xs.mapM f = .ok (xs.map g) := by
  induction xs with
  | nil => rfl
  | cons x xs ih =>
      obtain ⟨here, rest⟩ := List.forall_mem_cons.1 each
      rw [List.mapM_cons, here, ih rest]
      rfl

/-- **The first computation that fails decides**, whatever comes behind it. -/
theorem mapM_eq_error {f : α → Except ε β} {before : List α} {x : α} {e : ε}
    (each : ∀ y ∈ before, ∃ b, f y = .ok b) (fails : f x = .error e) (after : List α) :
    (before ++ x :: after).mapM f = .error e := by
  induction before with
  | nil =>
      rw [List.nil_append, List.mapM_cons, fails]
      rfl
  | cons y ys ih =>
      obtain ⟨⟨b, here⟩, rest⟩ := List.forall_mem_cons.1 each
      rw [List.cons_append, List.mapM_cons, here, ih rest]
      rfl

/-- The first entry of a list that is wanted, behind others that are passed over, is the head of the
list or stands behind it. -/
theorem exists_first_cons_iff {passed wanted : α → Prop} {x : α} {xs : List α} :
    (∃ before y after, x :: xs = before ++ y :: after ∧ (∀ z ∈ before, passed z) ∧ wanted y) ↔
      wanted x ∨ passed x ∧
        ∃ before y after, xs = before ++ y :: after ∧ (∀ z ∈ before, passed z) ∧ wanted y := by
  constructor
  · rintro ⟨_ | ⟨z, before⟩, y, after, split, skipped, here⟩
    · cases split
      exact .inl here
    · cases split
      obtain ⟨head, skipped⟩ := List.forall_mem_cons.1 skipped
      exact .inr ⟨head, before, y, after, rfl, skipped, here⟩
  · rintro (here | ⟨head, before, y, after, rfl, skipped, here⟩)
    · exact ⟨[], x, xs, rfl, nofun, here⟩
    · exact ⟨x :: before, y, after, rfl, List.forall_mem_cons.2 ⟨head, skipped⟩, here⟩

/-- Either all computations give a value, or there is a first one that fails. -/
theorem forall_eq_ok_or_exists_first (f : α → Except ε β) (xs : List α) :
    (∀ x ∈ xs, ∃ b, f x = .ok b) ∨
      ∃ before x after e, xs = before ++ x :: after ∧ (∀ y ∈ before, ∃ b, f y = .ok b) ∧
        f x = .error e := by
  induction xs with
  | nil => exact .inl (by simp)
  | cons x xs ih =>
      cases here : f x with
      | error e => exact .inr ⟨[], x, xs, e, rfl, by simp, here⟩
      | ok b =>
          rcases ih with each | ⟨before, y, after, e, rfl, each, fails⟩
          · exact .inl (List.forall_mem_cons.2 ⟨⟨b, here⟩, each⟩)
          · exact .inr ⟨x :: before, y, after, e, rfl,
              List.forall_mem_cons.2 ⟨⟨b, here⟩, each⟩, fails⟩

end GraphLog
