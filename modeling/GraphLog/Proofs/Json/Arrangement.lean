/-
**Documents whose members stand in another order.**

The members of an object have no order that would matter: a document that went through a sorted map,
or through another program, says the same with its members rearranged, at every depth.  What is
asked of a document before a structure is read from it does not depend on the order either: that
every literal has a value, and that arrays and objects are not nested too deep.

Main definitions:

* `GraphLog.Json.Rearranged` — **the same document, but for the order of members**;
* `GraphLog.Json.Legible` — every literal has a value, and the document is not too deep.

Main results:

* `GraphLog.Json.legible_array_iff`, `GraphLog.Json.legible_object_iff` — one level deeper;
* `GraphLog.Json.Rearranged.legible` — legibility does not depend on the order;
* `GraphLog.Json.Rearranged.exists_members`, `GraphLog.Json.Rearranged.exists_behind_tag` — what is
  found in a document that was rearranged.
-/

import Mathlib.Data.List.Forall2
import Mathlib.Data.List.Nodup
import Mathlib.Data.List.Perm.Basic
import GraphLog.Json.Basic

set_option relaxedAutoImplicit false
set_option autoImplicit false

namespace GraphLog.Json

/-! ### Legible documents -/

/-- Every literal has a value, so that the document is `readable`, and its `depth` is at most
`n`. -/
def Legible (n : Nat) (j : Json) : Prop :=
  j.readable = true ∧ j.depth ≤ n

section Legible

variable {n : Nat}

theorem readable_all_iff {js : List Json} :
    readable.all js = true ↔ ∀ j ∈ js, j.readable = true := by
  induction js with
  | nil => simp [readable.all]
  | cons j js ih => simp [readable.all, ih]

theorem readable_allMembers_iff {ms : List (String × Json)} :
    readable.allMembers ms = true ↔ ∀ m ∈ ms, m.2.readable = true := by
  induction ms with
  | nil => simp [readable.allMembers]
  | cons m ms ih => simp [readable.allMembers, ih]

theorem depth_ofItems_le_iff {js : List Json} :
    depth.ofItems js ≤ n ↔ ∀ j ∈ js, j.depth ≤ n := by
  induction js with
  | nil => simp [depth.ofItems]
  | cons j js ih => rw [depth.ofItems, Nat.max_le, ih, List.forall_mem_cons]

theorem depth_ofMembers_le_iff {ms : List (String × Json)} :
    depth.ofMembers ms ≤ n ↔ ∀ m ∈ ms, m.2.depth ≤ n := by
  induction ms with
  | nil => simp [depth.ofMembers]
  | cons m ms ih => rw [depth.ofMembers, Nat.max_le, ih, List.forall_mem_cons]

@[simp]
theorem legible_null : null.Legible n :=
  ⟨rfl, Nat.zero_le n⟩

@[simp]
theorem legible_bool {b : Bool} : (bool b).Legible n :=
  ⟨rfl, Nat.zero_le n⟩

@[simp]
theorem legible_integer {m : Int} : (integer m).Legible n :=
  ⟨rfl, Nat.zero_le n⟩

@[simp]
theorem legible_float {x : Double} : (float x).Legible n :=
  ⟨rfl, Nat.zero_le n⟩

@[simp]
theorem legible_text {s : String} : (text s).Legible n :=
  ⟨rfl, Nat.zero_le n⟩

@[simp]
theorem not_legible_misnamed {j : Json} : ¬(misnamed j).Legible n :=
  fun legible => nomatch legible.1

@[simp]
theorem legible_array_iff {js : List Json} :
    (array js).Legible (n + 1) ↔ ∀ j ∈ js, j.Legible n := by
  rw [Legible, readable, depth, Nat.add_le_add_iff_right, readable_all_iff, depth_ofItems_le_iff,
    ← forall₂_and]
  rfl

@[simp]
theorem legible_object_iff {ms : List (String × Json)} :
    (object ms).Legible (n + 1) ↔ ∀ m ∈ ms, m.2.Legible n := by
  rw [Legible, readable, depth, Nat.add_le_add_iff_right, readable_allMembers_iff,
    depth_ofMembers_le_iff, ← forall₂_and]
  rfl

theorem Legible.mono {m : Nat} {j : Json} (legible : j.Legible n) (le : n ≤ m) : j.Legible m :=
  ⟨legible.1, Nat.le_trans legible.2 le⟩

/-- An array takes a level: of no levels it is not `Legible`. -/
@[simp]
theorem not_legible_array_zero {js : List Json} : ¬(array js).Legible 0 :=
  fun legible => absurd legible.2 (Nat.not_succ_le_zero _)

/-- An object takes a level. -/
@[simp]
theorem not_legible_object_zero {ms : List (String × Json)} : ¬(object ms).Legible 0 :=
  fun legible => absurd legible.2 (Nat.not_succ_le_zero _)

end Legible

/-! ### Arrangements -/

/-- **The same document, but for the order of members**, at every depth. -/
inductive Rearranged : Json → Json → Prop where
  | same (j : Json) : Rearranged j j
  | array {js js' : List Json} (items : List.Forall₂ Rearranged js js') :
      Rearranged (array js) (array js')
  -- the names in another order, and under each name the same but for the order
  | object {ms ms' : List (String × Json)} (names : (ms.map Prod.fst).Perm (ms'.map Prod.fst))
      (values : ∀ name j j', (name, j) ∈ ms → (name, j') ∈ ms' → Rearranged j j') :
      Rearranged (object ms) (object ms')

/-- What is on the right of related lists is related to something on the left. -/
theorem exists_of_mem_right {α β : Type} {r : α → β → Prop} {xs : List α} {ys : List β}
    (related : List.Forall₂ r xs ys) {y : β} (there : y ∈ ys) : ∃ x ∈ xs, r x y := by
  induction related with
  | nil => cases there
  | cons first _ ih =>
      rcases List.mem_cons.1 there with rfl | later
      · exact ⟨_, List.mem_cons_self, first⟩
      · obtain ⟨x, here, related⟩ := ih later
        exact ⟨x, List.mem_cons_of_mem _ here, related⟩

namespace Rearranged

variable {j : Json}

theorem null_eq (h : Rearranged null j) : j = null := by
  cases h
  rfl

theorem eq_null (h : Rearranged j null) : j = null := by
  cases h
  rfl

theorem bool_eq {b : Bool} (h : Rearranged (bool b) j) : j = bool b := by
  cases h
  rfl

theorem integer_eq {n : Int} (h : Rearranged (integer n) j) : j = integer n := by
  cases h
  rfl

theorem float_eq {x : Double} (h : Rearranged (float x) j) : j = float x := by
  cases h
  rfl

theorem text_eq {s : String} (h : Rearranged (text s) j) : j = text s := by
  cases h
  rfl

theorem exists_items {js : List Json} (h : Rearranged (Json.array js) j) :
    ∃ js', j = Json.array js' ∧ List.Forall₂ Rearranged js js' := by
  cases h with
  | same => exact ⟨js, rfl, List.forall₂_same.2 fun j _ => same j⟩
  | array items => exact ⟨_, rfl, items⟩

/-- Where names are distinct, each member is found again, and under its name what it was
`Rearranged` to. -/
theorem exists_members {ms : List (String × Json)} (distinct : (ms.map Prod.fst).Nodup)
    (h : Rearranged (Json.object ms) j) :
    ∃ ms', j = Json.object ms' ∧ (ms.map Prod.fst).Perm (ms'.map Prod.fst) ∧
      ∀ name j j', (name, j) ∈ ms → (name, j') ∈ ms' → Rearranged j j' := by
  cases h with
  | same =>
      refine ⟨ms, rfl, .refl _, fun name j j' here there => ?_⟩
      have one : (name, j) = (name, j') := List.inj_on_of_nodup_map distinct here there rfl
      obtain ⟨-, rfl⟩ := Prod.mk.inj one
      exact same j
  | object names values => exact ⟨_, rfl, names, values⟩

/-- A single member is found again. -/
theorem exists_only {name : String} {inner : Json}
    (h : Rearranged (Json.object [(name, inner)]) j) :
    ∃ inner', j = Json.object [(name, inner')] ∧ Rearranged inner inner' := by
  have distinct : ([(name, inner)].map Prod.fst).Nodup := List.nodup_singleton name
  obtain ⟨ms, rfl, names, values⟩ := exists_members distinct h
  obtain ⟨⟨name', inner'⟩, rfl, same⟩ :=
    List.map_eq_singleton_iff.1 (List.singleton_perm.1 names).symm
  obtain rfl : name' = name := same
  exact ⟨inner', rfl, values _ _ _ List.mem_cons_self List.mem_cons_self⟩

/-- What is behind a name was there before, in another order. -/
theorem exists_origin {ms ms' : List (String × Json)}
    (names : (ms.map Prod.fst).Perm (ms'.map Prod.fst))
    (values : ∀ name j j', (name, j) ∈ ms → (name, j') ∈ ms' → Rearranged j j')
    {m : String × Json} (there : m ∈ ms') : ∃ j, (m.1, j) ∈ ms ∧ Rearranged j m.2 := by
  obtain ⟨m', here, same⟩ := List.mem_map.1 (names.mem_iff.2 (List.mem_map_of_mem there))
  have here : (m.1, m'.2) ∈ ms := same ▸ here
  exact ⟨m'.2, here, values m.1 m'.2 m.2 here there⟩

/-- **Legibility does not depend on the order of members.** -/
theorem legible {n : Nat} {j' : Json} (h : Rearranged j j') (legible : j.Legible n) :
    j'.Legible n := by
  induction n generalizing j j' with
  | zero =>
      cases h with
      | same => exact legible
      | array => exact absurd legible not_legible_array_zero
      | object => exact absurd legible not_legible_object_zero
  | succ n ih =>
      cases h with
      | same => exact legible
      | array items =>
          rw [legible_array_iff] at legible ⊢
          intro j' there
          obtain ⟨j, here, rearranged⟩ := exists_of_mem_right items there
          exact ih rearranged (legible j here)
      | object names values =>
          rw [legible_object_iff] at legible ⊢
          intro m there
          obtain ⟨j, here, rearranged⟩ := exists_origin names values there
          exact ih rearranged (legible (m.1, j) here)

/-- A member that tells the case of a document is found in any order, and so are the others without
it.  This is what `tagged` looks for. -/
theorem exists_behind_tag {tag name : String} {ms : List (String × Json)}
    (distinct : (((tag, Json.text name) :: ms).map Prod.fst).Nodup)
    (h : Rearranged (Json.object ((tag, Json.text name) :: ms)) j) :
    ∃ ms', j = Json.object ms' ∧ ms'.filter (·.1 == tag) = [(tag, Json.text name)] ∧
      Rearranged (Json.object ms) (Json.object (ms'.filter (·.1 != tag))) := by
  obtain ⟨ms', rfl, names, values⟩ := exists_members distinct h
  have other : tag ∉ ms.map Prod.fst := (List.nodup_cons.1 distinct).1
  have others : ∀ name ∈ ms.map Prod.fst, name ≠ tag := fun name there same => other (same ▸ there)
  refine ⟨ms', rfl, ?_, .object ?_ fun name j j' here there => ?_⟩
  · have none : (ms.map Prod.fst).filter (· == tag) = [] :=
      List.filter_eq_nil_iff.2 fun name there => by simpa using others name there
    have one := names.filter (· == tag)
    rw [List.map_cons, List.filter_cons, if_pos (beq_self_eq_true tag), none, List.filter_map,
      List.singleton_perm] at one
    obtain ⟨⟨name', value⟩, only, same⟩ := List.map_eq_singleton_iff.1 one.symm
    obtain rfl : name' = tag := same
    have only : ms'.filter (·.1 == name') = [(name', value)] := only
    have there : (name', value) ∈ ms'.filter (·.1 == name') := by
      rw [only]
      exact List.mem_singleton_self _
    have value := text_eq (values _ _ _ List.mem_cons_self (List.mem_of_mem_filter there))
    rw [only, value]
  · have all : (ms.map Prod.fst).filter (· != tag) = ms.map Prod.fst :=
      List.filter_eq_self.2 fun name there => by simpa using others name there
    have rest := names.filter (· != tag)
    rwa [List.map_cons, List.filter_cons, if_neg (by simp), all, List.filter_map] at rest
  · exact values name j j' (List.mem_cons_of_mem _ here) (List.mem_of_mem_filter there)

end Rearranged

end GraphLog.Json
