/-
**What is read from the parts of a document.**

A structure is read from a document exactly if each of its fields is: readings stand side by side,
and all of them have to give a value.  So a field holds a value wherever its document stands among
the members, and a document restores what was written as soon as each of its parts does, in whatever
order the members have come.

Main definitions:

* `GraphLog.Json.Gather.Gives` — readings side by side all give a value;
* `GraphLog.Json.Members.Holds` — a field is there and is read as a value;
* `GraphLog.Json.Restores` — **a reader gives back what was written**, however it was rearranged.

Main results:

* `GraphLog.Json.structured_eq_ok_iff`, `GraphLog.Json.Members.gives_required_iff` and its
  companions — when a structure and its fields are read;
* `GraphLog.Json.restores_structured`, `GraphLog.Json.exists_tagged`,
  `GraphLog.Json.restores_asList` — **structures, cases and lists are restored part by part**.
-/

import GraphLog.Json.Shape
import GraphLog.Proofs.Json.Arrangement
import GraphLog.Proofs.Outcomes

set_option relaxedAutoImplicit false
set_option autoImplicit false

namespace GraphLog.Json

variable {α β : Type}

/-! ### Readings side by side -/

namespace Gather

/-- All readings of a `Gather` give a value, and this is what becomes of them. -/
def Gives (g : Gather α) (x : α) : Prop :=
  g.outcome = .ok x

@[simp]
theorem gives_pure_iff {x y : α} : (pure x : Gather α).Gives y ↔ y = x := by
  show Except.ok x = Except.ok y ↔ _
  simp [eq_comm]

@[simp]
theorem gives_seq_iff {f : Gather (α → β)} {g : Gather α} {y : β} :
    (f <*> g).Gives y ↔ ∃ h x, f.Gives h ∧ g.Gives x ∧ y = h x := by
  show (f.apply g).outcome = .ok y ↔ _
  unfold apply Gives
  cases f.outcome <;> cases g.outcome <;> simp [eq_comm]

@[simp]
theorem gives_map_iff {f : α → β} {g : Gather α} {y : β} :
    (f <$> g).Gives y ↔ ∃ x, g.Gives x ∧ y = f x := by
  show (pure f <*> g : Gather β).Gives y ↔ _
  simp

theorem Gives.map {g : Gather α} {x : α} (gives : g.Gives x) (f : α → β) :
    (f <$> g).Gives (f x) :=
  gives_map_iff.2 ⟨x, gives, rfl⟩

theorem Gives.seq {f : Gather (α → β)} {g : Gather α} {h : α → β} {x : α} (gives : f.Gives h)
    (gives' : g.Gives x) : (f <*> g).Gives (h x) :=
  gives_seq_iff.2 ⟨h, x, gives, gives', rfl⟩

end Gather

/-! ### Fields -/

namespace Members

variable {ms : Members} {name : String} {read : Json → Except Fault α} {x : α}

/-- **The field with this name is there, and is read as `x`.** -/
def Holds (ms : Members) (name : String) (read : Json → Except Fault α) (x : α) : Prop :=
  ∃ j, ms.entries.lookup name = some j ∧ read j = .ok x

/-- A field is read in one way, whatever it `Holds`. -/
theorem Holds.unique {y : α} (holds : ms.Holds name read x) (holds' : ms.Holds name read y) :
    x = y := by
  obtain ⟨j, found, reads⟩ := holds
  obtain ⟨j', found', reads'⟩ := holds'
  rw [found] at found'
  obtain rfl := Option.some.inj found'
  rw [reads] at reads'
  exact Except.ok.inj reads'

/-- The member that is found is the first with its name, as `List.lookup` finds it. -/
theorem map_find? (ms : Members) (name : String) :
    (ms.find? name).map Prod.snd = ms.entries.lookup name := by
  obtain ⟨names, entries⟩ := ms
  have from_place (place : Nat) :
      ((entries.zipIdx place).find? fun m => m.1.1 == name).map (fun m => m.1.2) =
        entries.lookup name := by
    induction entries generalizing place with
    | nil => rfl
    | cons m entries ih =>
        obtain ⟨n, j⟩ := m
        rw [List.zipIdx_cons, List.find?_cons, List.lookup_cons]
        by_cases same : n = name
        · simp [same]
        · simp only [beq_false_of_ne same, beq_false_of_ne (Ne.symm same)]
          exact ih (place + 1)
  rw [find?, Option.map_map]
  exact from_place 0

theorem gives_readAt_iff {place : Nat} {j : Json} :
    (readAt read place j).Gives x ↔ read j = .ok x :=
  mapError_eq_ok_iff

/-- A field that must be there is read as what it `Holds`. -/
theorem gives_required_iff : (ms.required name read).Gives x ↔ ms.Holds name read x := by
  unfold required Holds
  rw [← map_find?]
  cases ms.find? name with
  | none => simp [Gather.Gives]
  | some found => simpa using gives_readAt_iff

/-- A field that may be missing is read as what it `Holds`, or as what stands for it. -/
theorem gives_defaulted_iff {default : α} :
    (ms.defaulted name default read).Gives x ↔
      ms.Holds name read x ∨ ms.entries.lookup name = none ∧ x = default := by
  unfold defaulted Holds
  rw [← map_find?]
  cases ms.find? name with
  | none => simp
  | some found => simpa using gives_readAt_iff

theorem Holds.required (holds : ms.Holds name read x) : (ms.required name read).Gives x :=
  gives_required_iff.2 holds

theorem Holds.defaulted (holds : ms.Holds name read x) (default : α) :
    (ms.defaulted name default read).Gives x :=
  gives_defaulted_iff.2 (.inl holds)

theorem Holds.optional {x : Option α} (holds : ms.Holds name (nullable read) x) :
    (ms.optional name read).Gives x :=
  holds.defaulted none

end Members

/-- **A structure is read exactly if its fields are**, and no member is out of place: the members
are `sound`. -/
theorem structured_eq_ok_iff {names : List String} {build : Members → Gather α} {j : Json} {x : α} :
    structured names build j = .ok x ↔
      ∃ ms, Members.ofJson names j = .ok ms ∧ (build ms).Gives x ∧ ms.sound.Gives () := by
  simp only [structured, bind_eq_ok_iff, mapError_eq_ok_iff]
  constructor
  · intro h
    obtain ⟨ms, found, gives⟩ := h
    obtain ⟨_, ⟨⟩, both, sound, rfl⟩ := Gather.gives_seq_iff.1 gives
    obtain ⟨x, fields, rfl⟩ := Gather.gives_map_iff.1 both
    exact ⟨ms, found, fields, sound⟩
  · intro h
    obtain ⟨ms, found, fields, sound⟩ := h
    exact ⟨ms, found, (fields.map _).seq sound⟩

/-- Members are sound if each has the name of a field, no name comes twice, and each name can be
read. -/
theorem firstUnsound_eq_none {names seen : List String} {place : Nat} {ms : List (String × Json)}
    (known : ∀ m ∈ ms, m.1 ∈ names) (distinct : (ms.map Prod.fst).Nodup)
    (unseen : ∀ m ∈ ms, m.1 ∉ seen) (legible : ∀ m ∈ ms, ∃ n, m.2.Legible n) :
    Members.firstUnsound names seen place ms = none := by
  induction ms generalizing seen place with
  | nil => rfl
  | cons m ms ih =>
      obtain ⟨name, j⟩ := m
      obtain ⟨here, known⟩ := List.forall_mem_cons.1 known
      obtain ⟨new, unseen⟩ := List.forall_mem_cons.1 unseen
      obtain ⟨⟨n, readable⟩, legible⟩ := List.forall_mem_cons.1 legible
      obtain ⟨other, distinct⟩ := List.nodup_cons.1 distinct
      have admissible : Members.admissible names seen name j = true := by
        cases j with
        | misnamed j => exact absurd readable not_legible_misnamed
        | _ => simp [Members.admissible, here, new]
      rw [Members.firstUnsound, if_pos admissible]
      refine ih known distinct (fun m there => ?_) legible
      have named : m.1 ∈ ms.map Prod.fst := List.mem_map_of_mem there
      rw [List.mem_cons, not_or]
      exact ⟨fun same => other (same ▸ named), unseen m there⟩

/-! ### Documents that are restored -/

/-- **The reader gives back what was written**, in whatever order the members have come. -/
def Restores (read : Json → Except Fault α) (j : Json) (x : α) : Prop :=
  ∀ j', Rearranged j j' → read j' = .ok x

theorem Restores.map {read : Json → Except Fault α} {j : Json} {x : α}
    (restores : Restores read j x) (f : α → β) : Restores (fun j => f <$> read j) j (f x) := by
  intro j' rearranged
  show f <$> read j' = _
  rw [restores j' rearranged]
  rfl

/-- The members of a document hold what the documents of the parts restore: `Restores` gives
`Holds`. -/
def Members.Carries (ms : Members) (entries : List (String × Json)) : Prop :=
  ∀ {β : Type} (name : String) {j : Json} (read : Json → Except Fault β) {y : β},
    Restores read j y → (name, j) ∈ entries → ms.Holds name read y

theorem lookup_of_mem {ms : List (String × Json)} {name : String} {j : Json}
    (distinct : (ms.map Prod.fst).Nodup) (there : (name, j) ∈ ms) : ms.lookup name = some j := by
  induction ms with
  | nil => cases there
  | cons m ms ih =>
      obtain ⟨other, distinct⟩ := List.nodup_cons.1 distinct
      rw [List.lookup_cons]
      rcases List.mem_cons.1 there with rfl | later
      · simp
      · have named : name ∈ ms.map Prod.fst := List.mem_map_of_mem later
        have ne : name ≠ m.1 := fun same => other (same ▸ named)
        rw [beq_false_of_ne ne]
        exact ih distinct later

/-- **A structure is restored as soon as its fields are.** -/
theorem restores_structured {names : List String} {build : Members → Gather α}
    {entries : List (String × Json)} {n : Nat} {x : α} (distinct : (entries.map Prod.fst).Nodup)
    (known : ∀ m ∈ entries, m.1 ∈ names) (legible : ∀ m ∈ entries, m.2.Legible n)
    (gives : ∀ ms : Members, ms.Carries entries → (build ms).Gives x) :
    Restores (structured names build) (object entries) x := by
  intro j rearranged
  obtain ⟨ms, rfl, same, values⟩ := rearranged.exists_members distinct
  have distinct' : (ms.map Prod.fst).Nodup := same.nodup_iff.1 distinct
  have origin : ∀ m ∈ ms, ∃ j, (m.1, j) ∈ entries ∧ Rearranged j m.2 :=
    fun _ there => Rearranged.exists_origin same values there
  refine structured_eq_ok_iff.2
    ⟨⟨names, ms⟩, rfl, gives _ fun name j read y restores here => ?_, ?_⟩
  · obtain ⟨m, there, rfl⟩ := List.mem_map.1 (same.mem_iff.1 (List.mem_map_of_mem here))
    exact ⟨m.2, lookup_of_mem distinct' there, restores _ (values m.1 j m.2 here there)⟩
  · have sound : Members.firstUnsound names [] 0 ms = none := by
      refine firstUnsound_eq_none (fun m there => ?_) distinct' (fun _ _ => List.not_mem_nil)
        fun m there => ?_
      · obtain ⟨j, here, -⟩ := origin m there
        exact known (m.1, j) here
      · obtain ⟨j, here, rearranged⟩ := origin m there
        exact ⟨n, rearranged.legible (legible _ here)⟩
    rw [Members.sound, sound]
    rfl

/-- The case of a document is restored, and what is left of the document is that of its fields, in
some order. -/
theorem exists_tagged {tag name : String} {entries : List (String × Json)} {n : Nat} {j : Json}
    (distinct : (((tag, text name) :: entries).map Prod.fst).Nodup)
    (legible : ∀ m ∈ entries, m.2.Legible n) (shallow : n < maxDepth)
    (rearranged : Rearranged (object ((tag, text name) :: entries)) j) :
    ∃ fields, tagged tag j = .ok (name, fields) ∧ Rearranged (object entries) fields := by
  have whole : (object ((tag, text name) :: entries)).Legible (n + 1) :=
    legible_object_iff.2 (List.forall_mem_cons.2 ⟨legible_text, legible⟩)
  obtain ⟨readable, depth⟩ := rearranged.legible whole
  obtain ⟨ms, rfl, found, others⟩ := rearranged.exists_behind_tag distinct
  refine ⟨_, ?_, others⟩
  have fine : ¬((!(object ms).readable || decide (maxDepth < (object ms).depth)) = true) := by
    rw [readable, Bool.not_true, Bool.false_or, decide_eq_true_iff]
    omega
  rw [tagged, if_neg fine]
  simp only [found]

/-! ### Leaves and lists -/

theorem restores_asBool (b : Bool) : Restores asBool (bool b) b := by
  intro j rearranged
  rw [rearranged.bool_eq]
  rfl

theorem restores_asText (s : String) : Restores asText (text s) s := by
  intro j rearranged
  rw [rearranged.text_eq]
  rfl

theorem restores_asInt64 (n : Int64) : Restores asInt64 (integer n.toInt) n := by
  intro j rearranged
  rw [rearranged.integer_eq, asInt64, Integer.signed?_toInt]
  rfl

theorem restores_asUInt64 (n : UInt64) : Restores asUInt64 (integer n.toNat) n := by
  intro j rearranged
  rw [rearranged.integer_eq, asUInt64, Integer.unsigned?_toNat]
  rfl

theorem restores_asByte (b : UInt8) : Restores asByte (integer b.toNat) b := by
  intro j rearranged
  have fits : (0 : Int) ≤ b.toNat ∧ (b.toNat : Int) < 256 :=
    ⟨Int.natCast_nonneg _, Int.ofNat_lt.2 b.toNat_lt⟩
  rw [rearranged.integer_eq, asByte, if_pos fits, Int.toNat_natCast, UInt8.ofNat_toNat]

theorem restores_asDouble (x : Double) : Restores asDouble (float x) x := by
  intro j rearranged
  rw [rearranged.float_eq]
  rfl

theorem restores_asVisibility (v : Visibility) : Restores asVisibility (text v.text) v := by
  intro j rearranged
  rw [rearranged.text_eq, asVisibility, Visibility.ofText_text]
  rfl

/-- A name is restored as what it stands for. -/
theorem restores_named {void : Json → Bool} {ofName? : String → Option α} {name : String} {x : α}
    (known : ofName? name = some x) : Restores (named void ofName?) (text name) x := by
  intro j rearranged
  rw [rearranged.text_eq]
  show fitting (ofName? name) = .ok x
  rw [known]
  rfl

/-- One of several names is read as what the name stands for. -/
theorem named_eq_ok_iff {void : Json → Bool} {ofName? : String → Option α} {j : Json} {x : α} :
    named void ofName? j = .ok x ↔
      ∃ name, named void some j = .ok name ∧ ofName? name = some x := by
  have fitting_eq_ok_iff {β : Type} {y? : Option β} {y : β} : fitting y? = .ok y ↔ y? = some y := by
    cases y? <;> simp [fitting]
  unfold named
  simp only [fitting_eq_ok_iff, Option.bind_eq_some_iff, Option.some.injEq, exists_eq_right]

/-- What may be absent is restored, if it is not written as `null` where it is there. -/
theorem restores_nullable {read : Json → Except Fault α} {write : α → Json} {x : Option α}
    (restores : ∀ y ∈ x, Restores read (write y) y) (present : ∀ y ∈ x, write y ≠ null) :
    Restores (Members.nullable read) (ofOption write x) x := by
  intro j rearranged
  cases x with
  | none =>
      rw [rearranged.null_eq]
      rfl
  | some x =>
      have reads : (read j).map some = .ok (some x) := by
        rw [restores x rfl j rearranged]
        rfl
      cases j with
      | null => exact absurd rearranged.eq_null (present x rfl)
      | _ => exact reads

/-- A list is restored as soon as its items are. -/
theorem restores_asList {read : Json → Except Fault α} {write : α → Json} {xs : List α}
    (restores : ∀ x ∈ xs, Restores read (write x) x) :
    Restores (asList read) (array (xs.map write)) xs := by
  intro j rearranged
  obtain ⟨js, rfl, items⟩ := rearranged.exists_items
  rw [List.forall₂_map_left_iff] at items
  show js.mapM read = .ok xs
  clear rearranged
  induction items with
  | nil => rfl
  | cons first _ ih =>
      obtain ⟨here, rest⟩ := List.forall_mem_cons.1 restores
      rw [List.mapM_cons, here _ first, ih rest]
      rfl

end GraphLog.Json
