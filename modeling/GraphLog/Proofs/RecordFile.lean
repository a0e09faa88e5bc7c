/-
**The numbers of the records in a file.**

A record that comes without a number is to be numbered behind every number in the file, in the order
of the lines.  The numbers are taken from a counter that starts behind the greatest of them and goes
on by one with every record, be it numbered or not; so the record at place `i` gets the number `i`
behind the start.  That is as it should be while there are that many numbers left.  At the end of
the range the counter starts again at zero: a record may then be numbered below the others, though a
greater number was free, because records that have a number use up numbers too.

Main definitions:

* `GraphLog.RecordFile.Holds` — the records that the lines of a text hold;
* `GraphLog.RecordFile.Keeps` — records are as they were apart from numbers that were missing;
* `GraphLog.RecordFile.Follows` — **the missing numbers go up, behind every number that was given**;
* `GraphLog.RecordFile.HasRoom` — there are numbers left for all records that lack one.

Main results:

* `GraphLog.RecordFile.read_eq_ok_iff` — what is read from a text;
* `GraphLog.RecordFile.assigned_numbered` — the numbers that are given to records;
* `GraphLog.RecordFile.not_follows_numbered` — numbers may start again at zero;
* `GraphLog.RecordFile.read_follows_iff` — **when the numbers of a file are as they should be**.
-/

import Mathlib.Algebra.Group.Nat.Defs
import Mathlib.Data.List.Nodup
import GraphLog.Command.Input
import GraphLog.Proofs.ArrivalOrder

set_option relaxedAutoImplicit false
set_option autoImplicit false

namespace GraphLog.RecordFile

/-! ### Records and their numbers -/

/-- The records that the lines of a text hold, those that are not passed over. -/
def Holds (text : String) (given : List Record) : Prop :=
  (((text.splitOn "\n").map Text.trim).filter fun line => !isIdle line).map Record.ofText =
    given.map .ok

/-- The places of the records that lack a number. -/
def places (given : List Record) : List Nat :=
  (given.zipIdx.filter (·.1.sequence = 0)).map (·.2)

/-- The numbers in `out` of the records that lack one in `given`. -/
def assigned (given out : List Record) : List UInt64 :=
  ((given.zip out).filter (·.1.sequence = 0)).map (·.2.sequence)

/-- **Records are as they were**, apart from numbers that were missing. -/
structure Keeps (given out : List Record) : Prop where
  length_eq : out.length = given.length
  /-- A record that has a number keeps it. -/
  numbered : ∀ p ∈ given.zip out, p.1.sequence ≠ 0 → p.2 = p.1
  /-- Nothing but the number changes. -/
  stamped : ∀ p ∈ given.zip out, p.2 = p.1.stamped p.2.sequence

/-- **The missing numbers go up**, from line to line, and are behind every number that was given. -/
structure Follows (given out : List Record) : Prop where
  ascending : (assigned given out).Pairwise (· < ·)
  above : ∀ r ∈ given, r.sequence ≠ 0 → ∀ n ∈ assigned given out, r.sequence < n

/-- **There are numbers left** for all records that lack one, each taken as far behind the greatest
number as its record is behind the start of the file. -/
def HasRoom (given : List Record) : Prop :=
  ∀ i ∈ places given, (highest given).toNat + 1 + i < 2 ^ 64

/-! ### The records of a text -/

theorem ofLines_eq_ok_iff {line : Nat} {lines : List String} {rs : List Record} :
    ofLines line lines = .ok rs ↔
      ((lines.map Text.trim).filter fun line => !isIdle line).map Record.ofText =
        rs.map .ok := by
  induction lines generalizing line rs with
  | nil =>
      rw [ofLines]
      constructor
      · rintro ⟨⟩
        rfl
      · intro h
        rw [List.map_eq_nil_iff.1 h.symm]
  | cons text lines ih =>
      rw [ofLines, List.map_cons]
      by_cases idle : isIdle (Text.trim text)
      · simp only [idle, if_true, List.filter_cons, Bool.not_true, Bool.false_eq_true, if_false]
        exact ih
      · simp only [idle, Bool.false_eq_true, if_false, List.filter_cons, Bool.not_false, if_true,
          List.map_cons, bind_eq_ok_iff, mapError_eq_ok_iff, ih]
        constructor
        · rintro ⟨r, here, others, behind, same⟩
          obtain rfl := Except.ok.inj same
          rw [here, behind, List.map_cons]
        · intro same
          obtain ⟨r, others, rfl, here, behind⟩ := List.map_eq_cons_iff.1 same.symm
          exact ⟨r, here.symm, others, behind.symm, rfl⟩

/-- What `read` gives of a text: the records of its lines, `numbered`. -/
theorem read_eq_ok_iff {text : String} {out : List Record} :
    read text = .ok out ↔ ∃ given, Holds text given ∧ out = numbered given := by
  rw [read, map_eq_ok_iff]
  simp only [ofLines_eq_ok_iff, Holds]

/-! ### The numbers that are given -/

section Numbers

variable (given : List Record)

theorem length_assign (intake : Intake) : (assign intake given).length = given.length := by
  induction given generalizing intake with
  | nil => rfl
  | cons r rs ih => simp [assign, ih]

/-- Each record claims a number by `assign`, but only one that lacks a number is stamped with it. -/
theorem zip_assign (first : UInt64) (k : Nat) :
    given.zip (assign ⟨first + .ofNat k⟩ given) =
      (given.zipIdx k).map fun p =>
        (p.1, if p.1.sequence = 0 then p.1.stamped (first + .ofNat p.2) else p.1) := by
  induction given generalizing k with
  | nil => rfl
  | cons r rs ih =>
      have next : first + .ofNat k + 1 = first + .ofNat (k + 1) := by
        rw [UInt64.ofNat_add, UInt64.add_assoc]
        rfl
      rw [assign, Intake.claim, next, List.zip_cons_cons, ih, List.zipIdx_cons, List.map_cons]

theorem zip_numbered :
    given.zip (numbered given) = given.zipIdx.map fun p =>
      (p.1, if p.1.sequence = 0 then p.1.stamped (following (highest given) + .ofNat p.2)
        else p.1) := by
  have start : following (highest given) + .ofNat 0 = following (highest given) :=
    UInt64.add_zero _
  rw [← zip_assign given (following (highest given)) 0, start]
  rfl

/-- Records are as they were, whatever the numbers: what is `numbered` `Keeps` what was given. -/
theorem keeps_numbered : Keeps given (numbered given) where
  length_eq := length_assign given _
  numbered := by
    rw [zip_numbered]
    intro p mem explicit
    obtain ⟨q, -, rfl⟩ := List.mem_map.1 mem
    exact if_neg explicit
  stamped := by
    rw [zip_numbered]
    intro p mem
    obtain ⟨q, -, rfl⟩ := List.mem_map.1 mem
    by_cases missing : q.1.sequence = 0
    · simp only [missing, if_true, Record.sequence_stamped]
    · simp only [missing, if_false, Record.stamped_self]

/-- The numbers that are given: a record gets the number that is as far behind the start of the
counter as the record is behind the start of the file. -/
theorem assigned_numbered :
    assigned given (numbered given) =
      (places given).map fun i => following (highest given) + .ofNat i := by
  rw [assigned, zip_numbered, List.filter_map, List.map_map, places, List.map_map]
  refine List.map_congr_left fun p mem => ?_
  have missing : p.1.sequence = 0 := by simpa using (List.mem_filter.1 mem).2
  simp [missing]

/-- The places that lack a number are places of the file, in ascending order. -/
theorem places_sublist : (places given).Sublist (List.range' 0 given.length) := by
  rw [← List.zipIdx_map_snd]
  exact List.filter_sublist.map _

theorem ascending_places : (places given).Pairwise (· < ·) :=
  List.Pairwise.sublist (places_sublist given) List.pairwise_lt_range'

theorem lt_length_of_mem_places {i : Nat} (mem : i ∈ places given) : i < given.length := by
  have listed := (places_sublist given).subset mem
  rw [List.mem_range'_1] at listed
  omega

end Numbers

/-! ### The greatest number -/

theorem foldl_max_spec (n : UInt64) (ns : List UInt64) :
    (∀ m ∈ n :: ns, m ≤ ns.foldl max n) ∧ ns.foldl max n ∈ n :: ns := by
  induction ns generalizing n with
  | nil => simp
  | cons m ns ih =>
      obtain ⟨greatest, among⟩ := ih (max n m)
      have larger : max n m = if n ≤ m then m else n := rfl
      rw [List.foldl_cons]
      by_cases le : n ≤ m
      · rw [larger, if_pos le] at greatest among ⊢
        obtain ⟨here, others⟩ := List.forall_mem_cons.1 greatest
        refine ⟨?_, List.mem_cons_of_mem n among⟩
        exact List.forall_mem_cons.2 ⟨UInt64.le_trans le here, greatest⟩
      · rw [larger, if_neg le] at greatest among ⊢
        obtain ⟨here, others⟩ := List.forall_mem_cons.1 greatest
        have below : m ≤ n := UInt64.le_of_lt (UInt64.not_le.1 le)
        refine ⟨List.forall_mem_cons.2 ⟨here, ?_⟩, ?_⟩
        · exact List.forall_mem_cons.2 ⟨UInt64.le_trans below here, others⟩
        · rcases List.mem_cons.1 among with same | mem
          · exact List.mem_cons.2 (.inl same)
          · exact List.mem_cons_of_mem n (List.mem_cons_of_mem m mem)

theorem le_highest {given : List Record} {r : Record} (mem : r ∈ given) :
    r.sequence ≤ highest given :=
  (foldl_max_spec 0 _).1 _ (List.mem_cons_of_mem 0 (List.mem_map_of_mem mem))

/-- The greatest number, `highest`, is that of a record, unless no record has one. -/
theorem exists_sequence_eq_highest {given : List Record} (some : highest given ≠ 0) :
    ∃ r ∈ given, r.sequence = highest given := by
  rcases List.mem_cons.1 (foldl_max_spec 0 (given.map (·.sequence))).2 with none | mem
  · exact absurd none some
  · exact List.mem_map.1 mem

theorem toNat_following (n : UInt64) :
    (following n).toNat = if n.toNat + 1 < 2 ^ 64 then n.toNat + 1 else n.toNat := by
  have bound := n.toNat_lt
  unfold following
  by_cases last : n = 0 - 1
  · subst last
    rfl
  · have below : n.toNat ≠ 2 ^ 64 - 1 := fun same => last (UInt64.toNat_inj.1 same)
    rw [if_neg last, UInt64.toNat_add, UInt64.toNat_one]
    split <;> omega

/-! ### When the numbers are as they should be -/

/-- A number that is given, as far as the counter does not start again. -/
theorem toNat_number {n : UInt64} {i : Nat} (room : n.toNat + 1 + i < 2 ^ 64) :
    (following n + .ofNat i).toNat = n.toNat + 1 + i := by
  rw [UInt64.toNat_add, toNat_following, UInt64.toNat_ofNat']
  split <;> omega

/-- A number that is given behind the end of the range is not greater than the greatest. -/
theorem number_le {n : UInt64} {i : Nat} (short : i < 2 ^ 64 - 1)
    (full : 2 ^ 64 ≤ n.toNat + 1 + i) : (following n + .ofNat i).toNat ≤ n.toNat := by
  have bound := n.toNat_lt
  rw [UInt64.toNat_add, toNat_following, UInt64.toNat_ofNat']
  split <;> omega

theorem follows_of_hasRoom {given : List Record} (room : HasRoom given) :
    Follows given (numbered given) where
  ascending := by
    rw [assigned_numbered, List.pairwise_map]
    refine (ascending_places given).imp_of_mem fun {i j} memI memJ lt => ?_
    rw [UInt64.lt_iff_toNat_lt, toNat_number (room i memI), toNat_number (room j memJ)]
    omega
  above := by
    rw [assigned_numbered]
    intro r mem _ n given'
    obtain ⟨i, memI, rfl⟩ := List.mem_map.1 given'
    have le := UInt64.le_iff_toNat_le.1 (le_highest mem)
    rw [UInt64.lt_iff_toNat_lt, toNat_number (room i memI)]
    omega

/-- Numbers that are as they should be leave room, as `HasRoom` has it: behind the end of the range
a record would be numbered below one that has the greatest number. -/
theorem hasRoom_of_follows {given : List Record} (short : given.length < 2 ^ 64)
    (follows : Follows given (numbered given)) : HasRoom given := by
  intro i mem
  have place := lt_length_of_mem_places given mem
  by_contra full
  have le := number_le (by omega) (Nat.le_of_not_lt full)
  have some : highest given ≠ 0 := by
    intro none
    rw [none] at full
    exact full (by show 0 + 1 + i < _; omega)
  obtain ⟨r, here, greatest⟩ := exists_sequence_eq_highest some
  have below : r.sequence < following (highest given) + .ofNat i := by
    refine follows.above r here (greatest ▸ some) _ ?_
    rw [assigned_numbered]
    exact List.mem_map_of_mem mem
  rw [greatest, UInt64.lt_iff_toNat_lt] at below
  omega

/-- **When the numbers of a file are as they should be.**  What is read from a text are the records
of its lines with their numbers.  A record that has a number keeps it, and nothing else changes.
The numbers that were missing go up from line to line, behind every number that was given, exactly
if there is room for them: each record takes up a number behind the greatest, be it numbered or not,
and none that lacks one may be beyond the last number that there is. -/
theorem read_follows_iff (text : String) :
    (∀ out, read text = .ok out ↔ ∃ given, Holds text given ∧ out = numbered given) ∧
      ∀ given, Holds text given → Keeps given (numbered given) ∧
        (given.length < 2 ^ 64 → (Follows given (numbered given) ↔ HasRoom given)) :=
  ⟨fun _ => read_eq_ok_iff, fun given _ => ⟨keeps_numbered given, fun short =>
    ⟨hasRoom_of_follows short, follows_of_hasRoom⟩⟩⟩

/-- A number below the others.  Behind a record with the last number but one there is one number
left, but the record that lacks one is given zero. -/
theorem not_follows_numbered :
    let given := [View.sampleCreation 18446744073709551614, View.sampleCreation 0]
    numbered given = given ∧ ¬Follows given (numbered given) := by
  intro given
  have same : numbered given = given := by decide +kernel
  refine ⟨same, fun follows => ?_⟩
  have below := follows.above (View.sampleCreation 18446744073709551614) (by simp [given])
    (by decide) 0 (by rw [same]; decide +kernel)
  exact absurd below (by decide)

-- In front of that record there is room, because the number is taken up first.
example :
    let given := [View.sampleCreation 0, View.sampleCreation 18446744073709551614]
    assigned given (numbered given) = [18446744073709551615] := by
  decide +kernel

end GraphLog.RecordFile
