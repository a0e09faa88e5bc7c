/-
**The fields of a mutation tell where they end.**

The fields of a mutation stand in front of other bytes, and no length says where they stop.  They
need none: each part has a width of its own or carries its length, and the metadata carries the
number of its entries.  So what is behind the fields does not matter for reading them, and the
reader stops exactly behind what it would have written.  Nothing of this asks for a mutation that
obeys the rules.

A number of entries may be announced that are not there.  The reader does not wait for them: an
entry takes nine bytes at least, so that the bytes are used up, or the next entry is found to be
none, after a ninth of them.

Main definitions:

* `GraphLog.Wire.LoopEnds` — **how the reading of announced entries ends**.

Main results:

* `GraphLog.Wire.nine_le_length_putEntry` — the least number of bytes of an entry;
* `GraphLog.Wire.exists_loopEnds` — the loop over the entries ends, whatever is announced;
* `GraphLog.Wire.mutation_delimits` — **fields are delimited by themselves**, in both directions.
-/

import GraphLog.Failure
import GraphLog.Proofs.Wire.Refusals

set_option relaxedAutoImplicit false
set_option autoImplicit false

namespace GraphLog.Wire

variable {c d : Cursor}

/-! ### The loop over metadata entries -/

theorem four_le_length_putText (s : String) : 4 ≤ (putText s).length := by
  rw [putText, putBytes, List.length_append, length_putInt32]
  exact Nat.le_add_right ..

theorem one_le_length_putValue (x : Value) : 1 ≤ (putValue x).length := by
  cases x <;> exact Nat.succ_le_succ (Nat.zero_le _)

/-- An entry takes nine bytes at least: two lengths and the tag of its value. -/
theorem nine_le_length_putEntry (e : MetadataEntry) : 9 ≤ (putEntry e).length := by
  have key := four_le_length_putText e.key
  have value := one_le_length_putValue e.value
  have label := four_le_length_putText e.visibility.text
  rw [putEntry, putVisibility, List.length_append, List.length_append]
  omega

theorem nine_mul_le_length_putEntry (es : List MetadataEntry) :
    9 * es.length ≤ (es.flatMap putEntry).length := by
  induction es with
  | nil => exact Nat.zero_le _
  | cons e es ih =>
      have one := nine_le_length_putEntry e
      rw [List.flatMap_cons, List.length_append, List.length_cons]
      omega

/-- **How the reading of announced entries ends** after those that were found: all of them are
found, or behind those found there is none, and its fault is that of the whole. -/
inductive LoopEnds (announced : Nat) (c : Cursor) (found : List MetadataEntry) :
    Except DecodeError (List MetadataEntry) × Cursor → Prop where
  | complete {d : Cursor} (all : found.length = announced)
      (passes : c.Passes (found.flatMap putEntry) d) : LoopEnds announced c found (.ok found, d)
  | broken {m d : Cursor} {e : DecodeError} (fewer : found.length < announced)
      (passes : c.Passes (found.flatMap putEntry) m) (stops : entry.on m = (.error e, d)) :
      LoopEnds announced c found (.error e, d)

/-- The loop makes no more rounds than a ninth of the bytes in front of it. -/
theorem LoopEnds.nine_mul_le {announced : Nat} {found : List MetadataEntry}
    {result : Except DecodeError (List MetadataEntry) × Cursor}
    (ends : LoopEnds announced c found result) : 9 * found.length ≤ c.remaining := by
  have taken := nine_mul_le_length_putEntry found
  cases ends with
  | complete _ passes => exact Nat.le_trans taken passes.length_le
  | broken _ passes => exact Nat.le_trans taken passes.length_le

/-- If all entries are found, those announced are no more than a ninth of the bytes. -/
theorem LoopEnds.nine_mul_announced_le {announced : Nat} {found : List MetadataEntry}
    {result : Except DecodeError (List MetadataEntry) × Cursor}
    (ends : LoopEnds announced c found result) (all : result.1.isOk = true) :
    9 * announced ≤ c.remaining := by
  have bound := ends.nine_mul_le
  cases ends with
  | complete same => rwa [same] at bound
  | broken => cases all

/-- **The loop over the entries ends, whatever is announced**: in one of the ways of `LoopEnds`. -/
theorem exists_loopEnds (announced : Nat) (c : Cursor) :
    ∃ found, LoopEnds announced c found ((entries announced).on c) := by
  induction announced generalizing c with
  | zero => exact ⟨[], .complete rfl (Cursor.passes_nil.2 rfl)⟩
  | succ announced ih =>
      rw [entries, Read.on_bind]
      rcases first : entry.on c with ⟨e | x, m⟩
      · exact ⟨[], .broken (Nat.succ_pos announced) (Cursor.passes_nil.2 rfl) first⟩
      · have passes : c.Passes (putEntry x) m := ((undoes_entry _ _ _).1 first).2
        obtain ⟨found, ends⟩ := ih m
        refine ⟨x :: found, ?_⟩
        simp only [Read.on_bind]
        generalize (entries announced).on m = result at ends
        cases ends with
        | complete all passes' =>
            exact .complete (congrArg Nat.succ all) (Cursor.passes_append.2 ⟨m, passes, passes'⟩)
        | broken fewer passes' stops =>
            exact .broken (Nat.succ_lt_succ fewer) (Cursor.passes_append.2 ⟨m, passes, passes'⟩)
              stops

/-- A number of entries is refused by `countedEntries` if it is negative, and otherwise the loop
over so many entries ends. -/
theorem countedEntries_ends {count : Int32} (passes : c.Passes (putInt32 count) d) :
    count < 0 ∧ countedEntries.on c = (.error (.corrupt c.offset (.negativeCount count)), d) ∨
      ¬count < 0 ∧ ∃ found, LoopEnds count.toInt.toNat d found (countedEntries.on c) := by
  have number : int32.on c = (.ok count, d) := (undoes_int32 _ _ _).2 ⟨fits_nil, passes⟩
  have start : offset.on c = (.ok c.offset, c) := yields_offset.2 ⟨rfl, rfl⟩
  rw [countedEntries, Read.on_bind, start]
  simp only [Read.on_bind, number]
  by_cases negative : count < 0
  · rw [if_pos negative]
    exact .inl ⟨negative, rfl⟩
  · rw [if_neg negative]
    exact .inr ⟨negative, exists_loopEnds _ d⟩

/-! ### The fields of a mutation -/

/-- Metadata is what stands behind the value of a `setValue`, and a fault of it is a fault of the
whole. -/
theorem on_setValue {v : Value} (fits : Fits v.lengths) (passes : c.Passes (putValue v) d) :
    (mutation .setValue).on c =
      ((countedEntries.on d).1.map (.setValue v), (countedEntries.on d).2) := by
  have value : value.on c = (.ok v, d) := (undoes_value _ _ _).2 ⟨fits, passes⟩
  rw [mutation, Read.on_bind, value]
  simp only [Read.on_bind]
  rcases countedEntries.on d with ⟨e | es, m⟩ <;> rfl

/-- **Fields are delimited by themselves.**  What was written for a mutation is read again, whatever
is behind it, and the cursor stands where it ends; and whatever is read, as of some kind, is of this
kind and was written so in the bytes that were passed.  Behind a value and the announced number of
metadata entries, a negative number is refused, and for any other the loop ends: it has found all
entries, or it stops for the fault of the next; and those that it has found, which are all announced
if it succeeds, are no more than a ninth of the bytes behind the number. -/
theorem mutation_delimits (m : Mutation) (fits : Fits m.lengths) (rest : List UInt8)
    (kind : MutationKind) (bytes : List UInt8) :
    (mutation m.kind).on (.start (putMutation m ++ rest)) =
        (.ok m, ⟨(putMutation m).length, rest⟩) ∧
      (∀ m' d, (mutation kind).on (.start bytes) = (.ok m', d) →
        m'.kind = kind ∧ Fits m'.lengths ∧ putMutation m' = bytes.take d.offset ∧
          d.rest = bytes.drop d.offset ∧ d.offset ≤ bytes.length) ∧
      ∀ v count behind, Fits v.lengths → bytes = putValue v ++ (putInt32 count ++ behind) →
        count < 0 ∧ (mutation .setValue).on (.start bytes) =
            (.error (.corrupt (putValue v).length (.negativeCount count)),
              ⟨(putValue v).length + 4, behind⟩) ∨
          0 ≤ count.toInt ∧ ∃ found result,
            LoopEnds count.toInt.toNat ⟨(putValue v).length + 4, behind⟩ found result ∧
            9 * found.length ≤ behind.length ∧
            (result.1.isOk = true → 9 * count.toInt ≤ behind.length) ∧
            (mutation .setValue).on (.start bytes) = (result.1.map (.setValue v), result.2) := by
  refine ⟨?_, fun m' d read => ?_, fun v count behind fits written => ?_⟩
  · have passes : (Cursor.start (putMutation m ++ rest)).Passes (putMutation m)
        ⟨(putMutation m).length, rest⟩ := ⟨rfl, (Nat.zero_add _).symm⟩
    exact yields_mutation.2 ⟨rfl, fits, passes⟩
  · obtain ⟨same, fits, passes⟩ := yields_mutation.1 read
    exact ⟨same, fits, Cursor.passes_start_iff.1 passes⟩
  · have front : (Cursor.start bytes).Passes (putValue v)
        ⟨(putValue v).length, putInt32 count ++ behind⟩ := ⟨written, (Nat.zero_add _).symm⟩
    have number : Cursor.Passes ⟨(putValue v).length, putInt32 count ++ behind⟩ (putInt32 count)
        ⟨(putValue v).length + 4, behind⟩ := ⟨rfl, by rw [length_putInt32]⟩
    rw [on_setValue fits front]
    rcases countedEntries_ends number with ⟨negative, stops⟩ | ⟨positive, found, ends⟩
    · rw [stops]
      exact .inl ⟨negative, rfl⟩
    · rw [Int32.lt_iff_toInt_lt, Int32.toInt_zero] at positive
      refine .inr ⟨Int.not_lt.1 positive, found, _, ends, ends.nine_mul_le, fun all => ?_, rfl⟩
      have bound : 9 * count.toInt.toNat ≤ behind.length := ends.nine_mul_announced_le all
      omega

/-- A value with two entries that break the rules, in front of other bytes; and a value that
announces as many entries as there can be, of which one is there. -/
theorem mutation_delimits_of_announced :
    let nameless : MetadataEntry := ⟨"", .null, .unrestricted⟩
    let m : Mutation := .setValue (.text "") [nameless, nameless]
    let rest : List UInt8 := [7, 7]
    let present : MetadataEntry := ⟨"k", .bool true, .unrestricted⟩
    let behind : List UInt8 := putEntry present ++ [0, 0]
    let bytes : List UInt8 := putValue .null ++ (putInt32 0x7FFFFFFF ++ behind)
    let stops : Except DecodeError Mutation × Cursor :=
      (.error (.corrupt 16 (.tooShort 4 2)), ⟨16, [0, 0]⟩)
    Fits m.lengths ∧ m.check.isOk = false ∧
      (mutation m.kind).on (.start (putMutation m ++ rest)) =
        (.ok m, ⟨(putMutation m).length, rest⟩) ∧
      putMutation m = (putMutation m ++ rest).take (putMutation m).length ∧
      (Fits (Value.lengths .null) ∧ (mutation .setValue).on (.start bytes) = stops ∧
        ∃ found result, LoopEnds 0x7FFFFFFF ⟨5, behind⟩ found result ∧
          9 * found.length ≤ behind.length ∧
          stops = (result.1.map (.setValue .null), result.2)) := by
  intro nameless m rest present behind bytes stops
  have fits : Fits m.lengths := by decide +kernel
  have none : Fits (Value.lengths .null) := fits_nil
  obtain ⟨read, exact, -⟩ := mutation_delimits m fits rest m.kind (putMutation m ++ rest)
  obtain ⟨-, -, front, -, -⟩ := exact m _ read
  obtain ⟨-, -, ends⟩ := mutation_delimits m fits rest .setValue bytes
  have stopped : (mutation .setValue).on (.start bytes) = stops := by decide +kernel
  rcases ends .null 0x7FFFFFFF behind none rfl with
    ⟨negative, -⟩ | ⟨-, found, result, ends, bound, -, same⟩
  · exact absurd negative (by decide)
  · rw [stopped] at same
    exact ⟨fits, by decide +kernel, read, front, none, stopped, found, result, ends, bound, same⟩

end GraphLog.Wire
