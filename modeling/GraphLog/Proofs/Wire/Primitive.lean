/-
**Numbers, byte strings and texts are read as they were written.**

A number of a fixed width has one form, because its bytes are its digits; a byte string has one
form, because its length is in front and a length has one form; and a text has one form, because
UTF-8 is read strictly.  The only thing that can go wrong in writing is a length above the greatest
number that fits in front.

Main definitions:

* `GraphLog.Wire.textLength` — the length in front of a text.

Main results:

* `GraphLog.Wire.bigEndian_ofBigEndian`, `GraphLog.Wire.ofBigEndian_bigEndian` — bytes are digits;
* `GraphLog.Wire.undoes_int64`, `GraphLog.Wire.undoes_text` and their companions — **each reader
  undoes its writer**.
-/

import Mathlib.Algebra.Group.Nat.Defs
import Mathlib.Data.List.Induction
import GraphLog.Proofs.Wire.Reads

set_option relaxedAutoImplicit false
set_option autoImplicit false

namespace GraphLog.Wire

open Read (Undoes)

/-! ### Bytes are digits -/

@[simp]
theorem length_bigEndian (width n : Nat) : (bigEndian width n).length = width := by
  induction width generalizing n with
  | zero => rfl
  | succ width ih => rw [bigEndian, List.length_append, ih, List.length_singleton]

@[simp]
theorem ofBigEndian_append_singleton (bytes : List UInt8) (b : UInt8) :
    ofBigEndian (bytes ++ [b]) = ofBigEndian bytes * 256 + b.toNat := by
  simp [ofBigEndian]

theorem ofBigEndian_bigEndian (width n : Nat) :
    ofBigEndian (bigEndian width n) = n % 256 ^ width := by
  induction width generalizing n with
  | zero => simp [bigEndian, ofBigEndian, Nat.mod_one]
  | succ width ih =>
      have digits : n % 256 ^ (width + 1) = n % 256 + 256 * (n / 256 % 256 ^ width) := by
        rw [Nat.pow_succ', Nat.mod_mul]
      rw [bigEndian, ofBigEndian_append_singleton, ih, UInt8.toNat_ofNat', digits]
      omega

theorem ofBigEndian_lt (bytes : List UInt8) : ofBigEndian bytes < 256 ^ bytes.length := by
  induction bytes using List.reverseRecOn with
  | nil => simp [ofBigEndian]
  | append_singleton bytes b ih =>
      have digit : b.toNat < 256 := b.toNat_lt
      rw [ofBigEndian_append_singleton, List.length_append, List.length_singleton, Nat.pow_succ]
      omega

theorem bigEndian_ofBigEndian (bytes : List UInt8) :
    bigEndian bytes.length (ofBigEndian bytes) = bytes := by
  induction bytes using List.reverseRecOn with
  | nil => rfl
  | append_singleton bytes b ih =>
      have digit : b.toNat < 256 := b.toNat_lt
      have front : (ofBigEndian bytes * 256 + b.toNat) / 256 = ofBigEndian bytes := by omega
      have last : UInt8.ofNat (ofBigEndian bytes * 256 + b.toNat) = b := by
        apply UInt8.toNat_inj.1
        rw [UInt8.toNat_ofNat']
        omega
      rw [List.length_append, List.length_singleton, bigEndian, ofBigEndian_append_singleton, front,
        ih, last]

/-! ### Numbers of a fixed width -/

/-- **Reading a number undoes writing it**, for any kind of number whose values are the numbers of
a width. -/
theorem undoes_number {α : Type} {width : Nat} (number : α → Nat) (ofNumber : Nat → α)
    (number_ofNumber : ∀ n < 256 ^ width, number (ofNumber n) = n)
    (ofNumber_number : ∀ x, ofNumber (number x) = x) (number_lt : ∀ x, number x < 256 ^ width) :
    Undoes (do return ofNumber (ofBigEndian (← take width)))
      (fun x => bigEndian width (number x)) (fun _ => []) := by
  intro c x d
  simp only [yields_bind, yields_take, yields_pure, fits_nil, true_and]
  constructor
  · intro h
    obtain ⟨bytes, m, ⟨rfl, passes⟩, rfl, rfl⟩ := h
    rw [number_ofNumber _ (ofBigEndian_lt bytes), bigEndian_ofBigEndian]
    exact passes
  · intro passes
    refine ⟨_, d, ⟨length_bigEndian width (number x), passes⟩, ?_, rfl⟩
    rw [ofBigEndian_bigEndian, Nat.mod_eq_of_lt (number_lt x), ofNumber_number]

theorem undoes_int32 : Undoes int32 putInt32 (fun _ => []) := by
  refine undoes_number (fun n : Int32 => n.toUInt32.toNat)
    (fun n => (UInt32.ofNat n).toInt32) (fun n small => ?_) (fun n => ?_) fun n => ?_
  · exact UInt32.toNat_ofNat_of_lt' small
  · rw [UInt32.ofNat_toNat]
    rfl
  · exact n.toUInt32.toNat_lt

theorem undoes_int64 : Undoes int64 putInt64 (fun _ => []) := by
  refine undoes_number (fun n : Int64 => n.toUInt64.toNat)
    (fun n => (UInt64.ofNat n).toInt64) (fun n small => ?_) (fun n => ?_) fun n => ?_
  · exact UInt64.toNat_ofNat_of_lt' small
  · rw [UInt64.ofNat_toNat]
    rfl
  · exact n.toUInt64.toNat_lt

theorem undoes_uint64 : Undoes uint64 putUInt64 (fun _ => []) := by
  refine undoes_number UInt64.toNat UInt64.ofNat (fun n small => ?_)
    (fun n => ?_) fun n => ?_
  · exact UInt64.toNat_ofNat_of_lt' small
  · exact UInt64.ofNat_toNat
  · exact n.toNat_lt

theorem undoes_double : Undoes double putDouble (fun _ => []) := by
  intro c x d
  simp only [double, yields_bind, undoes_uint64 _ _ _, yields_pure, fits_nil, true_and]
  constructor
  · intro h
    obtain ⟨bits, m, passes, rfl, rfl⟩ := h
    exact passes
  · intro passes
    exact ⟨x.bits, d, passes, rfl, rfl⟩

/-- The flag in front of a number that may be absent is zero or one. -/
theorem undoes_optionalInt64 : Undoes optionalInt64 putOptionalInt64 (fun _ => []) := by
  intro c n d
  simp only [optionalInt64, yields_bind, yields_offset, yields_byte, fits_nil, true_and]
  constructor
  · intro h
    obtain ⟨start, _, ⟨-, rfl⟩, flag, m, flagged, rest⟩ := h
    split at rest
    · obtain ⟨rfl, rfl⟩ := yields_pure.1 rest
      simpa [putOptionalInt64] using flagged
    · simp only [yields_bind, undoes_int64 _ _ _, yields_pure, fits_nil, true_and] at rest
      obtain ⟨n, m', passes, rfl, rfl⟩ := rest
      exact Cursor.passes_cons.2 ⟨m, flagged, passes⟩
    · exact absurd rest not_yields_refuse
  · intro passes
    refine ⟨_, c, ⟨rfl, rfl⟩, ?_⟩
    cases n with
    | none => exact ⟨0, d, by simpa [putOptionalInt64] using passes, yields_pure.2 ⟨rfl, rfl⟩⟩
    | some n =>
        obtain ⟨m, flagged, passes⟩ := Cursor.passes_cons.1 passes
        refine ⟨1, m, flagged, yields_bind.2 ⟨n, d, ?_, yields_pure.2 ⟨rfl, rfl⟩⟩⟩
        exact (undoes_int64 _ _ _).2 ⟨fits_nil, passes⟩

/-! ### Byte strings and texts -/

/-- The length in front of a text. -/
def textLength (s : String) : Nat :=
  (Text.toBytes s).length

/-- A length that can be written is read as what it is. -/
theorem toInt_ofNat {length : Nat} (fits : length ≤ maxLength) :
    (Int32.ofNat length).toInt = length :=
  Int32.toInt_ofNat_of_lt (by unfold maxLength at fits; omega)

/-- What `putBytes` writes in front of some bytes is the number of their length, if there is one. -/
theorem putBytes_of_lengthNumber {bytes : List UInt8} {n : Int32}
    (written : lengthNumber bytes.length = .ok n) : putBytes bytes = putInt32 n ++ bytes := by
  rw [putBytes, (lengthNumber_eq_ok_iff.1 written).2]

theorem ofNat_not_lt {length : Nat} (fits : length ≤ maxLength) : ¬Int32.ofNat length < 0 := by
  rw [Int32.lt_iff_toInt_lt, toInt_ofNat fits, Int32.toInt_zero]
  omega

/-- A number that is not negative is a length that can be written. -/
theorem ofNat_toNat_toInt {n : Int32} (h : ¬n < 0) :
    n.toInt.toNat ≤ maxLength ∧ Int32.ofNat n.toInt.toNat = n := by
  rw [Int32.lt_iff_toInt_lt, Int32.toInt_zero] at h
  have above : n.toInt ≤ 2147483647 := n.toInt_le
  refine ⟨by unfold maxLength; omega, ?_⟩
  rw [← Int32.ofInt_eq_ofNat, Int.toNat_of_nonneg (by omega), Int32.ofInt_toInt]

/-- **Minus one stands for no bytes**, and any other length for so many bytes. -/
theorem undoes_optionalBytes :
    Undoes optionalBytes putOptionalBytes (·.elim [] fun bytes => [bytes.length]) := by
  intro c read d
  simp only [optionalBytes, yields_bind, yields_offset, undoes_int32 _ _ _, fits_nil, true_and]
  constructor
  · intro h
    obtain ⟨start, _, ⟨-, rfl⟩, length, m, passes, rest⟩ := h
    split at rest
    · next absent =>
        obtain ⟨rfl, rfl⟩ := yields_pure.1 rest
        rw [absent] at passes
        exact ⟨fits_nil, passes⟩
    · next present =>
        simp only [yields_ite_refuse, yields_bind, yields_remaining, yields_take,
          yields_pure] at rest
        obtain ⟨positive, _, _, ⟨-, rfl⟩, -, bytes, _, ⟨counted, passes'⟩, rfl, rfl⟩ := rest
        obtain ⟨fits, number⟩ := ofNat_toNat_toInt positive
        rw [← counted] at fits number
        refine ⟨fits_cons.2 ⟨fits, fits_nil⟩, Cursor.passes_append.2 ⟨_, ?_, passes'⟩⟩
        rw [number]
        exact passes
  · intro h
    obtain ⟨fits, passes⟩ := h
    refine ⟨_, c, ⟨rfl, rfl⟩, ?_⟩
    cases read with
    | none => exact ⟨-1, d, passes, yields_pure.2 ⟨rfl, rfl⟩⟩
    | some bytes =>
        obtain ⟨m, passes, passes'⟩ := Cursor.passes_append.1 passes
        have fits : bytes.length ≤ maxLength := (fits_cons.1 fits).1
        have positive := ofNat_not_lt fits
        have present : Int32.ofNat bytes.length ≠ -1 := fun h => positive (h ▸ by decide)
        have length : (Int32.ofNat bytes.length).toInt.toNat = bytes.length := by
          rw [toInt_ofNat fits, Int.toNat_natCast]
        refine ⟨_, m, passes, ?_⟩
        simp only [if_neg present, length, yields_ite_refuse, yields_bind, yields_remaining,
          yields_take, yields_pure]
        exact ⟨positive, _, m, ⟨rfl, rfl⟩, Nat.not_lt.2 passes'.length_le, bytes, d,
          ⟨rfl, passes'⟩, rfl, rfl⟩

/-- A part that must be there is read as the part that may be absent, by `optionalBytes`. -/
theorem undoes_bytes : Undoes bytes putBytes (fun bytes => [bytes.length]) := by
  intro c x d
  simp only [bytes, yields_bind, yields_offset, undoes_optionalBytes _ _ _]
  constructor
  · intro h
    obtain ⟨start, _, ⟨-, rfl⟩, read, m, passes, rest⟩ := h
    cases read with
    | none => exact absurd rest not_yields_refuse
    | some bytes =>
        obtain ⟨rfl, rfl⟩ := yields_pure.1 rest
        exact passes
  · intro passes
    exact ⟨_, c, ⟨rfl, rfl⟩, some x, d, passes, yields_pure.2 ⟨rfl, rfl⟩⟩

/-- UTF-8 is read strictly, so a text has one form. -/
theorem undoes_optionalText :
    Undoes optionalText putOptionalText (·.elim [] fun s => [textLength s]) := by
  intro c x d
  simp only [optionalText, yields_bind, yields_offset, undoes_optionalBytes _ _ _]
  constructor
  · intro h
    obtain ⟨start, _, ⟨-, rfl⟩, read, m, passes, rest⟩ := h
    cases read with
    | none =>
        obtain ⟨rfl, rfl⟩ := yields_pure.1 rest
        exact passes
    | some bytes =>
        simp only at rest
        split at rest
        · next s isText =>
            obtain ⟨rfl, rfl⟩ := yields_pure.1 rest
            rw [← Text.toBytes_of_ofBytes? isText] at passes
            exact passes
        · exact absurd rest not_yields_refuse
  · intro passes
    refine ⟨_, c, ⟨rfl, rfl⟩, x.map Text.toBytes, d, ?_, ?_⟩
    · cases x <;> exact passes
    · cases x with
      | none => exact yields_pure.2 ⟨rfl, rfl⟩
      | some s =>
          simp only [Option.map_some, Text.ofBytes?_toBytes]
          exact yields_pure.2 ⟨rfl, rfl⟩

theorem undoes_text : Undoes text putText (fun s => [textLength s]) := by
  intro c x d
  simp only [text, yields_bind, yields_offset, undoes_optionalText _ _ _]
  constructor
  · intro h
    obtain ⟨start, _, ⟨-, rfl⟩, read, m, passes, rest⟩ := h
    cases read with
    | none => exact absurd rest not_yields_refuse
    | some s =>
        obtain ⟨rfl, rfl⟩ := yields_pure.1 rest
        exact passes
  · intro passes
    exact ⟨_, c, ⟨rfl, rfl⟩, some x, d, passes, yields_pure.2 ⟨rfl, rfl⟩⟩

end GraphLog.Wire
