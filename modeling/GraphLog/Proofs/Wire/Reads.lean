/-
**What it means for a reader to undo a writer.**

A reader gives a value and moves its cursor, or it fails.  It fits a writer if it gives a value in
exactly those places where the bytes that the writer makes of this value lie in front of it; the
cursor then stands behind these bytes.  This one statement has both directions in it: what was
written is read, and only what would be written is read.  It is made of each form on the wire, and
that of a part is used in that of the whole.

Main definitions:

* `GraphLog.Wire.Read.Yields` — a reader gives a value and moves a cursor;
* `GraphLog.Wire.Cursor.Passes` — a cursor is moved over some bytes;
* `GraphLog.Wire.Fits` — lengths that can be written;
* `GraphLog.Wire.Read.Undoes` — **a reader undoes a writer**.

Main results:

* `GraphLog.Wire.yields_bind`, `GraphLog.Wire.yields_take` — readers one step at a time;
* `GraphLog.Wire.fits_iff_mapM_lengthNumber` — lengths fit where none of them overflows;
* `GraphLog.Wire.Cursor.passes_start_iff` — bytes that are passed from the start;
* `GraphLog.Wire.Cursor.passes_to_end` — bytes that are passed to the last one.
-/

import Mathlib.Data.List.Basic
import GraphLog.Proofs.Outcomes
import GraphLog.Wire.Primitive

set_option relaxedAutoImplicit false
set_option autoImplicit false

namespace GraphLog.Wire

variable {α β : Type}

/-! ### Cursors that move over bytes -/

namespace Cursor

/-- **The cursor `d` stands where `c` comes to behind these bytes.** -/
def Passes (c : Cursor) (bytes : List UInt8) (d : Cursor) : Prop :=
  c.rest = bytes ++ d.rest ∧ d.offset = c.offset + bytes.length

/-- The cursor `d` stands one byte behind `c`. -/
def Steps (c : Cursor) (b : UInt8) (d : Cursor) : Prop :=
  c.rest = b :: d.rest ∧ d.offset = c.offset + 1

variable {c d : Cursor}

@[simp]
theorem passes_nil : c.Passes [] d ↔ d = c := by
  constructor
  · intro h
    obtain ⟨rest, offset⟩ := h
    cases c
    cases d
    simp_all
  · rintro rfl
    exact ⟨rfl, rfl⟩

@[simp]
theorem passes_append {front back : List UInt8} :
    c.Passes (front ++ back) d ↔ ∃ m, c.Passes front m ∧ m.Passes back d := by
  constructor
  · intro h
    obtain ⟨rest, offset⟩ := h
    refine ⟨⟨c.offset + front.length, back ++ d.rest⟩, ⟨?_, rfl⟩, rfl, ?_⟩
    · rw [rest, List.append_assoc]
    · rw [offset, List.length_append, Nat.add_assoc]
  · intro h
    obtain ⟨m, ⟨rest, offset⟩, rest', offset'⟩ := h
    refine ⟨?_, ?_⟩
    · rw [rest, rest', List.append_assoc]
    · rw [offset', offset, List.length_append, Nat.add_assoc]

@[simp]
theorem passes_cons {b : UInt8} {bytes : List UInt8} :
    c.Passes (b :: bytes) d ↔ ∃ m, c.Steps b m ∧ m.Passes bytes d := by
  show c.Passes ([b] ++ bytes) d ↔ _
  rw [passes_append]
  rfl

theorem passes_singleton {b : UInt8} : c.Passes [b] d ↔ c.Steps b d :=
  Iff.rfl

/-- A cursor that passes from the start over some bytes has passed as many as its place says. -/
theorem passes_start_iff {all bytes : List UInt8} :
    (start all).Passes bytes d ↔
      bytes = all.take d.offset ∧ d.rest = all.drop d.offset ∧ d.offset ≤ all.length := by
  constructor
  · intro h
    obtain ⟨rest, offset⟩ := h
    have rest : all = bytes ++ d.rest := rest
    have offset : d.offset = bytes.length := offset.trans (Nat.zero_add _)
    rw [rest, offset, List.take_left, List.drop_left, List.length_append]
    exact ⟨rfl, rfl, Nat.le_add_right ..⟩
  · intro h
    obtain ⟨front, back, within⟩ := h
    refine ⟨?_, ?_⟩
    · rw [front, back]
      exact (List.take_append_drop d.offset all).symm
    · rw [front, List.length_take_of_le within]
      exact (Nat.zero_add _).symm

/-- To pass all bytes is to have just these bytes: what a cursor `Passes` to its end is all of
them. -/
theorem passes_to_end {all bytes : List UInt8} :
    (∃ d, (start all).Passes bytes d ∧ d.rest = []) ↔ all = bytes := by
  constructor
  · intro h
    obtain ⟨d, ⟨passes, -⟩, last⟩ := h
    have passes : all = bytes ++ d.rest := passes
    rw [passes, last, List.append_nil]
  · rintro rfl
    exact ⟨⟨0 + all.length, []⟩, ⟨(List.append_nil all).symm, rfl⟩, rfl⟩

/-- Not more bytes are passed than there are. -/
theorem Passes.length_le {bytes : List UInt8} (h : c.Passes bytes d) :
    bytes.length ≤ c.remaining := by
  rw [remaining, h.1, List.length_append]
  omega

end Cursor

/-! ### Readers step by step -/

namespace Read

/-- **The reader gives `x` in front of `c`, and leaves `d`.** -/
def Yields (read : Read α) (c : Cursor) (x : α) (d : Cursor) : Prop :=
  read.on c = (.ok x, d)

theorem on_eq_ok_iff {read : Read α} {c : Cursor} {x : α} :
    (read.on c).1 = .ok x ↔ ∃ d, read.Yields c x d := by
  constructor
  · intro h
    exact ⟨(read.on c).2, Prod.ext h rfl⟩
  · intro h
    obtain ⟨d, h⟩ := h
    rw [h]

/-- A reader followed by another goes on where the first stopped, unless that one failed. -/
theorem on_bind {read : Read α} {next : α → Read β} {c : Cursor} :
    (read >>= next).on c =
      match read.on c with
      | (.ok x, m) => (next x).on m
      | (.error e, m) => (.error e, m) := by
  show (ExceptT.bindCont next (read.on c).1 : StateM Cursor (Except DecodeError β))
    (read.on c).2 = _
  cases read.on c with
  | mk result m => cases result <;> rfl

theorem on_take {n : Nat} {c : Cursor} :
    (take n).on c =
      if n ≤ c.remaining then (.ok (c.rest.take n), ⟨c.offset + n, c.rest.drop n⟩)
      else (.error (.corrupt c.offset (.tooShort n c.remaining)), c) := by
  show (if n ≤ c.remaining then _ else _ : Read _).run.run c = _
  split <;> rfl

theorem on_consumed {c : Cursor} :
    consumed.on c =
      if c.remaining ≠ 0 then (.error (.corrupt c.offset (.trailing c.remaining)), c)
      else (.ok (), c) := by
  show (if c.remaining ≠ 0 then _ else _ : Read _).run.run c = _
  split <;> rfl

end Read

section Yields

variable {c d : Cursor}

@[simp]
theorem yields_pure {x y : α} : (pure x : Read α).Yields c y d ↔ y = x ∧ d = c := by
  show (Except.ok x, c) = (Except.ok y, d) ↔ _
  simp [eq_comm]

@[simp]
theorem not_yields_throw {e : DecodeError} {x : α} : ¬(throw e : Read α).Yields c x d := by
  show ¬(Except.error e, c) = (Except.ok x, d)
  simp

@[simp]
theorem not_yields_refuse {offset : Nat} {reason : Corruption} {x : α} :
    ¬(refuse offset reason : Read α).Yields c x d :=
  not_yields_throw

/-- **A reader followed by another** gives what the second gives, where the first stopped. -/
@[simp]
theorem yields_bind {read : Read α} {next : α → Read β} {y : β} :
    (read >>= next).Yields c y d ↔ ∃ x m, read.Yields c x m ∧ (next x).Yields m y d := by
  unfold Read.Yields
  rw [Read.on_bind]
  cases read.on c with
  | mk result m => cases result <;> simp

/-- A check in front of a reader: the bytes are refused if it fails. -/
@[simp]
theorem yields_ite_refuse {p : Prop} [Decidable p] {offset : Nat} {reason : Corruption}
    {next : α → Read β} {rest : Read β} {y : β} :
    (if p then refuse offset reason >>= next else rest).Yields c y d ↔
      ¬p ∧ rest.Yields c y d := by
  by_cases h : p
  · simp [h]
  · simp [h]

@[simp]
theorem yields_offset {n : Nat} : offset.Yields c n d ↔ n = c.offset ∧ d = c := by
  show (Except.ok c.offset, c) = (Except.ok n, d) ↔ _
  simp [eq_comm]

@[simp]
theorem yields_remaining {n : Nat} : remaining.Yields c n d ↔ n = c.remaining ∧ d = c := by
  show (Except.ok c.remaining, c) = (Except.ok n, d) ↔ _
  simp [eq_comm]

/-- Some number of bytes: `take` gives those in front, if there are so many. -/
theorem yields_take {n : Nat} {bytes : List UInt8} :
    (take n).Yields c bytes d ↔ bytes.length = n ∧ c.Passes bytes d := by
  unfold Read.Yields
  rw [Read.on_take]
  constructor
  · intro h
    split at h
    · next enough =>
        obtain ⟨taken, rfl⟩ := Prod.mk.inj h
        obtain rfl := Except.ok.inj taken
        have length : (c.rest.take n).length = n := List.length_take_of_le enough
        exact ⟨length, (List.take_append_drop n c.rest).symm, by rw [length]⟩
    · simp at h
  · intro h
    obtain ⟨rfl, passes⟩ := h
    rw [if_pos passes.length_le, passes.1, List.take_left, List.drop_left, ← passes.2]

@[simp]
theorem yields_byte {b : UInt8} : byte.Yields c b d ↔ c.Steps b d := by
  simp only [byte, yields_bind, yields_take, yields_pure]
  constructor
  · intro h
    obtain ⟨bytes, m, ⟨length, passes⟩, rfl, rfl⟩ := h
    obtain ⟨b, rfl⟩ := List.length_eq_one_iff.1 length
    simpa using passes
  · intro h
    exact ⟨[b], d, ⟨rfl, by simpa using h⟩, rfl, rfl⟩

/-- Nothing is left, and nothing happens: `consumed` reads no byte. -/
@[simp]
theorem yields_consumed {u : Unit} : consumed.Yields c u d ↔ c.rest = [] ∧ d = c := by
  unfold Read.Yields
  rw [Read.on_consumed]
  by_cases left : c.rest = []
  · simp [Cursor.remaining, left, eq_comm]
  · simp [Cursor.remaining, left]

end Yields

/-! ### Readers and writers -/

/-- **Lengths that can be written in front of something.** -/
def Fits (lengths : List Nat) : Prop :=
  ∀ length ∈ lengths, length ≤ maxLength

instance (lengths : List Nat) : Decidable (Fits lengths) :=
  inferInstanceAs (Decidable (∀ length ∈ lengths, length ≤ maxLength))

@[simp]
theorem fits_nil : Fits [] := by
  simp [Fits]

@[simp]
theorem fits_cons {length : Nat} {lengths : List Nat} :
    Fits (length :: lengths) ↔ length ≤ maxLength ∧ Fits lengths := by
  simp [Fits]

@[simp]
theorem fits_append {front back : List Nat} : Fits (front ++ back) ↔ Fits front ∧ Fits back :=
  List.forall_mem_append

theorem lengthNumber_eq_ok_iff {length : Nat} {n : Int32} :
    lengthNumber length = .ok n ↔ length ≤ maxLength ∧ n = Int32.ofNat length := by
  unfold lengthNumber
  constructor
  · intro h
    split at h
    · next fits => exact ⟨fits, (Except.ok.inj h).symm⟩
    · cases h
  · rintro ⟨fits, rfl⟩
    exact if_pos fits

/-- Lengths fit just if `lengthNumber` refuses none of them; the numbers that it gives then are
those that `putBytes` and `putEntries` write. -/
theorem fits_iff_mapM_lengthNumber {lengths : List Nat} :
    Fits lengths ↔ lengths.mapM lengthNumber = .ok (lengths.map Int32.ofNat) := by
  constructor
  · intro fits
    exact mapM_eq_ok fun length mem => lengthNumber_eq_ok_iff.2 ⟨fits length mem, rfl⟩
  · intro written
    induction lengths with
    | nil => exact fits_nil
    | cons length lengths ih =>
        rw [List.mapM_cons, bind_eq_ok_iff] at written
        obtain ⟨n, here, rest⟩ := written
        obtain ⟨ns, rest, same⟩ := bind_eq_ok_iff.1 rest
        obtain ⟨fits, rfl⟩ := lengthNumber_eq_ok_iff.1 here
        obtain ⟨-, rfl⟩ := List.cons.inj (Except.ok.inj same)
        exact fits_cons.2 ⟨fits, ih rest⟩

/-- **The reader undoes the writer**: it gives a value exactly where the bytes of the value are in
front, and the lengths inside the value can be written. -/
def Read.Undoes (read : Read α) (put : α → List UInt8) (lengths : α → List Nat) : Prop :=
  ∀ c x d, read.Yields c x d ↔ Fits (lengths x) ∧ c.Passes (put x) d

/-- A reader followed by the use of what it gives: `yields_bind` for a reader that `Undoes` a
writer. -/
theorem Read.Undoes.yields_use {read : Read α} {put : α → List UInt8} {lengths : α → List Nat}
    (undoes : read.Undoes put lengths) {c d : Cursor} {f : α → β} {y : β} :
    (do return f (← read) : Read β).Yields c y d ↔
      ∃ x, y = f x ∧ Fits (lengths x) ∧ c.Passes (put x) d := by
  simp only [yields_bind, yields_pure, undoes _ _ _]
  constructor
  · intro h
    obtain ⟨x, m, passes, rfl, rfl⟩ := h
    exact ⟨x, rfl, passes⟩
  · intro h
    obtain ⟨x, rfl, passes⟩ := h
    exact ⟨x, d, passes, rfl, rfl⟩

/-- Two readers one behind the other, followed by the use of what they give. -/
theorem Read.Undoes.yields_pair {γ : Type} {first : Read α} {second : Read β}
    {put : α → List UInt8} {put' : β → List UInt8} {lengths : α → List Nat}
    {lengths' : β → List Nat} (undoes : first.Undoes put lengths)
    (undoes' : second.Undoes put' lengths') {c d : Cursor} {f : α → β → γ} {z : γ} :
    (do return f (← first) (← second) : Read γ).Yields c z d ↔
      ∃ x y, z = f x y ∧ Fits (lengths x ++ lengths' y) ∧ c.Passes (put x ++ put' y) d := by
  simp only [yields_bind, yields_pure, undoes _ _ _, undoes' _ _ _, fits_append,
    Cursor.passes_append]
  constructor
  · intro h
    obtain ⟨x, m, ⟨fits, passes⟩, y, _, ⟨fits', passes'⟩, rfl, rfl⟩ := h
    exact ⟨x, y, rfl, ⟨fits, fits'⟩, m, passes, passes'⟩
  · intro h
    obtain ⟨x, y, rfl, ⟨fits, fits'⟩, m, passes, passes'⟩ := h
    exact ⟨x, m, ⟨fits, passes⟩, y, d, ⟨fits', passes'⟩, rfl, rfl⟩

end GraphLog.Wire
