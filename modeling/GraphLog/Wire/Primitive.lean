/-
**Numbers, byte strings and texts on the wire.**

Numbers have a fixed width, the most significant byte first.  Byte strings and texts carry their
length in front, where minus one means that there is none; a number that may be absent carries a
flag.  Each form has a writer and a reader.

Main definitions:

* `GraphLog.Wire.bigEndian`, `GraphLog.Wire.ofBigEndian` — numbers of a fixed width;
* `GraphLog.Wire.putText`, `GraphLog.Wire.text` — and their companions for the other forms.
-/

import GraphLog.Number
import GraphLog.Wire.Cursor

set_option relaxedAutoImplicit false
set_option autoImplicit false

namespace GraphLog.Wire

/-! ### Numbers -/

/-- The last `width` bytes of a number, the most significant first. -/
def bigEndian : (width n : Nat) → List UInt8
  | 0, _ => []
  | width + 1, n => bigEndian width (n / 256) ++ [UInt8.ofNat n]

/-- The number with these bytes, the most significant first: `bigEndian` read back. -/
def ofBigEndian (bytes : List UInt8) : Nat :=
  bytes.foldl (fun n b => n * 256 + b.toNat) 0

/-- Four bytes, with a sign. -/
def putInt32 (n : Int32) : List UInt8 :=
  bigEndian 4 n.toUInt32.toNat

/-- Eight bytes, with a sign. -/
def putInt64 (n : Int64) : List UInt8 :=
  bigEndian 8 n.toUInt64.toNat

/-- Eight bytes, without a sign. -/
def putUInt64 (n : UInt64) : List UInt8 :=
  bigEndian 8 n.toNat

/-- Eight bytes, the `Double.bits` of a floating point number. -/
def putDouble (x : Double) : List UInt8 :=
  putUInt64 x.bits

def int32 : Read Int32 := do
  return (UInt32.ofNat (ofBigEndian (← take 4))).toInt32

def int64 : Read Int64 := do
  return (UInt64.ofNat (ofBigEndian (← take 8))).toInt64

def uint64 : Read UInt64 := do
  return UInt64.ofNat (ofBigEndian (← take 8))

def double : Read Double := do
  return ⟨← uint64⟩

/-- A flag, and the number if there is one. -/
def putOptionalInt64 : Option Int64 → List UInt8
  | none => [0]
  | some n => 1 :: putInt64 n

def optionalInt64 : Read (Option Int64) := do
  let start ← offset
  match ← byte with
  | 0 => return none
  | 1 => return some (← int64)
  | flag => refuse start (.nullFlag flag)

/-! ### Byte strings and texts -/

/-- The greatest length that can be written. -/
def maxLength : Nat := 0x7FFFFFFF

/-- The length of something too long to be written, which is above `maxLength`. -/
structure LengthOverflow where
  length : Nat
deriving DecidableEq, Repr

/-- The wording of an overflow. -/
def LengthOverflow.message (e : LengthOverflow) : String :=
  s!"length prefix overflow ({e.length} > i32::MAX)"

/-- The number in front of something of a given length.  There is none above `maxLength`; below, it
is what `putBytes` writes. -/
def lengthNumber (length : Nat) : Except LengthOverflow Int32 :=
  if length ≤ maxLength then .ok (Int32.ofNat length) else .error ⟨length⟩

/-- A length, and the bytes. -/
def putBytes (bytes : List UInt8) : List UInt8 :=
  putInt32 (Int32.ofNat bytes.length) ++ bytes

/-- Minus one, or a length and the bytes. -/
def putOptionalBytes : Option (List UInt8) → List UInt8
  | none => putInt32 (-1)
  | some bytes => putBytes bytes

/-- A length, and the bytes of a text as in `Text.toBytes`. -/
def putText (s : String) : List UInt8 :=
  putBytes (Text.toBytes s)

/-- Minus one, or a length and a text: `putOptionalBytes` of its bytes. -/
def putOptionalText (s : Option String) : List UInt8 :=
  putOptionalBytes (s.map Text.toBytes)

/-- **Minus one, or a length and the bytes.**  A length is refused at its own place. -/
def optionalBytes : Read (Option (List UInt8)) := do
  let start ← offset
  let length ← int32
  if length = -1 then return none
  if length < 0 then refuse start (.negativeLength length)
  let length := length.toInt.toNat
  let left ← remaining
  if left < length then refuse start (.lengthBeyondEnd length left)
  return some (← take length)

def bytes : Read (List UInt8) := do
  let start ← offset
  match ← optionalBytes with
  | some bytes => return bytes
  | none => refuse start .absentBytes

def optionalText : Read (Option String) := do
  let start ← offset
  match ← optionalBytes with
  | none => return none
  | some bytes =>
    match Text.ofBytes? bytes with
    | some s => return some s
    | none => refuse start .notText

def text : Read String := do
  let start ← offset
  match ← optionalText with
  | some s => return s
  | none => refuse start .absentText

end GraphLog.Wire
