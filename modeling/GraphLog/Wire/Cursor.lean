/-
**Reading bytes from the front, and knowing where one is.**

A read either gives a value and moves on, or fails and says where and why.  A failed read leaves
the cursor where the failure was noticed, so reading can go on from there.

Main definitions:

* `GraphLog.Wire.Cursor` — the bytes that are left, and how many were read;
* `GraphLog.Wire.Corruption`, `GraphLog.Wire.DecodeError` — why bytes are refused;
* `GraphLog.Wire.Read` — a read;
* `GraphLog.Wire.take`, `GraphLog.Wire.byte` — the two elementary reads.
-/

import GraphLog.Label.Parser

set_option relaxedAutoImplicit false
set_option autoImplicit false

namespace GraphLog.Wire

/-- **The bytes that are left, and how many were read before them.** -/
structure Cursor where
  offset : Nat
  rest : List UInt8
deriving DecidableEq, Repr

/-- The cursor in front of some bytes. -/
def Cursor.start (bytes : List UInt8) : Cursor :=
  ⟨0, bytes⟩

/-- The number of bytes that are left. -/
def Cursor.remaining (c : Cursor) : Nat :=
  c.rest.length

/-- Where a cursor stands, as shown for diagnosis. -/
def Cursor.describe (c : Cursor) : String :=
  "Cursor \x7b off: " ++ toString c.offset ++ ", remaining: " ++ toString c.remaining ++ " \x7d"

/-- Why bytes are refused. -/
inductive Corruption where
  | tooShort (needed remaining : Nat)
  -- the byte in front of a number that may be absent is neither zero nor one
  | nullFlag (flag : UInt8)
  | negativeLength (length : Int32)
  | lengthBeyondEnd (length remaining : Nat)
  | absentBytes
  | absentText
  | notText
  | trailing (count : Nat)
  | frameTag (expected found : UInt8)
  | mutationKind (number : UInt8)
  | valueTag (tag : UInt8)
  | truthValue (byte : UInt8)
  | slotTag (tag : UInt8)
  | directionTag (tag : UInt8)
  | elementTag (tag : UInt8)
  | label (error : Label.ParseError)
  | negativeCount (count : Int32)
  | endsAfterVersion
  | labelNotText
deriving DecidableEq, Repr

def shownByte (b : UInt8) : String :=
  "0x" ++ Text.Hex.upperByte b

def Corruption.message : Corruption → String
  | tooShort needed remaining => s!"need {needed} bytes, {remaining} remaining"
  | nullFlag flag => s!"invalid null flag {shownByte flag}"
  | negativeLength length => s!"negative length {length.toInt}"
  | lengthBeyondEnd length remaining =>
    s!"declared length {length} exceeds {remaining} remaining bytes"
  | absentBytes => "required field is null"
  | absentText => "required string is null"
  | notText => "string is not valid UTF-8"
  | trailing count => s!"{count} trailing bytes"
  | frameTag expected found =>
    let letter := Text.quotedChar (Char.ofNat expected.toNat)
    s!"expected frame tag {letter}, found {shownByte found}"
  | mutationKind number => s!"unknown mutation type id {number.toNat}"
  | valueTag tag => s!"unknown value tag {shownByte tag}"
  | truthValue byte => s!"invalid boolean encoding {shownByte byte}"
  | slotTag tag => s!"unknown slot tag {shownByte tag}"
  | directionTag tag => s!"unknown direction tag {shownByte tag}"
  | elementTag tag => s!"unknown element kind tag {shownByte tag}"
  | label error => s!"invalid visibility label: {error.message}"
  | negativeCount count => s!"negative metadata count {count.toInt}"
  | endsAfterVersion => "frame ends after version byte"
  | labelNotText => "visibility is not valid UTF-8"

/-- **Why a frame is refused**: for a version that is not known, or for a `Corruption` at a
place. -/
inductive DecodeError where
  | corrupt (offset : Nat) (reason : Corruption)
  | unsupportedVersion (version : UInt8)
deriving DecidableEq, Repr

def DecodeError.message : DecodeError → String
  | corrupt offset reason => s!"corrupt payload at byte {offset}: {reason.message}"
  | unsupportedVersion version => s!"unsupported format version {version.toNat}"

/-- The error of a part that starts `base` bytes into the whole. -/
def DecodeError.shifted (base : Nat) : DecodeError → DecodeError
  | corrupt offset reason => corrupt (base + offset) reason
  | unsupportedVersion version => unsupportedVersion version

/-- **A read**: a value or an error, and the cursor afterwards in either case. -/
abbrev Read := ExceptT DecodeError (StateM Cursor)

/-- What a read makes of a cursor. -/
def Read.on {α : Type} (read : Read α) (c : Cursor) : Except DecodeError α × Cursor :=
  read.run.run c

/-- The number of bytes read so far. -/
def offset : Read Nat :=
  return (← getThe Cursor).offset

def remaining : Read Nat :=
  return (← getThe Cursor).remaining

/-- Refuses the bytes from an offset on, for a `Corruption`. -/
def refuse {α : Type} (offset : Nat) (reason : Corruption) : Read α :=
  throw (.corrupt offset reason)

/-- The next `n` bytes.  If fewer are left, nothing is read. -/
def take (n : Nat) : Read (List UInt8) := do
  let c ← getThe Cursor
  if n ≤ c.remaining then
    set (Cursor.mk (c.offset + n) (c.rest.drop n))
    return c.rest.take n
  else refuse c.offset (.tooShort n c.remaining)

def byte : Read UInt8 := do
  return (← take 1).headD 0

/-- Nothing is left. -/
def consumed : Read Unit := do
  let c ← getThe Cursor
  if c.remaining ≠ 0 then refuse c.offset (.trailing c.remaining)

end GraphLog.Wire
