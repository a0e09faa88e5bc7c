/-
**Texts: their blanks, their bytes, and what of them a terminal is shown.**

The blanks are the 25 characters with the property White_Space; core's `Char.isWhitespace` knows
six of them.  Lists of tokens, lines of record files and hexadecimal arguments are trimmed with
this set.

Everything that travels in a frame is a list of bytes.  A text travels as its UTF-8 form; reading
one back either gives the text or fails, and a failure can be located by the longest front part
that is still a text.

A terminal takes some characters as orders.  An escape character starts a sequence, whose second
character says how it goes on: most sequences end soon with a letter, while a command or a string
goes on until it is ended.  A page that does not go to a terminal is written without sequences,
and without all control characters but those that break a line or leave a gap.  A break or a gap
within a short sequence is an order of its own and is kept.  What stands behind it is kept, too, up
to the next control character, where the sequence goes on.

Main definitions:

* `GraphLog.Text.isBlank` — the characters with the property White_Space;
* `GraphLog.Text.trim` — a text without the blanks at its two ends;
* `GraphLog.Text.toBytes` — the UTF-8 form of a text;
* `GraphLog.Text.ofBytes?` — the text with this UTF-8 form, if there is one;
* `GraphLog.Text.readableLength` — how many bytes the longest front part that is a text has;
* `GraphLog.Text.Sequence` — the sequence that a character stands in;
* `GraphLog.Text.plain` — **a text without what steers a terminal**.

Main results:

* `GraphLog.Text.ofBytes?_toBytes` — a written text reads back;
* `GraphLog.Text.toBytes_of_ofBytes?` — only written texts are read.
-/

set_option relaxedAutoImplicit false
set_option autoImplicit false

namespace GraphLog.Text

/-! ### Blanks -/

/-- **The 25 characters with the property White_Space.** -/
def isBlank (c : Char) : Bool :=
  let n := c.toNat
  (0x09 ≤ n && n ≤ 0x0D) || n == 0x20 || n == 0x85 || n == 0xA0 || n == 0x1680 ||
    (0x2000 ≤ n && n ≤ 0x200A) || n == 0x2028 || n == 0x2029 || n == 0x202F || n == 0x205F ||
    n == 0x3000

/-- The list without the characters at its front that are `isBlank`. -/
def trimStart (cs : List Char) : List Char :=
  cs.dropWhile isBlank

/-- The text without the blanks at its two ends. -/
def trim (s : String) : String :=
  String.ofList (trimStart (trimStart s.toList).reverse).reverse

/-! ### Bytes -/

/-- The UTF-8 form of a text. -/
def toBytes (s : String) : List UInt8 :=
  s.toByteArray.data.toList

/-- The text of which the bytes are `toBytes`, if there is one. -/
def ofBytes? (bytes : List UInt8) : Option String :=
  String.fromUTF8? ⟨bytes.toArray⟩

/-- The number of bytes in the longest front part that `ofBytes?` reads. -/
def readableLength (bytes : List UInt8) : Nat :=
  ((List.range (bytes.length + 1)).reverse.find? fun n => (ofBytes? (bytes.take n)).isSome).getD 0

theorem ofBytes?_toBytes (s : String) : ofBytes? (toBytes s) = some s := by
  have h : (⟨(toBytes s).toArray⟩ : ByteArray) = s.toByteArray := by
    simp [toBytes]
  simp only [ofBytes?, h, String.fromUTF8?]
  have valid : s.toByteArray.IsValidUTF8 := s.isValidUTF8
  simp [valid, String.fromUTF8]

theorem toBytes_of_ofBytes? {bytes : List UInt8} {s : String} (h : ofBytes? bytes = some s) :
    toBytes s = bytes := by
  simp only [ofBytes?, String.fromUTF8?] at h
  split at h
  · simp only [Option.some.injEq] at h
    subst h
    simp [toBytes, String.fromUTF8]
  · simp at h

/-! ### What steers a terminal -/

/-- The sequence that a character stands in. -/
inductive Sequence where
  | none
  | escape
  -- a sequence with characters between the escape character and its end
  | extended
  | control
  -- a command to the system around the terminal
  | command
  | string
deriving DecidableEq, Repr

/-- The character breaks a line or leaves a gap. -/
def isGap (c : Char) : Bool :=
  c == '\t' || c == '\n' || c == '\x0c' || c == '\r'

/-- The character is no order, or only one that `isGap`. -/
def isVisible (c : Char) : Bool :=
  (0x20 ≤ c.toNat && c.toNat != 0x7F) || isGap c

/-- The number of the character lies between two others. -/
def isBetween (first last : Nat) (c : Char) : Bool :=
  first ≤ c.toNat && c.toNat ≤ last

namespace Sequence

/-- The sequence behind a character.  Two control characters break every sequence off, and an escape
character starts another one. -/
def next (s : Sequence) (c : Char) : Sequence :=
  if c = '\x18' ∨ c = '\x1a' then none
  else if c = '\x1b' then escape
  else
    match s with
    | none => none
    | escape =>
      if isBetween 0x20 0x2F c then extended
      else if c = '[' then control
      else if c = ']' then command
      else if ['P', 'X', '^', '_'].contains c then string
      else if isBetween 0x30 0x7E c then none
      else escape
    | extended => if isBetween 0x30 0x7E c then none else extended
    | control => if isBetween 0x40 0x7E c then none else control
    | command => if c = '\x07' then none else command
    | string => if (toBytes c.toString).contains 0x9C then none else string

/-- A character in a sequence is kept. -/
def keeps (s : Sequence) (c : Char) : Bool :=
  match s with
  | none => isVisible c
  | escape | extended | control => isGap c
  | command | string => false

end Sequence

/-- The characters that are kept, in a sequence; `showing` says that it is interrupted. -/
def kept (showing : Bool) (s : Sequence) : List Char → List Char
  | [] => []
  | c :: cs =>
    if showing && isVisible c then c :: kept true (if c.toNat < 0x80 then s else .none) cs
    else if s.keeps c then c :: kept true (s.next c) cs
    else kept false (s.next c) cs

/-- **A text without what steers a terminal.** -/
def plain (s : String) : String :=
  String.ofList (kept false .none s.toList)

end GraphLog.Text
