/-
**Numbers of 64 bits, and how they are written and read.**

Times and numbers of arrival are integers of 64 bits, with a sign or without one.  Floating point
values are binary64 numbers.  Two of these are the same value of a property when their bits are the
same, so a number is held by its bits: equality is decidable, and a value that is not a number keeps
its payload on the way through a frame.

A binary64 number is written with the fewest decimal digits that still name it.  The reals that
round to it form an interval, from half way to its neighbour below to half way to its neighbour
above, ends included exactly when the mantissa is even.  The digits shown are those of the shortest
decimal in that interval, and of several shortest ones the nearest to the number.  Everything is
computed in exact natural arithmetic: the grids of one, two, … significant digits are tried in turn,
and on each only the two neighbours of the number can be the nearest hit.  Three places write such
numbers, each with its own layout: narrations of events write every digit and no exponent, listings
of a payload keep a point and switch to an exponent far from one, and exchanged documents do the
same a little later.

A decimal literal is read in one of two ways.  Documents gather its digits into a significand of at
most 64 bits, round this to a machine float and multiply or divide it by a power of ten; digits that
no longer fit are dropped, those before the point into the exponent, and a literal too large for a
float has no value.  Settings take the float nearest to the literal, ties to even, where what lies
beyond the largest float by half a step or more is infinite.

Main definitions:

* `GraphLog.Integer.signed?`, `GraphLog.Integer.unsigned?` — the integer of 64 bits, if it fits;
* `GraphLog.Double` — a binary64 number by its bits;
* `GraphLog.Double.magnitude` — the size of a finite number as `mantissa * 2 ^ exponent`;
* `GraphLog.Double.ofInt` — the number nearest to an integer, ties to even;
* `GraphLog.Magnitude.shortest` — the shortest decimal, nearest first;
* `GraphLog.Layout.write` — a number in a layout: `GraphLog.Layout.narration`,
  `GraphLog.Layout.listing` or `GraphLog.Layout.document`;
* `GraphLog.Literal.value?` — the number that a literal stands for, by scaling;
* `GraphLog.Literal.nearest` — the float nearest to it.
-/

set_option relaxedAutoImplicit false
set_option autoImplicit false

namespace GraphLog

/-! ### Integers -/

namespace Integer

/-- The integer of 64 bits with a sign, if it fits. -/
def signed? (n : Int) : Option Int64 :=
  if Int64.minValue.toInt ≤ n ∧ n ≤ Int64.maxValue.toInt then some (Int64.ofInt n) else none

/-- The integer of 64 bits without a sign, if it fits. -/
def unsigned? (n : Int) : Option UInt64 :=
  if 0 ≤ n ∧ n < UInt64.size then some (UInt64.ofNat n.toNat) else none

theorem signed?_toInt (n : Int64) : signed? n.toInt = some n := by
  have fits : Int64.minValue.toInt ≤ n.toInt ∧ n.toInt ≤ Int64.maxValue.toInt :=
    ⟨n.minValue_le_toInt, n.toInt_le⟩
  rw [signed?, if_pos fits, Int64.ofInt_toInt]

theorem unsigned?_toNat (n : UInt64) : unsigned? n.toNat = some n := by
  have fits : (0 : Int) ≤ n.toNat ∧ (n.toNat : Int) < UInt64.size :=
    ⟨Int.natCast_nonneg _, Int.ofNat_lt.2 n.toNat_lt_size⟩
  rw [unsigned?, if_pos fits, Int.toNat_natCast, UInt64.ofNat_toNat]

end Integer

/-! ### Binary numbers -/

/-- **A binary64 number, held by its bits.** -/
structure Double where
  -- sign, eleven bits of exponent, fifty-two bits of fraction
  bits : UInt64
deriving DecidableEq, Repr, Inhabited

/-- The size of a finite number, `mantissa * 2 ^ exponent`. -/
structure Magnitude where
  mantissa : Nat
  -- the power of two that it counts
  exponent : Int
  -- the gap to the number below is half the gap to the number above
  narrowBelow : Bool
deriving DecidableEq, Repr

namespace Double

def isNegative (x : Double) : Bool :=
  x.bits >>> 63 == 1

def exponentBits (x : Double) : Nat :=
  ((x.bits >>> 52) &&& 0x7FF).toNat

def fraction (x : Double) : Nat :=
  (x.bits &&& 0xFFFFFFFFFFFFF).toNat

/-- The number is neither infinite nor not a number. -/
def isFinite (x : Double) : Bool :=
  x.exponentBits != 0x7FF

def isNaN (x : Double) : Bool :=
  x.exponentBits == 0x7FF && x.fraction != 0

/-- The size of a finite number, as a `Magnitude`.  The lowest exponent has no implicit leading
bit. -/
def magnitude (x : Double) : Magnitude :=
  if x.exponentBits = 0 then ⟨x.fraction, -1074, false⟩
  else ⟨0x10000000000000 + x.fraction, (x.exponentBits : Int) - 1075,
    x.fraction == 0 && x.exponentBits > 1⟩

/-- What lies above all finite numbers. -/
def infinity : Double :=
  ⟨0x7FF0000000000000⟩

/-- The number with the bits of a machine float. -/
def ofFloat (x : Float) : Double :=
  ⟨x.toBits⟩

/-- The number nearest to an integer of at most 64 bits, ties to even: `ofFloat` of what the machine
rounds it to. -/
def ofInt (n : Int) : Double :=
  if n < 0 then ofFloat (-(UInt64.ofNat n.natAbs).toFloat)
  else ofFloat (UInt64.ofNat n.natAbs).toFloat

end Double

/-! ### The shortest decimal -/

/-- A decimal number, `digits * 10 ^ exponent`. -/
structure Decimal where
  -- the significant digits as one number
  digits : Nat
  -- the power of ten that they count
  exponent : Int
deriving DecidableEq, Repr

/-- Which of two equally near decimals `Magnitude.nearestOn` takes. -/
inductive Tie where
  | even
  | up
deriving DecidableEq, Repr

namespace Decimal

def width (d : Decimal) : Nat :=
  (Nat.toDigits 10 d.digits).length

/-- The power of ten of the leading digit. -/
def leading (d : Decimal) : Int :=
  d.exponent + d.width - 1

/-- Moves trailing zeros of the `digits` into the `exponent`, at most `fuel` of them. -/
def stripZeros : Nat → Decimal → Decimal
  | 0, d => d
  | fuel + 1, d =>
    if d.digits ≠ 0 ∧ d.digits % 10 = 0 then stripZeros fuel ⟨d.digits / 10, d.exponent + 1⟩
    else d

end Decimal

namespace Magnitude

/-- Compares `a * 10 ^ i` with `n * 2 ^ j`. -/
def compareScaled (a : Nat) (i : Int) (n : Nat) (j : Int) : Ordering :=
  compare (a * Nat.pow 10 i.toNat * Nat.pow 2 (-j).toNat)
    (n * Nat.pow 2 j.toNat * Nat.pow 10 (-i).toNat)

/-- The decimal lies among the reals that round to the number.  In quarters of the last mantissa
place the interval reaches two up, and two or, above a narrow gap, one down. -/
def readsBack (x : Magnitude) (d : Decimal) : Bool :=
  let low := if x.narrowBelow then 4 * x.mantissa - 1 else 4 * x.mantissa - 2
  let high := 4 * x.mantissa + 2
  let closed := x.mantissa % 2 == 0
  let toLow := compareScaled d.digits d.exponent low (x.exponent - 2)
  let toHigh := compareScaled d.digits d.exponent high (x.exponent - 2)
  (toLow == .gt || (closed && toLow == .eq)) && (toHigh == .lt || (closed && toHigh == .eq))

/-- The least `k` with the number below `10 ^ k`, for a number that is not zero. -/
def scale (x : Magnitude) : Int :=
  let whole := x.mantissa * Nat.pow 2 x.exponent.toNat / Nat.pow 2 (-x.exponent).toNat
  if whole ≠ 0 then (Nat.toDigits 10 whole).length
  else
    let places := (List.range 330).find? fun (k : Nat) =>
      compareScaled 1 (-(k : Int) - 1) x.mantissa x.exponent != .gt
    Int.negOfNat (places.getD 0)

/-- The number in units of `10 ^ e`, rounded down. -/
def floorOn (x : Magnitude) (e : Int) : Nat :=
  x.mantissa * Nat.pow 2 x.exponent.toNat * Nat.pow 10 (-e).toNat /
    (Nat.pow 2 (-x.exponent).toNat * Nat.pow 10 e.toNat)

/-- Of the two neighbours of the number in units of `10 ^ e`, the nearest for which `readsBack`
holds. -/
def nearestOn (tie : Tie) (x : Magnitude) (e : Int) : Option Decimal :=
  let below : Decimal := ⟨x.floorOn e, e⟩
  let above : Decimal := ⟨x.floorOn e + 1, e⟩
  match x.readsBack below && below.digits != 0, x.readsBack above with
  | true, true =>
    -- twice the number against the sum of its two neighbours
    match compareScaled (below.digits + above.digits) e (2 * x.mantissa) x.exponent with
    | .gt => some below
    | .lt => some above
    | .eq =>
      match tie with
      | .up => some above
      | .even => some (if below.digits % 2 = 0 then below else above)
  | true, false => some below
  | false, true => some above
  | false, false => none

/-- The exact value as a decimal. -/
def exactly (x : Magnitude) : Decimal :=
  if 0 ≤ x.exponent then ⟨x.mantissa * Nat.pow 2 x.exponent.toNat, 0⟩
  else ⟨x.mantissa * Nat.pow 5 (-x.exponent).toNat, x.exponent⟩

/-- **The shortest decimal that reads back, and of those the nearest.**  Seventeen digits always
suffice; `exactly` stands in behind them. -/
def shortest (tie : Tie) (x : Magnitude) : Decimal :=
  if x.mantissa = 0 then ⟨0, 0⟩
  else
    let k := x.scale
    let found := (List.range 17).findSome? fun (n : Nat) => x.nearestOn tie (k - (n : Int) - 1)
    (found.getD x.exactly).stripZeros 20

end Magnitude

/-! ### Layouts -/

/-- The decisions of a layout for binary64 numbers, followed by `Layout.write`. -/
structure Layout where
  -- the powers of ten of the leading digit that are written without an exponent
  plain : Int → Bool
  -- whole numbers keep a point and a zero
  pointZero : Bool
  tie : Tie

namespace Layout

/-- Narrations write every digit and no exponent. -/
def narration : Layout where
  plain := fun _ => true
  pointZero := false
  tie := .up

/-- Listings use an exponent from 10^16 on and below 10^-4. -/
def listing : Layout where
  plain := fun e => -4 ≤ e && e ≤ 15
  pointZero := true
  tie := .up

/-- Documents use an exponent from 10^16 on and below 10^-5. -/
def document : Layout where
  plain := fun e => -5 ≤ e && e ≤ 15
  pointZero := true
  tie := .even

def zeros (n : Nat) : List Char :=
  List.replicate n '0'

/-- The digits with the point where the exponent puts it. -/
def positional (pointZero : Bool) (digits : List Char) (exponent : Int) : List Char :=
  if 0 ≤ exponent then
    digits ++ zeros exponent.toNat ++ (if pointZero then ['.', '0'] else [])
  else
    let places := (-exponent).toNat
    if places < digits.length then
      digits.take (digits.length - places) ++ '.' :: digits.drop (digits.length - places)
    else ['0', '.'] ++ zeros (places - digits.length) ++ digits

/-- The digits with a point after the first, and the exponent of the first.  Where `Layout.plain`
says so, the form is `positional` instead. -/
def scientific (digits : List Char) (leading : Int) : List Char :=
  let tail := digits.drop 1
  digits.take 1 ++ (if tail.isEmpty then [] else '.' :: tail) ++ 'e' :: (toString leading).toList

def writeMagnitude (format : Layout) (x : Magnitude) : List Char :=
  let d := x.shortest format.tie
  let digits := Nat.toDigits 10 d.digits
  if x.mantissa = 0 || format.plain d.leading then positional format.pointZero digits d.exponent
  else scientific digits d.leading

/-- A number in this layout.  The sign of zero is written, that of a number that `isNaN` is not. -/
def write (format : Layout) (x : Double) : String :=
  if x.isNaN then "NaN"
  else
    let size := if x.isFinite then format.writeMagnitude x.magnitude else "inf".toList
    String.ofList (if x.isNegative then '-' :: size else size)

end Layout

/-! ### Literals -/

/-- The parts of a decimal literal, its digits as numbers below ten. -/
structure Literal where
  negative : Bool
  whole : List Nat
  -- the digits after the point; `none` without a point
  fraction : Option (List Nat)
  -- the exponent; `none` when there is none
  exponent : Option Int
deriving DecidableEq, Repr

namespace Literal

/-- Gathers digits while the significand fits 64 bits; gives the digits left over too. -/
def gather (significand : Nat) : List Nat → Nat × List Nat
  | [] => (significand, [])
  | d :: ds =>
    if significand * 10 + d < UInt64.size then gather (significand * 10 + d) ds
    else (significand, d :: ds)

/-- A power of ten as a machine float, for exponents up to 308. -/
def powerOfTen (n : Nat) : Float :=
  Float.ofScientific 1 false n

/-- Divides by powers of ten of at most 308, at most `steps` times. -/
def divided (f : Float) : (steps : Nat) → (exponent : Nat) → Float
  | 0, _ => f
  | steps + 1, n =>
    if n ≤ 308 then f / powerOfTen n
    else if f == 0 then f
    else divided (f / powerOfTen 308) steps (n - 308)

/-- A float times a `powerOfTen`; nothing when the product is too large.  Three divisions bring
every significand to zero. -/
def scaled (f : Float) (exponent : Int) : Option Float :=
  if exponent < 0 then some (divided f 4 exponent.natAbs)
  else if exponent ≤ 308 then
    let product := f * powerOfTen exponent.toNat
    if product.isInf then none else some product
  else if f == 0 then some f
  else none

/-- The literal has neither point nor exponent. -/
def isWhole (l : Literal) : Bool :=
  l.fraction.isNone && l.exponent.isNone

/-- The digits before the point as a number. -/
def wholeValue (l : Literal) : Nat :=
  l.whole.foldl (fun n d => n * 10 + d) 0

/-- **The number a literal stands for**: its digits are put together by `gather` and the result is
`scaled`.  There is none when it is too large for a float. -/
def value? (l : Literal) : Option Double :=
  let (before, dropped) := gather 0 l.whole
  let digits := l.fraction.getD []
  let (significand, unused) := gather before digits
  let shift : Int := (dropped.length : Int) - ((digits.length : Int) - unused.length)
  (scaled (UInt64.ofNat significand).toFloat (shift + l.exponent.getD 0)).map fun f =>
    .ofFloat (if l.negative then -f else f)

/-! The float nearest to a literal: an exponent far outside the range of floats settles it without
any arithmetic. -/

def digits (l : Literal) : List Nat :=
  l.whole ++ l.fraction.getD []

def significand (l : Literal) : Nat :=
  l.digits.foldl (fun n d => n * 10 + d) 0

/-- The power of ten that the `significand` counts. -/
def scale (l : Literal) : Int :=
  l.exponent.getD 0 - (l.fraction.getD []).length

/-- Every power of ten from this one on is above all floats, and so is its inverse below them. -/
def farScale : Nat := 400

/-- The size of the float nearest to a literal.  An exponent from `farScale` on settles it without
arithmetic. -/
def nearestSize (l : Literal) : Float :=
  if l.significand = 0 then 0
  else if (farScale : Int) ≤ l.scale then 1 / 0
  else if l.scale ≤ -((farScale + l.digits.length : Nat) : Int) then 0
  else Float.ofScientific l.significand (l.scale < 0) l.scale.natAbs

/-- **The float nearest to a literal.** -/
def nearest (l : Literal) : Double :=
  .ofFloat (if l.negative then -l.nearestSize else l.nearestSize)

end Literal

end GraphLog
