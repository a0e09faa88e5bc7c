/-
**Quoted texts and integers are read back from their letters.**

A quoted text is read up to its quote: of each character in it the form is known, by a letter or by
a number behind a backslash, or the character stands for itself.  An integer is read up to what
cannot continue a number.  Integers of more than 64 bits are read as machine floats, so they are
left aside.

Main definitions:

* `GraphLog.Json.EndsNumber` — what follows does not continue a number;
* `GraphLog.Json.Fits` — an integer of 64 bits.

Main results:

* `GraphLog.Json.escaped_cases` — the forms of a character;
* `GraphLog.Json.pieces_flatMap_escaped` — **a quoted text is read back**, with its escapes;
* `GraphLog.Json.number_toDigits` — the digits of a number are read as a literal;
* `GraphLog.Json.value_natural`, `GraphLog.Json.value_negative` — **an integer is read back**.
-/

import GraphLog.Json.Reader

set_option relaxedAutoImplicit false
set_option autoImplicit false

namespace GraphLog.Json

/-! ### Blanks and marks -/

section Marks

variable {rest : List Char}

theorem skipSpace_cons {c : Char} (mark : isSpace c = false) :
    skipSpace (c :: rest) = c :: rest := by
  rw [skipSpace, List.dropWhile_cons, mark, if_neg Bool.false_ne_true]

end Marks

/-! ### Quoted texts -/

section Quoted

variable {rest : List Char}

/-- The four digits that `hex4` writes for the number of a control character are read back. -/
theorem hex4?_hex4 :
    ∀ n < 0x20, (match hex4 n with
      | [a, b, c, d] => hex4? a b c d
      | _ => none) = some n := by
  decide

/-- A control character is written in four digits, which are read back. -/
theorem exists_hex4 {n : Nat} (lt : n < 0x20) :
    ∃ a b c d, hex4 n = [a, b, c, d] ∧ hex4? a b c d = some n := by
  have reads := hex4?_hex4 n lt
  split at reads
  · next a b c d four => exact ⟨a, b, c, d, four, reads⟩
  · cases reads

/-- The number of a control character is that of no half of a pair, so `Piece.ofNumber` gives the
character. -/
theorem ofNumber_toNat {c : Char} (lt : c.toNat < 0x20) : Piece.ofNumber c.toNat = .whole c := by
  rw [Piece.ofNumber, if_neg (by omega), Char.ofNat_toNat]

/-- A character is written by `escaped` behind a backslash, by a letter or by its number, or it
stands for itself. -/
theorem escaped_cases (c : Char) :
    (∃ d, escaped c = ['\\', d] ∧ escape? d = some c ∧ d ≠ 'u') ∨
      (escaped c = '\\' :: 'u' :: hex4 c.toNat ∧ c.toNat < 0x20) ∨
      (escaped c = [c] ∧ c ≠ '"' ∧ c ≠ '\\' ∧ ¬c.toNat < 0x20) := by
  unfold escaped
  iterate 7
    split
    · next same =>
        subst same
        exact .inl ⟨_, rfl, rfl, by decide⟩
  split
  · next low => exact .inr (.inl ⟨rfl, low⟩)
  · next quote backslash _ _ _ _ _ high => exact .inr (.inr ⟨rfl, quote, backslash, high⟩)

/-- The form of a character is read as the character, and `pieces` goes on behind it. -/
theorem pieces_escaped (c : Char) :
    pieces (escaped c ++ rest) = ((pieces rest).1.map (.whole c :: ·), (pieces rest).2) := by
  rcases escaped_cases c with ⟨d, form, known, other⟩ | ⟨form, low⟩ | ⟨form, quote, backslash, high⟩
  · rw [form]
    show pieces ('\\' :: d :: rest) = _
    -- the letter is not the one that announces four digits
    rw [pieces, known]
    · rcases pieces rest with ⟨_ | more, rest⟩ <;> rfl
    · exact fun _ _ _ _ _ same => absurd same other
  · obtain ⟨a, b, c', d, four, reads⟩ := exists_hex4 low
    rw [form, four]
    show pieces ('\\' :: 'u' :: a :: b :: c' :: d :: rest) = _
    rw [pieces, reads]
    rcases pieces rest with ⟨_ | more, rest⟩
    · rfl
    · exact congrArg (fun p => (some (p :: more), rest)) (ofNumber_toNat low)
  · have bare : ¬(c.toNat < 0x20 ∨ c = '\\') := not_or.2 ⟨high, backslash⟩
    rw [form]
    show pieces (c :: rest) = _
    rw [pieces]
    · simp only [if_neg bare]
    · exact quote
    · exact fun _ _ _ _ _ same => absurd same backslash
    · exact fun _ _ same => absurd same backslash

/-- The forms of characters, up to the closing quote, are read as the characters. -/
theorem pieces_flatMap_escaped (cs : List Char) :
    pieces (cs.flatMap escaped ++ '"' :: rest) = (some (cs.map .whole), rest) := by
  induction cs with
  | nil => rfl
  | cons c cs ih =>
      rw [List.flatMap_cons, List.append_assoc, pieces_escaped, ih]
      rfl

theorem join_map_whole (cs : List Char) : join (cs.map .whole) = some cs := by
  induction cs with
  | nil => rfl
  | cons c cs ih => rw [List.map_cons, join, ih, Option.map_some]

theorem toList_quote (s : String) :
    (quote s).toList = '"' :: (s.toList.flatMap escaped ++ ['"']) := by
  simp [quote]

/-- The name of a `member` is read back. -/
theorem member_map_whole (s : String) (j : Json) : member (s.toList.map .whole) j = (s, j) := by
  rw [member, join_map_whole]
  simp

end Quoted

/-! ### Integers -/

section Integers

variable {rest : List Char} {fuel n : Nat}

/-- **What follows does not continue a number.** -/
def EndsNumber (rest : List Char) : Prop :=
  ∀ c ∈ rest.head?, c.isDigit = false ∧ c ≠ '.' ∧ c ≠ 'e' ∧ c ≠ 'E'

/-- The digits of a number, as numbers. -/
def digitsOf (n : Nat) : List Nat :=
  (Nat.toDigits 10 n).map (·.toNat - 48)

theorem isDigit_toDigits : ∀ c ∈ Nat.toDigits 10 n, c.isDigit = true :=
  fun _ there => Nat.isDigit_of_mem_toDigits (by decide) (by decide) there

/-- The digits of a number start with one, which tells `value` that a number comes. -/
theorem exists_toDigits (n : Nat) : ∃ c cs, Nat.toDigits 10 n = c :: cs ∧ c.isDigit = true := by
  obtain ⟨c, cs, digits⟩ := List.exists_cons_of_ne_nil (Nat.toDigits_ne_nil (n := n) (b := 10))
  exact ⟨c, cs, digits, isDigit_toDigits c (digits ▸ List.mem_cons_self)⟩

theorem EndsNumber.takeWhile (ends : EndsNumber rest) : rest.takeWhile Char.isDigit = [] := by
  cases rest with
  | nil => rfl
  | cons c rest => rw [List.takeWhile_cons, (ends c rfl).1, if_neg Bool.false_ne_true]

theorem EndsNumber.dropWhile (ends : EndsNumber rest) : rest.dropWhile Char.isDigit = rest := by
  cases rest with
  | nil => rfl
  | cons c rest => rw [List.dropWhile_cons, (ends c rfl).1, if_neg Bool.false_ne_true]

theorem digits_toDigits (ends : EndsNumber rest) :
    digits (Nat.toDigits 10 n ++ rest) = (digitsOf n, rest) := by
  rw [digits, List.takeWhile_append_of_pos isDigit_toDigits,
    List.dropWhile_append_of_pos isDigit_toDigits, ends.takeWhile, ends.dropWhile, List.append_nil]
  rfl

theorem fraction_of_ends (ends : EndsNumber rest) : fraction rest = some (none, rest) := by
  unfold fraction
  split
  · exact absurd rfl (ends '.' rfl).2.1
  · rfl

theorem exponent_of_ends (ends : EndsNumber rest) : exponent rest = some (none, rest) := by
  unfold exponent
  split
  · next c rest =>
      obtain ⟨-, -, lower, upper⟩ := ends c rfl
      rw [if_neg (by simp [lower, upper])]
  · rfl

/-- Digits have the value of the number. -/
theorem foldl_digitsOf : (digitsOf n).foldl (fun n d => n * 10 + d) 0 = n := by
  have value := Nat.ofDigitChars_toDigits (b := 10) (n := n) (by decide) (by decide)
  rw [digitsOf, List.foldl_map]
  simpa only [Nat.ofDigitChars, Nat.mul_comm 10] using! value

theorem digitChar_ne_zero : ∀ n < 10, 0 < n → [n.digitChar].head? ≠ some '0' := by
  decide

/-- No zero leads, but that of zero itself. -/
theorem head?_toDigits (pos : 0 < n) : (Nat.toDigits 10 n).head? ≠ some '0' := by
  induction n using Nat.strongRecOn with
  | ind n ih =>
      rcases Nat.lt_or_ge n 10 with lt | le
      · rw [Nat.toDigits_of_lt_base lt]
        exact digitChar_ne_zero n lt pos
      · have leads := ih (n / 10) (by omega) (by omega)
        rw [Nat.toDigits_of_base_le (by decide) le]
        obtain ⟨c, cs, digits⟩ := List.exists_cons_of_ne_nil Nat.toDigits_ne_nil
        rwa [digits] at leads ⊢

theorem digitsOf_ne_nil : digitsOf n ≠ [] :=
  fun none => Nat.toDigits_ne_nil (List.map_eq_nil_iff.1 none)

theorem digitsOf_ne_zero_cons {d : Nat} {ds : List Nat} : digitsOf n ≠ 0 :: d :: ds := by
  intro same
  obtain ⟨c, cs, digits, zero, more⟩ := List.map_eq_cons_iff.1 same
  have digit : c.isDigit = true := isDigit_toDigits c (digits ▸ List.mem_cons_self)
  have pos : 0 < n := by
    refine Nat.pos_of_ne_zero ?_
    rintro rfl
    rw [Nat.toDigits_zero, List.cons.injEq] at digits
    rw [← digits.2] at more
    cases more
  have le : 48 ≤ c.toNat := (Char.isDigit_iff_toNat.1 digit).1
  have leads : c = '0' := Char.toNat_inj.1 (Nat.le_antisymm (Nat.le_of_sub_eq_zero zero) le)
  exact head?_toDigits pos (by rw [digits, leads, List.head?_cons])

/-- The digits of a number are read by `number` as a literal without a fraction and without an
exponent. -/
theorem number_toDigits (negative : Bool) (ends : EndsNumber rest) :
    number negative (Nat.toDigits 10 n ++ rest) =
      (ofLiteral ⟨negative, digitsOf n, none, none⟩, rest) := by
  unfold number
  rw [digits_toDigits ends]
  simp only [fraction_of_ends ends, exponent_of_ends ends]
  split
  · next none => exact absurd none digitsOf_ne_nil
  · next zero => exact absurd zero digitsOf_ne_zero_cons
  · rfl

/-- An integer of 64 bits, with a sign or without one. -/
def Fits (n : Int) : Prop :=
  (Integer.signed? n).isSome ∨ (Integer.unsigned? n).isSome

theorem fits_iff {n : Int} : Fits n ↔ Int64.minValue.toInt ≤ n ∧ n < UInt64.size := by
  have min : Int64.minValue.toInt = -9223372036854775808 := rfl
  have max : Int64.maxValue.toInt = 9223372036854775807 := rfl
  have size : UInt64.size = 18446744073709551616 := rfl
  rw [Fits, Integer.signed?, Integer.unsigned?, Option.isSome_ite, Option.isSome_ite]
  omega

@[simp]
theorem fits_toInt (n : Int64) : Fits n.toInt :=
  .inl (by rw [Integer.signed?_toInt, Option.isSome_some])

@[simp]
theorem fits_toNat (n : UInt64) : Fits n.toNat :=
  .inr (by rw [Integer.unsigned?_toNat, Option.isSome_some])

theorem fits_byte (b : UInt8) : Fits b.toNat := by
  rw [← UInt8.toNat_toUInt64]
  exact fits_toNat b.toUInt64

theorem ofLiteral_natural (fits : Fits n) :
    ofLiteral ⟨false, digitsOf n, none, none⟩ = integer n := by
  have value : Literal.wholeValue ⟨false, digitsOf n, none, none⟩ = n := foldl_digitsOf
  have lt : n < UInt64.size := Int.ofNat_lt.1 (fits_iff.1 fits).2
  simp only [ofLiteral, value]
  rw [if_pos ⟨rfl, Bool.false_ne_true, lt⟩]

theorem ofLiteral_negative (pos : 0 < n) (fits : Fits (-n)) :
    ofLiteral ⟨true, digitsOf n, none, none⟩ = integer (-n) := by
  have value : Literal.wholeValue ⟨true, digitsOf n, none, none⟩ = n := foldl_digitsOf
  have signed : (Integer.signed? (-n)).isSome := by
    refine fits.resolve_right fun unsigned => ?_
    rw [Integer.unsigned?, Option.isSome_ite] at unsigned
    omega
  simp only [ofLiteral, value]
  rw [if_neg fun natural => natural.2.1 trivial, if_pos ⟨rfl, trivial, pos, signed⟩]

theorem natural_or_negative (n : Int) :
    (∃ m : Nat, n = m) ∨ ∃ m : Nat, 0 < m ∧ n = -m := by
  rcases Int.lt_or_le n 0 with negative | natural
  · exact .inr ⟨n.natAbs, by omega, by omega⟩
  · exact .inl (Int.eq_ofNat_of_zero_le natural)

theorem isSpace_digit {c : Char} (digit : c.isDigit = true) : isSpace c = false := by
  refine Bool.eq_false_iff.2 fun space => ?_
  simp only [isSpace, Bool.or_eq_true, beq_iff_eq] at space
  rcases space with ((rfl | rfl) | rfl) | rfl <;> exact absurd digit (by decide)

/-- A document that starts with a digit is a number. -/
theorem value_digit {c : Char} (digit : c.isDigit = true) :
    value (fuel + 1) (c :: rest) = number false (c :: rest) := by
  rw [value, skipSpace_cons (isSpace_digit digit)]
  split
  -- the marks that begin other documents are no digits
  iterate 7
    · next same => exact absurd ((List.cons.inj same).1 ▸ digit) (by decide)
  · rfl

/-- **A natural number is read back**, whatever follows that does not continue it. -/
theorem value_natural {n : Nat} (fits : Fits n) (ends : EndsNumber rest) :
    value (fuel + 1) (Nat.toDigits 10 n ++ rest) = (integer n, rest) := by
  obtain ⟨c, cs, digits, digit⟩ := exists_toDigits n
  calc value (fuel + 1) (Nat.toDigits 10 n ++ rest)
      = number false (Nat.toDigits 10 n ++ rest) := by
        rw [digits, List.cons_append, value_digit digit]
    _ = (integer n, rest) := by rw [number_toDigits false ends, ofLiteral_natural fits]

/-- A negative number is read back, by `number` behind its sign. -/
theorem value_negative {n : Nat} (pos : 0 < n) (fits : Fits (-n)) (ends : EndsNumber rest) :
    value (fuel + 1) ('-' :: (Nat.toDigits 10 n ++ rest)) = (integer (-n), rest) := by
  show number true (Nat.toDigits 10 n ++ rest) = _
  rw [number_toDigits true ends, ofLiteral_negative pos fits]

end Integers

end GraphLog.Json
