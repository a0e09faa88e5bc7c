/-
**A document is read back from its text.**

A document is written over several lines, and read in a number of steps that the length of the text
bounds.  Each part of it is read up to where the next one starts: an item or a member up to the
comma behind it or the line of the bracket, and a row of them up to its bracket.  Some documents a
text cannot tell: numbers with a point have no exact literal where they are infinite, and integers
of more than 64 bits are read as such numbers.

Main definitions:

* `GraphLog.Json.Printable` — **documents that a text can tell**;
* `GraphLog.Json.letters`, `GraphLog.Json.row` — the letters of a document, and of a row in it;
* `GraphLog.Json.ReadsBack` — the document is read from its letters, whatever follows them.

Main results:

* `GraphLog.Json.loop_row` — a row is read back, if each thing in it is;
* `GraphLog.Json.items_row`, `GraphLog.Json.members_row` — so arrays and objects are;
* `GraphLog.Json.Rearranged.printable` — what a text can tell does not depend on the order;
* `GraphLog.Json.Printable.read_pretty` — **a document is read back from its text**.
-/

import GraphLog.Proofs.Json.Arrangement
import GraphLog.Proofs.Json.Literals

set_option relaxedAutoImplicit false
set_option autoImplicit false

namespace GraphLog.Json

/-! ### Layout -/

section Layout

variable {rest : List Char} {fuel : Nat}

/-- A line break and the blanks in front of a line. -/
def gap (level : Nat) : List Char :=
  '\n' :: List.replicate (2 * level) ' '

theorem toList_newline (level : Nat) : (newline level).toList = gap level := by
  simp [newline, gap]

theorem isSpace_gap {level : Nat} : ∀ c ∈ gap level, isSpace c = true := by
  intro c there
  rcases List.mem_cons.1 there with rfl | blank
  · rfl
  · rw [List.eq_of_mem_replicate blank]
    rfl

theorem endsNumber_gap (level : Nat) : EndsNumber (gap level ++ rest) := by
  rintro c ⟨⟩
  decide

theorem endsNumber_comma : EndsNumber (',' :: rest) := by
  rintro c ⟨⟩
  decide

theorem skipSpace_gap (level : Nat) : skipSpace (gap level ++ rest) = skipSpace rest :=
  List.dropWhile_append_of_pos isSpace_gap

theorem skipSpace_blank {c : Char} (space : isSpace c = true) :
    skipSpace (c :: rest) = skipSpace rest := by
  rw [skipSpace, List.dropWhile_cons, if_pos space, ← skipSpace]

/-- A document is read from what `skipSpace` leaves of a text. -/
theorem value_congr {cs cs' : List Char} (same : skipSpace cs = skipSpace cs') :
    value fuel cs = value fuel cs' := by
  cases fuel with
  | zero => rfl
  | succ fuel => rw [value, value, same]

theorem value_blank {c : Char} (space : isSpace c = true) :
    value fuel (c :: rest) = value fuel rest :=
  value_congr (skipSpace_blank space)

theorem value_gap (level : Nat) : value fuel (gap level ++ rest) = value fuel rest :=
  value_congr (skipSpace_gap level)

theorem items_gap (level : Nat) : items fuel (gap level ++ rest) = items fuel rest := by
  cases fuel with
  | zero => rfl
  | succ fuel => rw [items, items, value_gap]

theorem members_gap (level : Nat) : members fuel (gap level ++ rest) = members fuel rest := by
  cases fuel with
  | zero => rfl
  | succ fuel => rw [members, members, skipSpace_gap]

end Layout

/-! ### The letters of a document -/

section Letters

variable {rest : List Char} {fuel : Nat}

/-- The letters of a document, as `pretty` writes it at a level. -/
def letters (level : Nat) (j : Json) : List Char :=
  (j.pretty level).toList

/-- The letters of a member, as it is written at a level. -/
def memberLetters (level : Nat) (m : String × Json) : List Char :=
  (quote m.1).toList ++ ':' :: ' ' :: letters level m.2

/-- The lines between two brackets, the closing one a level further out. -/
def row {α : Type} (write : Nat → α → List Char) (level : Nat) (xs : List α) : List Char :=
  (',' :: gap (level + 1)).intercalate (xs.map (write (level + 1)))

@[simp]
theorem letters_null {level : Nat} : letters level null = ['n', 'u', 'l', 'l'] := by
  rw [letters, pretty]
  decide

@[simp]
theorem letters_true {level : Nat} : letters level (bool true) = ['t', 'r', 'u', 'e'] := by
  rw [letters, pretty]
  decide

@[simp]
theorem letters_false {level : Nat} : letters level (bool false) = ['f', 'a', 'l', 's', 'e'] := by
  rw [letters, pretty]
  decide

@[simp]
theorem letters_array_nil {level : Nat} : letters level (array []) = ['[', ']'] := by
  rw [letters, pretty, pretty.items, bracketed, if_pos List.isEmpty_nil]
  decide

@[simp]
theorem letters_object_nil {level : Nat} : letters level (object []) = ['\x7b', '\x7d'] := by
  rw [letters, pretty, pretty.members, bracketed, if_pos List.isEmpty_nil]
  decide

theorem pretty_items (level : Nat) (js : List Json) :
    pretty.items level js = js.map (pretty level) := by
  induction js with
  | nil => rfl
  | cons j js ih => rw [pretty.items, ih, List.map_cons]

theorem toList_bracketed {left right : String} {level : Nat} {lines : List String}
    (nonempty : lines ≠ []) :
    (bracketed left right level lines).toList =
      left.toList ++ (gap (level + 1) ++ ((',' :: gap (level + 1)).intercalate
        (lines.map String.toList) ++ (gap level ++ right.toList))) := by
  have present : ¬lines.isEmpty = true := by simpa using nonempty
  rw [bracketed, if_neg present]
  simp [toList_newline]

theorem letters_array {level : Nat} {js : List Json} (nonempty : js ≠ []) :
    letters level (array js) =
      '[' :: (gap (level + 1) ++ (row letters level js ++ (gap level ++ [']']))) := by
  rw [letters, pretty, toList_bracketed (by simpa [pretty_items] using nonempty), pretty_items,
    List.map_map]
  rfl

theorem map_toList_members (level : Nat) (ms : List (String × Json)) :
    (pretty.members level ms).map String.toList = ms.map (memberLetters level) := by
  induction ms with
  | nil => rfl
  | cons m ms ih =>
      obtain ⟨name, j⟩ := m
      rw [pretty.members, List.map_cons, ih, List.map_cons]
      simp [memberLetters, letters]

theorem letters_object {level : Nat} {ms : List (String × Json)} (nonempty : ms ≠ []) :
    letters level (object ms) =
      '\x7b' :: (gap (level + 1) ++ (row memberLetters level ms ++ (gap level ++ ['\x7d']))) := by
  have present : pretty.members (level + 1) ms ≠ [] := by
    intro none
    have none := congrArg (List.map String.toList) none
    rw [map_toList_members] at none
    exact nonempty (List.map_eq_nil_iff.1 none)
  rw [letters, pretty, toList_bracketed present, map_toList_members]
  rfl

theorem letters_natural {level n : Nat} : letters level (integer n) = Nat.toDigits 10 n :=
  Nat.toList_repr

theorem letters_negative {level n : Nat} (pos : 0 < n) :
    letters level (integer (-n)) = '-' :: Nat.toDigits 10 n := by
  show (Int.repr (-n)).toList = _
  rw [Int.repr_eq_if, if_neg (by omega), Int.neg_neg, Int.toNat_natCast, String.toList_append,
    Nat.toList_repr]
  rfl

end Letters

/-! ### Rows between brackets -/

section Rows

variable {α : Type} {write : Nat → α → List Char} {level : Nat} {close : Char} {rest : List Char}

/-- A row is read back up to its bracket, if each thing in it is.  The loop, `items` or `members`,
takes a step for each thing, and each is shorter than the row. -/
theorem loop_row (loop : Nat → List Char → List α × List Char) {xs : List α} (nonempty : xs ≠ [])
    (skips : ∀ fuel rest, loop fuel (gap (level + 1) ++ rest) = loop fuel rest)
    (next : ∀ x ∈ xs, ∀ fuel rest, (write (level + 1) x).length < fuel →
      loop (fuel + 1) (write (level + 1) x ++ ',' :: rest) =
        (x :: (loop fuel rest).1, (loop fuel rest).2))
    (last : ∀ x ∈ xs, ∀ fuel, (write (level + 1) x).length < fuel →
      loop (fuel + 1) (write (level + 1) x ++ (gap level ++ close :: rest)) = ([x], rest))
    {fuel : Nat} (room : (row write level xs).length + 1 < fuel) :
    loop fuel (row write level xs ++ (gap level ++ close :: rest)) = (xs, rest) := by
  induction xs generalizing fuel with
  | nil => exact absurd rfl nonempty
  | cons x xs ih =>
      obtain ⟨fuel, rfl⟩ := Nat.exists_eq_add_one_of_ne_zero (Nat.ne_zero_of_lt room)
      -- only the last thing has no comma behind it
      cases xs with
      | nil =>
          have only : row write level [x] = write (level + 1) x := List.intercalate_singleton
          rw [only] at room ⊢
          exact last x List.mem_cons_self fuel (Nat.lt_of_succ_lt_succ room)
      | cons y ys =>
          have more : row write level (x :: y :: ys) =
              write (level + 1) x ++ ',' :: (gap (level + 1) ++ row write level (y :: ys)) := by
            simp [row, List.intercalate_cons_cons]
          rw [more, List.length_append, List.length_cons, List.length_append] at room
          have later : loop fuel (row write level (y :: ys) ++ (gap level ++ close :: rest)) =
              (y :: ys, rest) :=
            ih (List.cons_ne_nil y ys) (fun z there => next z (List.mem_cons_of_mem _ there))
              (fun z there => last z (List.mem_cons_of_mem _ there)) (by omega)
          rw [more, List.append_assoc, List.cons_append, List.append_assoc,
            next x List.mem_cons_self fuel _ (by omega), skips, later]

end Rows

/-! ### Documents that are read back -/

section ReadsBack

variable {rest : List Char} {fuel : Nat}

/-- The document is read back from its `letters`, at each level and in enough steps. -/
def ReadsBack (j : Json) : Prop :=
  ∀ level fuel rest, EndsNumber rest → (letters level j).length < fuel →
    value fuel (letters level j ++ rest) = (j, rest)

/-- Reading takes a first step, so `value` may be opened once. -/
theorem ReadsBack.of_succ {j : Json}
    (reads : ∀ level fuel rest, EndsNumber rest → (letters level j).length ≤ fuel →
      value (fuel + 1) (letters level j ++ rest) = (j, rest)) : j.ReadsBack := by
  intro level fuel rest ends room
  cases fuel with
  | zero => exact absurd room (Nat.not_lt_zero _)
  | succ fuel => exact reads level fuel rest ends (Nat.le_of_lt_succ room)

theorem readsBack_integer {n : Int} (fits : Fits n) : (integer n).ReadsBack := by
  refine .of_succ fun level fuel rest ends _ => ?_
  rcases natural_or_negative n with ⟨m, rfl⟩ | ⟨m, pos, rfl⟩
  · rw [letters_natural, value_natural fits ends]
  · rw [letters_negative pos, List.cons_append, value_negative pos fits ends]

theorem readsBack_text (s : String) : (text s).ReadsBack := by
  refine .of_succ fun level fuel rest ends _ => ?_
  have start : letters level (text s) ++ rest =
      '"' :: (s.toList.flatMap escaped ++ '"' :: rest) := by
    show (quote s).toList ++ rest = _
    rw [toList_quote, List.cons_append, List.append_assoc]
    rfl
  rw [start, value, skipSpace_cons rfl]
  simp only [pieces_flatMap_escaped, join_map_whole, String.ofList_toList]

theorem items_row {js : List Json} (nonempty : js ≠ []) (reads : ∀ j ∈ js, j.ReadsBack)
    {level : Nat} (room : (row letters level js).length + 1 < fuel) :
    items fuel (row letters level js ++ (gap level ++ ']' :: rest)) = (js, rest) := by
  refine loop_row items nonempty (fun fuel rest => items_gap (level + 1)) ?_ ?_ room
  · intro j there fuel rest room
    rw [items, reads j there (level + 1) fuel _ endsNumber_comma room]
    rfl
  · intro j there fuel room
    rw [items, reads j there (level + 1) fuel _ (endsNumber_gap level) room]
    simp only [skipSpace_gap]
    rfl

/-- A member starts with its name, and its value stands behind a blank. -/
theorem memberLetters_append (level : Nat) (m : String × Json) :
    memberLetters level m ++ rest =
      '"' :: (m.1.toList.flatMap escaped ++ '"' :: ':' :: ' ' :: (letters level m.2 ++ rest)) := by
  simp [memberLetters, toList_quote]

theorem value_member {m : String × Json} (reads : m.2.ReadsBack) {level : Nat}
    (ends : EndsNumber rest) (room : (memberLetters level m).length < fuel) :
    value fuel (' ' :: (letters level m.2 ++ rest)) = (m.2, rest) := by
  rw [value_blank rfl]
  refine reads level fuel rest ends (Nat.lt_of_le_of_lt ?_ room)
  rw [memberLetters, List.length_append, List.length_cons, List.length_cons]
  omega

theorem members_row {ms : List (String × Json)} (nonempty : ms ≠ [])
    (reads : ∀ m ∈ ms, m.2.ReadsBack) {level : Nat}
    (room : (row memberLetters level ms).length + 1 < fuel) :
    members fuel (row memberLetters level ms ++ (gap level ++ '\x7d' :: rest)) = (ms, rest) := by
  have quote : isSpace '"' = false := rfl
  have colon : isSpace ':' = false := rfl
  refine loop_row members nonempty (fun fuel rest => members_gap (level + 1)) ?_ ?_ room
  · intro m there fuel rest room
    rw [memberLetters_append, members]
    simp only [skipSpace_cons quote, pieces_flatMap_escaped, skipSpace_cons colon,
      value_member (reads m there) endsNumber_comma room, member_map_whole]
    rfl
  · intro m there fuel room
    rw [memberLetters_append, members]
    simp only [skipSpace_cons quote, pieces_flatMap_escaped, skipSpace_cons colon,
      value_member (reads m there) (endsNumber_gap level) room, member_map_whole, skipSpace_gap]
    rfl

/-- What starts with a mark that is no blank and closes nothing, so that it is not taken for the end
of an array or an object without anything in it. -/
def Starts (cs : List Char) : Prop :=
  ∃ c more, cs = c :: more ∧ isSpace c = false ∧ c ≠ ']' ∧ c ≠ '\x7d'

theorem Starts.append {cs : List Char} (starts : Starts cs) : Starts (cs ++ rest) := by
  obtain ⟨c, more, rfl, marks⟩ := starts
  exact ⟨c, more ++ rest, rfl, marks⟩

theorem Starts.row {α : Type} {write : Nat → α → List Char} {level : Nat} {x : α} {xs : List α}
    (starts : Starts (write (level + 1) x)) : Starts (row write level (x :: xs)) := by
  cases xs with
  | nil => simpa [Json.row] using starts
  | cons y ys =>
      rw [Json.row, List.map_cons, List.map_cons, List.intercalate_cons_cons]
      exact starts.append.append

theorem Starts.of_cons {c : Char} {more : List Char}
    (marks : isSpace c = false ∧ c ≠ ']' ∧ c ≠ '\x7d') : Starts (c :: more) :=
  ⟨c, more, rfl, marks⟩

theorem starts_toDigits (n : Nat) : Starts (Nat.toDigits 10 n) := by
  obtain ⟨c, cs, digits, digit⟩ := exists_toDigits n
  rw [digits]
  refine .of_cons ⟨isSpace_digit digit, ?_, ?_⟩ <;> rintro rfl <;> exact absurd digit (by decide)

theorem starts_integer {level : Nat} (n : Int) : Starts (letters level (integer n)) := by
  rcases natural_or_negative n with ⟨m, rfl⟩ | ⟨m, pos, rfl⟩
  · rw [letters_natural]
    exact starts_toDigits m
  · rw [letters_negative pos]
    exact .of_cons (by decide)

theorem value_items {level : Nat} {cs : List Char} (starts : Starts cs) :
    value (fuel + 1) ('[' :: (gap level ++ cs)) =
      (array (items fuel cs).1, (items fuel cs).2) := by
  obtain ⟨c, more, rfl, mark, opened, -⟩ := starts
  rw [value, skipSpace_cons rfl]
  simp only [skipSpace_gap, skipSpace_cons mark]
  split
  · next same => exact absurd (List.cons.inj same).1 opened
  · rfl

theorem value_members {level : Nat} {cs : List Char} (starts : Starts cs) :
    value (fuel + 1) ('\x7b' :: (gap level ++ cs)) =
      (object (members fuel cs).1, (members fuel cs).2) := by
  obtain ⟨c, more, rfl, mark, -, opened⟩ := starts
  rw [value, skipSpace_cons rfl]
  simp only [skipSpace_gap, skipSpace_cons mark]
  split
  · next same => exact absurd (List.cons.inj same).1 opened
  · rfl

/-- An array is read back, if its items are: `items` goes over its row. -/
theorem readsBack_array {js : List Json} (starts : ∀ j ∈ js, ∀ level, Starts (letters level j))
    (reads : ∀ j ∈ js, j.ReadsBack) : (array js).ReadsBack := by
  refine .of_succ fun level fuel rest _ room => ?_
  cases js with
  | nil =>
      rw [letters_array_nil]
      rfl
  | cons j js =>
      have present := List.cons_ne_nil j js
      have begins : Starts (row letters level (j :: js)) := (starts j List.mem_cons_self _).row
      have inside : (row letters level (j :: js)).length + 1 < fuel := by
        rw [letters_array present] at room
        simp only [List.length_cons, List.length_append] at room
        omega
      rw [letters_array present, List.cons_append, List.append_assoc, List.append_assoc,
        List.append_assoc, List.singleton_append, value_items begins.append,
        items_row present reads inside]

/-- An object is read back, if the values of its members are: `members` goes over its row. -/
theorem readsBack_object {ms : List (String × Json)} (reads : ∀ m ∈ ms, m.2.ReadsBack) :
    (object ms).ReadsBack := by
  refine .of_succ fun level fuel rest _ room => ?_
  cases ms with
  | nil =>
      rw [letters_object_nil]
      rfl
  | cons m ms =>
      have present := List.cons_ne_nil m ms
      have begins : Starts (row memberLetters level (m :: ms)) := by
        refine .row ?_
        rw [memberLetters, toList_quote]
        exact .of_cons (by decide)
      have inside : (row memberLetters level (m :: ms)).length + 1 < fuel := by
        rw [letters_object present] at room
        simp only [List.length_cons, List.length_append] at room
        omega
      rw [letters_object present, List.cons_append, List.append_assoc, List.append_assoc,
        List.append_assoc, List.singleton_append, value_members begins.append,
        members_row present reads inside]

end ReadsBack

/-! ### Documents that a text can tell -/

section Printable

/-- **What a text can tell exactly**: no number with a point or an exponent, only integers of 64
bits, and none of the faults of a text. -/
inductive Printable : Json → Prop where
  | null : Printable null
  | bool (b : Bool) : Printable (bool b)
  | integer {n : Int} (fits : Fits n) : Printable (integer n)
  | text (s : String) : Printable (text s)
  | array {js : List Json} (items : ∀ j ∈ js, Printable j) : Printable (array js)
  | object {ms : List (String × Json)} (members : ∀ m ∈ ms, Printable m.2) : Printable (object ms)

@[simp]
theorem printable_null : null.Printable :=
  .null

@[simp]
theorem printable_bool {b : Bool} : (bool b).Printable :=
  .bool b

@[simp]
theorem printable_text {s : String} : (text s).Printable :=
  .text s

@[simp]
theorem printable_integer_iff {n : Int} : (integer n).Printable ↔ Fits n :=
  ⟨fun | .integer fits => fits, .integer⟩

@[simp]
theorem printable_array_iff {js : List Json} : (array js).Printable ↔ ∀ j ∈ js, j.Printable :=
  ⟨fun | .array items => items, .array⟩

@[simp]
theorem printable_object_iff {ms : List (String × Json)} :
    (object ms).Printable ↔ ∀ m ∈ ms, m.2.Printable :=
  ⟨fun | .object members => members, .object⟩

/-- What a text can tell does not depend on the order of members. -/
theorem Rearranged.printable {j j' : Json} (rearranged : Rearranged j j')
    (printable : j.Printable) : j'.Printable := by
  induction printable generalizing j' with
  | null => exact rearranged.null_eq ▸ .null
  | bool b => exact rearranged.bool_eq ▸ .bool b
  | integer fits => exact rearranged.integer_eq ▸ .integer fits
  | text s => exact rearranged.text_eq ▸ .text s
  | array printable ih =>
      obtain ⟨js, rfl, items⟩ := rearranged.exists_items
      refine .array fun j' there => ?_
      obtain ⟨j, here, rearranged⟩ := exists_of_mem_right items there
      exact ih j here rearranged
  | object printable ih =>
      cases rearranged with
      | same => exact .object printable
      | object names values =>
          refine .object fun m there => ?_
          obtain ⟨j, here, rearranged⟩ := Rearranged.exists_origin names values there
          exact ih (m.1, j) here rearranged

theorem Printable.starts {level : Nat} {j : Json} (printable : j.Printable) :
    Starts (letters level j) := by
  cases printable with
  | null =>
      rw [letters_null]
      exact .of_cons (by decide)
  | bool b =>
      cases b with
      | false =>
          rw [letters_false]
          exact .of_cons (by decide)
      | true =>
          rw [letters_true]
          exact .of_cons (by decide)
  | integer fits => exact starts_integer _
  | text s =>
      rw [letters, pretty, toList_quote]
      exact .of_cons (by decide)
  | @array js _ =>
      cases js with
      | nil =>
          rw [letters_array_nil]
          exact .of_cons (by decide)
      | cons j js =>
          rw [letters_array (List.cons_ne_nil j js)]
          exact .of_cons (by decide)
  | @object ms _ =>
      cases ms with
      | nil =>
          rw [letters_object_nil]
          exact .of_cons (by decide)
      | cons m ms =>
          rw [letters_object (List.cons_ne_nil m ms)]
          exact .of_cons (by decide)

/-- What a text can tell is read back from it. -/
theorem Printable.readsBack {j : Json} (printable : j.Printable) : j.ReadsBack := by
  induction printable with
  | null =>
      refine .of_succ fun level fuel rest _ _ => ?_
      rw [letters_null]
      rfl
  | bool b =>
      refine .of_succ fun level fuel rest _ _ => ?_
      cases b with
      | false =>
          rw [letters_false]
          rfl
      | true =>
          rw [letters_true]
          rfl
  | integer fits => exact readsBack_integer fits
  | text s => exact readsBack_text s
  | array printable ih => exact readsBack_array (fun j there _ => (printable j there).starts) ih
  | object _ ih => exact readsBack_object ih

/-- **A document that a text can tell is read from its text**, and nothing is left of the text. -/
theorem Printable.read_pretty {j : Json} (printable : j.Printable) (level : Nat) :
    read (j.pretty level) = (j, true) := by
  have room : (letters level j).length < 2 * (letters level j).length + 2 := by omega
  have reads := printable.readsBack level _ [] (fun c none => nomatch none) room
  rw [List.append_nil] at reads
  have text : (j.pretty level).toList = letters level j := rfl
  simp only [read, text, reads]
  rfl

end Printable

end GraphLog.Json
