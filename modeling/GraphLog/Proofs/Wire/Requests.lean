/-
**A cursor that is asked for one thing after the other.**

Whoever reads bytes asks a cursor for numbers, byte strings and texts, for some bytes, or whether
all were read, and may go on asking after a failure.  Two things can be relied on.  Items that were
written one behind the other are the answers to the requests for their forms, in the same order, and
nothing is left behind them.  And whatever the bytes and the requests are, the cursor never goes
back and never leaves the bytes, so that what it takes for the rest is the rest.

A failure may leave a cursor behind what was read in front of the fault, such as the length of a
byte string that is not all there.  Where there is nothing in front, it does not move at all.

Main definitions:

* `GraphLog.Wire.Item`, `GraphLog.Wire.Form` — what is written at a time, and its ten forms;
* `GraphLog.Wire.Request`, `GraphLog.Wire.Answer` — what a cursor is asked for, and what it says;
* `GraphLog.Wire.Cursor.ask` — **a run of requests**, failing ones included;
* `GraphLog.Wire.Read.StaysPut` — a reader that fails has not moved.

Main results:

* `GraphLog.Wire.Form.yields_read` — each form is read as it was written;
* `GraphLog.Wire.Cursor.ask_items` — items are answered in the order in which they were written;
* `GraphLog.Wire.Cursor.passes_of_mem_ask` — no request moves a cursor back, or out of the bytes;
* `GraphLog.Wire.Cursor.ask_in_order` — **items are read back, and a cursor keeps to its bytes**.
-/

import GraphLog.Proofs.Wire.Refusals

set_option relaxedAutoImplicit false
set_option autoImplicit false

namespace GraphLog.Wire

open Read (Careful careful_pure)

/-! ### Items -/

/-- **The forms in which something is written.** -/
inductive Form where
  | byte
  | int32
  | int64
  | uint64
  | double
  | optionalInt64
  | bytes
  | optionalBytes
  | text
  | optionalText
deriving DecidableEq, Repr

/-- **What is written at a time**: a value in one of the forms, each a `Form`. -/
inductive Item where
  | byte (value : UInt8)
  | int32 (value : Int32)
  | int64 (value : Int64)
  | uint64 (value : UInt64)
  | double (value : Double)
  | optionalInt64 (value : Option Int64)
  | bytes (value : List UInt8)
  | optionalBytes (value : Option (List UInt8))
  | text (value : String)
  | optionalText (value : Option String)
deriving DecidableEq

namespace Item

def form : Item → Form
  | byte _ => .byte
  | int32 _ => .int32
  | int64 _ => .int64
  | uint64 _ => .uint64
  | double _ => .double
  | optionalInt64 _ => .optionalInt64
  | bytes _ => .bytes
  | optionalBytes _ => .optionalBytes
  | text _ => .text
  | optionalText _ => .optionalText

/-- The bytes of an item. -/
def put : Item → List UInt8
  | byte b => [b]
  | int32 n => putInt32 n
  | int64 n => putInt64 n
  | uint64 n => putUInt64 n
  | double x => putDouble x
  | optionalInt64 n => putOptionalInt64 n
  | bytes b => putBytes b
  | optionalBytes b => putOptionalBytes b
  | text s => putText s
  | optionalText s => putOptionalText s

/-- The lengths inside an item: only byte strings and texts have one. -/
def lengths : Item → List Nat
  | bytes b => [b.length]
  | optionalBytes b => b.elim [] fun b => [b.length]
  | text s => [textLength s]
  | optionalText s => s.elim [] fun s => [textLength s]
  | _ => []

end Item

namespace Form

/-- The reader of a form. -/
def read : Form → Read Item
  | byte => do return .byte (← Wire.byte)
  | int32 => do return .int32 (← Wire.int32)
  | int64 => do return .int64 (← Wire.int64)
  | uint64 => do return .uint64 (← Wire.uint64)
  | double => do return .double (← Wire.double)
  | optionalInt64 => do return .optionalInt64 (← Wire.optionalInt64)
  | bytes => do return .bytes (← Wire.bytes)
  | optionalBytes => do return .optionalBytes (← Wire.optionalBytes)
  | text => do return .text (← Wire.text)
  | optionalText => do return .optionalText (← Wire.optionalText)

/-- The form has always as many bytes, so that it is read by taking these. -/
def isFixed : Form → Bool
  | byte | int32 | int64 | uint64 | double => true
  | _ => false

theorem undoes_byte : Wire.byte.Undoes (fun b => [b]) (fun _ => []) := by
  intro c b d
  rw [yields_byte, Cursor.passes_singleton]
  exact ⟨fun steps => ⟨fits_nil, steps⟩, And.right⟩

/-- **An item is read in a form exactly where it was written in this form**: the reader `Yields`
it. -/
theorem yields_read {f : Form} {c d : Cursor} {x : Item} :
    f.read.Yields c x d ↔ x.form = f ∧ Fits x.lengths ∧ c.Passes x.put d := by
  constructor
  · intro h
    cases f with
    | byte =>
        obtain ⟨b, rfl, written⟩ := undoes_byte.yields_use.1 h
        exact ⟨rfl, written⟩
    | int32 =>
        obtain ⟨n, rfl, written⟩ := undoes_int32.yields_use.1 h
        exact ⟨rfl, written⟩
    | int64 =>
        obtain ⟨n, rfl, written⟩ := undoes_int64.yields_use.1 h
        exact ⟨rfl, written⟩
    | uint64 =>
        obtain ⟨n, rfl, written⟩ := undoes_uint64.yields_use.1 h
        exact ⟨rfl, written⟩
    | double =>
        obtain ⟨x, rfl, written⟩ := undoes_double.yields_use.1 h
        exact ⟨rfl, written⟩
    | optionalInt64 =>
        obtain ⟨n, rfl, written⟩ := undoes_optionalInt64.yields_use.1 h
        exact ⟨rfl, written⟩
    | bytes =>
        obtain ⟨b, rfl, written⟩ := undoes_bytes.yields_use.1 h
        exact ⟨rfl, written⟩
    | optionalBytes =>
        obtain ⟨b, rfl, written⟩ := undoes_optionalBytes.yields_use.1 h
        exact ⟨rfl, written⟩
    | text =>
        obtain ⟨s, rfl, written⟩ := undoes_text.yields_use.1 h
        exact ⟨rfl, written⟩
    | optionalText =>
        obtain ⟨s, rfl, written⟩ := undoes_optionalText.yields_use.1 h
        exact ⟨rfl, written⟩
  · intro h
    obtain ⟨rfl, written⟩ := h
    cases x with
    | byte b => exact undoes_byte.yields_use.2 ⟨b, rfl, written⟩
    | int32 n => exact undoes_int32.yields_use.2 ⟨n, rfl, written⟩
    | int64 n => exact undoes_int64.yields_use.2 ⟨n, rfl, written⟩
    | uint64 n => exact undoes_uint64.yields_use.2 ⟨n, rfl, written⟩
    | double x => exact undoes_double.yields_use.2 ⟨x, rfl, written⟩
    | optionalInt64 n => exact undoes_optionalInt64.yields_use.2 ⟨n, rfl, written⟩
    | bytes b => exact undoes_bytes.yields_use.2 ⟨b, rfl, written⟩
    | optionalBytes b => exact undoes_optionalBytes.yields_use.2 ⟨b, rfl, written⟩
    | text s => exact undoes_text.yields_use.2 ⟨s, rfl, written⟩
    | optionalText s => exact undoes_optionalText.yields_use.2 ⟨s, rfl, written⟩

theorem careful_read (f : Form) : f.read.Careful := by
  cases f with
  | byte => exact careful_byte.bind fun _ => careful_pure
  | int32 => exact careful_int32.bind fun _ => careful_pure
  | int64 => exact careful_int64.bind fun _ => careful_pure
  | uint64 => exact careful_uint64.bind fun _ => careful_pure
  | double => exact careful_double.bind fun _ => careful_pure
  | optionalInt64 => exact careful_optionalInt64.bind fun _ => careful_pure
  | bytes => exact careful_bytes.bind fun _ => careful_pure
  | optionalBytes => exact careful_optionalBytes.bind fun _ => careful_pure
  | text => exact careful_text.bind fun _ => careful_pure
  | optionalText => exact careful_optionalText.bind fun _ => careful_pure

end Form

/-! ### Readers that do not move when they fail -/

section StaysPut

variable {α β : Type}

/-- **A reader that fails has not moved.** -/
def Read.StaysPut (read : Read α) : Prop :=
  ∀ c e d, read.on c = (.error e, d) → d = c

theorem staysPut_take (n : Nat) : (take n).StaysPut := by
  intro c e d stops
  rw [Read.on_take] at stops
  split at stops
  · cases stops
  · exact (Prod.mk.inj stops).2.symm

/-- To use what was read does not fail. -/
theorem Read.StaysPut.use {read : Read α} (stays : read.StaysPut) (f : α → β) :
    (do return f (← read) : Read β).StaysPut := by
  intro c e d stops
  rw [Read.on_bind] at stops
  rcases first : read.on c with ⟨_ | x, m⟩
  · rw [first] at stops
    obtain ⟨-, rfl⟩ := Prod.mk.inj stops
    exact stays c _ m first
  · rw [first] at stops
    cases stops

theorem Form.staysPut_read {f : Form} (fixed : f.isFixed = true) : f.read.StaysPut := by
  cases f with
  | byte => exact ((staysPut_take 1).use _).use _
  | int32 => exact ((staysPut_take 4).use _).use _
  | int64 => exact ((staysPut_take 8).use _).use _
  | uint64 => exact ((staysPut_take 8).use _).use _
  | double => exact (((staysPut_take 8).use _).use _).use _
  | optionalInt64 | bytes | optionalBytes | text | optionalText => cases fixed

end StaysPut

/-! ### Requests -/

/-- **What a cursor is asked for.** -/
inductive Request where
  | form (f : Form)
  -- so many bytes
  | take (count : Nat)
  -- nothing more
  | consumed
deriving DecidableEq, Repr

/-- What a cursor says to a `Request`. -/
inductive Answer where
  | item (x : Item)
  | taken (bytes : List UInt8)
  | consumed
deriving DecidableEq

namespace Request

def read : Request → Read Answer
  | form f => do return .item (← f.read)
  | take n => do return .taken (← Wire.take n)
  | consumed => do
    Wire.consumed
    return .consumed

/-- The request is for a number of bytes that is known beforehand. -/
def isFixed : Request → Bool
  | form f => f.isFixed
  | take _ => true
  | consumed => false

theorem careful_read (r : Request) : r.read.Careful := by
  cases r with
  | form f => exact f.careful_read.bind fun _ => careful_pure
  | take n => exact (careful_take n).bind fun _ => careful_pure
  | consumed => exact careful_consumed.bind fun _ => careful_pure

/-- A request for a known number of bytes, one that `isFixed`, does not move the cursor when it
fails. -/
theorem staysPut_read {r : Request} (fixed : r.isFixed = true) : r.read.StaysPut := by
  cases r with
  | form f => exact (Form.staysPut_read fixed).use _
  | take n => exact (staysPut_take n).use _
  | consumed => cases fixed

end Request

/-! ### Runs of requests -/

namespace Cursor

variable {c d : Cursor}

/-- A run of requests: each is made where the one before it has left the cursor, whether it failed
or not. -/
def ask (c : Cursor) : List Request → List (Except DecodeError Answer × Cursor)
  | [] => []
  | r :: rs => r.read.on c :: (r.read.on c).2.ask rs

/-- The cursors of a run of `ask`, from the first on. -/
def trail (c : Cursor) (rs : List Request) : List Cursor :=
  c :: (c.ask rs).map Prod.snd

/-- What is said in a run. -/
def answers (c : Cursor) (rs : List Request) : List (Except DecodeError Answer) :=
  (c.ask rs).map Prod.fst

/-- **Items are answered in the order in which they were written**, and the run goes on behind
them. -/
theorem ask_items {items : List Item} {more : List Request}
    (fits : Fits (items.flatMap Item.lengths)) (passes : c.Passes (items.flatMap Item.put) d) :
    c.answers (items.map (fun x => .form x.form) ++ more) =
      items.map (fun x => .ok (.item x)) ++ d.answers more := by
  induction items generalizing c with
  | nil =>
      rw [Cursor.passes_nil.1 passes]
      rfl
  | cons x items ih =>
      rw [List.flatMap_cons] at fits passes
      obtain ⟨fit, fits⟩ := fits_append.1 fits
      obtain ⟨m, passes, others⟩ := Cursor.passes_append.1 passes
      have read : (Request.form x.form).read.on c = (.ok (.item x), m) :=
        yields_bind.2 ⟨x, m, Form.yields_read.2 ⟨rfl, fit, passes⟩, yields_pure.2 ⟨rfl, rfl⟩⟩
      have rest := ih fits others
      simp only [answers, List.map_cons, List.cons_append, ask, read] at rest ⊢
      rw [rest]

/-- No request moves a cursor back, or out of the bytes: the cursor of the run `Passes` over some of
them. -/
theorem passes_of_mem_ask {rs : List Request} :
    ∀ s ∈ c.ask rs, ∃ bytes, c.Passes bytes s.2 := by
  induction rs generalizing c with
  | nil => exact fun _ none => absurd none List.not_mem_nil
  | cons r rs ih =>
      intro s asked
      obtain ⟨front, first⟩ := (r.careful_read c).moves
      rcases List.mem_cons.1 asked with rfl | later
      · exact ⟨front, first⟩
      · obtain ⟨back, second⟩ := ih s later
        exact ⟨front ++ back, Cursor.passes_append.2 ⟨_, first, second⟩⟩

/-- The cursors of a run are in the order of their places. -/
theorem pairwise_trail (rs : List Request) :
    (c.trail rs).Pairwise fun c d => c.offset ≤ d.offset := by
  induction rs generalizing c with
  | nil => exact List.pairwise_singleton _ c
  | cons r rs ih =>
      refine List.pairwise_cons.2 ⟨fun d visited => ?_, ih⟩
      obtain ⟨s, asked, rfl⟩ := List.mem_map.1 visited
      obtain ⟨bytes, passes⟩ := passes_of_mem_ask s asked
      rw [passes.2]
      exact Nat.le_add_right ..

/-- A cursor that came over bytes from the start has the others in front of it. -/
theorem Passes.rest_of_start {bytes front : List UInt8} (passes : (start bytes).Passes front d) :
    d.offset ≤ bytes.length ∧ d.rest = bytes.drop d.offset ∧
      d.offset + d.remaining = bytes.length := by
  obtain ⟨-, rest, within⟩ := passes_start_iff.1 passes
  refine ⟨within, rest, ?_⟩
  rw [remaining, rest, List.length_drop]
  exact Nat.add_sub_cancel' within

/-- **Items are read back, and a cursor keeps to its bytes.**  Items written one behind the other
are read in the same order, and nothing is left.  In any run of requests over any bytes the place of
the cursor never goes back, it is never behind the end of the bytes, and the bytes behind it are
those that remain; and a request for a known number of bytes that fails leaves the cursor where it
is. -/
theorem ask_in_order (items : List Item) (fits : Fits (items.flatMap Item.lengths))
    (bytes : List UInt8) (requests : List Request) :
    (start (items.flatMap Item.put)).answers
        (items.map (fun x => .form x.form) ++ [.consumed]) =
      items.map (fun x => .ok (.item x)) ++ [.ok .consumed] ∧
    ((start bytes).trail requests).Pairwise (fun c d => c.offset ≤ d.offset) ∧
    (∀ c ∈ (start bytes).trail requests, c.offset ≤ bytes.length ∧
      c.rest = bytes.drop c.offset ∧ c.offset + c.remaining = bytes.length) ∧
    ∀ r : Request, r.isFixed = true → ∀ c e d, r.read.on c = (.error e, d) → d = c := by
  refine ⟨?_, pairwise_trail requests, fun c visited => ?_, fun _ => Request.staysPut_read⟩
  · obtain ⟨d, passes, last⟩ := Cursor.passes_to_end.2 (rfl : items.flatMap Item.put = _)
    have ended : Request.consumed.read.on d = (.ok .consumed, d) :=
      yields_bind.2 ⟨(), d, yields_consumed.2 ⟨last, rfl⟩, yields_pure.2 ⟨rfl, rfl⟩⟩
    rw [ask_items fits passes, answers, ask, ask, ended]
    rfl
  · rcases List.mem_cons.1 visited with rfl | later
    · exact (Cursor.passes_nil.2 rfl : (start bytes).Passes [] _).rest_of_start
    · obtain ⟨s, asked, rfl⟩ := List.mem_map.1 later
      obtain ⟨front, passes⟩ := passes_of_mem_ask s asked
      exact passes.rest_of_start

/-- Items at the ends of their ranges; and five bytes that announce nine more, asked for a number
that is not all there, for the nine bytes, for two, for one, and whether this was all. -/
theorem ask_in_order_of_failures :
    let items : List Item := [.byte 255, .int32 (-1), .int64 Int64.minValue, .uint64 (-1),
      .double ⟨0x7FF8000000000001⟩, .optionalInt64 none, .optionalInt64 (some (-5)),
      .optionalBytes none, .bytes [], .text "é\u0000", .optionalText none]
    let bytes : List UInt8 := [0, 0, 0, 9, 1]
    let requests : List Request := [.form .uint64, .form .optionalBytes, .take 2, .form .byte,
      .consumed]
    Fits (items.flatMap Item.lengths) ∧
      (start (items.flatMap Item.put)).answers
          (items.map (fun x => .form x.form) ++ [.consumed]) =
        items.map (fun x => .ok (.item x)) ++ [.ok .consumed] ∧
      ((start bytes).trail requests).map Cursor.offset = [0, 0, 4, 4, 5, 5] ∧
      ((start bytes).trail requests).Pairwise (fun c d => c.offset ≤ d.offset) ∧
      (∀ c ∈ (start bytes).trail requests, c.offset ≤ bytes.length ∧
        c.rest = bytes.drop c.offset ∧ c.offset + c.remaining = bytes.length) ∧
      ((Request.take 2).isFixed = true ∧
        (Request.take 2).read.on ⟨4, [1]⟩ = (.error (.corrupt 4 (.tooShort 2 1)), ⟨4, [1]⟩)) := by
  intro items bytes requests
  have fits : Fits (items.flatMap Item.lengths) := by decide +kernel
  have fixed : (Request.take 2).isFixed = true := rfl
  obtain ⟨read, forward, within, stays⟩ := ask_in_order items fits bytes requests
  have short : ((Request.take 2).read.on ⟨4, [1]⟩).1 = .error (.corrupt 4 (.tooShort 2 1)) := rfl
  have unmoved := stays _ fixed ⟨4, [1]⟩ _ _ (Prod.ext short rfl)
  exact ⟨fits, read, by decide +kernel, forward, within, fixed, Prod.ext short unmoved⟩

end Cursor

end GraphLog.Wire
