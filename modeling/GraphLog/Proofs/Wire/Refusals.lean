/-
**Where readers fail, and what they say about it.**

A reader that fails says that the bytes are corrupt, and names a place.  Some places are those of
the cursor when the fault is noticed, others were noted before a part was read that turned out to
be wrong, and those in endpoints are counted in bytes of their own and moved to where these lie.
All of them are places that there are, for two reasons.  No reader moves a cursor but over bytes in
front of it, so the end of the bytes stays where it is; and a place that was noted lies before this
end, and goes on to do so.  So what is asked of a reader is that it keeps to the bytes as long as
the places noted so far lie before their end, and this is kept when readers follow each other.

A fault in the middle is a fault of the whole.  If a reader comes to one of its parts behind some
bytes, and this part fails there, then the reader fails for the same reason.

Main definitions:

* `GraphLog.Wire.Cursor.limit` — where the bytes in front of a cursor end;
* `GraphLog.Wire.Read.Fails` — a reader fails;
* `GraphLog.Wire.Read.CarefulAt`, `GraphLog.Wire.Read.CarefulFrom`, `GraphLog.Wire.Read.Careful` —
  **a reader keeps to the bytes that there are**;
* `GraphLog.Wire.Read.BlamesStart` — a reader blames the place where it starts;
* `GraphLog.Wire.Read.Leads` — a reader comes to one of its parts behind some bytes.

Main results:

* `GraphLog.Wire.Read.CarefulFrom.bind`, `GraphLog.Wire.Read.Careful.noting` — careful readers one
  behind the other, and places that are noted;
* `GraphLog.Wire.careful_mutation` and its companions — **each reader is careful**;
* `GraphLog.Wire.exists_fails_endpoints`, `GraphLog.Wire.exists_fails_visibility` — what is said
  about endpoints and labels that are none.
-/

import GraphLog.Proofs.Wire.Fields

set_option relaxedAutoImplicit false
set_option autoImplicit false

namespace GraphLog.Wire

variable {α β : Type}

/-! ### Readers that fail -/

namespace Cursor

variable {c d : Cursor}

/-- Where the bytes in front of a cursor end. -/
def limit (c : Cursor) : Nat :=
  c.offset + c.remaining

theorem limit_start (bytes : List UInt8) : (start bytes).limit = bytes.length :=
  Nat.zero_add bytes.length

/-- The end, or `limit`, stays where it is when a cursor moves. -/
theorem Passes.limit_eq {bytes : List UInt8} (h : c.Passes bytes d) : d.limit = c.limit := by
  rw [limit, limit, remaining, remaining, h.1, h.2, List.length_append, Nat.add_assoc]

theorem offset_le_limit : c.offset ≤ c.limit :=
  Nat.le_add_right ..

end Cursor

/-- **The reader fails in front of `c`** with an error. -/
def Read.Fails (read : Read α) (c : Cursor) (e : DecodeError) : Prop :=
  (read.on c).1 = .error e

section Fails

variable {c : Cursor} {e : DecodeError}

@[simp]
theorem not_fails_pure {x : α} : ¬(pure x : Read α).Fails c e :=
  nofun

@[simp]
theorem fails_throw {e' : DecodeError} : (throw e' : Read α).Fails c e ↔ e = e' := by
  show Except.error e' = Except.error e ↔ _
  simp [eq_comm]

@[simp]
theorem fails_refuse {place : Nat} {reason : Corruption} :
    (refuse place reason : Read α).Fails c e ↔ e = .corrupt place reason :=
  fails_throw

/-- Of two readers, one behind the other, the first or the second fails. -/
@[simp]
theorem fails_bind {read : Read α} {next : α → Read β} :
    (read >>= next).Fails c e ↔
      read.Fails c e ∨ ∃ x m, read.Yields c x m ∧ (next x).Fails m e := by
  unfold Read.Fails Read.Yields
  rw [Read.on_bind]
  cases read.on c with
  | mk result m => cases result <;> simp

@[simp]
theorem not_fails_offset : ¬offset.Fails c e :=
  nofun

@[simp]
theorem not_fails_remaining : ¬remaining.Fails c e :=
  nofun

/-- A check in front of a reader: the reader fails if the check does, or in itself. -/
theorem fails_ite_refuse {p : Prop} [Decidable p] {place : Nat} {reason : Corruption}
    {next : α → Read β} {rest : Read β} :
    (if p then refuse place reason >>= next else rest).Fails c e ↔
      p ∧ e = .corrupt place reason ∨ ¬p ∧ rest.Fails c e := by
  by_cases h : p
  · simp [h]
  · simp [h]

theorem fails_take {n : Nat} :
    (take n).Fails c e ↔
      c.remaining < n ∧ e = .corrupt c.offset (.tooShort n c.remaining) := by
  unfold Read.Fails
  rw [Read.on_take]
  by_cases enough : n ≤ c.remaining
  · simp [enough, Nat.not_lt.2 enough]
  · simp [enough, Nat.lt_of_not_le enough, eq_comm]

end Fails

/-! ### Careful readers -/

namespace Read

/-- **A reader keeps to the bytes in front of a cursor.** -/
structure CarefulAt (read : Read α) (c : Cursor) : Prop where
  /-- Wherever it stops, it has passed over some of these bytes. -/
  moves : ∃ bytes, c.Passes bytes (read.on c).2
  /-- If it fails, it blames one of all bytes, or their end. -/
  blames : ∀ e, read.Fails c e → ∃ place reason, e = .corrupt place reason ∧ place ≤ c.limit

/-- The same as `CarefulAt` for every cursor whose bytes do not end before a place that was
noted. -/
def CarefulFrom (read : Read α) (noted : Nat) : Prop :=
  ∀ c, noted ≤ c.limit → read.CarefulAt c

/-- **The same for every cursor.** -/
def Careful (read : Read α) : Prop :=
  ∀ c, read.CarefulAt c

variable {read : Read α} {noted : Nat}

/-- A reader that gives a value is careful if it has moved over bytes that were there: what it
`Yields` moves it. -/
theorem CarefulAt.of_yields {c d : Cursor} {x : α} {bytes : List UInt8}
    (yields : read.Yields c x d) (passes : c.Passes bytes d) : read.CarefulAt c := by
  refine ⟨⟨bytes, ?_⟩, fun e fails => ?_⟩
  · rw [yields]
    exact passes
  · rw [Fails, yields] at fails
    cases fails

/-- A reader that fails on the spot is careful if it blames a place that is there. -/
theorem CarefulAt.of_error {c : Cursor} {place : Nat} {reason : Corruption}
    (stops : read.on c = (.error (.corrupt place reason), c)) (within : place ≤ c.limit) :
    read.CarefulAt c := by
  refine ⟨⟨[], ?_⟩, fun e fails => ?_⟩
  · rw [stops]
    exact Cursor.passes_nil.2 rfl
  · rw [Fails, stops] at fails
    cases fails
    exact ⟨place, reason, rfl, within⟩

theorem Careful.from (careful : read.Careful) (noted : Nat) : read.CarefulFrom noted :=
  fun c _ => careful c

theorem careful_pure {x : α} : (pure x : Read α).Careful :=
  fun _ => .of_yields (yields_pure.2 ⟨rfl, rfl⟩) (Cursor.passes_nil.2 rfl)

theorem careful_offset : offset.Careful :=
  fun _ => .of_yields (yields_offset.2 ⟨rfl, rfl⟩) (Cursor.passes_nil.2 rfl)

theorem careful_remaining : remaining.Careful :=
  fun _ => .of_yields (yields_remaining.2 ⟨rfl, rfl⟩) (Cursor.passes_nil.2 rfl)

theorem carefulFrom_refuse {reason : Corruption} :
    (refuse noted reason : Read α).CarefulFrom noted :=
  fun _ within => .of_error rfl within

/-- A reader is careful behind another one if it is where that one has come to. -/
theorem CarefulAt.bind {next : α → Read β} {c : Cursor} (first : read.CarefulAt c)
    (second : ∀ x m, read.Yields c x m → m.limit = c.limit → (next x).CarefulAt m) :
    (read >>= next).CarefulAt c := by
  obtain ⟨bytes, passes⟩ := first.moves
  have moved : ∃ bytes, c.Passes bytes ((read >>= next).on c).2 := by
    rw [on_bind]
    rcases stops : read.on c with ⟨_ | x, m⟩
    · rw [stops] at passes
      exact ⟨bytes, passes⟩
    · rw [stops] at passes
      obtain ⟨more, passes'⟩ := (second x m stops passes.limit_eq).moves
      exact ⟨bytes ++ more, Cursor.passes_append.2 ⟨m, passes, passes'⟩⟩
  refine ⟨moved, fun e fails => ?_⟩
  rcases fails_bind.1 fails with fails | ⟨x, m, yields, fails⟩
  · exact first.blames e fails
  · have same : m.limit = c.limit := by
      rw [yields] at passes
      exact passes.limit_eq
    rw [← same]
    exact (second x m yields same).blames e fails

/-- **Careful readers one behind the other are careful.** -/
theorem CarefulFrom.bind {next : α → Read β} (first : read.CarefulFrom noted)
    (second : ∀ x, (next x).CarefulFrom noted) : (read >>= next).CarefulFrom noted :=
  fun c within => (first c within).bind fun x m _ same => second x m (same ▸ within)

theorem Careful.bind {next : α → Read β} (first : read.Careful) (second : ∀ x, (next x).Careful) :
    (read >>= next).Careful :=
  fun c => (first c).bind fun x m _ _ => second x m

/-- The `offset` of the cursor may be noted, since it is not behind the end. -/
theorem careful_noting {next : Nat → Read α} (careful : ∀ noted, (next noted).CarefulFrom noted) :
    (offset >>= next).Careful := by
  refine fun c => (careful_offset c).bind fun noted m yields _ => ?_
  obtain ⟨rfl, rfl⟩ := yields_offset.1 yields
  exact careful _ m Cursor.offset_le_limit

/-- The place of a part may be noted in front of it, and blamed by what is read behind the part. -/
theorem Careful.noting {next : Nat → α → Read β} (first : read.Careful)
    (second : ∀ noted x, (next noted x).CarefulFrom noted) :
    Careful (do next (← offset) (← read)) :=
  careful_noting fun noted => (first.from noted).bind (second noted)

/-- A check in front of a reader may blame a place that was noted. -/
theorem CarefulFrom.ite_refuse {p : Prop} [Decidable p] {reason : Corruption} {next : α → Read β}
    {rest : Read β} (careful : rest.CarefulFrom noted) :
    (if p then refuse noted reason >>= next else rest).CarefulFrom noted := by
  split
  · intro c within
    exact (carefulFrom_refuse c within).bind fun _ _ yields _ => absurd yields not_yields_refuse
  · exact careful

/-- **The reader blames the place where it starts**, whatever is wrong. -/
def BlamesStart (read : Read α) : Prop :=
  ∀ c e, read.Fails c e → ∃ reason, e = .corrupt c.offset reason

/-- It does so if it notes this place, reads a part that starts there, and blames what it noted. -/
theorem BlamesStart.noting {next : Nat → α → Read β} (first : read.BlamesStart)
    (second : ∀ noted x c e, (next noted x).Fails c e → ∃ reason, e = .corrupt noted reason) :
    (do next (← offset) (← read) : Read β).BlamesStart := by
  intro c e fails
  obtain ⟨noted, m, yields, fails⟩ := (fails_bind.1 fails).resolve_left not_fails_offset
  obtain ⟨rfl, rfl⟩ := yields_offset.1 yields
  rcases fails_bind.1 fails with fails | ⟨x, d, -, fails⟩
  · exact first m e fails
  · exact second m.offset x d e fails

/-! ### Faults in the middle -/

/-- **The reader comes to a part of it behind these bytes**, so that a fault of the part there is a
fault of the reader. -/
def Leads (read : Read α) (front : List UInt8) (part : Read β) : Prop :=
  ∀ c m e, c.Passes front m → part.Fails m e → read.Fails c e

section Leads

variable {γ : Type} {part : Read β} {front : List UInt8}

theorem Leads.refl : read.Leads [] read := by
  intro c m e passes fails
  rw [Cursor.passes_nil.1 passes] at fails
  exact fails

theorem Leads.trans {inner : Read γ} {more : List UInt8} (leads : read.Leads front part)
    (leads' : part.Leads more inner) : read.Leads (front ++ more) inner := by
  intro c m e passes fails
  obtain ⟨m', first, second⟩ := Cursor.passes_append.1 passes
  exact leads c m' e first (leads' m' m e second fails)

/-- A fault of the first of two readers. -/
theorem Leads.bind {next : α → Read γ} (leads : read.Leads front part) :
    (read >>= next).Leads front part :=
  fun c m e passes fails => fails_bind.2 (.inl (leads c m e passes fails))

/-- A fault of the second of two readers, behind what the first has read: see `Leads.bind` for the
first. -/
theorem leads_bind {next : α → Read γ} {x : α} {bytes : List UInt8}
    (yields : ∀ c d, c.Passes bytes d → read.Yields c x d) (leads : (next x).Leads front part) :
    (read >>= next).Leads (bytes ++ front) part := by
  intro c m e passes fails
  obtain ⟨d, first, second⟩ := Cursor.passes_append.1 passes
  exact fails_bind.2 (.inr ⟨x, d, yields c d first, leads d m e second fails⟩)

theorem Undoes.leads {put : α → List UInt8} {lengths : α → List Nat} {next : α → Read γ} {x : α}
    (undoes : read.Undoes put lengths) (fits : Fits (lengths x))
    (leads : (next x).Leads front part) : (read >>= next).Leads (put x ++ front) part :=
  leads_bind (fun c d passes => (undoes c x d).2 ⟨fits, passes⟩) leads

/-- Noting the place of the cursor reads nothing. -/
theorem leads_offset {next : Nat → Read γ} (leads : ∀ noted, (next noted).Leads front part) :
    (offset >>= next).Leads front part :=
  fun c m e passes fails =>
    fails_bind.2 (.inr ⟨c.offset, c, yields_offset.2 ⟨rfl, rfl⟩, leads _ c m e passes fails⟩)

theorem leads_byte {next : UInt8 → Read γ} {b : UInt8} (leads : (next b).Leads front part) :
    (byte >>= next).Leads ([b] ++ front) part :=
  leads_bind (fun _ _ passes => yields_byte.2 (Cursor.passes_singleton.1 passes)) leads

end Leads

end Read

open Read (Careful CarefulFrom careful_pure careful_offset careful_remaining carefulFrom_refuse)

/-! ### Numbers, byte strings and texts -/

theorem length_putInt32 (n : Int32) : (putInt32 n).length = 4 :=
  length_bigEndian 4 _

theorem careful_take (n : Nat) : (take n).Careful := by
  intro c
  by_cases enough : n ≤ c.remaining
  · have yields : (take n).Yields c (c.rest.take n) ⟨c.offset + n, c.rest.drop n⟩ := by
      rw [Read.Yields, Read.on_take, if_pos enough]
    exact .of_yields yields (yields_take.1 yields).2
  · have stops : (take n).on c = (.error (.corrupt c.offset (.tooShort n c.remaining)), c) := by
      rw [Read.on_take, if_neg enough]
    exact .of_error stops Cursor.offset_le_limit

theorem careful_consumed : consumed.Careful := by
  intro c
  by_cases left : c.rest = []
  · have yields : consumed.Yields c () c := yields_consumed.2 ⟨left, rfl⟩
    exact .of_yields yields (Cursor.passes_nil.2 rfl)
  · have remains : c.remaining ≠ 0 := fun none => left (List.length_eq_zero_iff.1 none)
    have stops : consumed.on c = (.error (.corrupt c.offset (.trailing c.remaining)), c) := by
      rw [Read.on_consumed, if_pos remains]
    exact .of_error stops Cursor.offset_le_limit

theorem careful_byte : byte.Careful :=
  (careful_take 1).bind fun _ => careful_pure

theorem careful_int32 : int32.Careful :=
  (careful_take 4).bind fun _ => careful_pure

theorem careful_int64 : int64.Careful :=
  (careful_take 8).bind fun _ => careful_pure

theorem careful_uint64 : uint64.Careful :=
  (careful_take 8).bind fun _ => careful_pure

theorem careful_double : double.Careful :=
  careful_uint64.bind fun _ => careful_pure

theorem careful_optionalInt64 : optionalInt64.Careful := by
  refine .noting careful_byte fun noted flag => ?_
  split
  · exact careful_pure.from noted
  · exact (careful_int64.bind fun _ => careful_pure).from noted
  · exact carefulFrom_refuse

theorem careful_optionalBytes : optionalBytes.Careful := by
  refine .noting careful_int32 fun noted length => ?_
  split
  · exact careful_pure.from noted
  · refine .ite_refuse ((careful_remaining.from noted).bind fun left => .ite_refuse ?_)
    exact ((careful_take _).bind fun _ => careful_pure).from noted

theorem careful_bytes : bytes.Careful := by
  refine .noting careful_optionalBytes fun noted found => ?_
  cases found with
  | none => exact carefulFrom_refuse
  | some bytes => exact careful_pure.from noted

theorem careful_optionalText : optionalText.Careful := by
  refine .noting careful_optionalBytes fun noted found => ?_
  cases found with
  | none => exact careful_pure.from noted
  | some bytes =>
      dsimp only
      split
      · exact careful_pure.from noted
      · exact carefulFrom_refuse

theorem careful_text : text.Careful := by
  refine .noting careful_optionalText fun noted found => ?_
  cases found with
  | none => exact carefulFrom_refuse
  | some s => exact careful_pure.from noted

/-! ### The parts of a record -/

theorem careful_visibility : visibility.Careful := by
  refine .noting careful_text fun noted s => ?_
  split
  · exact careful_pure.from noted
  · exact carefulFrom_refuse

theorem careful_direction : direction.Careful := by
  refine .noting careful_byte fun noted tag => ?_
  split
  · exact careful_pure.from noted
  · exact carefulFrom_refuse

theorem careful_elementKind : elementKind.Careful := by
  refine .noting careful_byte fun noted tag => ?_
  split
  · exact careful_pure.from noted
  · exact carefulFrom_refuse

theorem careful_mutationKind : mutationKind.Careful := by
  refine .noting careful_byte fun noted number => ?_
  split
  · exact careful_pure.from noted
  · exact carefulFrom_refuse

theorem careful_element : element.Careful :=
  careful_elementKind.bind fun _ => careful_text.bind fun _ => careful_pure

theorem careful_slot : slot.Careful := by
  refine .noting careful_byte fun noted tag => ?_
  split
  · exact careful_pure.from noted
  · exact (careful_text.bind fun _ => careful_text.bind fun _ => careful_visibility.bind fun _ =>
      careful_pure).from noted
  · exact (careful_text.bind fun _ => careful_direction.bind fun _ => careful_pure).from noted
  · exact carefulFrom_refuse

theorem careful_truthValue : truthValue.Careful := by
  refine .noting careful_byte fun noted b => ?_
  split
  · exact careful_pure.from noted
  · exact careful_pure.from noted
  · exact carefulFrom_refuse

theorem careful_value : value.Careful := by
  refine .noting careful_byte fun noted tag => ?_
  split
  · exact careful_pure.from noted
  · exact (careful_truthValue.bind fun _ => careful_pure).from noted
  · exact (careful_int64.bind fun _ => careful_pure).from noted
  · exact (careful_double.bind fun _ => careful_pure).from noted
  · exact (careful_text.bind fun _ => careful_pure).from noted
  · exact (careful_bytes.bind fun _ => careful_pure).from noted
  · exact (careful_int64.bind fun _ => careful_pure).from noted
  · exact (careful_int64.bind fun _ => careful_pure).from noted
  · exact carefulFrom_refuse

theorem careful_entry : entry.Careful :=
  careful_text.bind fun _ => careful_value.bind fun _ => careful_visibility.bind fun _ =>
    careful_pure

theorem careful_entries (count : Nat) : (entries count).Careful := by
  induction count with
  | zero => exact careful_pure
  | succ count ih => exact careful_entry.bind fun _ => ih.bind fun _ => careful_pure

/-- A number of entries is blamed at its own place, however many bytes are left. -/
theorem careful_countedEntries : countedEntries.Careful :=
  .noting careful_int32 fun noted _ => .ite_refuse ((careful_entries _).from noted)

theorem careful_incidence : incidence.Careful :=
  careful_text.bind fun _ => careful_direction.bind fun _ => careful_optionalText.bind fun _ =>
    careful_text.bind fun _ => careful_visibility.bind fun _ => careful_pure

theorem careful_wholeEndpoints : wholeEndpoints.Careful :=
  careful_text.bind fun _ => careful_text.bind fun _ => careful_text.bind fun _ =>
    careful_consumed.bind fun _ => careful_pure

/-- Endpoints are blamed at a place among their own bytes, or at the end of these. -/
theorem exists_eq_corrupt_of_wholeEndpoints {body : List UInt8} {e : DecodeError}
    (fails : wholeEndpoints.Fails (.start body) e) :
    ∃ place reason, e = .corrupt place reason ∧ place ≤ body.length := by
  obtain ⟨place, reason, rfl, within⟩ := (careful_wholeEndpoints (.start body)).blames e fails
  rw [Cursor.limit_start] at within
  exact ⟨place, reason, rfl, within⟩

/-- A place in endpoints is one of the whole when it is moved behind the length of these. -/
theorem careful_endpoints : endpoints.Careful := by
  refine fun c => (careful_offset c).bind fun start m yields _ => ?_
  obtain ⟨rfl, rfl⟩ := yields_offset.1 yields
  refine (careful_optionalBytes m).bind fun found d yields same => ?_
  cases found with
  | none => exact careful_pure d
  | some body =>
      cases whole : (wholeEndpoints.on (.start body)).1 with
      | ok ends =>
          simp only [whole]
          exact careful_pure d
      | error e =>
          obtain ⟨place, reason, rfl, within⟩ := exists_eq_corrupt_of_wholeEndpoints whole
          have fits := ((undoes_optionalBytes _ _ _).1 yields).2.length_le
          rw [putOptionalBytes, putBytes, List.length_append, length_putInt32] at fits
          simp only [whole]
          refine .of_error rfl ?_
          rw [same, Cursor.limit]
          omega

theorem careful_mutation (kind : MutationKind) : (mutation kind).Careful := by
  cases kind with
  | setValue =>
      exact careful_value.bind fun _ => careful_countedEntries.bind fun _ => careful_pure
  | dropValue => exact careful_pure
  | attachEdge => exact careful_incidence.bind fun _ => careful_pure
  | detachEdge => exact careful_incidence.bind fun _ => careful_pure
  | hide | unhide =>
      exact careful_visibility.bind fun _ => careful_optionalInt64.bind fun _ => careful_pure
  | softDelete => exact careful_int64.bind fun _ => careful_pure
  | relabel => exact careful_visibility.bind fun _ => careful_pure
  | setMetadata => exact careful_entry.bind fun _ => careful_pure
  | dropMetadata => exact careful_text.bind fun _ => careful_visibility.bind fun _ => careful_pure
  | create => exact careful_endpoints.bind fun _ => careful_pure

/-! ### Endpoints and labels that are none -/

section Wrong

variable {c d : Cursor}

/-- Endpoints that are none are blamed behind their length, at a place among their own bytes or at
the end of these. -/
theorem exists_fails_endpoints {body : List UInt8} (fits : body.length ≤ maxLength)
    (wrong : ∀ ends, body ≠ endpointsBody ends) (passes : c.Passes (putBytes body) d) :
    ∃ place reason, endpoints.Fails c (.corrupt (c.offset + 4 + place) reason) ∧
      place ≤ body.length := by
  have found : optionalBytes.Yields c (some body) d :=
    (undoes_optionalBytes _ _ _).2 ⟨fits_cons.2 ⟨fits, fits_nil⟩, passes⟩
  cases whole : (wholeEndpoints.on (.start body)).1 with
  | ok ends => exact absurd (on_wholeEndpoints.1 whole).2 (wrong ends)
  | error e =>
      obtain ⟨place, reason, rfl, within⟩ := exists_eq_corrupt_of_wholeEndpoints whole
      refine ⟨place, reason, ?_, within⟩
      refine fails_bind.2 (.inr ⟨_, c, yields_offset.2 ⟨rfl, rfl⟩, ?_⟩)
      refine fails_bind.2 (.inr ⟨_, d, found, ?_⟩)
      simp only [whole]
      exact fails_throw.2 rfl

/-- A byte string is blamed where its length stands: when the length is taken for good, there are
bytes enough. -/
theorem blamesStart_optionalBytes : optionalBytes.BlamesStart := by
  have length : int32.BlamesStart := by
    intro c e fails
    have short := (fails_bind.1 fails).resolve_right fun ⟨_, _, _, last⟩ => not_fails_pure last
    exact ⟨_, (fails_take.1 short).2⟩
  refine length.noting fun noted n m e fails => ?_
  split at fails
  · exact absurd fails not_fails_pure
  · rcases fails_ite_refuse.1 fails with ⟨-, rfl⟩ | ⟨-, fails⟩
    · exact ⟨_, rfl⟩
    · obtain ⟨_, _, yields, fails⟩ := (fails_bind.1 fails).resolve_left not_fails_remaining
      obtain ⟨rfl, rfl⟩ := yields_remaining.1 yields
      rcases fails_ite_refuse.1 fails with ⟨-, rfl⟩ | ⟨enough, fails⟩
      · exact ⟨_, rfl⟩
      · have short := (fails_bind.1 fails).resolve_right fun ⟨_, _, _, last⟩ => not_fails_pure last
        exact absurd (fails_take.1 short).1 enough

theorem blamesStart_optionalText : optionalText.BlamesStart := by
  refine blamesStart_optionalBytes.noting fun noted found m e fails => ?_
  cases found with
  | none => exact absurd fails not_fails_pure
  | some bytes =>
      dsimp only at fails
      split at fails
      · exact absurd fails not_fails_pure
      · exact ⟨_, fails_refuse.1 fails⟩

theorem blamesStart_text : text.BlamesStart := by
  refine blamesStart_optionalText.noting fun noted found m e fails => ?_
  cases found with
  | none => exact ⟨_, fails_refuse.1 fails⟩
  | some s => exact absurd fails not_fails_pure

theorem blamesStart_visibility : visibility.BlamesStart := by
  refine blamesStart_text.noting fun noted s m e fails => ?_
  split at fails
  · exact absurd fails not_fails_pure
  · exact ⟨_, fails_refuse.1 fails⟩

/-- **Where no label stands, the place is blamed where it would start.** -/
theorem exists_fails_visibility
    (unlabelled : ∀ (v : Visibility) more, Fits [textLength v.text] →
      c.rest ≠ putVisibility v ++ more) :
    ∃ reason, visibility.Fails c (.corrupt c.offset reason) := by
  cases stops : (visibility.on c).1 with
  | ok v =>
      obtain ⟨d, yields⟩ := Read.on_eq_ok_iff.1 stops
      obtain ⟨fits, passes⟩ := (undoes_visibility _ _ _).1 yields
      exact absurd passes.1 (unlabelled v d.rest fits)
  | error e =>
      obtain ⟨reason, rfl⟩ := blamesStart_visibility c e stops
      exact ⟨reason, stops⟩

end Wrong

end GraphLog.Wire
