/-
**A frame is read exactly if it was written.**

The three sorts of frame share the version in front.  A record and an event differ from a mutation
in the next byte, and from each other in the order of their parts; the end of a frame is the end of
its bytes.  Since every part has one form, every frame has one: the bytes that are read as a frame
are those that are written for it, and no others.  Whether a frame obeys its rules is asked behind
its last byte only, so the three sorts are read alike: first the parts, which may break the rules,
then the end, then the rules.

Main definitions:

* `GraphLog.Frame.Valid` — the rules that a frame has to obey;
* `GraphLog.Frame.lengths` — the lengths inside a frame;
* `GraphLog.FrameSort`, `GraphLog.FrameDraft` — the sorts of frame, and the parts of a frame that is
  not checked yet;
* `GraphLog.FrameSort.decode` — reading a frame of a known sort.

Main results:

* `GraphLog.FrameSort.yields_body` — parts are read as they were written;
* `GraphLog.FrameSort.decode_eq` — a frame is read to its last byte and then checked;
* `GraphLog.Mutation.decode_eq_ok_iff`, `GraphLog.Record.decode_eq_ok_iff`,
  `GraphLog.Event.decode_eq_ok_iff` — reading frames of a known sort;
* `GraphLog.Frame.decode_eq_ok_iff_encode` — **reading a frame whose sort is not known**.
-/

import GraphLog.Wire.Frame
import GraphLog.Proofs.Outcomes
import GraphLog.Proofs.Wire.Fields

set_option relaxedAutoImplicit false
set_option autoImplicit false

namespace GraphLog

open Wire

/-! ### The lengths inside a frame -/

/-- The lengths inside what stands in front of the mutation of a record. -/
def Draft.placeLengths (p : Draft) : List Nat :=
  p.element.lengths ++ p.slot.lengths ++ [textLength p.visibility.text]

/-- The lengths inside a record: those of its place and those of its mutation. -/
def Draft.lengths (p : Draft) : List Nat :=
  p.placeLengths ++ p.mutation.lengths

/-- The lengths inside a frame. -/
def Frame.lengths : Frame → List Nat
  | mutation m => m.lengths
  | record r => r.lengths
  | event e => e.record.lengths

/-- **The rules that a frame has to obey**: those of its mutation, or those of its record. -/
def Frame.Valid : Frame → Prop
  | mutation m => m.check = .ok ()
  | record r => r.check = .ok ()
  | event e => e.record.check = .ok ()

namespace Wire

/-! ### What stands in front -/

section Front

variable {c d : Cursor}

@[simp]
theorem yields_readVersion {u : Unit} : readVersion.Yields c u d ↔ c.Steps version d := by
  simp only [readVersion, yields_bind, yields_byte]
  constructor
  · intro h
    obtain ⟨v, m, stepped, rest⟩ := h
    split at rest
    · exact absurd rest not_yields_throw
    · next known =>
        obtain ⟨-, rfl⟩ := yields_pure.1 rest
        rw [← Decidable.not_not.1 known]
        exact stepped
  · intro stepped
    exact ⟨version, d, stepped, yields_pure.2 ⟨rfl, rfl⟩⟩

@[simp]
theorem yields_expectTag {tag : UInt8} {u : Unit} :
    (expectTag tag).Yields c u d ↔ c.Steps tag d := by
  simp only [expectTag, yields_bind, yields_offset, yields_byte]
  constructor
  · intro h
    obtain ⟨start, c, ⟨-, rfl⟩, found, m, stepped, rest⟩ := h
    split at rest
    · exact absurd rest not_yields_refuse
    · next same =>
        obtain ⟨-, rfl⟩ := yields_pure.1 rest
        rw [← Decidable.not_not.1 same]
        exact stepped
  · intro stepped
    refine ⟨_, c, ⟨rfl, rfl⟩, tag, d, stepped, ?_⟩
    rw [if_neg (not_not_intro rfl)]
    exact yields_pure.2 ⟨rfl, rfl⟩

/-- The parts in front of the mutation are those of a record, whatever its mutation will be. -/
theorem yields_place {complete : Mutation → Draft} :
    place.Yields c complete d ↔
      ∃ p : Draft, complete = (fun m => { p with mutation := m }) ∧ Fits p.placeLengths ∧
        c.Passes (putPlace p) d := by
  simp only [place, yields_bind, yields_pure, undoes_element _ _ _, undoes_slot _ _ _,
    undoes_int64 _ _ _, undoes_uint64 _ _ _, undoes_visibility _ _ _, Draft.placeLengths, putPlace,
    Cursor.passes_append, fits_append]
  constructor
  · intro h
    obtain ⟨e, m₁, ⟨elementFits, elementPasses⟩, s, m₂, ⟨slotFits, slotPasses⟩, timestamp, m₃, ⟨-,
      timePasses⟩, sequence, m₄, ⟨-, sequencePasses⟩, v, _, ⟨labelFits, labelPasses⟩, rfl, rfl⟩ := h
    exact ⟨⟨e, s, timestamp, v, .dropValue, sequence⟩, rfl, ⟨⟨elementFits, slotFits⟩, labelFits⟩,
      m₄, ⟨m₃, ⟨m₂, ⟨m₁, elementPasses, slotPasses⟩, timePasses⟩, sequencePasses⟩, labelPasses⟩
  · intro h
    obtain ⟨p, rfl, ⟨⟨elementFits, slotFits⟩, labelFits⟩, m₄, ⟨m₃, ⟨m₂, ⟨m₁, elementPasses,
      slotPasses⟩, timePasses⟩, sequencePasses⟩, labelPasses⟩ := h
    exact ⟨p.element, m₁, ⟨elementFits, elementPasses⟩, p.slot, m₂, ⟨slotFits, slotPasses⟩,
      p.timestamp, m₃, ⟨fits_nil, timePasses⟩, p.sequence, m₄, ⟨fits_nil, sequencePasses⟩,
      p.visibility, d, ⟨labelFits, labelPasses⟩, rfl, rfl⟩

end Front

end Wire

/-! ### Frames that are not checked yet -/

/-- The sorts of `Frame`. -/
inductive FrameSort where
  | mutation
  | record
  | event
deriving DecidableEq

/-- **A frame that is not checked yet**: the parts of a mutation, a record or an event. -/
inductive FrameDraft where
  | mutation (value : Mutation)
  | record (parts : Draft)
  | event (parts : Draft)

namespace FrameDraft

def sort : FrameDraft → FrameSort
  | mutation _ => .mutation
  | record _ => .record
  | event _ => .event

/-- The lengths inside a frame, checked or not. -/
def lengths : FrameDraft → List Nat
  | mutation m => m.lengths
  | record p | event p => p.lengths

/-- What is written behind the version.  In a record the kind of the mutation stands right in front
of its fields, in an event in front of everything else. -/
def body : FrameDraft → List UInt8
  | mutation m => m.kind.number :: putMutation m
  | record p => recordTag :: putPlace p ++ p.mutation.kind.number :: putMutation p.mutation
  | event p => eventTag :: p.mutation.kind.number :: putPlace p ++ putMutation p.mutation

/-- The bytes of a frame, checked or not. -/
def encode (x : FrameDraft) : List UInt8 :=
  version :: x.body

/-- Checks the rules of a frame, by the checks of its mutation or of its record. -/
def check : FrameDraft → Except Defect Frame
  | mutation m => m.check.map fun _ => .mutation m
  | record p => (Record.ofDraft p).map .record
  | event p => ((Record.ofDraft p).map Event.mk).map .event

end FrameDraft

/-- The parts of a frame. -/
def Frame.draft : Frame → FrameDraft
  | mutation m => .mutation m
  | record r => .record r.toDraft
  | event e => .event e.record.toDraft

theorem Frame.encode_draft (f : Frame) : f.draft.encode = f.encode := by
  cases f <;> rfl

theorem Frame.lengths_draft (f : Frame) : f.draft.lengths = f.lengths := by
  cases f <;> rfl

/-! ### Whole frames -/

namespace FrameSort

/-- The parts of a frame of a sort, behind the version. -/
def body : FrameSort → Read FrameDraft
  | mutation => do return .mutation (← Wire.mutation (← mutationKind))
  | record => do
    expectTag recordTag
    let complete ← place
    return .record (complete (← Wire.mutation (← mutationKind)))
  | event => do
    expectTag eventTag
    let kind ← mutationKind
    let complete ← place
    return .event (complete (← Wire.mutation kind))

/-- What stands behind the version of a frame, to the last byte. -/
def rest (sort : FrameSort) : Read FrameDraft := do
  let x ← sort.body
  consumed
  return x

/-- A frame of a sort, to the last byte. -/
def frame (sort : FrameSort) : Read FrameDraft := do
  readVersion
  sort.rest

/-- **The parts of a frame are read as they were written**: the reader `Yields` them. -/
theorem yields_body {sort : FrameSort} {c d : Cursor} {x : FrameDraft} :
    sort.body.Yields c x d ↔ x.sort = sort ∧ Fits x.lengths ∧ c.Passes x.body d := by
  constructor
  · intro h
    cases sort with
    | mutation =>
        simp only [body, yields_bind, yields_pure, undoes_mutationKind _ _ _,
          yields_mutation] at h
        obtain ⟨kind, m₁, ⟨-, numbered⟩, m, _, ⟨rfl, fits, passes⟩, rfl, rfl⟩ := h
        exact ⟨rfl, fits, Cursor.passes_append.2 ⟨m₁, numbered, passes⟩⟩
    | record =>
        simp only [body, yields_bind, yields_pure, yields_expectTag, yields_place,
          undoes_mutationKind _ _ _, yields_mutation] at h
        obtain ⟨-, m₁, tagged, _, m₂, ⟨p, rfl, placeFits, placePasses⟩, kind, m₃, ⟨-, numbered⟩, m,
          _, ⟨rfl, fits, passes⟩, rfl, rfl⟩ := h
        refine ⟨rfl, fits_append.2 ⟨placeFits, fits⟩, Cursor.passes_append.2 ⟨m₂, ?_, ?_⟩⟩
        · exact Cursor.passes_cons.2 ⟨m₁, tagged, placePasses⟩
        · exact Cursor.passes_append.2 ⟨m₃, numbered, passes⟩
    | event =>
        simp only [body, yields_bind, yields_pure, yields_expectTag, yields_place,
          undoes_mutationKind _ _ _, yields_mutation] at h
        obtain ⟨-, m₁, tagged, kind, m₂, ⟨-, numbered⟩, _, m₃, ⟨p, rfl, placeFits, placePasses⟩, m,
          _, ⟨rfl, fits, passes⟩, rfl, rfl⟩ := h
        refine ⟨rfl, fits_append.2 ⟨placeFits, fits⟩, Cursor.passes_append.2 ⟨m₃, ?_, passes⟩⟩
        exact Cursor.passes_cons.2 ⟨m₁, tagged, Cursor.passes_append.2 ⟨m₂, numbered, placePasses⟩⟩
  · rintro ⟨rfl, fits, passes⟩
    cases x with
    | mutation m =>
        obtain ⟨m₁, numbered, passes⟩ := Cursor.passes_cons.1 passes
        show (body .mutation).Yields c _ d
        simp only [body, yields_bind, yields_pure, undoes_mutationKind _ _ _, yields_mutation,
          Cursor.passes_cons, Cursor.passes_nil]
        exact ⟨m.kind, m₁, ⟨fits_nil, m₁, numbered, rfl⟩, m, d, ⟨rfl, fits, passes⟩, rfl, rfl⟩
    | record p =>
        simp only [FrameDraft.body, Cursor.passes_append, Cursor.passes_cons] at passes
        obtain ⟨m₂, ⟨m₁, tagged, placePasses⟩, m₃, numbered, passes⟩ := passes
        obtain ⟨placeFits, fits⟩ := fits_append.1 fits
        show (body .record).Yields c _ d
        simp only [body, yields_bind, yields_pure, yields_expectTag, yields_place,
          undoes_mutationKind _ _ _, yields_mutation, Cursor.passes_cons, Cursor.passes_nil]
        exact ⟨(), m₁, tagged, _, m₂, ⟨p, rfl, placeFits, placePasses⟩, p.mutation.kind, m₃,
          ⟨fits_nil, m₃, numbered, rfl⟩, p.mutation, d, ⟨rfl, fits, passes⟩, rfl, rfl⟩
    | event p =>
        simp only [FrameDraft.body, Cursor.passes_append, Cursor.passes_cons] at passes
        obtain ⟨m₃, ⟨m₁, tagged, m₂, numbered, placePasses⟩, passes⟩ := passes
        obtain ⟨placeFits, fits⟩ := fits_append.1 fits
        show (body .event).Yields c _ d
        simp only [body, yields_bind, yields_pure, yields_expectTag, yields_place,
          undoes_mutationKind _ _ _, yields_mutation, Cursor.passes_cons, Cursor.passes_nil]
        exact ⟨(), m₁, tagged, p.mutation.kind, m₂, ⟨fits_nil, m₂, numbered, rfl⟩, _, m₃,
          ⟨p, rfl, placeFits, placePasses⟩, p.mutation, d, ⟨rfl, fits, passes⟩, rfl, rfl⟩

end FrameSort

namespace Wire

section Whole

variable {bytes : List UInt8}

theorem decodeWith_eq_ok_iff {α : Type} {read : Read α} {x : α} :
    decodeWith read bytes = .ok x ↔ ∃ d, read.Yields (.start bytes) x d := by
  rw [decodeWith, mapError_eq_ok_iff, Read.on_eq_ok_iff]

theorem decodeWith_frame {sort : FrameSort} {x : FrameDraft} :
    decodeWith sort.frame bytes = .ok x ↔ x.sort = sort ∧ Fits x.lengths ∧ bytes = x.encode := by
  rw [decodeWith_eq_ok_iff, ← Cursor.passes_to_end]
  simp only [FrameSort.frame, FrameSort.rest, yields_bind, yields_readVersion,
    FrameSort.yields_body, yields_consumed, yields_pure, FrameDraft.encode, Cursor.passes_cons]
  constructor
  · intro h
    obtain ⟨d, -, m₁, versioned, x, m₂, ⟨rfl, fits, passes⟩, -, _, ⟨last, rfl⟩, rfl, rfl⟩ := h
    exact ⟨rfl, fits, _, ⟨m₁, versioned, passes⟩, last⟩
  · intro h
    obtain ⟨rfl, fits, d, ⟨m₁, versioned, passes⟩, last⟩ := h
    exact ⟨d, (), m₁, versioned, x, d, ⟨rfl, fits, passes⟩, (), d, ⟨last, rfl⟩, rfl, rfl⟩

theorem decodeWith_map {α β : Type} {read : Read α} {f : α → β} :
    decodeWith (f <$> read) bytes = (decodeWith read bytes).map f := by
  have runs : ((f <$> read).on (.start bytes)).1 = (read.on (.start bytes)).1.map f := by
    rw [map_eq_pure_bind, Read.on_bind]
    rcases read.on (.start bytes) with ⟨_ | x, m⟩ <;> rfl
  rw [decodeWith, decodeWith, runs]
  cases (read.on (.start bytes)).1 <;> rfl

theorem frame_mutation : FrameSort.mutation.frame = FrameDraft.mutation <$> mutationFrame := by
  simp only [FrameSort.frame, FrameSort.rest, FrameSort.body, mutationFrame, map_eq_pure_bind,
    bind_assoc, pure_bind]

theorem frame_record : FrameSort.record.frame = FrameDraft.record <$> recordFrame := by
  simp only [FrameSort.frame, FrameSort.rest, FrameSort.body, recordFrame, map_eq_pure_bind,
    bind_assoc, pure_bind]

theorem frame_event : FrameSort.event.frame = FrameDraft.event <$> eventFrame := by
  simp only [FrameSort.frame, FrameSort.rest, FrameSort.body, eventFrame, map_eq_pure_bind,
    bind_assoc, pure_bind]

end Whole

end Wire

/-! ### Reading and checking -/

variable {bytes : List UInt8}

/-- Only the parts of a frame that is `Valid` pass the checks. -/
theorem FrameDraft.check_eq_ok_iff {x : FrameDraft} {f : Frame} :
    x.check = .ok f ↔ x = f.draft ∧ f.Valid := by
  cases x with
  | mutation m =>
      rw [check, map_eq_ok_iff]
      constructor
      · rintro ⟨_, valid, rfl⟩
        exact ⟨rfl, valid⟩
      · intro h
        obtain ⟨same, valid⟩ := h
        cases f <;> cases same
        exact ⟨(), valid, rfl⟩
  | record p =>
      rw [check, map_eq_ok_iff]
      constructor
      · rintro ⟨r, whole, rfl⟩
        exact ⟨congrArg record (Record.ofDraft_eq_ok_iff.1 whole), r.valid⟩
      · intro h
        obtain ⟨same, -⟩ := h
        cases f <;> cases same
        exact ⟨_, Record.ofDraft_eq_ok_iff.2 rfl, rfl⟩
  | event p =>
      rw [check, map_eq_ok_iff]
      simp only [map_eq_ok_iff]
      constructor
      · rintro ⟨_, ⟨r, whole, rfl⟩, rfl⟩
        exact ⟨congrArg event (Record.ofDraft_eq_ok_iff.1 whole), r.valid⟩
      · intro h
        obtain ⟨same, -⟩ := h
        cases f <;> cases same
        exact ⟨_, ⟨_, Record.ofDraft_eq_ok_iff.2 rfl, rfl⟩, rfl⟩

namespace FrameSort

/-- Reads a frame of a `FrameSort`, and checks its rules. -/
def decode : FrameSort → List UInt8 → Except Failure Frame
  | mutation, bytes => (Mutation.decode bytes).map .mutation
  | record, bytes => (Record.decode bytes).map .record
  | event, bytes => (Event.decode bytes).map .event

/-- All sorts of frame are read to the last byte, and then checked. -/
theorem decode_eq (sort : FrameSort) (bytes : List UInt8) :
    sort.decode bytes = (do
      let x ← decodeWith sort.frame bytes
      x.check.mapError .invalid) := by
  cases sort with
  | mutation =>
      rw [frame_mutation, decodeWith_map, decode, Mutation.decode]
      rcases decodeWith mutationFrame bytes with e | m
      · rfl
      · show ((m.check.mapError Failure.invalid >>= fun _ => pure m).map Frame.mutation) =
          (m.check.map fun _ => Frame.mutation m).mapError Failure.invalid
        cases m.check <;> rfl
  | record =>
      rw [frame_record, decodeWith_map, decode, Record.decode]
      rcases decodeWith recordFrame bytes with e | p
      · rfl
      · show ((Record.ofDraft p).mapError Failure.invalid).map Frame.record =
          ((Record.ofDraft p).map Frame.record).mapError Failure.invalid
        cases Record.ofDraft p <;> rfl
  | event =>
      rw [frame_event, decodeWith_map, decode, Event.decode]
      rcases decodeWith eventFrame bytes with e | p
      · rfl
      · show (((Record.ofDraft p).map Event.mk).mapError Failure.invalid).map Frame.event =
          (((Record.ofDraft p).map Event.mk).map Frame.event).mapError Failure.invalid
        cases Record.ofDraft p <;> rfl

/-- **A frame of a sort is read exactly if it was written** and obeys its rules. -/
theorem decode_eq_ok_iff {sort : FrameSort} {f : Frame} :
    sort.decode bytes = .ok f ↔
      f.draft.sort = sort ∧ bytes = f.encode ∧ f.Valid ∧ Fits f.lengths := by
  simp only [decode_eq, bind_eq_ok_iff, mapError_eq_ok_iff, decodeWith_frame,
    FrameDraft.check_eq_ok_iff]
  constructor
  · rintro ⟨_, ⟨same, fits, written⟩, rfl, valid⟩
    rw [f.lengths_draft] at fits
    rw [f.encode_draft] at written
    exact ⟨same, written, valid, fits⟩
  · intro h
    obtain ⟨same, written, valid, fits⟩ := h
    rw [← f.lengths_draft] at fits
    rw [← f.encode_draft] at written
    exact ⟨_, ⟨same, fits, written⟩, rfl, valid⟩

end FrameSort

/-- A mutation is read exactly if it was written and obeys its rules. -/
theorem Mutation.decode_eq_ok_iff {m : Mutation} :
    Mutation.decode bytes = .ok m ↔ bytes = m.encode ∧ m.check = .ok () ∧ Fits m.lengths := by
  have known : FrameSort.mutation.decode bytes = .ok (.mutation m) ↔
      Mutation.decode bytes = .ok m := by
    simp [FrameSort.decode]
  rw [← known, FrameSort.decode_eq_ok_iff]
  exact and_iff_right rfl

/-- A record is read exactly if it was written: a record obeys its rules by itself. -/
theorem Record.decode_eq_ok_iff {r : Record} :
    Record.decode bytes = .ok r ↔ bytes = r.encode ∧ Fits r.lengths := by
  have known : FrameSort.record.decode bytes = .ok (.record r) ↔ Record.decode bytes = .ok r := by
    simp [FrameSort.decode]
  rw [← known, FrameSort.decode_eq_ok_iff]
  exact (and_iff_right rfl).trans (and_congr_right' (and_iff_right r.valid))

/-- An event is read exactly if it was written. -/
theorem Event.decode_eq_ok_iff {e : Event} :
    Event.decode bytes = .ok e ↔ bytes = e.encode ∧ Fits e.record.lengths := by
  have known : FrameSort.event.decode bytes = .ok (.event e) ↔ Event.decode bytes = .ok e := by
    simp [FrameSort.decode]
  rw [← known, FrameSort.decode_eq_ok_iff]
  exact (and_iff_right rfl).trans (and_congr_right' (and_iff_right e.record.valid))

/-! ### Telling the sorts of frame apart -/

/-- The byte behind the version, which tells the sort of a frame. -/
def Frame.tag : Frame → UInt8
  | mutation m => m.kind.number
  | record _ => recordTag
  | event _ => eventTag

theorem Frame.encode_getElem? (f : Frame) : f.encode[1]? = some f.tag := by
  cases f <;> rfl

/-- The `number` of a kind of mutation is neither of the letters. -/
theorem MutationKind.number_ne_tag (k : MutationKind) :
    k.number ≠ recordTag ∧ k.number ≠ eventTag := by
  cases k <;> decide

/-- The sort of frames with some byte behind the version. -/
def FrameSort.ofTag (tag : UInt8) : FrameSort :=
  if tag = recordTag then .record else if tag = eventTag then .event else .mutation

/-- The byte behind the version stays where it is when others follow. -/
theorem FrameSort.tag_append {front more : List UInt8} {tag : UInt8}
    (told : front[1]? = some tag) : (front ++ more)[1]? = some tag := by
  rw [List.getElem?_append_left (List.getElem?_eq_some_iff.1 told).1, told]

theorem FrameSort.ofTag_number (k : MutationKind) : ofTag k.number = .mutation := by
  obtain ⟨notRecord, notEvent⟩ := k.number_ne_tag
  rw [ofTag, if_neg notRecord, if_neg notEvent]

theorem FrameDraft.exists_tag (x : FrameDraft) :
    ∃ tag, x.encode[1]? = some tag ∧ FrameSort.ofTag tag = x.sort := by
  cases x with
  | mutation m => exact ⟨m.kind.number, rfl, FrameSort.ofTag_number m.kind⟩
  | record p => exact ⟨recordTag, rfl, rfl⟩
  | event p => exact ⟨eventTag, rfl, rfl⟩

/-- A frame whose sort is not known is read as one of the sort that its second byte tells, by
`FrameSort.ofTag`. -/
theorem Frame.decode_eq_of_tag {tag : UInt8} (told : bytes[1]? = some tag) :
    Frame.decode bytes = (FrameSort.ofTag tag).decode bytes := by
  unfold decode FrameSort.ofTag
  rw [told]
  dsimp only
  split
  · rfl
  · split <;> rfl

/-- **Frames are read exactly if they were written.**  Bytes are read as a frame exactly if they are
the bytes of this frame, the frame obeys its rules, and the lengths inside it can be written. -/
theorem Frame.decode_eq_ok_iff_encode {f : Frame} :
    Frame.decode bytes = .ok f ↔ bytes = f.encode ∧ f.Valid ∧ Fits f.lengths := by
  constructor
  · intro h
    unfold decode at h
    split at h
    · split at h
      · obtain ⟨r, read, rfl⟩ := map_eq_ok_iff.1 h
        obtain ⟨written, fits⟩ := Record.decode_eq_ok_iff.1 read
        exact ⟨written, r.valid, fits⟩
      · split at h
        · obtain ⟨e, read, rfl⟩ := map_eq_ok_iff.1 h
          obtain ⟨written, fits⟩ := Event.decode_eq_ok_iff.1 read
          exact ⟨written, e.record.valid, fits⟩
        · obtain ⟨m, read, rfl⟩ := map_eq_ok_iff.1 h
          exact Mutation.decode_eq_ok_iff.1 read
    · simp only [decodeWith_eq_ok_iff, yields_bind, not_yields_refuse] at h
      obtain ⟨_, _, _, _, _, _, _, ⟨⟩⟩ := h
  · intro h
    obtain ⟨rfl, valid, fits⟩ := h
    rw [decode, f.encode_getElem?]
    cases f with
    | mutation m =>
        obtain ⟨notRecord, notEvent⟩ : (mutation m).tag ≠ recordTag ∧ (mutation m).tag ≠ eventTag :=
          m.kind.number_ne_tag
        simp only [if_neg notRecord, if_neg notEvent]
        exact map_eq_ok_iff.2 ⟨m, Mutation.decode_eq_ok_iff.2 ⟨rfl, valid, fits⟩, rfl⟩
    | record r =>
        have same : (record r).tag = recordTag := rfl
        simp only [if_pos same]
        exact map_eq_ok_iff.2 ⟨r, Record.decode_eq_ok_iff.2 ⟨rfl, fits⟩, rfl⟩
    | event e =>
        have apart : (event e).tag ≠ recordTag := show eventTag ≠ recordTag by decide
        have same : (event e).tag = eventTag := rfl
        simp only [if_neg apart, if_pos same]
        exact map_eq_ok_iff.2 ⟨e, Event.decode_eq_ok_iff.2 ⟨rfl, fits⟩, rfl⟩

end GraphLog
