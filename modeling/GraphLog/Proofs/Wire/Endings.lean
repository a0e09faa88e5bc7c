/-
**How reading a frame ends, and what damage does to a frame.**

Whatever the bytes are, reading them as a frame ends in one of four ways, and three of them can be
told from the bytes alone.  The version is looked at first, so bytes with another one are refused
for that.  Bytes that are written for the parts of some frame, checked or not, are read to the last
one; then the rules are checked, and the frame is accepted or refused by them.  All other bytes are
corrupt, and the place that is blamed is one of them, or their end.

The bytes of a frame say themselves where they end: each part carries its length in front, has a
width of its own, or is told by a tag.  So no frame starts with another one.  If some bytes of a
frame are missing at the end, or others follow, what is there is the frame of nothing; the version
in front is still the right one, and reading cannot end but in corruption.  The rules of frames are
not even asked, for this holds of frames that break them too.

Main definitions:

* `GraphLog.Frame.decodeAs` — reading a frame whose sort may be known or not;
* `GraphLog.FrameDraft.WrittenIn` — bytes are those of a frame that is not checked;
* `GraphLog.Frame.Ends` — **the four endings**.

Main results:

* `GraphLog.FrameSort.careful_rest` — the readers of frames keep to the bytes that there are;
* `GraphLog.Frame.Ends.exists_corrupt` — bytes that are those of no frame are corrupt;
* `GraphLog.Frame.Ends.of_versioned` — looking at the version first, and then going on with care;
* `GraphLog.Frame.ends_decodeAs` — **reading a frame ends in one of these ways**;
* `GraphLog.FrameDraft.eq_of_encode_isPrefix` — no frame starts with another one;
* `GraphLog.Frame.decodeAs_damaged` — **damage at the end of a frame is corruption**.
-/

import GraphLog.Proofs.Wire.Frame
import GraphLog.Proofs.Wire.Refusals

set_option relaxedAutoImplicit false
set_option autoImplicit false

namespace GraphLog

open Wire
open Read (Careful)

/-! ### Readers of frames are careful -/

namespace Wire

theorem careful_expectTag (tag : UInt8) : (expectTag tag).Careful := by
  refine .noting careful_byte fun noted found => ?_
  split
  · exact Read.carefulFrom_refuse
  · exact Read.careful_pure.from noted

theorem careful_place : place.Careful :=
  careful_element.bind fun _ => careful_slot.bind fun _ => careful_int64.bind fun _ =>
    careful_uint64.bind fun _ => careful_visibility.bind fun _ => Read.careful_pure

end Wire

namespace FrameSort

theorem careful_body (sort : FrameSort) : sort.body.Careful := by
  cases sort with
  | mutation =>
      exact careful_mutationKind.bind fun _ => (careful_mutation _).bind fun _ => Read.careful_pure
  | record =>
      exact (careful_expectTag _).bind fun _ => careful_place.bind fun _ =>
        careful_mutationKind.bind fun _ => (careful_mutation _).bind fun _ => Read.careful_pure
  | event =>
      exact (careful_expectTag _).bind fun _ => careful_mutationKind.bind fun _ =>
        careful_place.bind fun _ => (careful_mutation _).bind fun _ => Read.careful_pure

/-- What stands behind the version is read with care, to the last byte: the reader is `Careful`. -/
theorem careful_rest (sort : FrameSort) : sort.rest.Careful :=
  sort.careful_body.bind fun _ => careful_consumed.bind fun _ => Read.careful_pure

end FrameSort

/-! ### The version is looked at first -/

namespace Wire

variable {α : Type} {bytes : List UInt8} {rest : Read α}

theorem decodeWith_eq_error_iff {read : Read α} {failure : Failure} :
    decodeWith read bytes = .error failure ↔
      ∃ e, read.Fails (.start bytes) e ∧ failure = .decode e :=
  mapError_eq_error_iff

/-- Another version is refused at once, by `readVersion`. -/
theorem fails_versioned_of_head? {v : UInt8} (first : bytes.head? = some v)
    (other : v ≠ version) :
    (do readVersion; rest : Read α).Fails (.start bytes) (.unsupportedVersion v) := by
  obtain ⟨behind, rfl⟩ := List.head?_eq_some_iff.1 first
  have steps : byte.Yields (.start (v :: behind)) v ⟨1, behind⟩ := yields_byte.2 ⟨rfl, rfl⟩
  have refused : readVersion.Fails (.start (v :: behind)) (.unsupportedVersion v) := by
    refine fails_bind.2 (.inr ⟨v, _, steps, ?_⟩)
    rw [if_pos other]
    exact fails_throw.2 rfl
  exact fails_bind.2 (.inl refused)

/-- Bytes are refused for another version, or as corrupt at a place among them. -/
theorem eq_of_fails_versioned (careful : rest.Careful) {e : DecodeError}
    (fails : (do readVersion; rest : Read α).Fails (.start bytes) e) :
    (∃ v, bytes.head? = some v ∧ v ≠ version ∧ e = .unsupportedVersion v) ∨
      ∃ place reason, e = .corrupt place reason ∧ place ≤ bytes.length := by
  rcases fails_bind.1 fails with fails | ⟨_, m, yields, fails⟩
  · rcases fails_bind.1 fails with fails | ⟨v, m, yields, fails⟩
    · obtain ⟨place, reason, rfl, within⟩ := (careful_byte _).blames e fails
      rw [Cursor.limit_start] at within
      exact .inr ⟨place, reason, rfl, within⟩
    · obtain ⟨first, -⟩ := yields_byte.1 yields
      have first : bytes = v :: m.rest := first
      split at fails
      · next other =>
        refine .inl ⟨v, ?_, other, fails_throw.1 fails⟩
        rw [first]
        rfl
      · exact absurd fails not_fails_pure
  · have moved : (Cursor.start bytes).Passes [version] m :=
      Cursor.passes_singleton.2 (yields_readVersion.1 yields)
    obtain ⟨place, reason, rfl, within⟩ := (careful m).blames e fails
    rw [moved.limit_eq, Cursor.limit_start] at within
    exact .inr ⟨place, reason, rfl, within⟩

end Wire

/-! ### The four endings -/

/-- Reads a frame of a `FrameSort`, or one whose sort is not known. -/
def Frame.decodeAs : Option FrameSort → List UInt8 → Except Failure Frame
  | some sort, bytes => sort.decode bytes
  | none, bytes => Frame.decode bytes

/-- A sort is the one that is known, if one is. -/
def FrameSort.Suits (sort : FrameSort) (known : Option FrameSort) : Prop :=
  ∀ other ∈ known, sort = other

/-- **The bytes are those of a frame that is not checked**, and every length inside it is one that
can be written. -/
structure FrameDraft.WrittenIn (x : FrameDraft) (known : Option FrameSort) (bytes : List UInt8) :
    Prop where
  suits : x.sort.Suits known
  fits : Fits x.lengths
  written : bytes = x.encode

/-- **The ways in which reading a frame ends**: it is accepted, or refused by its rules, for its
version, or as corrupt. -/
structure Frame.Ends (known : Option FrameSort) (bytes : List UInt8)
    (result : Except Failure Frame) : Prop where
  /-- A frame is accepted if the bytes are those of parts that pass the checks. -/
  ok_iff : ∀ f, result = .ok f ↔ ∃ x : FrameDraft, x.WrittenIn known bytes ∧ x.check = .ok f
  /-- The rules refuse a frame if the bytes are those of parts that do not pass the checks. -/
  invalid_iff : ∀ defect, result = .error (.invalid defect) ↔
    ∃ x : FrameDraft, x.WrittenIn known bytes ∧ x.check = .error defect
  /-- A version is refused if the first byte is another one than that of the format. -/
  unsupported_iff : ∀ v, result = .error (.decode (.unsupportedVersion v)) ↔
    bytes.head? = some v ∧ v ≠ version
  /-- There is no other ending but corruption, and the place that is blamed is there. -/
  exhausted : (∃ f, result = .ok f) ∨ (∃ defect, result = .error (.invalid defect)) ∨
    (∃ v, result = .error (.decode (.unsupportedVersion v))) ∨
    ∃ place reason, result = .error (.decode (.corrupt place reason)) ∧ place ≤ bytes.length

/-- The sort that is known matters only for which parts the bytes may be `WrittenIn`. -/
theorem Frame.Ends.of_writtenIn {known known' : Option FrameSort} {bytes : List UInt8}
    {result : Except Failure Frame} (ends : Frame.Ends known bytes result)
    (same : ∀ x : FrameDraft, x.WrittenIn known bytes ↔ x.WrittenIn known' bytes) :
    Frame.Ends known' bytes result where
  ok_iff f := by simp only [ends.ok_iff, same]
  invalid_iff defect := by simp only [ends.invalid_iff, same]
  unsupported_iff := ends.unsupported_iff
  exhausted := ends.exhausted

/-- Bytes that are those of no frame are corrupt, unless they have another version. -/
theorem Frame.Ends.exists_corrupt {known : Option FrameSort} {bytes : List UInt8}
    {result : Except Failure Frame} (ends : Frame.Ends known bytes result)
    (unwritten : ∀ x : FrameDraft, ¬x.WrittenIn known bytes)
    (versioned : ∀ v ∈ bytes.head?, v = version) :
    ∃ place reason, result = .error (.decode (.corrupt place reason)) ∧ place ≤ bytes.length := by
  rcases ends.exhausted with ⟨f, accepted⟩ | ⟨defect, refused⟩ | ⟨v, unsupported⟩ | corrupt
  · obtain ⟨x, written, -⟩ := (ends.ok_iff f).1 accepted
    exact absurd written (unwritten x)
  · obtain ⟨x, written, -⟩ := (ends.invalid_iff defect).1 refused
    exact absurd written (unwritten x)
  · obtain ⟨first, other⟩ := (ends.unsupported_iff v).1 unsupported
    exact absurd (versioned v first) other
  · exact corrupt

/-- A reader that looks at the version first and then goes on with care `Ends` in these ways, if
what it reads to the end is what the bytes are written for. -/
theorem Frame.Ends.of_versioned {α : Type} {known : Option FrameSort} {bytes : List UInt8}
    {result : Except Failure Frame} {rest : Read α} (careful : rest.Careful)
    (accepts : ∀ f, result = .ok f ↔ ∃ x : FrameDraft, x.WrittenIn known bytes ∧ x.check = .ok f)
    (refuses : ∀ failure, result = .error failure ↔
      (∃ e, (do readVersion; rest : Read α).Fails (.start bytes) e ∧ failure = .decode e) ∨
        ∃ x : FrameDraft, x.WrittenIn known bytes ∧
          ∃ defect, x.check = .error defect ∧ failure = .invalid defect) :
    Frame.Ends known bytes result where
  ok_iff := accepts
  invalid_iff defect := by
    rw [refuses]
    constructor
    · rintro (⟨_, -, ⟨⟩⟩ | ⟨x, written, _, broken, ⟨⟩⟩)
      exact ⟨x, written, broken⟩
    · intro h
      obtain ⟨x, written, broken⟩ := h
      exact .inr ⟨x, written, defect, broken, rfl⟩
  unsupported_iff v := by
    rw [refuses]
    constructor
    · rintro (⟨_, fails, ⟨⟩⟩ | ⟨_, -, _, -, ⟨⟩⟩)
      rcases eq_of_fails_versioned careful fails with ⟨_, first, other, ⟨⟩⟩ | ⟨_, _, ⟨⟩, _⟩
      exact ⟨first, other⟩
    · intro h
      obtain ⟨first, other⟩ := h
      exact .inl ⟨_, fails_versioned_of_head? first other, rfl⟩
  exhausted := by
    cases ending : result with
    | ok f => exact .inl ⟨f, rfl⟩
    | error failure =>
        rcases (refuses failure).1 ending with ⟨e, fails, rfl⟩ | ⟨_, -, defect, -, rfl⟩
        · rcases eq_of_fails_versioned careful fails with
            ⟨v, -, -, rfl⟩ | ⟨place, reason, rfl, within⟩
          · exact .inr (.inr (.inl ⟨v, rfl⟩))
          · exact .inr (.inr (.inr ⟨place, reason, rfl, within⟩))
        · exact .inr (.inl ⟨defect, rfl⟩)

namespace FrameSort

variable {sort : FrameSort} {bytes : List UInt8}

theorem decodeWith_frame_eq_ok_iff {x : FrameDraft} :
    decodeWith sort.frame bytes = .ok x ↔ x.WrittenIn (some sort) bytes := by
  rw [decodeWith_frame]
  constructor
  · intro h
    obtain ⟨same, fits, written⟩ := h
    exact ⟨fun _ known => same.trans (Option.some.inj known), fits, written⟩
  · intro h
    exact ⟨h.suits sort rfl, h.fits, h.written⟩

/-- A frame is refused when it is read, or when its draft is put to `check`. -/
theorem decode_eq_error_iff {failure : Failure} :
    sort.decode bytes = .error failure ↔
      (∃ e, sort.frame.Fails (.start bytes) e ∧ failure = .decode e) ∨
        ∃ x : FrameDraft, x.WrittenIn (some sort) bytes ∧
          ∃ defect, x.check = .error defect ∧ failure = .invalid defect := by
  simp only [decode_eq, bind_eq_error_iff, decodeWith_eq_error_iff, mapError_eq_error_iff,
    decodeWith_frame_eq_ok_iff]

/-- Reading a frame of a known sort ends in one of the four ways. -/
theorem ends_decode (sort : FrameSort) (bytes : List UInt8) :
    Frame.Ends (some sort) bytes (sort.decode bytes) := by
  refine .of_versioned sort.careful_rest (fun f => ?_) fun failure => decode_eq_error_iff
  simp only [decode_eq, bind_eq_ok_iff, mapError_eq_ok_iff, decodeWith_frame_eq_ok_iff]

end FrameSort

namespace Frame

variable {bytes : List UInt8}

/-- Bytes too short to tell a sort are those of no frame. -/
theorem ends_decode_of_short (short : bytes[1]? = none) : Ends none bytes (decode bytes) := by
  have reads : decode bytes = decodeWith (do readVersion; refuse (← offset) .endsAfterVersion)
      bytes := by
    rw [decode, short]
  have unwritten {p : FrameDraft → Prop} : ¬∃ x : FrameDraft, x.WrittenIn none bytes ∧ p x := by
    rintro ⟨x, h, -⟩
    obtain ⟨tag, told, -⟩ := x.exists_tag
    rw [h.written, told] at short
    cases short
  have careful : Careful (do refuse (← offset) .endsAfterVersion : Read Frame) :=
    Read.careful_noting fun _ => Read.carefulFrom_refuse
  refine .of_versioned careful (fun f => ?_) fun failure => ?_
  · refine iff_of_false (fun h => ?_) unwritten
    rw [reads, decodeWith_eq_ok_iff] at h
    simp only [yields_bind, not_yields_refuse] at h
    obtain ⟨_, _, _, _, _, _, _, ⟨⟩⟩ := h
  · rw [reads, decodeWith_eq_error_iff]
    exact (or_iff_left unwritten).symm

/-- **Reading a frame ends in one of the four ways**, whether its sort is known or not. -/
theorem ends_decodeAs (known : Option FrameSort) (bytes : List UInt8) :
    Ends known bytes (decodeAs known bytes) := by
  cases known with
  | some sort => exact sort.ends_decode bytes
  | none =>
      cases told : bytes[1]? with
      | none => exact ends_decode_of_short told
      | some tag =>
          have ends := (FrameSort.ofTag tag).ends_decode bytes
          rw [← decode_eq_of_tag told] at ends
          refine ends.of_writtenIn fun x => ⟨fun h => ⟨nofun, h.fits, h.written⟩, fun h => ?_⟩
          obtain ⟨tag', told', same⟩ := x.exists_tag
          rw [← h.written, told] at told'
          cases told'
          exact ⟨fun _ known => same.symm.trans (Option.some.inj known), h.fits, h.written⟩

end Frame

/-! ### Frames that are cut or continued -/

namespace FrameDraft

variable {x y : FrameDraft}

/-- Frames of which one starts with the other are of one sort. -/
theorem sort_eq_of_isPrefix (front : x.encode <+: y.encode) : x.sort = y.sort := by
  obtain ⟨tag, told, same⟩ := x.exists_tag
  obtain ⟨tag', told', same'⟩ := y.exists_tag
  obtain ⟨rest, whole⟩ := front
  rw [← whole, FrameSort.tag_append told] at told'
  rw [← same, ← same', Option.some.inj told']

/-- **No frame starts with another one**, whether they obey their rules or not: the reader of one
stops where the frame ends. -/
theorem eq_of_encode_isPrefix (fits : Fits x.lengths) (fits' : Fits y.lengths)
    (front : x.encode <+: y.encode) : x = y := by
  have same := sort_eq_of_isPrefix front
  obtain ⟨rest, whole⟩ := front
  have bodies : x.body ++ rest = y.body := (List.cons.inj whole).2
  let c : Cursor := .start y.body
  have reads : x.sort.body.Yields c x ⟨0 + x.body.length, rest⟩ :=
    FrameSort.yields_body.2 ⟨rfl, fits, bodies.symm, rfl⟩
  have reads' : x.sort.body.Yields c y ⟨0 + y.body.length, []⟩ :=
    FrameSort.yields_body.2 ⟨same.symm, fits', (List.append_nil y.body).symm, rfl⟩
  cases reads.symm.trans reads'
  rfl

/-- Bytes of a frame that are cut or continued are those of no frame, by `eq_of_encode_isPrefix`. -/
theorem not_writtenIn_of_damaged {bytes : List UInt8} (fits : Fits x.lengths)
    (damaged : bytes ≠ x.encode) (comparable : bytes <+: x.encode ∨ x.encode <+: bytes)
    (known : Option FrameSort) (y : FrameDraft) : ¬y.WrittenIn known bytes := by
  intro h
  obtain ⟨-, fits', rfl⟩ := h
  rcases comparable with cut | continued
  · exact damaged (congrArg encode (eq_of_encode_isPrefix fits' fits cut))
  · exact damaged (congrArg encode (eq_of_encode_isPrefix fits fits' continued)).symm

/-- Damage at the end leaves the version as it is. -/
theorem eq_version_of_damaged {bytes : List UInt8}
    (comparable : bytes <+: x.encode ∨ x.encode <+: bytes) : ∀ v ∈ bytes.head?, v = version := by
  intro v first
  obtain ⟨behind, rfl⟩ := List.head?_eq_some_iff.1 first
  rcases comparable with cut | continued
  · exact (List.cons_prefix_cons.1 cut).1
  · exact (List.cons_prefix_cons.1 continued).1.symm

end FrameDraft

namespace Frame

/-- A frame is known by its parts, which are its `draft`. -/
theorem draft_injective {f g : Frame} (same : f.draft = g.draft) : f = g := by
  cases f with
  | mutation m =>
      cases g <;> cases same
      rfl
  | record r =>
      obtain ⟨p, valid⟩ := r
      cases g <;> cases same
      rfl
  | event e =>
      obtain ⟨p, valid⟩ := e
      cases g <;> cases same
      rfl

/-- **Damage at the end of a frame is corruption.**  No frame starts with another one; and the bytes
of a frame that are cut anywhere, or continued in any way, are refused as corrupt at some place
among them or at their end, as whatever sort of frame they are read. -/
theorem decodeAs_damaged (f : Frame) (fits : Fits f.lengths) :
    (∀ g : Frame, Fits g.lengths → g.encode <+: f.encode → g = f) ∧
      ∀ known bytes, bytes ≠ f.encode → (bytes <+: f.encode ∨ f.encode <+: bytes) →
        ∃ place reason, decodeAs known bytes = .error (.decode (.corrupt place reason)) ∧
          place ≤ bytes.length := by
  rw [← f.lengths_draft] at fits
  refine ⟨fun g fits' front => ?_, fun known bytes damaged comparable => ?_⟩
  · rw [← g.lengths_draft] at fits'
    rw [← g.encode_draft, ← f.encode_draft] at front
    exact draft_injective (FrameDraft.eq_of_encode_isPrefix fits' fits front)
  · rw [← f.encode_draft] at damaged comparable
    exact (ends_decodeAs known bytes).exists_corrupt
      (FrameDraft.not_writtenIn_of_damaged fits damaged comparable known)
      (FrameDraft.eq_version_of_damaged comparable)

/-- An edge with its endpoints, cut in front of the second vertex and continued by a zero. -/
theorem decodeAs_damaged_of_edge :
    let f : Frame := .mutation (.create (some ⟨"a", "b", "knows"⟩))
    Fits f.lengths ∧ f.encode.length = 25 ∧
      (∀ g : Frame, Fits g.lengths → g.encode <+: f.encode → g = f) ∧
      (f.encode.take 11 ≠ f.encode ∧ ∃ place reason,
        decodeAs (some .mutation) (f.encode.take 11) = .error (.decode (.corrupt place reason)) ∧
          place ≤ (f.encode.take 11).length) ∧
      (f.encode ++ [0] ≠ f.encode ∧ ∃ place reason,
        decodeAs none (f.encode ++ [0]) = .error (.decode (.corrupt place reason)) ∧
          place ≤ (f.encode ++ [0]).length) := by
  intro f
  have fits : Fits f.lengths := by decide +kernel
  have cut : f.encode.take 11 ≠ f.encode := by decide +kernel
  have continued : f.encode ++ [0] ≠ f.encode := by decide +kernel
  obtain ⟨alone, corrupt⟩ := decodeAs_damaged f fits
  exact ⟨fits, by decide +kernel, alone,
    ⟨cut, corrupt (some .mutation) _ cut (.inl (List.take_prefix 11 f.encode))⟩,
    ⟨continued, corrupt none _ continued (.inr (List.prefix_append f.encode [0]))⟩⟩

end Frame

end GraphLog
