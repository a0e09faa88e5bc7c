/-
**A fault inside a frame is blamed where it is.**

Two parts of a frame are made of bytes that may be wrong in themselves: a label has to be a text
that can be read as a label, and endpoints are bytes of their own, which have to hold three texts
and no more.  Behind any parts of a frame that are as they should be, such a fault is what the frame
is refused for, whatever comes after it: as corrupt, at the place where the label starts, or at a
place among the bytes of the endpoints.  It makes no difference that labels have a parser of their
own, for what the parser says is the reason of a corruption; and the same goes for a label that
stands outside of a frame, beside the bytes of a mutation.

Main definitions:

* `GraphLog.Wire.Region` — the parts of a frame in which labels are, and their readers;
* `GraphLog.Wire.LabelBehind` — **the places of labels**, by the bytes in front of them;
* `GraphLog.Wire.FieldsBehind` — what stands in front of the fields of a mutation.

Main results:

* `GraphLog.Wire.LabelBehind.leads`, `GraphLog.Wire.FieldsBehind.leads` — readers come to these
  places;
* `GraphLog.RawRecord.decode_eq_error_of_visibility` — a label beside the bytes of a mutation;
* `GraphLog.Frame.decodeAs_endings` — **how reading any bytes as a frame ends**.
-/

import GraphLog.Intake
import GraphLog.Proofs.Wire.Endings

set_option relaxedAutoImplicit false
set_option autoImplicit false

namespace GraphLog

namespace Wire

open Read (Leads leads_offset leads_byte)

/-! ### The places of labels and fields -/

/-- What stands in front of the element of a record, in a frame of a `FrameSort`. -/
inductive PlaceBehind : FrameSort → List UInt8 → Prop where
  | record : PlaceBehind .record [version, recordTag]
  | event {kind : MutationKind} : PlaceBehind .event [version, eventTag, kind.number]

/-- What stands in front of the fields of a mutation of a kind, in a frame of a sort. -/
inductive FieldsBehind : FrameSort → MutationKind → List UInt8 → Prop where
  | mutation {kind : MutationKind} : FieldsBehind .mutation kind [version, kind.number]
  | record {kind : MutationKind} {p : Draft} (fits : Fits p.placeLengths) :
      FieldsBehind .record kind ([version, recordTag] ++ putPlace p ++ [kind.number])
  | event {kind : MutationKind} {p : Draft} (fits : Fits p.placeLengths) :
      FieldsBehind .event kind ([version, eventTag, kind.number] ++ putPlace p)

/-- **The parts of a frame in which labels are.** -/
inductive Region where
  | entry
  | incidence
  | place
  | fields (kind : MutationKind)
  | frame (sort : FrameSort)

namespace Region

/-- What is read of a part. -/
def Result : Region → Type
  | entry => MetadataEntry
  | incidence => Incidence
  | place => Mutation → Draft
  | fields _ => Mutation
  | frame _ => FrameDraft

/-- The reader of a `Region`. -/
def reader : (region : Region) → Read region.Result
  | entry => Wire.entry
  | incidence => Wire.incidence
  | place => Wire.place
  | fields kind => mutation kind
  | frame sort => sort.frame

end Region

/-- **A label is read behind these bytes** in a part of a frame. -/
inductive LabelBehind : Region → List UInt8 → Prop where
  | entry {key : String} {value : Value} (fits : Fits (textLength key :: value.lengths)) :
      LabelBehind .entry (putText key ++ putValue value)
  | incidence {edge other : String} {direction : Direction} {label : Option String}
      (fits : Fits ([textLength edge] ++ label.elim [] (fun s => [textLength s]) ++
        [textLength other])) :
      LabelBehind .incidence
        (putText edge ++ [direction.tag] ++ putOptionalText label ++ putText other)
  | slot {e : Element} {key name : String}
      (fits : Fits (e.lengths ++ [textLength key, textLength name])) :
      LabelBehind .place (putElement e ++ [0x50] ++ putText key ++ putText name)
  | own {e : Element} {s : Slot} {timestamp : Int64} {sequence : UInt64}
      (fits : Fits (e.lengths ++ s.lengths)) :
      LabelBehind .place (putElement e ++ putSlot s ++ putInt64 timestamp ++ putUInt64 sequence)
  | hide : LabelBehind (.fields .hide) []
  | unhide : LabelBehind (.fields .unhide) []
  | relabel : LabelBehind (.fields .relabel) []
  | dropMetadata {key : String} (fits : Fits [textLength key]) :
      LabelBehind (.fields .dropMetadata) (putText key)
  | setMetadata {front : List UInt8} (label : LabelBehind .entry front) :
      LabelBehind (.fields .setMetadata) front
  -- the label of an entry behind some others, of which more are announced
  | setValue {value : Value} {count : Nat} {before : List MetadataEntry} {front : List UInt8}
      (fits : Fits (value.lengths ++ [count] ++ before.flatMap MetadataEntry.lengths))
      (more : before.length < count) (label : LabelBehind .entry front) :
      LabelBehind (.fields .setValue)
        (putValue value ++ putInt32 (Int32.ofNat count) ++ before.flatMap putEntry ++ front)
  | attachEdge {front : List UInt8} (label : LabelBehind .incidence front) :
      LabelBehind (.fields .attachEdge) front
  | detachEdge {front : List UInt8} (label : LabelBehind .incidence front) :
      LabelBehind (.fields .detachEdge) front
  | inPlace {sort : FrameSort} {front inner : List UInt8} (behind : PlaceBehind sort front)
      (label : LabelBehind .place inner) : LabelBehind (.frame sort) (front ++ inner)
  | inFields {sort : FrameSort} {kind : MutationKind} {front inner : List UInt8}
      (behind : FieldsBehind sort kind front) (label : LabelBehind (.fields kind) inner) :
      LabelBehind (.frame sort) (front ++ inner)

/-! ### Readers come to these places -/

section Leads

variable {α β : Type} {part : Read β} {front : List UInt8}

theorem leads_readVersion {next : Unit → Read α} (leads : (next ()).Leads front part) :
    (readVersion >>= next).Leads ([version] ++ front) part :=
  Read.leads_bind (fun _ _ passes => yields_readVersion.2 (Cursor.passes_singleton.1 passes)) leads

theorem leads_expectTag {tag : UInt8} {next : Unit → Read α} (leads : (next ()).Leads front part) :
    (expectTag tag >>= next).Leads ([tag] ++ front) part :=
  Read.leads_bind (fun _ _ passes => yields_expectTag.2 (Cursor.passes_singleton.1 passes)) leads

theorem leads_mutationKind {kind : MutationKind} {next : MutationKind → Read α}
    (leads : (next kind).Leads front part) :
    (mutationKind >>= next).Leads ([kind.number] ++ front) part :=
  undoes_mutationKind.leads fits_nil leads

theorem leads_place {p : Draft} (fits : Fits p.placeLengths) {next : (Mutation → Draft) → Read α}
    (leads : ∀ complete, (next complete).Leads front part) :
    (place >>= next).Leads (putPlace p ++ front) part :=
  Read.leads_bind (fun _ _ passes => yields_place.2 ⟨p, rfl, fits, passes⟩) (leads _)

/-- Reading a frame comes to the element behind the tags: the reader `Leads` to it. -/
theorem PlaceBehind.leads {sort : FrameSort} (behind : PlaceBehind sort front) :
    sort.frame.Leads front place := by
  cases behind with
  | record => exact leads_readVersion (leads_expectTag Leads.refl.bind).bind
  | event => exact leads_readVersion (leads_expectTag (leads_mutationKind Leads.refl.bind)).bind

/-- Reading a frame comes to the fields of its mutation: the reader `Leads` to them. -/
theorem FieldsBehind.leads {sort : FrameSort} {kind : MutationKind}
    (behind : FieldsBehind sort kind front) : sort.frame.Leads front (Wire.mutation kind) := by
  cases behind with
  | mutation => exact leads_readVersion (leads_mutationKind Leads.refl.bind).bind
  | record fits =>
      rw [List.append_assoc]
      exact leads_readVersion (leads_expectTag
        (leads_place fits fun _ => leads_mutationKind Leads.refl.bind)).bind
  | event fits =>
      rw [← List.append_nil (putPlace _)]
      exact leads_readVersion (leads_expectTag
        (leads_mutationKind (leads_place fits fun _ => Leads.refl.bind))).bind

/-- Reading entries comes to one behind some others, if more are asked for. -/
theorem leads_entries {count : Nat} {before : List MetadataEntry}
    (fits : Fits (before.flatMap MetadataEntry.lengths)) (more : before.length < count) :
    (entries count).Leads (before.flatMap putEntry) entry := by
  induction before generalizing count with
  | nil =>
      obtain ⟨count, rfl⟩ := Nat.exists_eq_add_one.2 more
      exact Leads.refl.bind
  | cons e before ih =>
      obtain ⟨count, rfl⟩ := Nat.exists_eq_add_one.2 (Nat.zero_lt_of_lt more)
      obtain ⟨here, rest⟩ := fits_append.1 (List.flatMap_cons ▸ fits)
      rw [List.flatMap_cons]
      exact undoes_entry.leads here (ih rest (Nat.lt_of_succ_lt_succ more)).bind

theorem leads_countedEntries {count : Nat} {before : List MetadataEntry}
    (announced : count ≤ maxLength) (fits : Fits (before.flatMap MetadataEntry.lengths))
    (more : before.length < count) :
    countedEntries.Leads (putInt32 (Int32.ofNat count) ++ before.flatMap putEntry) entry := by
  refine leads_offset fun noted => undoes_int32.leads fits_nil ?_
  rw [if_neg (ofNat_not_lt announced), toInt_ofNat announced, Int.toNat_natCast]
  exact leads_entries fits more

/-- **Readers come to labels where these are.** -/
theorem LabelBehind.leads {region : Region} (behind : LabelBehind region front) :
    region.reader.Leads front visibility := by
  induction behind with
  | @entry key value fits =>
      obtain ⟨keyFits, valueFits⟩ := fits_cons.1 fits
      rw [← List.append_nil (putValue value)]
      exact undoes_text.leads (fits_cons.2 ⟨keyFits, fits_nil⟩)
        (undoes_value.leads valueFits Leads.refl.bind)
  | @incidence edge other direction label fits =>
      simp only [fits_append] at fits
      obtain ⟨⟨edgeFits, labelFits⟩, otherFits⟩ := fits
      rw [List.append_assoc, List.append_assoc, ← List.append_nil (putText other)]
      exact undoes_text.leads edgeFits (undoes_direction.leads fits_nil
        (undoes_optionalText.leads labelFits (undoes_text.leads otherFits Leads.refl.bind)))
  | @slot e key name fits =>
      obtain ⟨elementFits, textFits⟩ := fits_append.1 fits
      obtain ⟨keyFits, nameFits⟩ := fits_cons.1 textFits
      rw [List.append_assoc, List.append_assoc, ← List.append_nil (putText name)]
      exact undoes_element.leads elementFits (leads_offset fun _ => leads_byte
        (undoes_text.leads (fits_cons.2 ⟨keyFits, fits_nil⟩)
          (undoes_text.leads nameFits Leads.refl.bind))).bind
  | @own e s timestamp sequence fits =>
      obtain ⟨elementFits, slotFits⟩ := fits_append.1 fits
      rw [List.append_assoc, List.append_assoc, ← List.append_nil (putUInt64 sequence)]
      exact undoes_element.leads elementFits (undoes_slot.leads slotFits
        (undoes_int64.leads fits_nil (undoes_uint64.leads fits_nil Leads.refl.bind)))
  | hide => exact Leads.refl.bind
  | unhide => exact Leads.refl.bind
  | relabel => exact Leads.refl.bind
  | @dropMetadata key fits =>
      rw [← List.append_nil (putText key)]
      exact undoes_text.leads fits Leads.refl.bind
  | setMetadata _ ih => exact ih.bind
  | setValue fits more _ ih =>
      simp only [fits_append, fits_cons] at fits
      obtain ⟨⟨valueFits, announced, -⟩, entriesFit⟩ := fits
      have inside := (leads_countedEntries announced entriesFit more).trans ih
      rw [List.append_assoc, List.append_assoc, ← List.append_assoc (putInt32 _)]
      exact undoes_value.leads valueFits inside.bind
  | attachEdge _ ih => exact ih.bind
  | detachEdge _ ih => exact ih.bind
  | inPlace behind _ ih => exact behind.leads.trans ih
  | inFields behind _ ih => exact behind.leads.trans ih

end Leads

/-! ### The sort is told in front of these places -/

section Tags

variable {sort : FrameSort} {front : List UInt8}

theorem PlaceBehind.exists_tag (behind : PlaceBehind sort front) :
    ∃ tag, front[1]? = some tag ∧ FrameSort.ofTag tag = sort := by
  cases behind with
  | record => exact ⟨recordTag, rfl, rfl⟩
  | event => exact ⟨eventTag, rfl, rfl⟩

theorem FieldsBehind.exists_tag {kind : MutationKind} (behind : FieldsBehind sort kind front) :
    ∃ tag, front[1]? = some tag ∧ FrameSort.ofTag tag = sort := by
  cases behind with
  | mutation => exact ⟨kind.number, rfl, FrameSort.ofTag_number kind⟩
  | record => exact ⟨recordTag, rfl, rfl⟩
  | event => exact ⟨eventTag, rfl, rfl⟩

theorem LabelBehind.exists_tag (behind : LabelBehind (.frame sort) front) :
    ∃ tag, front[1]? = some tag ∧ FrameSort.ofTag tag = sort := by
  cases behind with
  | inPlace behind _ =>
      obtain ⟨tag, told, same⟩ := behind.exists_tag
      exact ⟨tag, FrameSort.tag_append told, same⟩
  | inFields behind _ =>
      obtain ⟨tag, told, same⟩ := behind.exists_tag
      exact ⟨tag, FrameSort.tag_append told, same⟩

end Tags

end Wire

open Wire

/-! ### Labels beside the bytes of a mutation -/

namespace RawRecord

/-- A label that is none is a corruption, also where it stands outside of a frame, in a
`RawRecord`. -/
theorem decode_eq_error_of_visibility {raw : RawRecord}
    (wrong : ∀ v : Visibility, raw.visibility ≠ Text.toBytes v.text) :
    ∃ place reason, raw.decode = .error (.decode (.corrupt place reason)) := by
  have refused : ∃ place reason,
      decodeVisibility raw.visibility = .error (.corrupt place reason) := by
    unfold decodeVisibility
    cases isText : Text.ofBytes? raw.visibility with
    | none => exact ⟨_, _, rfl⟩
    | some s =>
        cases isLabel : Visibility.ofText s with
        | ok v =>
            have written : raw.visibility = Text.toBytes s := (Text.toBytes_of_ofBytes? isText).symm
            rw [← Visibility.text_of_ofText isLabel] at written
            exact absurd written (wrong v)
        | error e => exact ⟨e.position, .label e, by simp only [isLabel]; rfl⟩
  obtain ⟨place, reason, refused⟩ := refused
  refine ⟨place, reason, ?_⟩
  rw [decode, refused]
  rfl

/-- Reading a raw record does not end in an error of the parser. -/
theorem decode_ne_parse (raw : RawRecord) (e : Label.ParseError) :
    raw.decode ≠ .error (.parse e) := by
  intro h
  simp only [decode, bind_eq_error_iff, mapError_eq_error_iff] at h
  rcases h with ⟨_, -, ⟨⟩⟩ | ⟨_, -, refused | ⟨_, -, _, -, ⟨⟩⟩⟩
  have refused : FrameSort.mutation.decode raw.mutation = .error (.parse e) := by
    rw [FrameSort.decode, refused]
    rfl
  rcases FrameSort.decode_eq_error_iff.1 refused with ⟨_, -, ⟨⟩⟩ | ⟨_, -, _, -, ⟨⟩⟩

end RawRecord

/-! ### All endings -/

namespace Frame

/-- **A fault behind the front of a frame is a fault of the frame**, where the reader `Leads` to
it. -/
theorem decodeAs_eq_of_leads {α : Type} {known : Option FrameSort} {sort : FrameSort}
    {front more : List UInt8} {part : Read α} {e : DecodeError} (suits : sort.Suits known)
    (told : ∃ tag, front[1]? = some tag ∧ FrameSort.ofTag tag = sort)
    (leads : sort.frame.Leads front part) (fails : part.Fails ⟨front.length, more⟩ e) :
    decodeAs known (front ++ more) = .error (.decode e) := by
  have passes : (Cursor.start (front ++ more)).Passes front ⟨front.length, more⟩ :=
    ⟨rfl, (Nat.zero_add front.length).symm⟩
  have refused : sort.decode (front ++ more) = .error (.decode e) :=
    FrameSort.decode_eq_error_iff.2 (.inl ⟨e, leads _ _ _ passes fails, rfl⟩)
  cases known with
  | some other =>
      cases suits other rfl
      exact refused
  | none =>
      obtain ⟨tag, told, rfl⟩ := told
      rw [decodeAs, decode_eq_of_tag (FrameSort.tag_append told), refused]

/-- **How reading any bytes as a frame ends.**  It ends in one of four ways, of which the first
three can be told from the bytes; otherwise they are corrupt at some place among them or at their
end.  Endpoints that are none are blamed among their own bytes or at the end of these, and a label
that is none is blamed where it starts; and so is the label of a raw record, whose reading does not
end in an error of the parser either. -/
theorem decodeAs_endings (known : Option FrameSort) (bytes : List UInt8) :
    Ends known bytes (decodeAs known bytes) ∧
      (∀ (sort : FrameSort) front body more, sort.Suits known → FieldsBehind sort .create front →
        body.length ≤ maxLength → (∀ ends, body ≠ endpointsBody ends) →
        bytes = front ++ (putBytes body ++ more) →
        ∃ place reason, place ≤ body.length ∧
          decodeAs known bytes = .error (.decode (.corrupt (front.length + 4 + place) reason))) ∧
      (∀ (sort : FrameSort) front behind, sort.Suits known → LabelBehind (.frame sort) front →
        (∀ (v : Visibility) more, Fits [textLength v.text] → behind ≠ putVisibility v ++ more) →
        bytes = front ++ behind →
        ∃ reason, decodeAs known bytes = .error (.decode (.corrupt front.length reason))) ∧
      ∀ raw : RawRecord,
        ((∀ v : Visibility, raw.visibility ≠ Text.toBytes v.text) →
          ∃ place reason, raw.decode = .error (.decode (.corrupt place reason))) ∧
        ∀ e, raw.decode ≠ .error (.parse e) := by
  refine ⟨ends_decodeAs known bytes, ?_, ?_, fun raw =>
    ⟨raw.decode_eq_error_of_visibility, raw.decode_ne_parse⟩⟩
  · rintro sort front body more suits behind fits wrong rfl
    have passes : (Cursor.mk front.length (putBytes body ++ more)).Passes (putBytes body)
        ⟨front.length + (putBytes body).length, more⟩ := ⟨rfl, rfl⟩
    obtain ⟨place, reason, fails, within⟩ := exists_fails_endpoints fits wrong passes
    have first : (Wire.mutation .create).Leads [] endpoints := Read.Leads.refl.bind
    have leads := behind.leads.trans first
    rw [List.append_nil] at leads
    exact ⟨place, reason, within, decodeAs_eq_of_leads suits behind.exists_tag leads fails⟩
  · rintro sort front behind suits label unlabelled rfl
    obtain ⟨reason, fails⟩ : ∃ reason,
        visibility.Fails ⟨front.length, behind⟩ (.corrupt front.length reason) :=
      exists_fails_visibility unlabelled
    exact ⟨reason, decodeAs_eq_of_leads suits label.exists_tag label.leads fails⟩

/-- Endpoints of which two texts are missing, a label that ends in an operator, and one that is not
even a text. -/
theorem decodeAs_endings_of_wrong_parts :
    let body := putText "a"
    let behind := putText "a&" ++ [0]
    let raw : RawRecord := ⟨⟨.vertex, "v"⟩, .existence, 1, [0xFF], []⟩
    let created : List UInt8 := [version, MutationKind.create.number] ++ (putBytes body ++ [7])
    let hidden : List UInt8 := [version, MutationKind.hide.number] ++ behind
    (body.length ≤ maxLength ∧ (∀ ends, body ≠ endpointsBody ends) ∧ ∃ place reason,
        place ≤ 5 ∧ decodeAs none created = .error (.decode (.corrupt (2 + 4 + place) reason))) ∧
      ((∀ (v : Visibility) more, Fits [textLength v.text] → behind ≠ putVisibility v ++ more) ∧
        ∃ reason,
          decodeAs (some .mutation) hidden = .error (.decode (.corrupt 2 reason))) ∧
      (∀ v : Visibility, raw.visibility ≠ Text.toBytes v.text) ∧
        ∃ place reason, raw.decode = .error (.decode (.corrupt place reason)) := by
  intro body behind raw created hidden
  have short : body.length ≤ maxLength := by decide +kernel
  have wrong (ends : Endpoints) : body ≠ endpointsBody ends := by
    intro same
    have lengths : body.length = (endpointsBody ends).length := congrArg List.length same
    have five : body.length = 5 := by decide +kernel
    simp only [five, endpointsBody, putText, putBytes, List.length_append, length_putInt32]
      at lengths
    omega
  have unlabelled (v : Visibility) (more : List UInt8) (fits : Fits [textLength v.text]) :
      behind ≠ putVisibility v ++ more := by
    intro same
    have refused : (visibility.on ⟨2, behind⟩).1.isOk = false := by decide +kernel
    have read : visibility.Yields ⟨2, behind⟩ v ⟨2 + (putVisibility v).length, more⟩ :=
      (undoes_visibility _ _ _).2 ⟨fits, same, rfl⟩
    rw [read] at refused
    cases refused
  have unreadable (v : Visibility) : raw.visibility ≠ Text.toBytes v.text := by
    intro same
    have refused : Text.ofBytes? raw.visibility = none := by decide +kernel
    rw [same, Text.ofBytes?_toBytes] at refused
    cases refused
  have anySort : FrameSort.mutation.Suits none := by
    rintro _ ⟨⟩
  have sameSort : FrameSort.mutation.Suits (some .mutation) := by
    rintro _ ⟨⟩
    rfl
  obtain ⟨-, blamed, -⟩ := decodeAs_endings none created
  obtain ⟨-, -, unlabelled_blamed, raws⟩ := decodeAs_endings (some .mutation) hidden
  exact ⟨⟨short, wrong, blamed .mutation _ body [7] anySort .mutation short wrong rfl⟩,
    ⟨unlabelled, unlabelled_blamed .mutation _ behind sameSort (.inFields .mutation .hide)
      unlabelled rfl⟩,
    unreadable, (raws raw).1 unreadable⟩

end Frame

end GraphLog
