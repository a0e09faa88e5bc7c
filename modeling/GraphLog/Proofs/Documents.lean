/-
**Records and events are read back from their documents.**

The document of a record has the documents of its parts in it: a slot and a mutation are told apart
by a member that stands among those of their fields, a value by the name of its only member, and
what is absent is written as `null`.  Each part is restored from its document, in whatever order the
members have come; so the whole is, and the rules are checked again as they were when the record was
accepted.  The same holds of events, which carry the kind of their mutation a second time: where the
two differ, or where the rules are broken, no event is read.

Main definitions:

* `GraphLog.Event.document` — the document of an event that may be none;
* `GraphLog.Event.Tells` — what the fields of an event document are read as;
* `GraphLog.Mutation.FloatFree` — no value in a mutation is a float.

Main results:

* `GraphLog.Slot.restores`, `GraphLog.Value.restores`, `GraphLog.Mutation.restores` and their
  companions — **each part is restored from its document**;
* `GraphLog.Event.ofJson_eq_ok_iff` — when an event is read from a document;
* `GraphLog.Event.ofJson_document` — an event document is judged by kind and rules;
* `GraphLog.Record.printable_toJson`, `GraphLog.Event.printable_toJson` — what has no float in it,
  a text can tell;
* `GraphLog.Event.exists_fault_of_kind`, `GraphLog.Event.exists_fault_of_check` — events that are
  refused;
* `GraphLog.documents_read_back` — **what is written is what is read**.
-/

import GraphLog.Record.Document
import GraphLog.Proofs.Json.Structure
import GraphLog.Proofs.Json.Text

set_option relaxedAutoImplicit false
set_option autoImplicit false

namespace GraphLog

open Json (Fault Members Restores Rearranged structured tagged named structured_eq_ok_iff
  restores_structured restores_named restores_nullable restores_asText restores_asInt64
  restores_asUInt64 restores_asVisibility)

/-! ### Elements and slots -/

namespace Element

theorem legible_toJson (e : Element) : e.toJson.Legible 1 := by
  simp [toJson]

theorem restores (e : Element) : Restores Element.ofJson e.toJson e := by
  refine restores_structured (n := 0) (by simp) (by simp) (by simp) fun ms carries => ?_
  have kind := carries "kind" (named Json.isNull ElementKind.ofName?)
    (restores_named (ElementKind.ofName?_name e.kind)) (by simp)
  have id := carries "id" Json.asText (restores_asText e.id) (by simp)
  exact (kind.required.map _).seq id.required

end Element

namespace Endpoints

theorem legible_toJson (e : Endpoints) : e.toJson.Legible 1 := by
  simp [toJson]

theorem restores (e : Endpoints) : Restores Endpoints.ofJson e.toJson e := by
  refine restores_structured (n := 0) (by simp) (by simp) (by simp) fun ms carries => ?_
  have out := carries "out_vertex_id" Json.asText (restores_asText e.outVertex) (by simp)
  have into := carries "in_vertex_id" Json.asText (restores_asText e.inVertex) (by simp)
  have label := carries "label" Json.asText (restores_asText e.label) (by simp)
  exact ((out.required.map _).seq into.required).seq label.required

end Endpoints

theorem Direction.restores (void : Json → Bool) (d : Direction) :
    Restores (Direction.ofDocument void) d.toJson d :=
  restores_named (Direction.ofName?_name d)

namespace Slot

theorem legible_toJson (s : Slot) : s.toJson.Legible 1 := by
  cases s <;> simp [toJson, Visibility.toJson, Direction.toJson]

/-- A slot is restored by the fields of its case. -/
theorem restores (s : Slot) : Restores Slot.ofJson s.toJson s := by
  intro j rearranged
  rw [Slot.ofJson]
  cases s with
  | existence =>
      obtain ⟨fields, sort, others⟩ :=
        Json.exists_tagged (n := 0) (by simp) (by simp) (by decide) rearranged
      rw [sort]
      refine restores_structured (n := 0) (by simp) (by simp) (by simp) (fun ms _ => ?_)
        fields others
      exact Json.Gather.gives_pure_iff.2 rfl
  | property key name v =>
      obtain ⟨fields, sort, others⟩ := Json.exists_tagged (n := 0) (by simp)
        (by simp [Visibility.toJson]) (by decide) rearranged
      rw [sort]
      refine restores_structured (n := 0) (by simp) (by simp) (by simp [Visibility.toJson])
        (fun ms carries => ?_) fields others
      have key := carries "key" Json.asText (restores_asText key) (by simp)
      have name := carries "name" Json.asText (restores_asText name) (by simp)
      have label := carries "visibility" Json.asVisibility (restores_asVisibility v) (by simp; rfl)
      exact ((key.required.map _).seq name.required).seq (label.defaulted _)
  | adjacency edge direction =>
      obtain ⟨fields, sort, others⟩ := Json.exists_tagged (n := 0) (by simp)
        (by simp [Direction.toJson]) (by decide) rearranged
      rw [sort]
      refine restores_structured (n := 0) (by simp) (by simp) (by simp [Direction.toJson])
        (fun ms carries => ?_) fields others
      have edge := carries "edge_id" Json.asText (restores_asText edge) (by simp)
      have direction := carries "direction" (Direction.ofDocument Json.isVoid)
        (direction.restores _) (by simp)
      exact (edge.required.map _).seq direction.required

end Slot

/-! ### Values and metadata -/

namespace Value

theorem legible_toJson (v : Value) : v.toJson.Legible 2 := by
  cases v <;> simp [toJson, Json.ofInt64]

/-- A value is restored by the name of its only member. -/
theorem restores (void : Json → Bool) (v : Value) :
    Restores (Value.ofDocument void) v.toJson v := by
  intro j rearranged
  cases v with
  | null =>
      rw [rearranged.text_eq]
      rfl
  | bool b =>
      obtain ⟨j, rfl, inner⟩ := rearranged.exists_only
      exact (Json.restores_asBool b).map bool j inner
  | int n =>
      obtain ⟨j, rfl, inner⟩ := rearranged.exists_only
      exact (restores_asInt64 n).map int j inner
  | float x =>
      obtain ⟨j, rfl, inner⟩ := rearranged.exists_only
      exact (Json.restores_asDouble x).map float j inner
  | text s =>
      obtain ⟨j, rfl, inner⟩ := rearranged.exists_only
      exact (restores_asText s).map text j inner
  | bytes b =>
      obtain ⟨j, rfl, inner⟩ := rearranged.exists_only
      have list : Restores (Json.asList Json.asByte)
          (.array (b.map fun byte => .integer byte.toNat)) b :=
        Json.restores_asList fun byte _ => Json.restores_asByte byte
      exact list.map bytes j inner
  | dateTime n =>
      obtain ⟨j, rfl, inner⟩ := rearranged.exists_only
      exact (restores_asInt64 n).map dateTime j inner
  | date n =>
      obtain ⟨j, rfl, inner⟩ := rearranged.exists_only
      exact (restores_asInt64 n).map date j inner

end Value

namespace MetadataEntry

theorem legible_members (e : MetadataEntry) : ∀ m ∈ e.members, m.2.Legible 2 := by
  simp [members, Visibility.toJson, e.value.legible_toJson]

theorem restores (void : Json → Bool) (e : MetadataEntry) :
    Restores (MetadataEntry.ofDocument void) e.toJson e := by
  refine restores_structured (by simp [members]) (by simp [members]) e.legible_members
    fun ms carries => ?_
  have key := carries "key" Json.asText (restores_asText e.key) (by simp [members])
  have value := carries "value" (Value.ofDocument void) (e.value.restores void) (by simp [members])
  have label := carries "visibility" Json.asVisibility (restores_asVisibility e.visibility)
    (by simp [members, Visibility.toJson])
  exact ((key.required.map _).seq value.required).seq (label.defaulted _)

end MetadataEntry

/-! ### Mutations -/

namespace Incidence

theorem legible_members (i : Incidence) : ∀ m ∈ i.members, m.2.Legible 0 := by
  cases label : i.label <;>
    simp [members, Direction.toJson, Visibility.toJson, Json.ofOption, label]

/-- What a vertex records about an edge is restored from the fields of a mutation. -/
theorem restores (i : Incidence) : Restores Incidence.ofFields (.object i.members) i := by
  refine restores_structured (by simp [members]) (by simp [members]) i.legible_members
    fun ms carries => ?_
  have edge := carries "edge_id" Json.asText (restores_asText i.edge) (by simp [members])
  have direction := carries "direction" (Direction.ofDocument Json.isVoid)
    (i.direction.restores _) (by simp [members])
  have label := carries "edge_label" (Members.nullable Json.asText)
    (restores_nullable (x := i.label) (fun s _ => restores_asText s) (by simp)) (by simp [members])
  have other := carries "other_vertex_id" Json.asText (restores_asText i.other) (by simp [members])
  have v := carries "edge_visibility" Json.asVisibility (restores_asVisibility i.visibility)
    (by simp [members, Visibility.toJson])
  exact ((((edge.required.map _).seq direction.required).seq label.optional).seq
    other.required).seq (v.defaulted _)

end Incidence

namespace Mutation

theorem legible_members (m : Mutation) : ∀ member ∈ m.members, member.2.Legible 4 := by
  cases m with
  | setValue v es =>
      have metadata : ∀ e ∈ es, e.toJson.Legible 3 :=
        fun e _ => Json.legible_object_iff.2 e.legible_members
      simpa [members] using ⟨v.legible_toJson.mono (by decide), metadata⟩
  | dropValue => simp [members]
  | attachEdge i => exact fun _ there => (i.legible_members _ there).mono (by decide)
  | detachEdge i => exact fun _ there => (i.legible_members _ there).mono (by decide)
  | hide v time => cases time <;> simp [members, Visibility.toJson, Json.ofOption, Json.ofInt64]
  | unhide v time => cases time <;> simp [members, Visibility.toJson, Json.ofOption, Json.ofInt64]
  | softDelete time => simp [members, Json.ofInt64]
  | relabel v => simp [members, Visibility.toJson]
  | setMetadata e => exact fun _ there => (e.legible_members _ there).mono (by decide)
  | dropMetadata key v => simp [members, Visibility.toJson]
  | create ends =>
      cases ends with
      | none => simp [members, Json.ofOption]
      | some e => simpa [members, Json.ofOption] using e.legible_toJson.mono (by decide)

theorem legible_toJson (m : Mutation) : m.toJson.Legible 5 :=
  Json.legible_object_iff.2 (List.forall_mem_cons.2 ⟨Json.legible_text, m.legible_members⟩)

/-- A time that may be absent is restored. -/
theorem restores_time (time : Option Int64) :
    Restores (Members.nullable Json.asInt64) (Json.ofOption Json.ofInt64 time) time :=
  restores_nullable (fun n _ => restores_asInt64 n) (by simp [Json.ofInt64])

theorem distinct_members (m : Mutation) : ("type" :: m.members.map Prod.fst).Nodup := by
  cases m <;> simp [members, Incidence.members, MetadataEntry.members]

/-- The fields of a mutation are restored as soon as each of them is. -/
theorem restores_structured_fields {names : List String} {build : Members → Json.Gather Mutation}
    (m : Mutation) (known : ∀ member ∈ m.members, member.1 ∈ names)
    (gives : ∀ ms : Members, ms.Carries m.members → (build ms).Gives m) :
    Restores (structured names build) (.object m.members) m :=
  restores_structured (List.nodup_cons.1 m.distinct_members).2 known m.legible_members gives

theorem restores_fields (m : Mutation) : Restores (ofFields m.kind) (.object m.members) m := by
  cases m with
  | setValue v es =>
      refine restores_structured_fields (.setValue v es) (by simp [members]) fun ms carries => ?_
      have value := carries "value" _ (v.restores Json.isVoid) (by simp [members])
      have entries : Restores (Json.asList (MetadataEntry.ofDocument Json.isVoid))
          (.array (es.map MetadataEntry.toJson)) es :=
        Json.restores_asList fun e _ => e.restores Json.isVoid
      have metadata := carries "metadata" _ entries (by simp [members])
      exact (value.required.map _).seq (metadata.defaulted _)
  | dropValue =>
      exact restores_structured_fields .dropValue (by simp [members])
        fun ms _ => Json.Gather.gives_pure_iff.2 rfl
  | attachEdge i => exact i.restores.map attachEdge
  | detachEdge i => exact i.restores.map detachEdge
  | hide v time =>
      refine restores_structured_fields (.hide v time) (by simp [members]) fun ms carries => ?_
      have label := carries "hide_visibility" _ (restores_asVisibility v)
        (by simp [members, Visibility.toJson])
      have time := carries "timestamp_of_hide" _ (restores_time time) (by simp [members])
      exact (label.required.map _).seq time.optional
  | unhide v time =>
      refine restores_structured_fields (.unhide v time) (by simp [members]) fun ms carries => ?_
      have label := carries "hide_visibility" _ (restores_asVisibility v)
        (by simp [members, Visibility.toJson])
      have time := carries "timestamp_of_visible" _ (restores_time time) (by simp [members])
      exact (label.required.map _).seq time.optional
  | softDelete time =>
      refine restores_structured_fields (.softDelete time) (by simp [members]) fun ms carries => ?_
      have time := carries "timestamp" _ (restores_asInt64 time) (by simp [members, Json.ofInt64])
      exact time.required.map _
  | relabel v =>
      refine restores_structured_fields (.relabel v) (by simp [members]) fun ms carries => ?_
      have label := carries "new_visibility" _ (restores_asVisibility v)
        (by simp [members, Visibility.toJson])
      exact label.required.map _
  | setMetadata e => exact (e.restores Json.isVoid).map setMetadata
  | dropMetadata key v =>
      refine restores_structured_fields (.dropMetadata key v) (by simp [members])
        fun ms carries => ?_
      have key := carries "key" _ (restores_asText key) (by simp [members])
      have label := carries "visibility" _ (restores_asVisibility v)
        (by simp [members, Visibility.toJson])
      exact (key.required.map _).seq (label.defaulted _)
  | create ends =>
      refine restores_structured_fields (.create ends) (by simp [members]) fun ms carries => ?_
      have ends := carries "edge" _
        (restores_nullable (x := ends) (fun e _ => e.restores) (by simp [Endpoints.toJson]))
        (by simp [members])
      exact ends.optional.map _

/-- A mutation is restored by the fields of its kind, the `members` besides its type. -/
theorem restores (m : Mutation) : Restores Mutation.ofJson m.toJson m := by
  intro j rearranged
  obtain ⟨fields, type, others⟩ :=
    Json.exists_tagged m.distinct_members m.legible_members (by decide) rearranged
  refine bind_eq_ok_iff.2 ⟨(m.kind.name, fields), type, ?_⟩
  simp only [MutationKind.ofName?_name]
  exact m.restores_fields fields others

/-- What is read by the fields of a kind is of that kind. -/
theorem kind_of_ofFields {kind : MutationKind} {j : Json} {m : Mutation}
    (reads : ofFields kind j = .ok m) : m.kind = kind := by
  cases kind with
  -- the fields are those of a part, read as a whole
  | attachEdge | detachEdge | setMetadata =>
      obtain ⟨part, -, rfl⟩ := map_eq_ok_iff.1 reads
      rfl
  | dropValue =>
      obtain ⟨ms, -, gives, -⟩ := structured_eq_ok_iff.1 reads
      rw [Json.Gather.gives_pure_iff.1 gives]
      rfl
  -- one field, and then two
  | softDelete | relabel | create =>
      obtain ⟨ms, -, gives, -⟩ := structured_eq_ok_iff.1 reads
      obtain ⟨field, -, rfl⟩ := Json.Gather.gives_map_iff.1 gives
      rfl
  | setValue | hide | unhide | dropMetadata =>
      obtain ⟨ms, -, gives, -⟩ := structured_eq_ok_iff.1 reads
      obtain ⟨build, last, started, -, rfl⟩ := Json.Gather.gives_seq_iff.1 gives
      obtain ⟨first, -, rfl⟩ := Json.Gather.gives_map_iff.1 started
      rfl

/-- The type of a mutation document, which `Json.tagged` splits off, is the name of its kind. -/
theorem exists_tagged_of_ofJson {j : Json} {m : Mutation} (reads : Mutation.ofJson j = .ok m) :
    ∃ fields, tagged "type" j = .ok (m.kind.name, fields) := by
  obtain ⟨⟨type, fields⟩, told, reads⟩ := bind_eq_ok_iff.1 reads
  cases known : MutationKind.ofName? type with
  | none =>
      simp only [known] at reads
      cases reads
  | some kind =>
      simp only [known] at reads
      refine ⟨fields, ?_⟩
      rw [kind_of_ofFields reads, MutationKind.name_of_ofName? known]
      exact told

end Mutation

/-! ### Records -/

theorem Draft.restores (d : Draft) : Restores Draft.ofJson d.toJson d := by
  refine restores_structured (n := 5) (by simp) (by simp) ?_ fun ms carries => ?_
  · simp [Visibility.toJson, Json.ofInt64, Json.ofUInt64, d.mutation.legible_toJson,
      d.slot.legible_toJson.mono, d.element.legible_toJson.mono]
  have element := carries "element" _ d.element.restores (by simp)
  have slot := carries "slot" _ d.slot.restores (by simp)
  have timestamp := carries "timestamp" _ (restores_asInt64 d.timestamp) (by simp [Json.ofInt64])
  have label := carries "visibility" _ (restores_asVisibility d.visibility)
    (by simp [Visibility.toJson])
  have mutation := carries "payload" _ d.mutation.restores (by simp)
  have sequence := carries "sequence" _ (restores_asUInt64 d.sequence) (by simp [Json.ofUInt64])
  exact (((((element.required.map _).seq slot.required).seq timestamp.required).seq
    (label.defaulted _)).seq mutation.required).seq (sequence.defaulted _)

/-- **A record is restored**: its fields are, and they obey the rules of `Draft.check` as before. -/
theorem Record.restores (r : Record) : Restores Record.ofJson r.toJson r := by
  intro j rearranged
  rw [Record.ofJson, r.toDraft.restores j rearranged]
  show (Record.ofDraft r.toDraft).mapError Fault.defect = _
  rw [Record.ofDraft_toDraft]
  rfl

/-! ### Events -/

namespace Event

/-- The names of the fields of an event document. -/
def fieldNames : List String :=
  ["kind", "element", "slot", "timestamp", "sequence", "visibility", "payload"]

/-- The document of an event of some kind, which is none if the kind is not that of the mutation, or
if the rules are broken.  For an event it is `Event.toJson`. -/
def document (kind : MutationKind) (d : Draft) : Json :=
  .object [("kind", .text kind.name), ("element", d.element.toJson), ("slot", d.slot.toJson),
    ("timestamp", Json.ofInt64 d.timestamp), ("sequence", Json.ofUInt64 d.sequence),
    ("visibility", d.visibility.toJson), ("payload", d.mutation.toJson)]

theorem toJson_eq_document (e : Event) : e.toJson = document e.kind e.record.toDraft := rfl

/-- **The fields of an event document are read as a kind and a draft.** -/
structure Tells (ms : Members) (kind : MutationKind) (d : Draft) : Prop where
  kind : ms.Holds "kind" (named Json.isNull MutationKind.ofName?) kind
  element : ms.Holds "element" Element.ofJson d.element
  slot : ms.Holds "slot" Slot.ofJson d.slot
  timestamp : ms.Holds "timestamp" Json.asInt64 d.timestamp
  sequence : ms.Holds "sequence" Json.asUInt64 d.sequence
  visibility : ms.Holds "visibility" Json.asVisibility d.visibility
  mutation : ms.Holds "payload" Mutation.ofJson d.mutation

/-- The fields of an event document tell one draft. -/
theorem Tells.unique {ms : Members} {kind kind' : MutationKind} {d d' : Draft}
    (told : Tells ms kind d) (told' : Tells ms kind' d') : d = d' := by
  obtain ⟨element, slot, timestamp, visibility, mutation, sequence⟩ := d
  obtain ⟨element', slot', timestamp', visibility', mutation', sequence'⟩ := d'
  obtain rfl : element = element' := told.element.unique told'.element
  obtain rfl : slot = slot' := told.slot.unique told'.slot
  obtain rfl : timestamp = timestamp' := told.timestamp.unique told'.timestamp
  obtain rfl : visibility = visibility' := told.visibility.unique told'.visibility
  obtain rfl : mutation = mutation' := told.mutation.unique told'.mutation
  obtain rfl : sequence = sequence' := told.sequence.unique told'.sequence
  rfl

/-- The fields of an event document, side by side. -/
def fields (ms : Members) : Json.Gather (MutationKind × Draft) :=
  (fun kind element slot timestamp sequence visibility mutation =>
      (kind, Draft.mk element slot timestamp visibility mutation sequence))
    <$> ms.required "kind" (named Json.isNull MutationKind.ofName?)
    <*> ms.required "element" Element.ofJson <*> ms.required "slot" Slot.ofJson
    <*> ms.required "timestamp" Json.asInt64 <*> ms.required "sequence" Json.asUInt64
    <*> ms.required "visibility" Json.asVisibility <*> ms.required "payload" Mutation.ofJson

theorem ofJson_eq (j : Json) :
    Event.ofJson j =
      (structured fieldNames fields j >>= fun (kind, d) =>
        (Event.ofDraft kind d).mapError Fault.defect) := rfl

theorem gives_fields_iff {ms : Members} {kind : MutationKind} {d : Draft} :
    (fields ms).Gives (kind, d) ↔ Tells ms kind d := by
  constructor
  · intro gives
    simp only [fields, Json.Gather.gives_seq_iff, Json.Gather.gives_map_iff,
      Members.gives_required_iff] at gives
    obtain ⟨_, m, ⟨_, v, ⟨_, n, ⟨_, t, ⟨_, s, ⟨_, e, ⟨k, kind, rfl⟩, element, rfl⟩, slot, rfl⟩,
      timestamp, rfl⟩, sequence, rfl⟩, visibility, rfl⟩, mutation, same⟩ := gives
    cases same
    exact ⟨kind, element, slot, timestamp, sequence, visibility, mutation⟩
  · intro told
    exact ((((((told.kind.required.map _).seq told.element.required).seq told.slot.required).seq
      told.timestamp.required).seq told.sequence.required).seq told.visibility.required).seq
      told.mutation.required

/-- A draft is accepted as an event if its kind is that of the mutation, and it obeys the rules. -/
theorem ofDraft_eq_ok_iff {kind : MutationKind} {d : Draft} {e : Event} :
    Event.ofDraft kind d = .ok e ↔ e.kind = kind ∧ e.record.toDraft = d := by
  rw [Event.ofDraft]
  split
  · next other =>
      constructor
      · rintro ⟨⟩
      · rintro ⟨rfl, rfl⟩
        exact absurd rfl other
  · next same =>
      have same : kind = d.mutation.kind := not_not.1 same
      rw [map_eq_ok_iff]
      constructor
      · rintro ⟨r, accepted, rfl⟩
        obtain rfl := Record.ofDraft_eq_ok_iff.1 accepted
        exact ⟨same.symm, rfl⟩
      · rintro ⟨rfl, rfl⟩
        exact ⟨e.record, Record.ofDraft_toDraft e.record, rfl⟩

/-- When an event is read from a document: it `Tells` the kind and the draft of the event, and no
member is out of place. -/
theorem ofJson_eq_ok_iff {j : Json} {e : Event} :
    Event.ofJson j = .ok e ↔ ∃ ms, Members.ofJson fieldNames j = .ok ms ∧ ms.sound.Gives () ∧
      Tells ms e.kind e.record.toDraft := by
  simp only [ofJson_eq, bind_eq_ok_iff, mapError_eq_ok_iff, structured_eq_ok_iff]
  constructor
  · rintro ⟨⟨kind, d⟩, ⟨ms, found, fields, sound⟩, accepted⟩
    obtain ⟨rfl, rfl⟩ := ofDraft_eq_ok_iff.1 accepted
    exact ⟨ms, found, sound, gives_fields_iff.1 fields⟩
  · rintro ⟨ms, found, sound, told⟩
    exact ⟨(e.kind, e.record.toDraft), ⟨ms, found, gives_fields_iff.2 told, sound⟩,
      ofDraft_eq_ok_iff.2 ⟨rfl, rfl⟩⟩

/-- The fields of an event document are restored, whether they make an event or not. -/
theorem restores_fields (kind : MutationKind) (d : Draft) :
    Restores (structured fieldNames fields) (document kind d) (kind, d) := by
  refine restores_structured (n := 5) (by simp) (by simp [fieldNames]) ?_ fun ms carries => ?_
  · simp [Visibility.toJson, Json.ofInt64, Json.ofUInt64, d.mutation.legible_toJson,
      d.slot.legible_toJson.mono, d.element.legible_toJson.mono]
  · have kind := carries "kind" (named Json.isNull MutationKind.ofName?)
      (restores_named (MutationKind.ofName?_name kind)) (by simp)
    have element := carries "element" _ d.element.restores (by simp)
    have slot := carries "slot" _ d.slot.restores (by simp)
    have timestamp := carries "timestamp" _ (restores_asInt64 d.timestamp) (by simp [Json.ofInt64])
    have sequence := carries "sequence" _ (restores_asUInt64 d.sequence) (by simp [Json.ofUInt64])
    have label := carries "visibility" _ (restores_asVisibility d.visibility)
      (by simp [Visibility.toJson])
    have mutation := carries "payload" _ d.mutation.restores (by simp)
    exact gives_fields_iff.2 ⟨kind, element, slot, timestamp, sequence, label, mutation⟩

/-- An event `document` is judged by kind and rules, in whatever order its members have come. -/
theorem ofJson_document (kind : MutationKind) (d : Draft) {j : Json}
    (rearranged : (document kind d).Rearranged j) :
    Event.ofJson j = (Event.ofDraft kind d).mapError Fault.defect := by
  rw [ofJson_eq, restores_fields kind d j rearranged]
  rfl

/-- An event is restored. -/
theorem restores (e : Event) : Restores Event.ofJson e.toJson e := by
  intro j rearranged
  rw [toJson_eq_document] at rearranged
  rw [ofJson_document e.kind e.record.toDraft rearranged, ofDraft_eq_ok_iff.2 ⟨rfl, rfl⟩]
  rfl

end Event

/-! ### Documents without floats -/

/-- The value is a machine float. -/
def Value.isFloat : Value → Bool
  | float _ => true
  | _ => false

namespace Mutation

/-- The values in a mutation. -/
def values : Mutation → List Value
  | setValue value metadata => value :: metadata.map MetadataEntry.value
  | setMetadata entry => [entry.value]
  | _ => []

/-- No value in the mutation `isFloat`. -/
def FloatFree (m : Mutation) : Prop :=
  ∀ v ∈ m.values, v.isFloat = false

instance (m : Mutation) : Decidable m.FloatFree :=
  inferInstanceAs (Decidable (∀ v ∈ m.values, v.isFloat = false))

end Mutation

section Printable

theorem Element.printable_toJson (e : Element) : e.toJson.Printable := by
  simp [toJson]

theorem Endpoints.printable_toJson (e : Endpoints) : e.toJson.Printable := by
  simp [toJson]

theorem Slot.printable_toJson (s : Slot) : s.toJson.Printable := by
  cases s <;> simp [toJson, Visibility.toJson, Direction.toJson]

theorem Value.printable_toJson {v : Value} (exact : v.isFloat = false) : v.toJson.Printable := by
  cases v with
  | float x => cases exact
  | bytes b => simp [toJson, Json.fits_byte]
  | _ => simp [toJson, Json.ofInt64]

theorem MetadataEntry.printable_members {e : MetadataEntry} (exact : e.value.isFloat = false) :
    ∀ m ∈ e.members, m.2.Printable := by
  simp [members, Visibility.toJson, Value.printable_toJson exact]

theorem Incidence.printable_members (i : Incidence) : ∀ m ∈ i.members, m.2.Printable := by
  cases label : i.label <;>
    simp [members, Direction.toJson, Visibility.toJson, Json.ofOption, label]

theorem Mutation.printable_members {m : Mutation} (exact : m.FloatFree) :
    ∀ member ∈ m.members, member.2.Printable := by
  cases m with
  | setValue v es =>
      obtain ⟨value, entries⟩ := List.forall_mem_cons.1 exact
      have metadata : ∀ e ∈ es, e.toJson.Printable := fun e there =>
        .object (MetadataEntry.printable_members (entries _ (List.mem_map_of_mem there)))
      simpa [members] using ⟨Value.printable_toJson value, metadata⟩
  | attachEdge i => exact i.printable_members
  | detachEdge i => exact i.printable_members
  | hide v time => cases time <;> simp [members, Visibility.toJson, Json.ofOption, Json.ofInt64]
  | unhide v time => cases time <;> simp [members, Visibility.toJson, Json.ofOption, Json.ofInt64]
  | setMetadata e => exact MetadataEntry.printable_members (exact _ List.mem_cons_self)
  | create ends =>
      cases ends with
      | none => simp [members, Json.ofOption]
      | some e => simpa [members, Json.ofOption] using e.printable_toJson
  | _ => simp [members, Visibility.toJson, Json.ofInt64]

theorem Mutation.printable_toJson {m : Mutation} (exact : m.FloatFree) : m.toJson.Printable :=
  .object (List.forall_mem_cons.2 ⟨.text _, printable_members exact⟩)

/-- A text can tell a record without floats. -/
theorem Record.printable_toJson {r : Record} (exact : r.mutation.FloatFree) :
    r.toJson.Printable := by
  simp [toJson, Draft.toJson, Visibility.toJson, Json.ofInt64, Json.ofUInt64,
    r.element.printable_toJson, r.slot.printable_toJson, Mutation.printable_toJson exact]

/-- A text can tell an event without floats. -/
theorem Event.printable_toJson {e : Event} (exact : e.record.mutation.FloatFree) :
    e.toJson.Printable := by
  simp [toJson, Visibility.toJson, Json.ofInt64, Json.ofUInt64,
    e.record.element.printable_toJson, e.record.slot.printable_toJson,
    Mutation.printable_toJson exact]

end Printable

/-! ### Documents that are refused -/

namespace Event

variable {j : Json} {ms : Members}

/-- A document that is not read has a fault. -/
theorem exists_fault (unread : ∀ e, Event.ofJson j ≠ .ok e) :
    ∃ fault, Event.ofJson j = .error fault := by
  cases read : Event.ofJson j with
  | error fault => exact ⟨fault, rfl⟩
  | ok e => exact absurd read (unread e)

/-- What an event document is read as, its fields say. -/
theorem tells_of_ofJson {e : Event} (found : Members.ofJson fieldNames j = .ok ms)
    (reads : Event.ofJson j = .ok e) : Tells ms e.kind e.record.toDraft := by
  obtain ⟨ms', found', -, told⟩ := ofJson_eq_ok_iff.1 reads
  rw [found] at found'
  cases found'
  exact told

/-- An event `document` is refused if it names another kind than the type of its mutation. -/
theorem exists_fault_of_kind {name type : String} {fields : Json}
    (found : Members.ofJson fieldNames j = .ok ms)
    (kind : ms.Holds "kind" (named Json.isNull some) name)
    (mutation : ms.Holds "payload" (tagged "type") (type, fields)) (other : name ≠ type) :
    ∃ fault, Event.ofJson j = .error fault := by
  refine exists_fault fun e reads => other ?_
  have told := tells_of_ofJson found reads
  have named_kind : ms.Holds "kind" (named Json.isNull some) e.kind.name := by
    obtain ⟨k, there, known⟩ := told.kind
    obtain ⟨name, named, known⟩ := Json.named_eq_ok_iff.1 known
    exact ⟨k, there, MutationKind.name_of_ofName? known ▸ named⟩
  obtain ⟨p, there, reads⟩ := told.mutation
  obtain ⟨fields', typed⟩ := Mutation.exists_tagged_of_ofJson reads
  have type_eq := mutation.unique ⟨p, there, typed⟩
  exact (kind.unique named_kind).trans (Prod.mk.inj type_eq).1.symm

/-- An event `document` is refused if its fields break the rules of `Draft.check`. -/
theorem exists_fault_of_check {kind : MutationKind} {d : Draft}
    (found : Members.ofJson fieldNames j = .ok ms) (told : Tells ms kind d)
    (broken : d.check ≠ .ok ()) : ∃ fault, Event.ofJson j = .error fault := by
  refine exists_fault fun e reads => broken ?_
  rw [told.unique (tells_of_ofJson found reads)]
  exact e.record.valid

end Event

/-! ### What is written and what is read -/

/-- **Records and events are read back from their documents**, in whatever order the members have
come, and from the texts of those, if no value is a float.  **An event document is refused** if it
names another kind than the type of its mutation, and if its fields break the rules. -/
theorem documents_read_back :
    (∀ r : Record, r.mutation.FloatFree → ∀ j, r.toJson.Rearranged j →
      Record.ofJson j = .ok r ∧ ∀ level, Record.ofText (j.pretty level) = .ok r) ∧
    (∀ e : Event, e.record.mutation.FloatFree → ∀ j, e.toJson.Rearranged j →
      Event.ofJson j = .ok e ∧ ∀ level, Json.read (j.pretty level) = (j, true)) ∧
    (∀ j ms name type fields, Members.ofJson Event.fieldNames j = .ok ms →
      ms.Holds "kind" (named Json.isNull some) name →
      ms.Holds "payload" (tagged "type") (type, fields) →
      name ≠ type → ∃ fault, Event.ofJson j = .error fault) ∧
    ∀ j ms kind d, Members.ofJson Event.fieldNames j = .ok ms → Event.Tells ms kind d →
      d.check ≠ .ok () → ∃ fault, Event.ofJson j = .error fault := by
  refine ⟨fun r exact j rearranged => ?_, fun e exact j rearranged => ?_, ?_, ?_⟩
  -- the text of a document gives the document itself, with its members in their order
  · have read := r.restores j rearranged
    have printable := rearranged.printable (Record.printable_toJson exact)
    refine ⟨read, fun level => ?_⟩
    simp only [Record.ofText, printable.read_pretty, read]
    rfl
  · have printable := rearranged.printable (Event.printable_toJson exact)
    exact ⟨e.restores j rearranged, printable.read_pretty⟩
  · exact fun j ms name type fields found kind mutation other =>
      Event.exists_fault_of_kind found kind mutation other
  · exact fun j ms kind d found told broken => Event.exists_fault_of_check found told broken

/-- A record at the ends of time and of numbers, with texts that take escapes; its event document
under another kind; and one that puts endpoints on a vertex. -/
theorem documents_read_back_of_extremes :
    let label : Visibility := ⟨"a&\"b c\"", rfl⟩
    let entry : MetadataEntry := ⟨"\t", .int Int64.minValue, label⟩
    let r : Record := ⟨⟨⟨.vertex, "v\u0001"⟩, .property "\"\\\n" "é" label, Int64.minValue,
      .unrestricted, .setValue (.bytes [0, 255]) [entry], UInt64.ofNat (UInt64.size - 1)⟩, rfl⟩
    let broken : Draft :=
      ⟨⟨.vertex, "v"⟩, .existence, 0, .unrestricted, .create (some ⟨"a", "b", "c"⟩), 0⟩
    r.mutation.FloatFree ∧
      (Record.ofJson r.toJson = .ok r ∧ Record.ofText (r.toJson.pretty 0) = .ok r) ∧
      (Event.ofJson (Event.mk r).toJson = .ok ⟨r⟩ ∧
        Json.read ((Event.mk r).toJson.pretty 0) = ((Event.mk r).toJson, true)) ∧
      (∃ fault, Event.ofJson (Event.document .dropValue r.toDraft) = .error fault) ∧
      broken.check ≠ .ok () ∧
      ∃ fault, Event.ofJson (Event.document .create broken) = .error fault := by
  intro label entry r broken
  obtain ⟨record, event, kind, check⟩ := documents_read_back
  have exact : r.mutation.FloatFree := by decide
  have invalid : broken.check ≠ .ok () := by decide
  obtain ⟨read, text⟩ := record r exact _ (.same _)
  obtain ⟨read', text'⟩ := event ⟨r⟩ exact _ (.same _)
  refine ⟨exact, ⟨read, text 0⟩, ⟨read', text' 0⟩, ?_, invalid, ?_⟩
  · exact kind _ _ "delete_property" "add_property_value" _ rfl ⟨_, rfl, rfl⟩ ⟨_, rfl, rfl⟩
      (by decide)
  · obtain ⟨ms, found, gives, -⟩ :=
      structured_eq_ok_iff.1 (Event.restores_fields .create broken _ (.same _))
    exact check _ ms _ _ found (Event.gives_fields_iff.1 gives) invalid

end GraphLog
