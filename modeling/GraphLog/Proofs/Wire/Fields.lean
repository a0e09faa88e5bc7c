/-
**The fields of frames are read as they were written.**

Each part of a record is made of the forms of `GraphLog.Proofs.Wire.Primitive`, one behind the
other, and sorts are told apart by a tag that no other sort has.  So its reader undoes its writer
for the same reason as those of its parts, as long as the lengths inside it can be written.

Main definitions:

* `GraphLog.Value.lengths`, `GraphLog.Mutation.lengths` and their companions — the lengths that
  are written in front of something.

Main results:

* `GraphLog.Wire.undoes_slot`, `GraphLog.Wire.undoes_value` and their companions — **each reader
  undoes its writer**;
* `GraphLog.Wire.yields_mutation` — and so do the fields of a mutation whose kind is known.
-/

import GraphLog.Wire.Fields
import GraphLog.Proofs.Wire.Primitive

set_option relaxedAutoImplicit false
set_option autoImplicit false

namespace GraphLog

open Wire (textLength)

/-! ### The lengths inside a part -/

/-- The lengths inside an element. -/
def Element.lengths (e : Element) : List Nat :=
  [textLength e.id]

/-- The lengths inside a slot. -/
def Slot.lengths : Slot → List Nat
  | .existence => []
  | .property key name v => [textLength key, textLength name, textLength v.text]
  | .adjacency edge _ => [textLength edge]

/-- The lengths inside a value: only texts and bytes have one. -/
def Value.lengths : Value → List Nat
  | .text s => [textLength s]
  | .bytes b => [b.length]
  | _ => []

/-- The lengths inside a metadata entry. -/
def MetadataEntry.lengths (e : MetadataEntry) : List Nat :=
  textLength e.key :: e.value.lengths ++ [textLength e.visibility.text]

/-- The lengths inside what a vertex records about an edge. -/
def Incidence.lengths (i : Incidence) : List Nat :=
  textLength i.edge :: i.label.elim [] (fun s => [textLength s]) ++
    [textLength i.other, textLength i.visibility.text]

/-- The lengths inside endpoints, of which the last is that of the whole. -/
def Endpoints.lengths (e : Endpoints) : List Nat :=
  [textLength e.outVertex, textLength e.inVertex, textLength e.label,
    (Wire.endpointsBody e).length]

/-- **The lengths inside a mutation**, the number of its metadata entries among them. -/
def Mutation.lengths : Mutation → List Nat
  | .setValue v metadata =>
    v.lengths ++ metadata.length :: metadata.flatMap MetadataEntry.lengths
  | .attachEdge i | .detachEdge i => i.lengths
  | .hide label _ | .unhide label _ | .relabel label => [textLength label.text]
  | .setMetadata e => e.lengths
  | .dropMetadata key v => [textLength key, textLength v.text]
  | .create ends => ends.elim [] Endpoints.lengths
  | .dropValue | .softDelete _ => []

namespace Wire

open Read (Undoes)

/-! ### Tags -/

/-- **Reading a tag undoes writing it**, for anything that is told apart by a byte. -/
theorem undoes_tag {α : Type} {tag : α → UInt8} {ofTag? : UInt8 → Option α}
    {next : Nat → UInt8 → Read α} (reason : UInt8 → Corruption)
    (ofTag?_tag : ∀ x, ofTag? (tag x) = some x)
    (tag_of_ofTag? : ∀ {b x}, ofTag? b = some x → tag x = b)
    (hit : ∀ start b x, ofTag? b = some x → next start b = pure x)
    (miss : ∀ start b, ofTag? b = none → next start b = refuse start (reason b)) :
    Undoes (do next (← offset) (← byte)) (fun x => [tag x]) (fun _ => []) := by
  intro c x d
  simp only [yields_bind, yields_offset, yields_byte, fits_nil, true_and, Cursor.passes_cons,
    Cursor.passes_nil]
  constructor
  · intro h
    obtain ⟨start, _, ⟨-, rfl⟩, b, m, tagged, rest⟩ := h
    cases found : ofTag? b with
    | some y =>
        rw [hit start b y found] at rest
        obtain ⟨rfl, rfl⟩ := yields_pure.1 rest
        rw [tag_of_ofTag? found]
        exact ⟨_, tagged, rfl⟩
    | none =>
        rw [miss start b found] at rest
        exact absurd rest not_yields_refuse
  · intro h
    obtain ⟨m, tagged, rfl⟩ := h
    refine ⟨_, c, ⟨rfl, rfl⟩, tag x, _, tagged, ?_⟩
    rw [hit _ _ x (ofTag?_tag x)]
    exact yields_pure.2 ⟨rfl, rfl⟩

theorem undoes_direction : Undoes direction (fun d => [d.tag]) (fun _ => []) := by
  refine undoes_tag .directionTag Direction.ofTag?_tag Direction.tag_of_ofTag? ?_ ?_
  · intro _ _ _ found
    simp only [found]
  · intro _ _ absent
    simp only [absent]

theorem undoes_elementKind : Undoes elementKind (fun k => [k.tag]) (fun _ => []) := by
  refine undoes_tag .elementTag ElementKind.ofTag?_tag ElementKind.tag_of_ofTag? ?_ ?_
  · intro _ _ _ found
    simp only [found]
  · intro _ _ absent
    simp only [absent]

theorem undoes_mutationKind : Undoes mutationKind (fun k => [k.number]) (fun _ => []) := by
  refine undoes_tag .mutationKind MutationKind.ofNumber?_number MutationKind.number_of_ofNumber?
    ?_ ?_
  · intro _ _ _ found
    simp only [found]
  · intro _ _ absent
    simp only [absent]

/-! ### Labels, elements and slots -/

/-- A label is read by its text, which is checked again by `Visibility.ofText`. -/
theorem undoes_visibility : Undoes visibility putVisibility (fun v => [textLength v.text]) := by
  intro c v d
  simp only [visibility, yields_bind, yields_offset, undoes_text _ _ _]
  constructor
  · intro h
    obtain ⟨start, _, ⟨-, rfl⟩, s, m, passes, rest⟩ := h
    split at rest
    · next isLabel =>
        obtain ⟨rfl, rfl⟩ := yields_pure.1 rest
        rw [← Visibility.text_of_ofText isLabel] at passes
        exact passes
    · exact absurd rest not_yields_refuse
  · intro passes
    refine ⟨_, c, ⟨rfl, rfl⟩, v.text, d, passes, ?_⟩
    simp only [Visibility.ofText_text]
    exact yields_pure.2 ⟨rfl, rfl⟩

theorem undoes_element : Undoes element putElement Element.lengths := by
  intro c e d
  refine (undoes_elementKind.yields_pair undoes_text).trans ?_
  constructor
  · intro h
    obtain ⟨kind, id, rfl, written⟩ := h
    exact written
  · intro written
    exact ⟨e.kind, e.id, rfl, written⟩

/-- The letter in front tells how the slot goes on. -/
theorem undoes_slot : Undoes slot putSlot Slot.lengths := by
  intro c s d
  simp only [slot, yields_bind, yields_offset, yields_byte]
  constructor
  · intro h
    obtain ⟨start, c, ⟨-, rfl⟩, tag, m, tagged, rest⟩ := h
    have behind {bytes : List UInt8} (passes : m.Passes bytes d) : c.Passes (tag :: bytes) d :=
      Cursor.passes_cons.2 ⟨m, tagged, passes⟩
    split at rest
    · obtain ⟨rfl, rfl⟩ := yields_pure.1 rest
      exact ⟨fits_nil, behind (Cursor.passes_nil.2 rfl)⟩
    · simp only [yields_bind, yields_pure, undoes_text _ _ _, undoes_visibility _ _ _] at rest
      obtain ⟨key, m₁, ⟨keyFits, keyPasses⟩, name, m₂, ⟨nameFits, namePasses⟩, v, _,
        ⟨labelFits, labelPasses⟩, rfl, rfl⟩ := rest
      refine ⟨fits_append.2 ⟨keyFits, fits_append.2 ⟨nameFits, labelFits⟩⟩, ?_⟩
      simp only [putSlot, Cursor.passes_append]
      exact ⟨m₂, ⟨m₁, Cursor.passes_cons.2 ⟨m, tagged, keyPasses⟩, namePasses⟩, labelPasses⟩
    · obtain ⟨edge, direction, rfl, fits, passes⟩ :=
        (undoes_text.yields_pair undoes_direction).1 rest
      exact ⟨fits, behind passes⟩
    · exact absurd rest not_yields_refuse
  · intro h
    obtain ⟨fits, passes⟩ := h
    refine ⟨_, c, ⟨rfl, rfl⟩, ?_⟩
    cases s with
    | existence =>
        obtain ⟨m, tagged, rest⟩ := Cursor.passes_cons.1 passes
        exact ⟨0x58, m, tagged, yields_pure.2 ⟨rfl, Cursor.passes_nil.1 rest⟩⟩
    | property key name v =>
        simp only [putSlot, Cursor.passes_append] at passes
        obtain ⟨m₂, ⟨m₁, keyPasses, namePasses⟩, labelPasses⟩ := passes
        obtain ⟨m, tagged, keyPasses⟩ := Cursor.passes_cons.1 keyPasses
        have fits : Fits ([_] ++ ([_] ++ [_])) := fits
        obtain ⟨keyFits, nameFits, labelFits⟩ := by simpa only [fits_append] using fits
        refine ⟨0x50, m, tagged, ?_⟩
        simp only [yields_bind, yields_pure, undoes_text _ _ _, undoes_visibility _ _ _]
        exact ⟨key, m₁, ⟨keyFits, keyPasses⟩, name, m₂, ⟨nameFits, namePasses⟩, v, d,
          ⟨labelFits, labelPasses⟩, rfl, rfl⟩
    | adjacency edge direction =>
        obtain ⟨m, tagged, passes⟩ := Cursor.passes_cons.1 passes
        refine ⟨0x41, m, tagged, ?_⟩
        exact (undoes_text.yields_pair undoes_direction).2 ⟨edge, direction, rfl, fits, passes⟩

/-! ### Values and metadata -/

/-- A truth value is zero or one, and nothing else, so the reader `Undoes` the writer. -/
theorem undoes_truthValue : Undoes truthValue (fun b => [if b then 1 else 0]) (fun _ => []) := by
  intro c x d
  simp only [truthValue, yields_bind, yields_offset, yields_byte]
  constructor
  · intro h
    obtain ⟨start, _, ⟨-, rfl⟩, b, m, found, rest⟩ := h
    split at rest
    · obtain ⟨rfl, rfl⟩ := yields_pure.1 rest
      exact ⟨fits_nil, Cursor.passes_cons.2 ⟨_, found, Cursor.passes_nil.2 rfl⟩⟩
    · obtain ⟨rfl, rfl⟩ := yields_pure.1 rest
      exact ⟨fits_nil, Cursor.passes_cons.2 ⟨_, found, Cursor.passes_nil.2 rfl⟩⟩
    · exact absurd rest not_yields_refuse
  · intro h
    obtain ⟨-, passes⟩ := h
    refine ⟨_, c, ⟨rfl, rfl⟩, ?_⟩
    obtain ⟨m, found, rest⟩ := Cursor.passes_cons.1 passes
    cases x with
    | false => exact ⟨0, m, found, yields_pure.2 ⟨rfl, Cursor.passes_nil.1 rest⟩⟩
    | true => exact ⟨1, m, found, yields_pure.2 ⟨rfl, Cursor.passes_nil.1 rest⟩⟩

/-- The tag in front tells how the value goes on. -/
theorem undoes_value : Undoes value putValue Value.lengths := by
  intro c x d
  simp only [value, yields_bind, yields_offset, yields_byte]
  constructor
  · intro h
    obtain ⟨start, c, ⟨-, rfl⟩, tag, m, tagged, rest⟩ := h
    have behind {bytes : List UInt8} (passes : m.Passes bytes d) : c.Passes (tag :: bytes) d :=
      Cursor.passes_cons.2 ⟨m, tagged, passes⟩
    split at rest
    · obtain ⟨rfl, rfl⟩ := yields_pure.1 rest
      exact ⟨fits_nil, behind (Cursor.passes_nil.2 rfl)⟩
    · obtain ⟨b, rfl, fits, passes⟩ := undoes_truthValue.yields_use.1 rest
      exact ⟨fits, behind passes⟩
    · obtain ⟨n, rfl, fits, passes⟩ := undoes_int64.yields_use.1 rest
      exact ⟨fits, behind passes⟩
    · obtain ⟨x, rfl, fits, passes⟩ := undoes_double.yields_use.1 rest
      exact ⟨fits, behind passes⟩
    · obtain ⟨s, rfl, fits, passes⟩ := undoes_text.yields_use.1 rest
      exact ⟨fits, behind passes⟩
    · obtain ⟨b, rfl, fits, passes⟩ := undoes_bytes.yields_use.1 rest
      exact ⟨fits, behind passes⟩
    · obtain ⟨n, rfl, fits, passes⟩ := undoes_int64.yields_use.1 rest
      exact ⟨fits, behind passes⟩
    · obtain ⟨n, rfl, fits, passes⟩ := undoes_int64.yields_use.1 rest
      exact ⟨fits, behind passes⟩
    · exact absurd rest not_yields_refuse
  · intro h
    obtain ⟨fits, passes⟩ := h
    refine ⟨_, c, ⟨rfl, rfl⟩, ?_⟩
    cases x with
    | null =>
        obtain ⟨m, tagged, rest⟩ := Cursor.passes_cons.1 passes
        exact ⟨0, m, tagged, yields_pure.2 ⟨rfl, Cursor.passes_nil.1 rest⟩⟩
    | bool b =>
        obtain ⟨m, tagged, passes⟩ := Cursor.passes_cons.1 passes
        exact ⟨1, m, tagged, undoes_truthValue.yields_use.2 ⟨b, rfl, fits, passes⟩⟩
    | int n =>
        obtain ⟨m, tagged, passes⟩ := Cursor.passes_cons.1 passes
        exact ⟨2, m, tagged, undoes_int64.yields_use.2 ⟨n, rfl, fits, passes⟩⟩
    | float x =>
        obtain ⟨m, tagged, passes⟩ := Cursor.passes_cons.1 passes
        exact ⟨3, m, tagged, undoes_double.yields_use.2 ⟨x, rfl, fits, passes⟩⟩
    | text s =>
        obtain ⟨m, tagged, passes⟩ := Cursor.passes_cons.1 passes
        exact ⟨4, m, tagged, undoes_text.yields_use.2 ⟨s, rfl, fits, passes⟩⟩
    | bytes b =>
        obtain ⟨m, tagged, passes⟩ := Cursor.passes_cons.1 passes
        exact ⟨5, m, tagged, undoes_bytes.yields_use.2 ⟨b, rfl, fits, passes⟩⟩
    | dateTime n =>
        obtain ⟨m, tagged, passes⟩ := Cursor.passes_cons.1 passes
        exact ⟨6, m, tagged, undoes_int64.yields_use.2 ⟨n, rfl, fits, passes⟩⟩
    | date n =>
        obtain ⟨m, tagged, passes⟩ := Cursor.passes_cons.1 passes
        exact ⟨7, m, tagged, undoes_int64.yields_use.2 ⟨n, rfl, fits, passes⟩⟩

theorem undoes_entry : Undoes entry putEntry MetadataEntry.lengths := by
  intro c e d
  simp only [entry, yields_bind, yields_pure, undoes_text _ _ _, undoes_value _ _ _,
    undoes_visibility _ _ _, putEntry, Cursor.passes_append]
  constructor
  · intro h
    obtain ⟨key, m₁, ⟨keyFits, keyPasses⟩, x, m₂, ⟨valueFits, valuePasses⟩, v, _, ⟨labelFits,
      labelPasses⟩, rfl, rfl⟩ := h
    have fits := fits_append.2 ⟨fits_append.2 ⟨keyFits, valueFits⟩, labelFits⟩
    exact ⟨fits, m₂, ⟨m₁, keyPasses, valuePasses⟩, labelPasses⟩
  · intro h
    obtain ⟨fits, m₂, ⟨m₁, keyPasses, valuePasses⟩, labelPasses⟩ := h
    have fits : Fits (([_] ++ e.value.lengths) ++ [_]) := fits
    obtain ⟨⟨keyFits, valueFits⟩, labelFits⟩ := by simpa only [fits_append] using fits
    exact ⟨e.key, m₁, ⟨keyFits, keyPasses⟩, e.value, m₂, ⟨valueFits, valuePasses⟩, e.visibility, d,
      ⟨labelFits, labelPasses⟩, rfl, rfl⟩

/-- As many entries are read as are asked for. -/
theorem yields_entries {count : Nat} {c d : Cursor} {es : List MetadataEntry} :
    (entries count).Yields c es d ↔
      es.length = count ∧ Fits (es.flatMap MetadataEntry.lengths) ∧
        c.Passes (es.flatMap putEntry) d := by
  induction count generalizing c d es with
  | zero =>
      rw [entries, yields_pure, List.length_eq_zero_iff]
      constructor
      · intro h
        obtain ⟨rfl, rfl⟩ := h
        exact ⟨rfl, fits_nil, Cursor.passes_nil.2 rfl⟩
      · intro h
        obtain ⟨rfl, -, passes⟩ := h
        exact ⟨rfl, Cursor.passes_nil.1 passes⟩
  | succ count ih =>
      simp only [entries, yields_bind, yields_pure, undoes_entry _ _ _, ih]
      constructor
      · intro h
        obtain ⟨e, m, ⟨fits, passes⟩, es, _, ⟨rfl, restFit, restPass⟩, rfl, rfl⟩ := h
        refine ⟨rfl, ?_, ?_⟩
        · rw [List.flatMap_cons]
          exact fits_append.2 ⟨fits, restFit⟩
        · rw [List.flatMap_cons]
          exact Cursor.passes_append.2 ⟨m, passes, restPass⟩
      · intro h
        obtain ⟨length, fits, passes⟩ := h
        obtain ⟨e, es, rfl⟩ := List.exists_cons_of_length_eq_add_one length
        rw [List.flatMap_cons] at fits passes
        obtain ⟨fits, restFit⟩ := fits_append.1 fits
        obtain ⟨m, passes, restPass⟩ := Cursor.passes_append.1 passes
        exact ⟨e, m, ⟨fits, passes⟩, es, d, ⟨Nat.succ.inj length, restFit, restPass⟩, rfl, rfl⟩

/-- What `putEntries` writes in front of some entries is the number of how many they are, if there
is one. -/
theorem putEntries_of_lengthNumber {es : List MetadataEntry} {n : Int32}
    (written : lengthNumber es.length = .ok n) :
    putEntries es = putInt32 n ++ es.flatMap putEntry := by
  rw [putEntries, (lengthNumber_eq_ok_iff.1 written).2]

/-- The number in front of the entries is theirs, so `countedEntries` finds them all. -/
theorem undoes_countedEntries :
    Undoes countedEntries putEntries
      (fun es => es.length :: es.flatMap MetadataEntry.lengths) := by
  intro c es d
  simp only [countedEntries, yields_bind, yields_offset, undoes_int32 _ _ _, fits_nil, true_and,
    yields_ite_refuse, yields_entries]
  constructor
  · intro h
    obtain ⟨start, _, ⟨-, rfl⟩, count, m, passes, positive, length, fits, passes'⟩ := h
    obtain ⟨countFits, number⟩ := ofNat_toNat_toInt positive
    rw [← length] at countFits number
    refine ⟨fits_cons.2 ⟨countFits, fits⟩, Cursor.passes_append.2 ⟨m, ?_, passes'⟩⟩
    rw [number]
    exact passes
  · intro h
    obtain ⟨fits, passes⟩ := h
    obtain ⟨countFits, fits⟩ := fits_cons.1 fits
    obtain ⟨m, passes, passes'⟩ := Cursor.passes_append.1 passes
    have length : es.length = (Int32.ofNat es.length).toInt.toNat := by
      rw [toInt_ofNat countFits, Int.toNat_natCast]
    exact ⟨_, c, ⟨rfl, rfl⟩, _, m, passes, ofNat_not_lt countFits, length, fits, passes'⟩

/-! ### Edges -/

theorem undoes_incidence : Undoes incidence putIncidence Incidence.lengths := by
  intro c i d
  have put : putIncidence i = putText i.edge ++ ([i.direction.tag] ++ putOptionalText i.label ++
      (putText i.other ++ putVisibility i.visibility)) := by
    simp [putIncidence]
  have lengths : i.lengths = [textLength i.edge] ++ (i.label.elim [] (fun s => [textLength s]) ++
      ([textLength i.other] ++ [textLength i.visibility.text])) := rfl
  simp only [incidence, yields_bind, yields_pure, undoes_text _ _ _, undoes_direction _ _ _,
    undoes_optionalText _ _ _, undoes_visibility _ _ _, put, lengths, Cursor.passes_append,
    fits_append]
  constructor
  · intro h
    obtain ⟨edge, m₁, ⟨edgeFits, edgePasses⟩, side, m₂, ⟨-, directed⟩, label, m₃, ⟨labelFits,
      labelPasses⟩, other, m₄, ⟨otherFits, otherPasses⟩, v, _, ⟨vFits, vPasses⟩, rfl, rfl⟩ := h
    exact ⟨⟨edgeFits, labelFits, otherFits, vFits⟩, m₁, edgePasses, m₃,
      ⟨m₂, directed, labelPasses⟩, m₄, otherPasses, vPasses⟩
  · intro h
    obtain ⟨⟨edgeFits, labelFits, otherFits, vFits⟩, m₁, edgePasses, m₃, ⟨m₂, directed,
      labelPasses⟩, m₄, otherPasses, vPasses⟩ := h
    exact ⟨i.edge, m₁, ⟨edgeFits, edgePasses⟩, i.direction, m₂, ⟨fits_nil, directed⟩, i.label, m₃,
      ⟨labelFits, labelPasses⟩, i.other, m₄, ⟨otherFits, otherPasses⟩, i.visibility, d,
      ⟨vFits, vPasses⟩, rfl, rfl⟩

/-- Endpoints are read by `wholeEndpoints` from bytes of their own, which they have to fill. -/
theorem on_wholeEndpoints {body : List UInt8} {e : Endpoints} :
    (wholeEndpoints.on (.start body)).1 = .ok e ↔
      Fits [textLength e.outVertex, textLength e.inVertex, textLength e.label] ∧
        body = endpointsBody e := by
  have lengths : [textLength e.outVertex, textLength e.inVertex, textLength e.label] =
      ([textLength e.outVertex] ++ [textLength e.inVertex]) ++ [textLength e.label] := rfl
  rw [Read.on_eq_ok_iff, ← Cursor.passes_to_end, lengths]
  simp only [wholeEndpoints, yields_bind, yields_pure, yields_consumed, undoes_text _ _ _,
    endpointsBody, Cursor.passes_append, fits_append]
  constructor
  · intro h
    obtain ⟨d, out, m₁, ⟨outFits, outPasses⟩, into, m₂, ⟨intoFits, intoPasses⟩, label, m₃,
      ⟨labelFits, labelPasses⟩, -, _, ⟨last, rfl⟩, rfl, rfl⟩ := h
    exact ⟨⟨⟨outFits, intoFits⟩, labelFits⟩, _, ⟨m₂, ⟨m₁, outPasses, intoPasses⟩, labelPasses⟩,
      last⟩
  · intro h
    obtain ⟨⟨⟨outFits, intoFits⟩, labelFits⟩, d, ⟨m₂, ⟨m₁, outPasses, intoPasses⟩, labelPasses⟩,
      last⟩ := h
    exact ⟨d, e.outVertex, m₁, ⟨outFits, outPasses⟩, e.inVertex, m₂, ⟨intoFits, intoPasses⟩,
      e.label, d, ⟨labelFits, labelPasses⟩, (), d, ⟨last, rfl⟩, rfl, rfl⟩

/-- The length in front of endpoints is that of all three parts. -/
theorem undoes_endpoints : Undoes endpoints putEndpoints (·.elim [] Endpoints.lengths) := by
  intro c ends d
  simp only [endpoints, yields_bind, yields_offset, undoes_optionalBytes _ _ _]
  constructor
  · intro h
    obtain ⟨start, c, ⟨-, rfl⟩, body, m, ⟨fits, passes⟩, rest⟩ := h
    cases body with
    | none =>
        obtain ⟨rfl, rfl⟩ := yields_pure.1 rest
        exact ⟨fits_nil, passes⟩
    | some body =>
        simp only at rest
        split at rest
        · next e whole =>
            obtain ⟨rfl, rfl⟩ := yields_pure.1 rest
            obtain ⟨inner, rfl⟩ := on_wholeEndpoints.1 whole
            exact ⟨fits_append.2 ⟨inner, fits⟩, passes⟩
        · exact absurd rest not_yields_throw
  · intro h
    obtain ⟨fits, passes⟩ := h
    refine ⟨_, c, ⟨rfl, rfl⟩, ends.map endpointsBody, d, ?_⟩
    cases ends with
    | none => exact ⟨⟨fits_nil, passes⟩, yields_pure.2 ⟨rfl, rfl⟩⟩
    | some e =>
        have fits : Fits ([_, _, _] ++ [_]) := fits
        obtain ⟨inner, outer⟩ := fits_append.1 fits
        refine ⟨⟨outer, passes⟩, ?_⟩
        simp only [Option.map_some, on_wholeEndpoints.2 ⟨inner, rfl⟩]
        exact yields_pure.2 ⟨rfl, rfl⟩

/-! ### Mutations -/

/-- **The fields of a mutation of a kind are read as they were written**, and what is read is of
that kind. -/
theorem yields_mutation {kind : MutationKind} {c d : Cursor} {m : Mutation} :
    (mutation kind).Yields c m d ↔ m.kind = kind ∧ Fits m.lengths ∧ c.Passes (putMutation m) d := by
  constructor
  · intro h
    cases kind with
    | setValue =>
        obtain ⟨x, es, rfl, written⟩ := (undoes_value.yields_pair undoes_countedEntries).1 h
        exact ⟨rfl, written⟩
    | dropValue =>
        obtain ⟨rfl, rfl⟩ := yields_pure.1 h
        exact ⟨rfl, fits_nil, Cursor.passes_nil.2 rfl⟩
    | attachEdge =>
        obtain ⟨i, rfl, written⟩ := undoes_incidence.yields_use.1 h
        exact ⟨rfl, written⟩
    | detachEdge =>
        obtain ⟨i, rfl, written⟩ := undoes_incidence.yields_use.1 h
        exact ⟨rfl, written⟩
    | hide =>
        obtain ⟨v, time, rfl, written⟩ := (undoes_visibility.yields_pair undoes_optionalInt64).1 h
        exact ⟨rfl, written⟩
    | unhide =>
        obtain ⟨v, time, rfl, written⟩ := (undoes_visibility.yields_pair undoes_optionalInt64).1 h
        exact ⟨rfl, written⟩
    | softDelete =>
        obtain ⟨time, rfl, written⟩ := undoes_int64.yields_use.1 h
        exact ⟨rfl, written⟩
    | relabel =>
        obtain ⟨v, rfl, written⟩ := undoes_visibility.yields_use.1 h
        exact ⟨rfl, written⟩
    | setMetadata =>
        obtain ⟨e, rfl, written⟩ := undoes_entry.yields_use.1 h
        exact ⟨rfl, written⟩
    | dropMetadata =>
        obtain ⟨key, v, rfl, written⟩ := (undoes_text.yields_pair undoes_visibility).1 h
        exact ⟨rfl, written⟩
    | create =>
        obtain ⟨ends, rfl, written⟩ := undoes_endpoints.yields_use.1 h
        exact ⟨rfl, written⟩
  · intro h
    obtain ⟨rfl, written⟩ := h
    cases m with
    | setValue x es =>
        exact (undoes_value.yields_pair undoes_countedEntries).2 ⟨x, es, rfl, written⟩
    | dropValue => exact yields_pure.2 ⟨rfl, Cursor.passes_nil.1 written.2⟩
    | attachEdge i => exact undoes_incidence.yields_use.2 ⟨i, rfl, written⟩
    | detachEdge i => exact undoes_incidence.yields_use.2 ⟨i, rfl, written⟩
    | hide v time =>
        exact (undoes_visibility.yields_pair undoes_optionalInt64).2 ⟨v, time, rfl, written⟩
    | unhide v time =>
        exact (undoes_visibility.yields_pair undoes_optionalInt64).2 ⟨v, time, rfl, written⟩
    | softDelete time => exact undoes_int64.yields_use.2 ⟨time, rfl, written⟩
    | relabel v => exact undoes_visibility.yields_use.2 ⟨v, rfl, written⟩
    | setMetadata e => exact undoes_entry.yields_use.2 ⟨e, rfl, written⟩
    | dropMetadata key v =>
        exact (undoes_text.yields_pair undoes_visibility).2 ⟨key, v, rfl, written⟩
    | create ends => exact undoes_endpoints.yields_use.2 ⟨ends, rfl, written⟩

end Wire

end GraphLog
