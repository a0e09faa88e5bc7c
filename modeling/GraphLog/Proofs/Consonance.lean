/-
**What a ledger asks of its records.**

A ledger asks which record of each kind ranks highest, where a kind is what writes to one of its
registers, and which creation came first.  It compares few of these with one another: a deletion
with the creation, value, edge or hide that it may wipe, and a metadata entry with the value that it
belongs to.  Of the hides at a place it does not even ask which one ranks highest, but only whether
it was set or lifted last.  So two rankings of some records add up to the same as soon as they order
those records alike that meet in such a question; all others may rank as they like.

Main definitions:

* `GraphLog.RecordKind` — the kinds of records of which a ledger keeps one;
* `GraphLog.Record.Contends` — one record takes back what the other adds;
* `GraphLog.Record.Meets` — two records between which a ledger may have to decide;
* `GraphLog.Consonant` — two lists of ranked records answer the questions of a ledger alike.

Main results:

* `GraphLog.Consonant.of_pairs` — **rankings that order alike what meets are consonant**;
* `GraphLog.Consonant.agree` — **consonant lists give ledgers that agree**.
-/

import GraphLog.Proofs.Agreement

set_option relaxedAutoImplicit false
set_option autoImplicit false

namespace GraphLog

open Ranked (highest lowest write?)

/-! ### Kinds of records -/

/-- The kinds of records of which a ledger keeps one: each kind writes to one register.  Hides are
not among them. -/
inductive RecordKind where
  | creation
  | label
  | value (slot : Slot)
  | entry (place : MetadataPlace)
  | edge (slot : Slot)

/-- A record is of a kind. -/
def RecordKind.has : RecordKind → Record → Bool
  | creation => Record.isCreation
  | label => fun r => r.label?.isSome
  | value slot => fun r => (r.value? slot).isSome
  | entry place => fun r => (r.entry? place).isSome
  | edge slot => fun r => (r.edge? slot).isSome

namespace Record

/-- The record adds what a deletion can wipe: it creates its element, sets a value, attaches an edge
or hides. -/
def adds (r : Record) : Bool :=
  match r.mutation with
  | .create _ | .setValue .. | .attachEdge _ | .hide .. => true
  | _ => false

/-- A record takes back what another adds: a deletion takes back whatever `adds`, and an unhide the
hide of its label on its slot. -/
def takesBack (r s : Record) : Bool :=
  match r.mutation, s.mutation with
  | .softDelete _, _ => s.adds
  | .unhide label _, .hide label' _ => r.slot = s.slot && label = label'
  | _, _ => false

/-- Two records contend if one of them `takesBack` what the other adds. -/
def Contends (r s : Record) : Prop :=
  r.takesBack s ∨ s.takesBack r

instance (r s : Record) : Decidable (r.Contends s) :=
  inferInstanceAs (Decidable (_ ∨ _))

theorem Contends.symm {r s : Record} (contends : r.Contends s) : s.Contends r :=
  Or.symm contends

/-- **Two records between which a ledger may have to decide.** -/
inductive Meets (r s : Record) : Prop where
  /-- One takes back what the other adds. -/
  | contends (contends : r.Contends s)
  /-- Both write to one register. -/
  | kind (k : RecordKind) (left : k.has r) (right : k.has s)
  /-- Metadata belongs to a value that is no newer. -/
  | entry (place : MetadataPlace) (left : (r.entry? place).isSome)
    (right : (s.value? place.slot).isSome)

theorem adds_of_isCreation {r : Record} (creates : r.isCreation) : r.adds := by
  unfold isCreation at creates
  unfold adds
  cases m : r.mutation <;> simp_all

theorem adds_of_value? {slot : Slot} {r : Record} {value : Value}
    (sets : r.value? slot = some (some value)) : r.adds := by
  unfold value? at sets
  unfold adds
  cases m : r.mutation <;> simp_all

theorem adds_of_edge? {slot : Slot} {r : Record} {incidence : Incidence}
    (attaches : r.edge? slot = some (some incidence)) : r.adds := by
  unfold edge? at attaches
  unfold adds
  cases m : r.mutation <;> simp_all

theorem adds_of_hide? {place : HidePlace} {r : Record} (hides : r.hide? place = some true) :
    r.adds := by
  unfold hide? at hides
  unfold adds
  cases m : r.mutation <;> simp_all

theorem takesBack_of_isSoftDelete {r s : Record} (deletes : r.mutation.isSoftDelete)
    (adds : s.adds) : r.takesBack s := by
  unfold takesBack
  cases m : r.mutation with
  | softDelete => exact adds
  | _ => simp [m, Mutation.isSoftDelete] at deletes

theorem takesBack_of_hide? {place : HidePlace} {r s : Record} (lifts : r.hide? place = some false)
    (sets : s.hide? place = some true) : r.takesBack s := by
  unfold hide? at lifts sets
  unfold takesBack
  cases m : r.mutation <;> cases n : s.mutation <;> simp_all
  rw [← sets] at lifts
  exact HidePlace.mk.inj lifts

/-- Of two records that set or lift the hide at a place, one takes back what the other adds, if they
do not do the same. -/
theorem contends_of_hide?_ne {place : HidePlace} {r s : Record} (left : (r.hide? place).isSome)
    (right : (s.hide? place).isSome) (ne : r.hide? place ≠ s.hide? place) : r.Contends s := by
  obtain ⟨b, left⟩ := Option.isSome_iff_exists.1 left
  obtain ⟨c, right⟩ := Option.isSome_iff_exists.1 right
  rw [left, right] at ne
  cases b with
  | false =>
      cases c with
      | false => exact absurd rfl ne
      | true => exact .inl (takesBack_of_hide? left right)
  | true =>
      cases c with
      | false => exact .inr (takesBack_of_hide? right left)
      | true => exact absurd rfl ne

end Record

/-! ### Consonant lists -/

/-- The last deletions of two lists wipe a record of each, or neither. -/
def WipedAlike (es fs : List (Ranked Record)) (a b : Ranked Record) : Prop :=
  ∀ d d', highest (·.mutation.isSoftDelete) es = some d →
    highest (·.mutation.isSoftDelete) fs = some d' → (d.rank < a.rank ↔ d'.rank < b.rank)

/-- **Two lists of ranked records answer the questions of a ledger alike.** -/
structure Consonant (es fs : List (Ranked Record)) : Prop where
  /-- The highest-ranked records of a kind are the same, apart from their ranks, and if they add
  something it is wiped in both lists or in neither. -/
  kind : ∀ k : RecordKind, (highest k.has es = none ∧ highest k.has fs = none) ∨
    ∃ a b, highest k.has es = some a ∧ highest k.has fs = some b ∧
      a.content = b.content ∧ a.rank.time = b.rank.time ∧
      (a.content.adds → WipedAlike es fs a b)
  /-- The hide at a place was last set in both lists or lifted in both, and if it was set it is
  wiped in both or in neither. -/
  hide : ∀ place : HidePlace,
    (highest (fun r => (r.hide? place).isSome) es = none ∧
      highest (fun r => (r.hide? place).isSome) fs = none) ∨
    ∃ a b, highest (fun r => (r.hide? place).isSome) es = some a ∧
      highest (fun r => (r.hide? place).isSome) fs = some b ∧
      a.content.hide? place = b.content.hide? place ∧
      (a.content.hide? place = some true → WipedAlike es fs a b)
  /-- The last deletions take effect at one time. -/
  deleted : (highest (·.mutation.isSoftDelete) es).map (·.rank.time) =
    (highest (·.mutation.isSoftDelete) fs).map (·.rank.time)
  /-- The last records take effect at one time. -/
  latest : (highest (fun _ => true) es).map (·.rank.time) =
    (highest (fun _ => true) fs).map (·.rank.time)
  /-- The first creations that bring endpoints are the same. -/
  endpoints : (lowest (·.endpoints?.isSome) es).map (·.content) =
    (lowest (·.endpoints?.isSome) fs).map (·.content)
  /-- Some record fills the element in both lists or in neither. -/
  fills : es.any (·.content.fills) = fs.any (·.content.fills)
  /-- The same metadata is older than the value it belongs to. -/
  precedes : ∀ (place : MetadataPlace) (c a c' a' : Ranked Record),
    highest (RecordKind.entry place).has es = some c →
    highest (RecordKind.value place.slot).has es = some a →
    highest (RecordKind.entry place).has fs = some c' →
    highest (RecordKind.value place.slot).has fs = some a' →
    (c.rank < a.rank ↔ c'.rank < a'.rank)

namespace Consonant

section Pairs

variable {pairs : List (Ranked Record × Ranked Record)}

/-- A kind of which one list has no record is missing in the other. -/
theorem highest_snd_eq_none (contents : ∀ z ∈ pairs, z.1.content = z.2.content) {p : Record → Bool}
    (missing : highest p (pairs.map Prod.fst) = none) : highest p (pairs.map Prod.snd) = none := by
  refine Ranked.leading_eq_none_iff.2 fun x mem => ?_
  obtain ⟨z, hz, rfl⟩ := List.mem_map.1 mem
  rw [← contents z hz]
  exact Ranked.leading_eq_none_iff.1 missing z.1 (List.mem_map.2 ⟨z, hz, rfl⟩)

/-- The times of the highest-ranked records do not depend on the ranks. -/
theorem map_time_highest (contents : ∀ z ∈ pairs, z.1.content = z.2.content)
    (times : ∀ z ∈ pairs, z.1.rank.time = z.2.rank.time) (p : Record → Bool) :
    (highest p (pairs.map Prod.fst)).map (·.rank.time) =
      (highest p (pairs.map Prod.snd)).map (·.rank.time) := by
  cases found : highest p (pairs.map Prod.fst) with
  | none => rw [highest_snd_eq_none contents found, Option.map_none]
  | some a =>
      obtain ⟨z, hz, y, hy, rfl, found', -, -, below, above⟩ :=
        Ranked.exists_pair_of_highest contents found
      rw [found']
      have up := Rank.time_le_of_le above
      have down := Rank.time_le_of_le below
      rw [times y hy, times z hz] at down
      rw [Option.map_some, Option.map_some, times z hz, Int64.le_antisymm up down]

/-- If both rankings order alike what contends, deletions wipe the same of what `adds` something. -/
theorem wipedAlike_of_pairs (contents : ∀ z ∈ pairs, z.1.content = z.2.content)
    (order : ∀ z ∈ pairs, ∀ y ∈ pairs, z.1.content.Contends y.1.content →
      (z.1.rank < y.1.rank ↔ z.2.rank < y.2.rank))
    {w : Ranked Record × Ranked Record} (mem : w ∈ pairs) (adds : w.1.content.adds) :
    WipedAlike (pairs.map Prod.fst) (pairs.map Prod.snd) w.1 w.2 := by
  intro d d' del del'
  obtain ⟨z, hz, y, hy, rfl, found, deletes, deletes', below, above⟩ :=
    Ranked.exists_pair_of_highest contents del
  obtain rfl : y.2 = d' := Option.some_inj.1 (found.symm.trans del')
  constructor
  · intro lt
    exact (order y hy w mem (.inl (Record.takesBack_of_isSoftDelete deletes' adds))).1
      (lt_of_le_of_lt below lt)
  · intro lt
    exact (order z hz w mem (.inl (Record.takesBack_of_isSoftDelete deletes adds))).2
      (lt_of_le_of_lt above lt)

/-- If both rankings order alike what contends, the hide at a place was last set in both or lifted
in both. -/
theorem hide_of_pairs (contents : ∀ z ∈ pairs, z.1.content = z.2.content)
    (apart : ∀ z ∈ pairs, ∀ y ∈ pairs, z.1.rank = y.1.rank → z = y)
    (order : ∀ z ∈ pairs, ∀ y ∈ pairs, z.1.content.Contends y.1.content →
      (z.1.rank < y.1.rank ↔ z.2.rank < y.2.rank)) (place : HidePlace) :
    (highest (fun r => (r.hide? place).isSome) (pairs.map Prod.fst) = none ∧
      highest (fun r => (r.hide? place).isSome) (pairs.map Prod.snd) = none) ∨
    ∃ a b, highest (fun r => (r.hide? place).isSome) (pairs.map Prod.fst) = some a ∧
      highest (fun r => (r.hide? place).isSome) (pairs.map Prod.snd) = some b ∧
      a.content.hide? place = b.content.hide? place ∧
      (a.content.hide? place = some true →
        WipedAlike (pairs.map Prod.fst) (pairs.map Prod.snd) a b) := by
  cases found : highest (fun r => (r.hide? place).isSome) (pairs.map Prod.fst) with
  | none => exact .inl ⟨rfl, highest_snd_eq_none contents found⟩
  | some a =>
      obtain ⟨z, hz, y, hy, rfl, found', left, right, below, above⟩ :=
        Ranked.exists_pair_of_highest contents found
      have same : z.1.content.hide? place = y.1.content.hide? place := by
        by_contra ne
        -- two that contend lead the two lists, so neither outranks the other
        have contends := Record.contends_of_hide?_ne left right ne
        have notBelow := mt (order y hy z hz contends.symm).1 (not_lt_of_ge above)
        obtain rfl := apart y hy z hz (le_antisymm below (le_of_not_gt notBelow))
        exact ne rfl
      refine .inr ⟨z.1, y.2, rfl, found', contents y hy ▸ same, fun sets => ?_⟩
      intro d d' del del'
      have outer := wipedAlike_of_pairs contents order hz (Record.adds_of_hide? sets) d d' del del'
      have inner := wipedAlike_of_pairs contents order hy
        (Record.adds_of_hide? (same.symm.trans sets)) d d' del del'
      constructor
      · intro lt
        exact lt_of_lt_of_le (outer.1 lt) above
      · intro lt
        exact lt_of_lt_of_le (inner.2 lt) below

/-- **Two rankings of the same records that order alike what meets are consonant.** -/
theorem of_pairs (contents : ∀ z ∈ pairs, z.1.content = z.2.content)
    (times : ∀ z ∈ pairs, z.1.rank.time = z.2.rank.time)
    (apart : ∀ z ∈ pairs, ∀ y ∈ pairs, z.1.rank = y.1.rank → z = y)
    (order : ∀ z ∈ pairs, ∀ y ∈ pairs, z.1.content.Meets y.1.content →
      (z.1.rank < y.1.rank ↔ z.2.rank < y.2.rank)) :
    Consonant (pairs.map Prod.fst) (pairs.map Prod.snd) := by
  -- among records of one kind both rankings agree, so the same record leads
  have leads (k : RecordKind) := Ranked.leading_pairs (· > ·) k.has contents
    fun z hz y hy left right => order y hy z hz (.kind k right left)
  have contending : ∀ z ∈ pairs, ∀ y ∈ pairs, z.1.content.Contends y.1.content →
      (z.1.rank < y.1.rank ↔ z.2.rank < y.2.rank) :=
    fun z hz y hy contends => order z hz y hy (.contends contends)
  exact {
    kind := by
      intro k
      obtain ⟨winner, mem, left, right⟩ := leads k
      cases winner with
      | none => exact .inl ⟨left, right⟩
      | some z =>
          have hz := mem z rfl
          exact .inr ⟨z.1, z.2, left, right, contents z hz, times z hz,
            wipedAlike_of_pairs contents contending hz⟩
    hide := hide_of_pairs contents apart contending
    deleted := map_time_highest contents times _
    latest := map_time_highest contents times _
    endpoints := by
      refine Ranked.map_content_leading_pairs (· < ·) (·.endpoints?.isSome) contents ?_
      intro z hz y hy left right
      exact order z hz y hy (.kind .creation (Record.isCreation_of_endpoints left)
        (Record.isCreation_of_endpoints right))
    fills := by
      have same := congrArg Option.isSome (map_time_highest contents times Record.fills)
      rw [Option.isSome_map, Option.isSome_map] at same
      rw [Ranked.any_eq_isSome_highest, Ranked.any_eq_isSome_highest, same]
    precedes := by
      intro place c a c' a' entry value entry' value'
      obtain ⟨winner, mem, left, right⟩ := leads (.entry place)
      obtain ⟨u, rfl, rfl⟩ := Option.map_eq_some_iff.1 (left.symm.trans entry)
      obtain rfl : u.2 = c' := Option.some_inj.1 (right.symm.trans entry')
      obtain ⟨winner, mem', left, right⟩ := leads (.value place.slot)
      obtain ⟨w, rfl, rfl⟩ := Option.map_eq_some_iff.1 (left.symm.trans value)
      obtain rfl : w.2 = a' := Option.some_inj.1 (right.symm.trans value')
      exact order u (mem u rfl) w (mem' w rfl) (.entry place
        (Ranked.isHighest_of_highest entry).has (Ranked.isHighest_of_highest value).has) }

end Pairs

variable {es fs : List (Ranked Record)} (same : Consonant es fs)

include same

/-- The last deletions: none in either list, or one in each, which take effect at one time. -/
theorem deletion :
    (highest (·.mutation.isSoftDelete) es = none ∧ highest (·.mutation.isSoftDelete) fs = none) ∨
      ∃ d d', highest (·.mutation.isSoftDelete) es = some d ∧
        highest (·.mutation.isSoftDelete) fs = some d' ∧ d.rank.time = d'.rank.time := by
  have times := same.deleted
  cases left : highest (·.mutation.isSoftDelete) es with
  | none =>
      rw [left] at times
      exact .inl ⟨rfl, Option.map_eq_none_iff.1 times.symm⟩
  | some d =>
      rw [left] at times
      obtain ⟨d', right, time⟩ := Option.map_eq_some_iff.1 times.symm
      exact .inr ⟨d, d', rfl, right, time.symm⟩

/-- A write of two ranks that are `WipedAlike` is wiped by a deletion in both ledgers or in
neither. -/
theorem survives_eq {a b : Ranked Record} (alike : WipedAlike es fs a b) :
    (Ledger.ofRecords es).survives a.rank = (Ledger.ofRecords fs).survives b.rank := by
  unfold Ledger.survives
  rw [Ledger.deleted_ofRecords, Ledger.deleted_ofRecords]
  rcases same.deletion with ⟨none, none'⟩ | ⟨d, d', some, some', -⟩
  · rw [none, none']
    rfl
  · rw [some, some']
    exact Bool.eq_iff_iff.2 (alike d d' some some')

/-- What stands in a register is the same in both ledgers, apart from its rank. -/
theorem dated_stands {α : Type} (k : RecordKind) {f : Record → Option (Option α)}
    (writes : k.has = fun r => (f r).isSome)
    (adds : ∀ {r : Record} {a : α}, f r = some (some a) → r.adds) :
    (((highest (fun r => (f r).isSome) es).bind (write? f)).bind
        (Ledger.ofRecords es).stands).map Ranked.dated =
      (((highest (fun r => (f r).isSome) fs).bind (write? f)).bind
        (Ledger.ofRecords fs).stands).map Ranked.dated := by
  rw [← writes]
  rcases same.kind k with ⟨none, none'⟩ | ⟨a, b, left, right, content, time, wiped⟩
  · rw [none, none']
    rfl
  · rw [left, right]
    rw [content] at wiped
    simp only [Option.bind_some, write?, content]
    cases written : f b.content with
    | none => rfl
    | some write =>
        cases write with
        | none => simp [Ledger.stands]
        | some value =>
            simp only [Option.map_some, Option.bind_some, Ledger.stands,
              same.survives_eq (wiped (adds written))]
            split
            · simp [Ranked.dated, time]
            · rfl

theorem isDeleted_eq : (Ledger.ofRecords es).isDeleted = (Ledger.ofRecords fs).isDeleted := by
  unfold Ledger.isDeleted
  simp only [Ledger.deleted_ofRecords, Ledger.created_ofRecords]
  rcases same.deletion with ⟨none, none'⟩ | ⟨d, d', some, some', -⟩
  · rw [none, none']
    rfl
  · rcases same.kind .creation with ⟨none, none'⟩ | ⟨c, c', some₂, some₂', -, -, wiped⟩
    · simp only [RecordKind.has] at none none'
      rw [some, some', none, none']
      rfl
    · have creates : c.content.isCreation := (Ranked.isHighest_of_highest some₂).has
      have wiped := wiped (Record.adds_of_isCreation creates) d d' some some'
      simp only [RecordKind.has] at some₂ some₂'
      rw [some, some', some₂, some₂']
      exact congrArg not (Bool.eq_iff_iff.2 wiped)

theorem hideStands_eq (place : HidePlace) :
    (Ledger.ofRecords es).hideStands place = (Ledger.ofRecords fs).hideStands place := by
  unfold Ledger.hideStands
  rw [Ledger.hides_ofRecords, Ledger.hides_ofRecords]
  rcases same.hide place with ⟨none, none'⟩ | ⟨a, b, left, right, alike, wiped⟩
  · rw [none, none']
    rfl
  · rw [left, right]
    rw [alike] at wiped
    simp only [Option.bind_some, write?, alike]
    cases written : b.content.hide? place with
    | none => rfl
    | some hides =>
        cases hides with
        | false => simp
        | true => simp [same.survives_eq (wiped written)]

/-- What is left of metadata is the same, given the records whose values it belongs to. -/
theorem dated_entrySince {place : MetadataPlace} {a b : Ranked Record}
    (left : highest (RecordKind.value place.slot).has es = some a)
    (right : highest (RecordKind.value place.slot).has fs = some b) :
    (((Ledger.ofRecords es).metadata[place]?.bind (Ledger.entrySince a.rank)).map Ranked.dated) =
      (((Ledger.ofRecords fs).metadata[place]?.bind (Ledger.entrySince b.rank)).map
        Ranked.dated) := by
  rw [Ledger.metadata_ofRecords, Ledger.metadata_ofRecords]
  rcases same.kind (.entry place) with ⟨none, none'⟩ | ⟨c, d, some, some', content, time, -⟩
  · simp only [RecordKind.has] at none none'
    rw [none, none']
    rfl
  · have below : c.rank.isBelow a.rank = d.rank.isBelow b.rank :=
      Bool.eq_iff_iff.2 (same.precedes place c a d b some left some' right)
    simp only [RecordKind.has] at some some'
    rw [some, some']
    simp only [Option.bind_some, write?, content]
    cases Record.entry? place d.content with
    | none => rfl
    | some write =>
        simp only [Option.map_some, Option.bind_some, Ledger.entrySince, below]
        split
        · rfl
        · cases write <;> simp [Ranked.dated, time]

theorem standingEntry_eq (place : MetadataPlace) :
    ((Ledger.ofRecords es).standingEntry place).map Ranked.dated =
      ((Ledger.ofRecords fs).standingEntry place).map Ranked.dated := by
  unfold Ledger.standingEntry Ledger.standing
  rw [Ledger.values_ofRecords, Ledger.values_ofRecords]
  rcases same.kind (.value place.slot) with ⟨none, none'⟩ | ⟨a, b, left, right, content, -, wiped⟩
  · simp only [RecordKind.has] at none none'
    rw [none, none']
    rfl
  · have since := same.dated_entrySince left right
    simp only [RecordKind.has] at left right
    rw [left, right]
    rw [content] at wiped
    simp only [Option.bind_some, write?, content]
    cases written : Record.value? place.slot b.content with
    | none => rfl
    | some write =>
        cases write with
        | none => simp [Ledger.stands]
        | some value =>
            simp only [Option.map_some, Option.bind_some, Ledger.stands,
              same.survives_eq (wiped (Record.adds_of_value? written))]
            split
            · exact since
            · rfl

/-- Consonant lists give ledgers that `Agree`. -/
theorem agree : (Ledger.ofRecords es).Agree (Ledger.ofRecords fs) where
  lastModified := by
    rw [Ledger.lastModified_ofRecords, Ledger.lastModified_ofRecords, same.latest]
  endpoints := by
    rw [Ledger.endpoints_ofRecords, Ledger.endpoints_ofRecords, Ranked.content_bind_write?,
      Ranked.content_bind_write?, same.endpoints]
  visibility := by
    rw [Ledger.visibility_ofRecords, Ledger.visibility_ofRecords]
    rcases same.kind .label with ⟨none, none'⟩ | ⟨a, b, left, right, content, -⟩
    · simp only [RecordKind.has] at none none'
      rw [none, none']
    · simp only [RecordKind.has] at left right
      rw [left, right, Option.bind_some, Option.bind_some, write?, write?, content]
      cases b.content.label? <;> rfl
  constructive := by
    rw [Ledger.constructive_ofRecords, Ledger.constructive_ofRecords, same.fills]
  isDeleted := same.isDeleted_eq
  deletedAt _ := by
    rw [Ledger.deleted_ofRecords, Ledger.deleted_ofRecords, Option.map_map, Option.map_map]
    exact same.deleted
  hides := same.hideStands_eq
  values slot := by
    unfold Ledger.standing
    rw [Ledger.values_ofRecords, Ledger.values_ofRecords]
    exact same.dated_stands (.value slot) rfl Record.adds_of_value?
  entries := same.standingEntry_eq
  edges slot := by
    unfold Ledger.standingEdge
    rw [Ledger.edges_ofRecords, Ledger.edges_ofRecords]
    exact same.dated_stands (.edge slot) rfl Record.adds_of_edge?

end Consonant

end GraphLog
