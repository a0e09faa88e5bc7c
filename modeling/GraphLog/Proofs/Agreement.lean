/-
**When two ledgers show the same.**

Two ledgers may hold different ranks, and even different writes, and still show every caller the
same state: of the registers only that counts which no deletion wiped, and of the ranks only the
time and how they compare.  This module says what counts, and that nothing else does.

Main definitions:

* `GraphLog.Ledger.standing`, `GraphLog.Ledger.standingEdge`, `GraphLog.Ledger.standingEntry`,
  `GraphLog.Ledger.hideStands` — what is left of values, edges, metadata and hides;
* `GraphLog.Ledger.Agree` — two ledgers have the same left.

Main results:

* `GraphLog.Ledger.Agree.stateFor_eq` — **ledgers that agree show the same state**.
-/

import GraphLog.Proofs.Resolution

set_option relaxedAutoImplicit false
set_option autoImplicit false

namespace GraphLog

/-- Registers that read alike under each key give the same list. -/
theorem Registers.filterMap_toList_congr {κ α β γ : Type} [Ord κ] [Std.TransOrd κ]
    [Std.LawfulEqOrd κ] {s : Registers κ α} {t : Registers κ β} {f : κ × Ranked α → Option γ}
    {g : κ × Ranked β → Option γ}
    (h : ∀ k, s[k]?.bind (fun w => f (k, w)) = t[k]?.bind fun w => g (k, w)) :
    s.toList.filterMap f = t.toList.filterMap g := by
  have maps : s.filterMap (fun k w => f (k, w)) = t.filterMap fun k w => g (k, w) := by
    refine Std.ExtTreeMap.ext_getElem? fun k => ?_
    rw [Std.ExtTreeMap.getElem?_filterMap', Std.ExtTreeMap.getElem?_filterMap']
    exact h k
  have lists := congrArg (fun m => m.toList.map Prod.snd) maps
  simpa [Std.ExtTreeMap.toList_filterMap, List.map_filterMap, Function.comp_def] using lists

/-- A content and when it took effect. -/
def Ranked.dated {α : Type} (w : Ranked α) : α × Int64 :=
  (w.content, w.rank.time)

namespace Ledger

/-! ### What is left -/

/-- A write that neither removes something nor was wiped by a deletion: it `survives`. -/
def stands {α : Type} (l : Ledger) (register : Ranked (Option α)) : Option (Ranked α) :=
  if l.survives register.rank then register.content.map (Ranked.mk register.rank) else none

/-- The value that is left of a property: the register of the slot, if it `stands`. -/
def standing (l : Ledger) (slot : Slot) : Option (Ranked Value) :=
  l.values[slot]?.bind l.stands

/-- What is left of an edge. -/
def standingEdge (l : Ledger) (slot : Slot) : Option (Ranked Incidence) :=
  l.edges[slot]?.bind l.stands

/-- A metadata entry that is not older than a value of some rank. -/
def entrySince (since : Rank) (register : Ranked (Option Value)) : Option (Ranked Value) :=
  if register.rank.isBelow since then none else register.content.map (Ranked.mk register.rank)

/-- What is left of a metadata entry of a value that is left, by `entrySince`. -/
def standingEntry (l : Ledger) (place : MetadataPlace) : Option (Ranked Value) :=
  (l.standing place.slot).bind fun top => l.metadata[place]?.bind (entrySince top.rank)

/-- A hide is in force: it was set, and it `survives`. -/
def hideStands (l : Ledger) (place : HidePlace) : Bool :=
  l.hides[place]?.any fun hide => hide.content && l.survives hide.rank

/-- **Two ledgers have the same left.** -/
structure Agree (l m : Ledger) : Prop where
  lastModified : l.lastModified = m.lastModified
  endpoints : l.endpoints.map (·.content) = m.endpoints.map (·.content)
  visibility : l.visibility.map (·.content) = m.visibility.map (·.content)
  constructive : l.constructive = m.constructive
  isDeleted : l.isDeleted = m.isDeleted
  deletedAt : l.isDeleted → l.deleted.map (·.time) = m.deleted.map (·.time)
  hides : ∀ place, l.hideStands place = m.hideStands place
  values : ∀ slot, (l.standing slot).map Ranked.dated = (m.standing slot).map Ranked.dated
  entries : ∀ place,
    (l.standingEntry place).map Ranked.dated = (m.standingEntry place).map Ranked.dated
  edges : ∀ slot,
    (l.standingEdge slot).map Ranked.dated = (m.standingEdge slot).map Ranked.dated

/-! ### Nothing else counts -/

section Reading

variable (l : Ledger) (options : FoldOptions) (sees : Visibility → Bool)

theorem survives_of_standing {α : Type} {register : Option (Ranked (Option α))} {top : Ranked α}
    (h : register.bind l.stands = some top) : l.survives top.rank := by
  obtain ⟨w, -, hw⟩ := Option.bind_eq_some_iff.1 h
  unfold stands at hw
  split at hw
  · next survives =>
    obtain ⟨a, -, rfl⟩ := Option.map_eq_some_iff.1 hw
    exact survives
  · simp at hw

/-- What is shown of an edge is shown of its `standingEdge`. -/
theorem bind_edgeFor (slot : Slot) :
    l.edges[slot]?.bind (l.edgeFor options sees slot) =
      (l.standingEdge slot).bind fun top =>
        l.edgeFor options sees slot ⟨top.rank, some top.content⟩ := by
  unfold standingEdge
  cases l.edges[slot]? with
  | none => rfl
  | some register =>
      obtain ⟨rank, content⟩ := register
      cases content with
      | none => by_cases h : l.survives rank <;> simp [stands, edgeFor, h]
      | some i => by_cases h : l.survives rank <;> simp [stands, edgeFor, showing, h]

/-- What is shown of a property is shown of the value that is `standing`. -/
theorem bind_propertyFor (slot : Slot) :
    l.values[slot]?.bind (l.propertyFor options sees slot) =
      (l.standing slot).bind fun top =>
        l.propertyFor options sees slot ⟨top.rank, some top.content⟩ := by
  unfold standing
  cases l.values[slot]? with
  | none => rfl
  | some register =>
      obtain ⟨rank, content⟩ := register
      cases content with
      | none => by_cases h : l.survives rank <;> simp [stands, propertyFor, h]
      | some value =>
          by_cases h : l.survives rank
          · simp [stands, h]
          · cases slot <;> simp [stands, propertyFor, showing, h]

/-- What is shown of a metadata entry is shown of what is left of it. -/
theorem bind_entryFor (slot : Slot) (since : Rank) (place : MetadataPlace) :
    l.metadata[place]?.bind (entryFor sees slot since place) =
      ((l.metadata[place]?.bind (entrySince since)).map Ranked.dated).bind fun (value, time) =>
        if place.slot = slot ∧ sees place.visibility then
          some ⟨place.key, value, place.visibility, time⟩
        else none := by
  cases l.metadata[place]? with
  | none => rfl
  | some register =>
      obtain ⟨rank, content⟩ := register
      cases content with
      | none => by_cases h : rank.isBelow since <;> simp [entryFor, entrySince, h]
      | some value =>
          by_cases h : rank.isBelow since <;> simp [entryFor, entrySince, Ranked.dated, h]

end Reading

namespace Agree

variable {l m : Ledger} (agree : Agree l m) (options : FoldOptions) (sees : Visibility → Bool)

include agree

theorem hidesFor_eq (slot : Slot) :
    l.hidesFor options sees slot = m.hidesFor options sees slot := by
  have read : ∀ (n : Ledger) (place : HidePlace),
      (n.hides[place]?.bind fun hide =>
        if place.slot = slot ∧ hide.content ∧ n.survives hide.rank then some place.label
        else none) =
      if place.slot = slot ∧ n.hideStands place then some place.label else none := by
    intro n place
    unfold hideStands
    cases n.hides[place]? <;> simp
  refine congrArg _ (Registers.filterMap_toList_congr fun place => ?_)
  rw [read l, read m, agree.hides place]

theorem metadataFor_eq {slot : Slot} {a b : Ranked Value} (left : l.standing slot = some a)
    (right : m.standing slot = some b) :
    l.metadataFor sees slot a.rank = m.metadataFor sees slot b.rank := by
  refine Registers.filterMap_toList_congr fun place => ?_
  rw [bind_entryFor, bind_entryFor]
  by_cases here : place.slot = slot
  · have same := agree.entries place
    simp only [standingEntry, here, left, right, Option.bind_some] at same
    rw [same]
  · simp [here]

theorem showing_eq {slot : Slot} {a b : Rank} (left : l.survives a) (right : m.survives b)
    (v : Visibility) : l.showing options sees slot a v = m.showing options sees slot b v := by
  simp only [showing, left, right, agree.hidesFor_eq options sees slot]

theorem properties_eq :
    (l.values.toList.filterMap fun (slot, register) => l.propertyFor options sees slot register) =
      m.values.toList.filterMap fun (slot, register) =>
        m.propertyFor options sees slot register := by
  refine Registers.filterMap_toList_congr fun slot => ?_
  refine (bind_propertyFor l options sees slot).trans
    (Eq.trans ?_ (bind_propertyFor m options sees slot).symm)
  have same := agree.values slot
  cases left : l.standing slot with
  | none => cases right : m.standing slot <;> simp_all
  | some a =>
      cases right : m.standing slot with
      | none => simp_all
      | some b =>
          simp only [left, right, Option.map_some, Option.some.injEq, Ranked.dated,
            Prod.mk.injEq] at same
          have survives := survives_of_standing l left
          have survives' := survives_of_standing m right
          cases slot <;>
            simp [propertyFor, same.1, same.2, agree.showing_eq options sees survives survives',
              agree.metadataFor_eq sees left right]

theorem edges_eq :
    (l.edges.toList.filterMap fun (slot, register) => l.edgeFor options sees slot register) =
      m.edges.toList.filterMap fun (slot, register) => m.edgeFor options sees slot register := by
  refine Registers.filterMap_toList_congr fun slot => ?_
  refine (bind_edgeFor l options sees slot).trans
    (Eq.trans ?_ (bind_edgeFor m options sees slot).symm)
  have same := agree.edges slot
  cases left : l.standingEdge slot with
  | none => cases right : m.standingEdge slot <;> simp_all
  | some a =>
      cases right : m.standingEdge slot with
      | none => simp_all
      | some b =>
          simp only [left, right, Option.map_some, Option.some.injEq, Ranked.dated,
            Prod.mk.injEq] at same
          have survives := survives_of_standing l left
          have survives' := survives_of_standing m right
          simp [edgeFor, same.1, same.2, agree.showing_eq options sees survives survives']

/-- **Ledgers that agree show the same state.**  `stateFor` reads no more of a ledger than what is
left. -/
theorem stateFor_eq (element : Element) (asOf : Option Int64) :
    l.stateFor options sees element asOf = m.stateFor options sees element asOf := by
  have outlines : l.outline element asOf = m.outline element asOf := by
    have visibility : l.visibility.elim Visibility.unrestricted (·.content) =
        m.visibility.elim Visibility.unrestricted (·.content) := by
      have same := agree.visibility
      cases hl : l.visibility <;> cases hm : m.visibility <;> simp_all
    simp [outline, agree.lastModified, agree.endpoints, visibility]
  have contents : l.contentsFor options sees = m.contentsFor options sees := by
    funext shown
    simp only [contentsFor, agree.properties_eq, agree.edges_eq]
  simp only [stateFor, agree.constructive, outlines, contents, agree.hidesFor_eq options sees,
    ← agree.isDeleted]
  by_cases deleted : l.isDeleted
  · rw [if_pos deleted, if_pos deleted, agree.deletedAt deleted]
  · rw [if_neg deleted, if_neg deleted]

end Agree

end Ledger

end GraphLog
