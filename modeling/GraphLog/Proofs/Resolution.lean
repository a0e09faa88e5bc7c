/-
**The state that a caller sees, as a function of the ledger.**

Resolving a ledger asks for verdicts on labels as it goes and keeps the answers in a cache.  Here
the same state is written down for a caller of whom it is known which labels they see, without a
cache and without steps; resolving gives this state whatever the cache holds, as long as the cache
is sound.  What is said about states later is said about this function.

Main definitions:

* `GraphLog.Ledger.showing` — whether what stands at a slot is shown, and how;
* `GraphLog.Ledger.stateFor` — the state that a caller sees.

Main results:

* `GraphLog.Ledger.gives_resolve` — **the state that a caller sees does not depend on the cache**;
* `GraphLog.Ledger.stateFor_asOf` — the horizon is written into the state and does nothing else;
* `GraphLog.Ledger.exists_stateFor_eq` — a state says what its outline says, but for the status and
  what goes with it.
-/

import GraphLog.Fold.Basic
import GraphLog.Proofs.Registers
import GraphLog.Proofs.Verdicts

set_option relaxedAutoImplicit false
set_option autoImplicit false

namespace GraphLog

namespace Ledger

variable (l : Ledger) (options : FoldOptions) (sees : Visibility → Bool)

/-- The hides that apply on a slot to a caller who sees just these labels: `activeHides` with a
caller in place of the cache. -/
def hidesFor (slot : Slot) : List Visibility :=
  (l.hidesInForce slot).filter fun label => options.hideAudience.applies (sees label)

/-- The state of a metadata entry of a property whose value has the rank `since`. -/
def entryFor (slot : Slot) (since : Rank) (place : MetadataPlace)
    (entry : Ranked (Option Value)) : Option MetadataState :=
  match entry.content with
  | some value =>
    if place.slot = slot ∧ ¬entry.rank.isBelow since ∧ sees place.visibility then
      some ⟨place.key, value, place.visibility, entry.rank.time⟩
    else none
  | none => none

/-- The metadata of a property: `metadataOf` with a caller in place of the cache. -/
def metadataFor (slot : Slot) (since : Rank) : List MetadataState :=
  l.metadata.toList.filterMap fun (place, entry) => entryFor sees slot since place entry

/-- **Whether the caller is shown what stands at a slot** with some rank and label, and if so
whether it is marked as hidden. -/
def showing (slot : Slot) (rank : Rank) (v : Visibility) : Option Bool :=
  let hidden := !(l.hidesFor options sees slot).isEmpty
  if l.survives rank ∧ sees v ∧ (hidden → options.includeHidden) then some hidden else none

/-- The state of a property: `propertyOf` with a caller in place of the cache. -/
def propertyFor (slot : Slot) (register : Ranked (Option Value)) : Option PropertyState :=
  match register.content, slot with
  | some value, .property key name v =>
    (l.showing options sees slot register.rank v).map fun hidden =>
      ⟨key, name, v, value, register.rank.time, l.metadataFor sees slot register.rank, hidden⟩
  | _, _ => none

/-- The state of an edge: `edgeOf` with a caller in place of the cache. -/
def edgeFor (slot : Slot) (register : Ranked (Option Incidence)) : Option EdgeState :=
  match register.content with
  | some i =>
    (l.showing options sees slot register.rank i.visibility).map fun hidden =>
      ⟨i.edge, i.direction, i.label, i.other, i.visibility, register.rank.time, hidden⟩
  | none => none

/-- The state with what is left of properties and edges. -/
def contentsFor (shown : ElementState) : ElementState :=
  { shown with
    properties := l.values.toList.filterMap fun (slot, register) =>
      l.propertyFor options sees slot register
    edges := l.edges.toList.filterMap fun (slot, register) => l.edgeFor options sees slot register }

/-- **The state that a caller sees who sees just these labels.** -/
def stateFor (element : Element) (asOf : Option Int64) : ElementState :=
  let outline := l.outline element asOf
  let hiddenBy := l.hidesFor options sees .existence
  let status := if hiddenBy.isEmpty then Status.live else Status.hidden
  let shown := { outline with status := status, hiddenBy := hiddenBy }
  if l.isDeleted then
    { outline with status := .deleted, softDeletedAt := l.deleted.map (·.time) }
  else if l.constructive then
    if sees outline.visibility then
      if hiddenBy.isEmpty || options.includeHidden then l.contentsFor options sees shown
      else shown
    else { outline with status := .hidden }
  else outline

/-- The horizon is written into the `outline` of the state and has no other part in it. -/
theorem stateFor_asOf (element : Element) (asOf : Option Int64) :
    (l.stateFor options sees element asOf).asOf = asOf ∧
      l.stateFor options sees element none =
        { l.stateFor options sees element asOf with asOf := none } := by
  have outlines : l.outline element none = { l.outline element asOf with asOf := none } := rfl
  simp only [stateFor, outlines, contentsFor]
  split
  · exact ⟨rfl, rfl⟩
  · split
    · split
      · split <;> exact ⟨rfl, rfl⟩
      · exact ⟨rfl, rfl⟩
    · exact ⟨rfl, rfl⟩

/-- A state says what its `outline` says, but for the status and what goes with it. -/
theorem exists_stateFor_eq (element : Element) (asOf : Option Int64) :
    ∃ status softDeletedAt hiddenBy properties edges,
      l.stateFor options sees element asOf =
        { l.outline element asOf with status, softDeletedAt, hiddenBy, properties, edges } := by
  simp only [stateFor, contentsFor]
  split
  · exact ⟨_, _, _, _, _, rfl⟩
  · split
    · split
      · split <;> exact ⟨_, _, _, _, _, rfl⟩
      · exact ⟨_, _, _, _, _, rfl⟩
    · exact ⟨_, _, _, _, _, rfl⟩

/-- The state names the element that it is about. -/
theorem element_stateFor (element : Element) (asOf : Option Int64) :
    (l.stateFor options sees element asOf).element = element := by
  obtain ⟨_, _, _, _, _, same⟩ := l.exists_stateFor_eq options sees element asOf
  rw [same]
  rfl

/-- The state has the endpoints of the ledger, whoever looks. -/
theorem endpoints_stateFor (element : Element) (asOf : Option Int64) :
    (l.stateFor options sees element asOf).endpoints = l.endpoints.map (·.content) := by
  obtain ⟨_, _, _, _, _, same⟩ := l.exists_stateFor_eq options sees element asOf
  rw [same]
  rfl

/-! ### The cache can be left out -/

open Judged (Gives)

variable {held : Authorizations}

theorem gives_activeHides (slot : Slot) :
    Gives held (l.activeHides Visibility.judged options slot)
      (l.hidesFor options held.sees slot) := by
  rw [hidesFor, ← List.filterMap_eq_filter]
  refine Gives.filterMapM fun label _ => ?_
  exact Gives.bind (Gives.judged label) (by simpa [Option.guard] using Gives.pure _)

theorem gives_metadataOf (slot : Slot) (since : Rank) :
    Gives held (l.metadataOf Visibility.judged slot since)
      (l.metadataFor held.sees slot since) := by
  refine Gives.filterMapM fun entry _ => ?_
  obtain ⟨place, rank, content⟩ := entry
  cases content with
  | none => exact Gives.pure _
  | some value =>
      simp only [entryFor]
      by_cases counts : place.slot = slot ∧ ¬rank.isBelow since
      · rw [if_pos counts]
        refine Gives.bind (Gives.judged place.visibility) ?_
        by_cases seen : held.sees place.visibility
        · rw [if_pos seen, if_pos ⟨counts.1, counts.2, seen⟩]
          exact Gives.pure _
        · rw [if_neg seen, if_neg fun h => seen h.2.2]
          exact Gives.pure _
      · rw [if_neg counts, if_neg fun h => counts ⟨h.1, h.2.1⟩]
        exact Gives.pure _

/-- The three questions that are asked before something at a slot is shown, as `showing` has
them. -/
theorem gives_showing {α : Type} (slot : Slot) (rank : Rank) (v : Visibility)
    {rest : List Visibility → Judged (Option α)} {f : Bool → α}
    (last : ∀ hides, Gives held (rest hides) (some (f !hides.isEmpty))) :
    Gives held
      (if l.survives rank then do
        if ← v.judged then do
          let hides ← l.activeHides Visibility.judged options slot
          if !hides.isEmpty && !options.includeHidden then return none else rest hides
        else return none
      else return none)
      ((l.showing options held.sees slot rank v).map f) := by
  unfold showing
  by_cases stands : l.survives rank
  · rw [if_pos stands]
    refine Gives.bind (Gives.judged v) ?_
    by_cases seen : held.sees v
    · rw [if_pos seen]
      refine Gives.bind (gives_activeHides l options slot) ?_
      by_cases dropped : !(l.hidesFor options held.sees slot).isEmpty && !options.includeHidden
      · rw [if_pos dropped, if_neg (by simp_all)]
        exact Gives.pure _
      · rw [if_neg dropped, if_pos (by simp_all)]
        exact last _
    · rw [if_neg seen, if_neg fun h => seen h.2.1]
      exact Gives.pure _
  · rw [if_neg stands, if_neg fun h => stands h.1]
    exact Gives.pure _

theorem gives_propertyOf (slot : Slot) (register : Ranked (Option Value)) :
    Gives held (l.propertyOf Visibility.judged options slot register)
      (l.propertyFor options held.sees slot register) := by
  obtain ⟨rank, content⟩ := register
  cases content with
  | none => exact Gives.pure _
  | some value =>
      cases slot with
      | existence => exact Gives.pure _
      | adjacency edge direction => exact Gives.pure _
      | property key name v =>
          simp only [propertyOf, propertyFor]
          refine gives_showing l options _ rank v fun _ => ?_
          exact Gives.bind (gives_metadataOf l _ rank) (Gives.pure _)

theorem gives_edgeOf (slot : Slot) (register : Ranked (Option Incidence)) :
    Gives held (l.edgeOf Visibility.judged options slot register)
      (l.edgeFor options held.sees slot register) := by
  obtain ⟨rank, content⟩ := register
  cases content with
  | none => exact Gives.pure _
  | some i => exact gives_showing l options slot rank i.visibility fun _ => Gives.pure _

/-- **The state that a caller sees does not depend on the cache.** -/
theorem gives_resolve (element : Element) (asOf : Option Int64) :
    Gives held (l.resolve Visibility.judged options element asOf)
      (l.stateFor options held.sees element asOf) := by
  unfold resolve stateFor
  simp only []
  refine Gives.ite (fun _ => Gives.pure _) fun _ => ?_
  refine Gives.ite (fun _ => ?_) fun _ => Gives.pure _
  refine Gives.bind (Gives.judged _) ?_
  refine Gives.ite (fun _ => ?_) fun _ => Gives.pure _
  refine Gives.bind (gives_activeHides l options _) ?_
  refine Gives.ite (fun _ => ?_) fun _ => Gives.pure _
  refine Gives.bind (Gives.filterMapM fun p _ => gives_propertyOf l options p.1 p.2) ?_
  refine Gives.bind (Gives.filterMapM fun p _ => gives_edgeOf l options p.1 p.2) ?_
  exact Gives.pure _

end Ledger

end GraphLog
