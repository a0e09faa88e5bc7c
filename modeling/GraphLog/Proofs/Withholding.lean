/-
**What is hidden is marked, or left out.**

A fold may be asked to show what hides keep back.  What is hidden is then in the state, marked as
such, and it is missing from the state of a fold that was not asked.  Nothing else depends on the
question: which records count is settled before it is put, and the hides, labels and times of what
is shown are found without it.  So the one state is a projection of the other.  Of an element that
is hidden itself no contents are left, whether they are marked or not; of any other just those are
dropped that are marked.

Main definitions:

* `GraphLog.ElementState.withheld` — a state without what is hidden;
* `GraphLog.View.including` — the same view, with what is hidden or without it.

Main results:

* `GraphLog.Ledger.propertiesFor_excluding`, `GraphLog.Ledger.edgesFor_excluding` — what is left of
  an element, without what is hidden;
* `GraphLog.View.foldElement_excluding` — **a fold that leaves out what is hidden**, in terms of one
  that marks it.
-/

import GraphLog.Proofs.Contents

set_option relaxedAutoImplicit false
set_option autoImplicit false

namespace GraphLog

/-! ### States without what is hidden -/

/-- The same rules, with what is hidden or without it. -/
def FoldOptions.including (options : FoldOptions) (included : Bool) : FoldOptions :=
  { options with includeHidden := included }

/-- **The state without what is hidden**: a hidden element loses its contents, and any other the
properties and edges that are marked. -/
def ElementState.withheld (state : ElementState) : ElementState :=
  if state.status = .hidden then { state with properties := [], edges := [] }
  else
    { state with
      properties := state.properties.filter (!·.hidden)
      edges := state.edges.filter (!·.hidden) }

theorem ElementState.withheld_of_bare {state : ElementState} (properties : state.properties = [])
    (edges : state.edges = []) : state.withheld = state := by
  cases state
  simp_all [withheld]

namespace ElementState

variable {state : ElementState}

theorem hidden_of_mem_properties_withheld {p : PropertyState}
    (mem : p ∈ state.withheld.properties) : p.hidden = false := by
  unfold withheld at mem
  split at mem
  · exact absurd mem List.not_mem_nil
  · simpa using (List.mem_filter.1 mem).2

theorem hidden_of_mem_edges_withheld {e : EdgeState} (mem : e ∈ state.withheld.edges) :
    e.hidden = false := by
  unfold withheld at mem
  split at mem
  · exact absurd mem List.not_mem_nil
  · simpa using (List.mem_filter.1 mem).2

end ElementState

/-! ### What a ledger shows without it -/

namespace Ledger

section Reading

variable (l : Ledger) (options : FoldOptions) (sees : Visibility → Bool)

/-- What is shown at a slot without what is hidden is what is shown with it, unless it is marked. -/
theorem showing_excluding (slot : Slot) (rank : Rank) (label : Visibility) :
    l.showing (options.including false) sees slot rank label =
      (l.showing (options.including true) sees slot rank label).filter (!·) := by
  have asked (included : Bool) : l.showing (options.including included) sees slot rank label =
      let hidden := !(l.hidesFor options sees slot).isEmpty
      if l.survives rank ∧ sees label ∧ (hidden → included) then some hidden else none := rfl
  rw [asked, asked]
  by_cases stands : l.survives rank ∧ sees label
  · cases (l.hidesFor options sees slot).isEmpty <;> simp [stands, Option.filter]
  · simp [← and_assoc, stands]

theorem propertyFor_excluding (slot : Slot) (register : Ranked (Option Value)) :
    l.propertyFor (options.including false) sees slot register =
      (l.propertyFor (options.including true) sees slot register).filter (!·.hidden) := by
  obtain ⟨rank, content⟩ := register
  cases content with
  | none => rfl
  | some value =>
      cases slot with
      | existence | adjacency => rfl
      | property key name label =>
          simp only [propertyFor, showing_excluding, Option.filter_map]
          rfl

theorem edgeFor_excluding (slot : Slot) (register : Ranked (Option Incidence)) :
    l.edgeFor (options.including false) sees slot register =
      (l.edgeFor (options.including true) sees slot register).filter (!·.hidden) := by
  obtain ⟨rank, content⟩ := register
  cases content with
  | none => rfl
  | some i =>
      simp only [edgeFor, showing_excluding, Option.filter_map]
      rfl

theorem propertiesFor_excluding :
    l.propertiesFor (options.including false) sees =
      (l.propertiesFor (options.including true) sees).filter (!·.hidden) := by
  simp only [propertiesFor, List.filter_filterMap, propertyFor_excluding]

theorem edgesFor_excluding :
    l.edgesFor (options.including false) sees =
      (l.edgesFor (options.including true) sees).filter (!·.hidden) := by
  simp only [edgesFor, List.filter_filterMap, edgeFor_excluding]

/-- An element that is not hidden loses what is marked: `contentsFor` keeps the rest. -/
theorem contentsFor_excluding {shown : ElementState} (notHidden : shown.status ≠ .hidden) :
    l.contentsFor (options.including false) sees shown =
      (l.contentsFor (options.including true) sees shown).withheld := by
  have status : (l.contentsFor (options.including true) sees shown).status ≠ .hidden := notHidden
  rw [ElementState.withheld, if_neg status]
  simp only [contentsFor]
  exact congrArg₂ (fun properties edges => { shown with properties, edges })
    (l.propertiesFor_excluding options sees) (l.edgesFor_excluding options sees)

/-- An element that is hidden loses all: `withheld` leaves none of its contents. -/
theorem withheld_contentsFor {shown : ElementState} (hidden : shown.status = .hidden)
    (properties : shown.properties = []) (edges : shown.edges = []) :
    (l.contentsFor options sees shown).withheld = shown := by
  cases shown
  cases properties
  cases edges
  exact if_pos hidden

/-- **A state without what is hidden is the state with it, less what is hidden**: it is
`withheld`. -/
theorem stateFor_excluding (element : Element) (asOf : Option Int64) :
    l.stateFor (options.including false) sees element asOf =
      (l.stateFor (options.including true) sees element asOf).withheld := by
  have hides (included : Bool) : l.hidesFor (options.including included) sees .existence =
      l.hidesFor options sees .existence := rfl
  simp only [stateFor, hides]
  split
  · exact (ElementState.withheld_of_bare rfl rfl).symm
  · split
    · split
      · rcases l.hidesFor options sees .existence with _ | ⟨hide, others⟩
        · exact contentsFor_excluding l options sees (by simp)
        · exact (withheld_contentsFor l (options.including true) sees rfl rfl rfl).symm
      · exact (ElementState.withheld_of_bare rfl rfl).symm
    · exact (ElementState.withheld_of_bare rfl rfl).symm

end Reading

end Ledger

namespace View

/-- The same view, with what is hidden or without it. -/
def including (v : View) (included : Bool) : View :=
  { v with options := v.options.including included }

/-- **A fold that leaves out what is hidden gives the state of one that marks it, less what is
hidden.**  A hidden element loses all properties and edges, any other just those that are marked;
all else is the same, and nothing that is left is marked. -/
theorem foldElement_excluding (v : View) (element : Element) (records : List Record)
    (own : ∀ r ∈ records, r.element = element) :
    ∃ state, (v.including true).foldElement element records = .ok state ∧
      (v.including false).foldElement element records = .ok state.withheld ∧
      (∀ p ∈ state.withheld.properties, p.hidden = false) ∧
      ∀ e ∈ state.withheld.edges, e.hidden = false := by
  have entries (included : Bool) :
      (v.including included).entries 0 records = v.entries 0 records :=
    entries_congr v (v.including included) rfl rfl 0 records
  refine ⟨(v.including true).stateOf element records, foldElement_eq _ own, ?_, ?_, ?_⟩
  · rw [foldElement_eq _ own, stateOf, stateOf, entries, entries]
    exact congrArg _ (Ledger.stateFor_excluding ..)
  · exact fun p mem => ElementState.hidden_of_mem_properties_withheld mem
  · exact fun e mem => ElementState.hidden_of_mem_edges_withheld mem

/-- A property and an edge that are hidden are dropped from a live vertex, and a property beside
them keeps its metadata. -/
theorem foldElement_excluding_of_marked :
    let v : View := ⟨{}, .empty, some 9⟩
    let vertex : Element := ⟨.vertex, "v"⟩
    let secret : Visibility := ⟨"secret", by decide⟩
    let age : Slot := .property "k" "age" .unrestricted
    let name : Slot := .property "k" "name" .unrestricted
    let side : Slot := .adjacency "e" .outward
    let knows : Incidence := ⟨"e", .outward, some "knows", "w", .unrestricted⟩
    let source : MetadataEntry := ⟨"source", .text "import", .unrestricted⟩
    let aged : Record := ⟨⟨vertex, age, 1, .unrestricted, .setValue (.int 30) [], 1⟩, rfl⟩
    let named : Record := ⟨⟨vertex, name, 2, .unrestricted, .setValue .null [source], 2⟩, rfl⟩
    let attached : Record := ⟨⟨vertex, side, 3, .unrestricted, .attachEdge knows, 3⟩, rfl⟩
    let hidden : Record := ⟨⟨vertex, age, 4, .unrestricted, .hide secret none, 4⟩, rfl⟩
    let covered : Record := ⟨⟨vertex, side, 5, .unrestricted, .hide secret (some 4), 5⟩, rfl⟩
    let records := [covered, aged, named, hidden, attached]
    (∀ r ∈ records, r.element = vertex) ∧
      ∃ state, (v.including true).foldElement vertex records = .ok state ∧
        state.status = .live ∧ state.properties.map (·.hidden) = [true, false] ∧
        state.edges.map (·.hidden) = [true] ∧
        (v.including false).foldElement vertex records = .ok state.withheld ∧
        (∀ p ∈ state.withheld.properties, p.hidden = false) ∧
        ∀ e ∈ state.withheld.edges, e.hidden = false := by
  intro v vertex secret age name side knows source aged named attached hidden covered records
  have own : ∀ r ∈ records, r.element = vertex := by decide
  have shows : ((v.including true).foldElement vertex records).map (fun s =>
      (s.status, s.properties.map (·.hidden), s.edges.map (·.hidden))) =
      .ok (.live, [true, false], [true]) := by decide +kernel
  obtain ⟨state, folded, excluded, unmarked⟩ := foldElement_excluding v vertex records own
  rw [folded] at shows
  simp only [Except.map, Except.ok.injEq, Prod.mk.injEq] at shows
  obtain ⟨status, properties, edges⟩ := shows
  exact ⟨own, state, folded, status, properties, edges, excluded, unmarked⟩

end View

end GraphLog
