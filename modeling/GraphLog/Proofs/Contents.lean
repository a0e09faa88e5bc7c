/-
**The properties and edges that a caller is shown.**

An element that is not kept from a caller shows the properties and edges that are left of it.  Each
is found by itself: at the slot of a property or an edge one record wins, and what it gives is shown
if it outlasts the deletions, if the caller satisfies its label, and if no hide keeps it back.  The
registers list their slots upwards, so what is shown comes in order, and no slot twice.

Main definitions:

* `GraphLog.PropertyState.order`, `GraphLog.EdgeState.order` — the order of properties and edges;
* `GraphLog.View.Shows` — what a record of some rank gives to a slot is shown;
* `GraphLog.Ledger.propertiesFor`, `GraphLog.Ledger.edgesFor` — what is left of an element;
* `GraphLog.Ledger.isSeen` — the element of a ledger is there for a caller;
* `GraphLog.ElementState.IsOpen`, `GraphLog.Ledger.opens` — an element shows its contents.

Main results:

* `GraphLog.Registers.mem_filterMap_toList_iff`, `GraphLog.Registers.pairwise_filterMap_toList` —
  what registers list, and in which order;
* `GraphLog.Ledger.mem_propertiesFor_iff`, `GraphLog.Ledger.mem_edgesFor_iff` — a property or an
  edge that is shown, in terms of the record that wins its slot;
* `GraphLog.Ledger.stateFor_eq_of_isSeen`, `GraphLog.Ledger.exists_stateFor_eq_of_not_isSeen` — a
  state, by whether its element is there for the caller;
* `GraphLog.Ledger.contents_stateFor` — a state shows all that is left of its contents, or none;
* `GraphLog.View.foldElement_contents` — **the contents of an element**.
-/

import GraphLog.Proofs.Folds
import GraphLog.Proofs.Standing

set_option relaxedAutoImplicit false
set_option autoImplicit false

namespace GraphLog

open Ranked (IsHighest)
open Std (LawfulEqOrd TransOrd)

/-! ### Slots of what is shown -/

namespace PropertyState

/-- The slot of a property. -/
def slot (p : PropertyState) : Slot :=
  .property p.key p.name p.visibility

/-- Properties are ordered by key, name and label, as `Slot.order` has it within their sort. -/
def order : PropertyState → PropertyState → Ordering :=
  compareLex (compareOn key) (compareLex (compareOn name) (compareOn visibility))

theorem compare_slot (p q : PropertyState) : compare p.slot q.slot = p.order q := by
  change Slot.order p.slot q.slot = _
  simp [Slot.order, compareLex, compareOn, slot, order, Slot.rank, Slot.propertyParts,
    Slot.adjacencyParts]

end PropertyState

namespace EdgeState

/-- The slot of an edge. -/
def slot (e : EdgeState) : Slot :=
  .adjacency e.edge e.direction

/-- What a vertex records about an edge. -/
def incidence (e : EdgeState) : Incidence :=
  ⟨e.edge, e.direction, e.label, e.other, e.visibility⟩

/-- Edges are ordered by id and direction. -/
def order : EdgeState → EdgeState → Ordering :=
  compareLex (compareOn edge) (compareOn direction)

theorem compare_slot (e f : EdgeState) : compare e.slot f.slot = e.order f := by
  change Slot.order e.slot f.slot = _
  simp [Slot.order, compareLex, compareOn, slot, order, Slot.rank, Slot.propertyParts,
    Slot.adjacencyParts]

end EdgeState

/-! ### What registers list -/

namespace Registers

variable {κ α γ : Type} [Ord κ] [TransOrd κ] [LawfulEqOrd κ] {s : Registers κ α}
  {f : κ × Ranked α → Option γ}

theorem mem_filterMap_toList_iff {c : γ} :
    c ∈ s.toList.filterMap f ↔ ∃ k w, s[k]? = some w ∧ f (k, w) = some c := by
  simp only [List.mem_filterMap, Prod.exists, Std.ExtTreeMap.mem_toList_iff_getElem?_eq_some]

/-- What registers list comes in the order of the keys, and at most once for each. -/
theorem pairwise_filterMap_toList {place : γ → κ}
    (placed : ∀ k w c, s[k]? = some w → f (k, w) = some c → place c = k) :
    (s.toList.filterMap f).Pairwise fun c d => compare (place c) (place d) = .lt := by
  rw [List.pairwise_filterMap]
  refine s.ordered_keys_toList.imp_of_mem ?_
  rintro ⟨k, w⟩ ⟨k', w'⟩ mem mem' lt c hc d hd
  rw [Std.ExtTreeMap.mem_toList_iff_getElem?_eq_some] at mem mem'
  rw [placed k w c mem hc, placed k' w' d mem' hd]
  exact lt

end Registers

/-! ### What a ledger shows -/

/-- **What a record of some rank gives to a slot is shown** to the caller: no deletion wiped it, the
caller satisfies its label, and no hide is active on the slot unless what is hidden was asked
for. -/
structure View.Shows (v : View) (applied : List (Ranked Record)) (slot : Slot) (label : Visibility)
    (rank : Rank) : Prop where
  outlasts : Outlasts applied rank
  seen : v.held.sees label
  unhidden : v.options.includeHidden ∨ ∀ hide, ¬v.HideActive applied slot hide

/-- What stands at a slot is hidden from the caller or not. -/
theorem View.exists_hidden (v : View) (applied : List (Ranked Record)) (slot : Slot) :
    ∃ hidden : Bool, hidden ↔ ∃ hide, v.HideActive applied slot hide := by
  classical exact ⟨decide _, decide_eq_true_iff⟩

namespace Ledger

section Reading

variable (l : Ledger) (options : FoldOptions) (sees : Visibility → Bool)

/-- The properties that are left, as a caller sees them. -/
def propertiesFor : List PropertyState :=
  l.values.toList.filterMap fun (slot, register) => l.propertyFor options sees slot register

/-- The edges that are left, as a caller sees them. -/
def edgesFor : List EdgeState :=
  l.edges.toList.filterMap fun (slot, register) => l.edgeFor options sees slot register

variable {l options sees}

theorem showing_eq_some_iff {slot : Slot} {rank : Rank} {label : Visibility} {hidden : Bool} :
    l.showing options sees slot rank label = some hidden ↔
      l.survives rank ∧ sees label ∧ (hidden ↔ ∃ hide, hide ∈ l.hidesFor options sees slot) ∧
        (hidden → options.includeHidden) := by
  have some_hide : (!(l.hidesFor options sees slot).isEmpty) = true ↔
      ∃ hide, hide ∈ l.hidesFor options sees slot := by
    rw [Bool.not_eq_true', List.isEmpty_eq_false_iff_exists_mem]
  rw [← some_hide, ← Bool.eq_iff_iff]
  simp only [showing, Option.ite_none_right_eq_some, Option.some.injEq]
  constructor
  · rintro ⟨⟨survives, seen, included⟩, rfl⟩
    exact ⟨survives, seen, rfl, included⟩
  · rintro ⟨survives, seen, rfl, included⟩
    exact ⟨⟨survives, seen, included⟩, rfl⟩

theorem propertyFor_eq_some_iff {slot : Slot} {register : Ranked (Option Value)}
    {p : PropertyState} :
    l.propertyFor options sees slot register = some p ↔
      slot = p.slot ∧ register.content = some p.value ∧
        l.showing options sees slot register.rank p.visibility = some p.hidden ∧
        p.timestamp = register.rank.time ∧
        p.metadata = l.metadataFor sees slot register.rank := by
  obtain ⟨rank, content⟩ := register
  cases content with
  | none => simp [propertyFor]
  | some value =>
      cases slot with
      | existence | adjacency => simp [propertyFor, PropertyState.slot]
      | property key name label =>
          simp only [propertyFor, Option.map_eq_some_iff, PropertyState.slot]
          constructor
          · rintro ⟨hidden, shown, rfl⟩
            exact ⟨rfl, rfl, shown, rfl, rfl⟩
          · rintro ⟨place, content, shown, time, metadata⟩
            cases place
            cases content
            refine ⟨p.hidden, shown, ?_⟩
            rw [← time, ← metadata]

theorem edgeFor_eq_some_iff {slot : Slot} {register : Ranked (Option Incidence)} {e : EdgeState} :
    l.edgeFor options sees slot register = some e ↔
      register.content = some e.incidence ∧
        l.showing options sees slot register.rank e.visibility = some e.hidden ∧
        e.timestamp = register.rank.time := by
  obtain ⟨rank, content⟩ := register
  cases content with
  | none => simp [edgeFor]
  | some i =>
      simp only [edgeFor, Option.map_eq_some_iff, EdgeState.incidence]
      constructor
      · rintro ⟨hidden, shown, rfl⟩
        exact ⟨rfl, shown, rfl⟩
      · rintro ⟨content, shown, time⟩
        cases content
        refine ⟨e.hidden, shown, ?_⟩
        rw [← time]

/-- Properties are listed in order, and no slot twice, because `propertiesFor` goes through the
registers. -/
theorem ordered_propertiesFor :
    (l.propertiesFor options sees).Pairwise fun p q => p.order q = .lt := by
  simp only [← PropertyState.compare_slot]
  exact Registers.pairwise_filterMap_toList fun slot register p _ shown =>
    (propertyFor_eq_some_iff.1 shown).1.symm

end Reading

section Winners

variable {applied : List (Ranked Record)} (distinct : (applied.map (·.rank)).Nodup) (v : View)

include distinct

/-- What is shown at a slot, in terms of records: `Ledger.showing` is `View.Shows`. -/
theorem showing_ofRecords_eq_some_iff {slot : Slot} {rank : Rank} {label : Visibility}
    {hidden : Bool} :
    (ofRecords applied).showing v.options v.held.sees slot rank label = some hidden ↔
      v.Shows applied slot label rank ∧ (hidden ↔ ∃ hide, v.HideActive applied slot hide) := by
  simp only [showing_eq_some_iff, survives_ofRecords_iff distinct,
    mem_hidesFor_ofRecords_iff distinct]
  constructor
  · rintro ⟨outlasts, seen, hides, included⟩
    refine ⟨⟨outlasts, seen, ?_⟩, hides⟩
    rw [← not_exists, ← hides]
    exact (em (hidden = true)).imp included id
  · rintro ⟨shows, hides⟩
    refine ⟨shows.outlasts, shows.seen, hides, fun kept => ?_⟩
    exact shows.unhidden.resolve_right (not_forall_not.2 (hides.1 kept))

/-- **A property that is shown, in terms of the record that wins its slot**, the `highest` that
writes its value. -/
theorem mem_propertiesFor_iff {p : PropertyState} :
    p ∈ (ofRecords applied).propertiesFor v.options v.held.sees ↔
      ∃ w, Wins applied (Record.value? p.slot) w (some p.value) ∧
        v.Shows applied p.slot p.visibility w.rank ∧
        (p.hidden ↔ ∃ hide, v.HideActive applied p.slot hide) ∧ p.timestamp = w.rank.time ∧
        p.metadata = (ofRecords applied).metadataFor v.held.sees p.slot w.rank := by
  simp only [propertiesFor, Registers.mem_filterMap_toList_iff, values_ofRecords,
    bind_write?_eq_some_iff distinct, propertyFor_eq_some_iff,
    showing_ofRecords_eq_some_iff distinct]
  constructor
  · rintro ⟨_, ⟨_, _⟩, ⟨w, wins, rfl⟩, rfl, rfl, ⟨shows, hides⟩, time, metadata⟩
    exact ⟨w, wins, shows, hides, time, metadata⟩
  · rintro ⟨w, wins, shows, hides, time, metadata⟩
    exact ⟨p.slot, ⟨w.rank, some p.value⟩, ⟨w, wins, rfl⟩, rfl, rfl, ⟨shows, hides⟩, time, metadata⟩

/-- Which properties are shown, apart from their metadata and whether they are hidden. -/
theorem exists_mem_propertiesFor_iff {key name : String} {label : Visibility} {value : Value}
    {time : Int64} :
    (∃ p ∈ (ofRecords applied).propertiesFor v.options v.held.sees, p.key = key ∧ p.name = name ∧
        p.visibility = label ∧ p.value = value ∧ p.timestamp = time) ↔
      ∃ w, Wins applied (Record.value? (.property key name label)) w (some value) ∧
        v.Shows applied (.property key name label) label w.rank ∧ w.rank.time = time := by
  simp only [mem_propertiesFor_iff distinct]
  constructor
  · rintro ⟨p, ⟨w, wins, shows, -, time, -⟩, rfl, rfl, rfl, rfl, rfl⟩
    exact ⟨w, wins, shows, time.symm⟩
  · rintro ⟨w, wins, shows, rfl⟩
    obtain ⟨hidden, hides⟩ := v.exists_hidden applied (.property key name label)
    let metadata := (ofRecords applied).metadataFor v.held.sees (.property key name label) w.rank
    exact ⟨⟨key, name, label, value, w.rank.time, metadata, hidden⟩,
      ⟨w, wins, shows, hides, rfl, rfl⟩, rfl, rfl, rfl, rfl, rfl⟩

/-- What the record says that wins the slot of an edge is about this edge. -/
theorem slot_eq_of_edges {slot : Slot} {register : Ranked (Option Incidence)}
    (held : (ofRecords applied).edges[slot]? = some register) {i : Incidence}
    (content : register.content = some i) : slot = .adjacency i.edge i.direction := by
  rw [edges_ofRecords, bind_write?_eq_some_iff distinct] at held
  obtain ⟨w, wins, -⟩ := held
  exact Record.slot_eq_of_edge? (content ▸ wins.writes)

/-- **An edge that is shown, in terms of the record that wins its slot**, the `highest` that writes
what is known of it. -/
theorem mem_edgesFor_iff {e : EdgeState} :
    e ∈ (ofRecords applied).edgesFor v.options v.held.sees ↔
      ∃ w, Wins applied (Record.edge? e.slot) w (some e.incidence) ∧
        v.Shows applied e.slot e.visibility w.rank ∧
        (e.hidden ↔ ∃ hide, v.HideActive applied e.slot hide) ∧ e.timestamp = w.rank.time := by
  simp only [edgesFor, Registers.mem_filterMap_toList_iff, edgeFor_eq_some_iff,
    showing_ofRecords_eq_some_iff distinct]
  constructor
  · rintro ⟨slot, register, held, content, ⟨shows, hides⟩, time⟩
    obtain rfl : slot = e.slot := slot_eq_of_edges distinct held content
    rw [edges_ofRecords, bind_write?_eq_some_iff distinct, content] at held
    obtain ⟨w, wins, same⟩ := held
    rw [← same] at shows time
    exact ⟨w, wins, shows, hides, time⟩
  · rintro ⟨w, wins, shows, hides, time⟩
    refine ⟨e.slot, ⟨w.rank, some e.incidence⟩, ?_, rfl, ⟨shows, hides⟩, time⟩
    rw [edges_ofRecords, bind_write?_eq_some_iff distinct]
    exact ⟨w, wins, rfl⟩

/-- Which edges are shown, apart from whether they are hidden. -/
theorem exists_mem_edgesFor_iff {i : Incidence} {time : Int64} :
    (∃ e ∈ (ofRecords applied).edgesFor v.options v.held.sees, e.incidence = i ∧
        e.timestamp = time) ↔
      ∃ w, Wins applied (Record.edge? (.adjacency i.edge i.direction)) w (some i) ∧
        v.Shows applied (.adjacency i.edge i.direction) i.visibility w.rank ∧
        w.rank.time = time := by
  simp only [mem_edgesFor_iff distinct]
  constructor
  · rintro ⟨e, ⟨w, wins, shows, -, time⟩, rfl, rfl⟩
    exact ⟨w, wins, shows, time.symm⟩
  · rintro ⟨w, wins, shows, rfl⟩
    obtain ⟨hidden, hides⟩ := v.exists_hidden applied (.adjacency i.edge i.direction)
    exact ⟨⟨i.edge, i.direction, i.label, i.other, i.visibility, w.rank.time, hidden⟩,
      ⟨w, wins, shows, hides, rfl⟩, rfl, rfl⟩

/-- Edges are listed in order, and no slot twice. -/
theorem ordered_edgesFor :
    ((ofRecords applied).edgesFor v.options v.held.sees).Pairwise fun e f => e.order f = .lt := by
  simp only [← EdgeState.compare_slot]
  exact Registers.pairwise_filterMap_toList fun slot register e held shown =>
    (slot_eq_of_edges distinct held (edgeFor_eq_some_iff.1 shown).1).symm

end Winners

end Ledger

/-! ### What a state shows -/

/-- An element shows its contents: it is live, or hides keep it back and what is hidden was asked
for. -/
def ElementState.IsOpen (state : ElementState) (options : FoldOptions) : Prop :=
  state.status = .live ∨
    state.status = .hidden ∧ state.hiddenBy ≠ [] ∧ options.includeHidden

namespace Ledger

/-- The element of a ledger is there for a caller: it was filled and is not deleted, and the caller
satisfies its label. -/
def isSeen (l : Ledger) (sees : Visibility → Bool) : Bool :=
  !l.isDeleted && l.constructive && sees (l.visibility.elim .unrestricted (·.content))

/-- A ledger lets a caller see the contents of its element. -/
def opens (l : Ledger) (options : FoldOptions) (sees : Visibility → Bool) : Bool :=
  l.isSeen sees && ((l.hidesFor options sees .existence).isEmpty || options.includeHidden)

section States

variable (l : Ledger) (options : FoldOptions) (sees : Visibility → Bool) (element : Element)
  (asOf : Option Int64)

/-- A state, by whether its element `isSeen` and the ledger `opens` its contents. -/
theorem stateFor_eq_of_isSeen (seen : l.isSeen sees) :
    l.stateFor options sees element asOf =
      let hiddenBy := l.hidesFor options sees .existence
      let shown := { l.outline element asOf with
        status := if hiddenBy.isEmpty then Status.live else Status.hidden, hiddenBy := hiddenBy }
      if l.opens options sees then l.contentsFor options sees shown else shown := by
  simp only [opens, seen, Bool.true_and]
  simp only [isSeen, Bool.and_eq_true, Bool.not_eq_true'] at seen
  simp only [stateFor, seen.1.1, seen.1.2, outline, seen.2]
  simp

/-- Of an element that is not there for the caller, a state shows its `outline`, and why. -/
theorem exists_stateFor_eq_of_not_isSeen (unseen : ¬l.isSeen sees) :
    ∃ status softDeletedAt, l.stateFor options sees element asOf =
        { l.outline element asOf with status, softDeletedAt } ∧
      status ≠ .live ∧
      (status = .initial ∨ status = .deleted ∨ ¬sees (l.outline element asOf).visibility) := by
  simp only [stateFor]
  split
  · exact ⟨.deleted, _, rfl, by decide, .inr (.inl rfl)⟩
  · next alive =>
    split
    · next filled =>
      split
      · next seen => exact absurd (by simpa [isSeen, alive, filled, outline] using seen) unseen
      · next unseen => exact ⟨.hidden, none, rfl, by decide, .inr (.inr unseen)⟩
    · exact ⟨.initial, none, rfl, by decide, .inl rfl⟩

/-- An element that `IsOpen` shows all that is left of its contents, and any other shows none. -/
theorem contents_stateFor :
    let state := l.stateFor options sees element asOf
    (state.IsOpen options ↔ l.opens options sees) ∧
      state.properties = (if l.opens options sees then l.propertiesFor options sees else []) ∧
      state.edges = if l.opens options sees then l.edgesFor options sees else [] := by
  intro state
  by_cases seen : l.isSeen sees
  · have same : state = _ := l.stateFor_eq_of_isSeen options sees element asOf seen
    rw [same]
    simp only [opens, seen, Bool.true_and]
    split
    · next shown =>
      refine ⟨iff_of_true ?_ shown, rfl, rfl⟩
      rcases hides : l.hidesFor options sees .existence with _ | ⟨hide, others⟩
      · exact .inl rfl
      · rw [hides] at shown
        exact .inr ⟨rfl, List.cons_ne_nil hide others, by simpa using shown⟩
    · next kept =>
      refine ⟨iff_of_false ?_ kept, rfl, rfl⟩
      rw [Bool.or_eq_true, not_or] at kept
      simp [ElementState.IsOpen, kept.1, kept.2]
  · obtain ⟨status, time, same, dark, -⟩ :=
      l.exists_stateFor_eq_of_not_isSeen options sees element asOf seen
    have closed : ¬l.opens options sees := fun h => seen (Bool.and_eq_true_iff.1 h).1
    rw [show state = _ from same, if_neg closed, if_neg closed]
    refine ⟨iff_of_false ?_ closed, rfl, rfl⟩
    rintro (live | ⟨-, hides, -⟩)
    · exact dark live
    · exact hides rfl

/-- A state shows no other properties than `propertiesFor`, those that are left. -/
theorem properties_stateFor_subset :
    (l.stateFor options sees element asOf).properties ⊆ l.propertiesFor options sees := by
  rw [(l.contents_stateFor options sees element asOf).2.1]
  split
  · exact List.Subset.refl _
  · exact List.nil_subset _

/-- A state shows no other edges than those that are left. -/
theorem edges_stateFor_subset :
    (l.stateFor options sees element asOf).edges ⊆ l.edgesFor options sees := by
  rw [(l.contents_stateFor options sees element asOf).2.2]
  split
  · exact List.Subset.refl _
  · exact List.nil_subset _

end States

end Ledger

namespace View

/-- **The contents of an element.**  A live element, or one that hides keep back while what is
hidden was asked for, shows just the properties whose slots are won by a record that gives a value
and is shown, and just the edges whose slots are won by a record that attaches them and is shown.
Each has what this record says and the time at which it takes effect.  They come in order, and none
comes twice.  Any other element shows neither. -/
theorem foldElement_contents (v : View) (element : Element) (records : List Record)
    (own : ∀ r ∈ records, r.element = element) :
    let applied := v.entries 0 records
    ∃ state, v.foldElement element records = .ok state ∧
      (¬state.IsOpen v.options → state.properties = [] ∧ state.edges = []) ∧
      (state.IsOpen v.options →
        state.properties.Pairwise (fun p q => p.order q = .lt) ∧
        (∀ key name label value time,
          (∃ p ∈ state.properties, p.key = key ∧ p.name = name ∧ p.visibility = label ∧
              p.value = value ∧ p.timestamp = time) ↔
            ∃ w, Wins applied (Record.value? (.property key name label)) w (some value) ∧
              v.Shows applied (.property key name label) label w.rank ∧
              w.content.effectiveTime = time) ∧
        state.edges.Pairwise (fun e f => e.order f = .lt) ∧
        ∀ incidence time,
          (∃ e ∈ state.edges, e.incidence = incidence ∧ e.timestamp = time) ↔
            ∃ w, Wins applied (Record.edge? (.adjacency incidence.edge incidence.direction)) w
                (some incidence) ∧
              v.Shows applied (.adjacency incidence.edge incidence.direction)
                incidence.visibility w.rank ∧
              w.content.effectiveTime = time) := by
  intro applied
  have distinct : (applied.map (·.rank)).Nodup := nodup_ranks_entries 0 records
  -- ranks tell the times of winning records
  have dated {α : Type} {f : Record → Option α} {a : α} {w : Ranked Record}
      (wins : Wins applied f w a) : w.rank.time = w.content.effectiveTime :=
    time_of_mem wins.highest.mem
  obtain ⟨opened, properties, edges⟩ :=
    (Ledger.ofRecords applied).contents_stateFor v.options v.held.sees element v.asOf
  refine ⟨v.stateOf element records, foldElement_eq v own, fun closed => ?_, fun isOpen => ?_⟩
  · have shut := mt opened.2 closed
    rw [stateOf, properties, edges, if_neg shut, if_neg shut]
    exact ⟨rfl, rfl⟩
  · rw [stateOf, properties, edges, if_pos (opened.1 isOpen), if_pos (opened.1 isOpen)]
    refine ⟨Ledger.ordered_propertiesFor, fun key name label value time => ?_,
      Ledger.ordered_edgesFor distinct v, fun incidence time => ?_⟩
    · rw [Ledger.exists_mem_propertiesFor_iff distinct]
      exact exists_congr fun w => and_congr_right fun wins => by rw [dated wins]
    · rw [Ledger.exists_mem_edgesFor_iff distinct]
      exact exists_congr fun w => and_congr_right fun wins => by rw [dated wins]

/-- An element that is hidden from the caller, with hidden things asked for: a removal that the
caller may not see leaves the property alone, and a later attachment replaces an edge. -/
theorem foldElement_contents_of_hidden :
    let v : View := ⟨{ includeHidden := true }, .empty, some 9⟩
    let vertex : Element := ⟨.vertex, "v"⟩
    let secret : Visibility := ⟨"secret", by decide⟩
    let age : Slot := .property "k" "age" .unrestricted
    let knows : Incidence := ⟨"e", .outward, some "knows", "w", .unrestricted⟩
    let likes : Incidence := ⟨"e", .outward, some "likes", "w", .unrestricted⟩
    let filled : Record := ⟨⟨vertex, age, 2, .unrestricted, .setValue (.int 30) [], 1⟩, rfl⟩
    let dropped : Record := ⟨⟨vertex, age, 3, secret, .dropValue, 2⟩, rfl⟩
    let hidden : Record := ⟨⟨vertex, .existence, 4, .unrestricted, .hide secret none, 3⟩, rfl⟩
    let attached : Record :=
      ⟨⟨vertex, .adjacency "e" .outward, 5, .unrestricted, .attachEdge knows, 4⟩, rfl⟩
    let replaced : Record :=
      ⟨⟨vertex, .adjacency "e" .outward, 5, .unrestricted, .attachEdge likes, 5⟩, rfl⟩
    let records := [replaced, dropped, filled, hidden, attached]
    let applied := v.entries 0 records
    (∀ r ∈ records, r.element = vertex) ∧
      ∃ state, v.foldElement vertex records = .ok state ∧ state.IsOpen v.options ∧
        state.properties.map (·.value) = [.int 30] ∧ state.edges.map (·.incidence) = [likes] ∧
        state.properties.Pairwise (fun p q => p.order q = .lt) ∧
        (∀ key name label value time,
          (∃ p ∈ state.properties, p.key = key ∧ p.name = name ∧ p.visibility = label ∧
              p.value = value ∧ p.timestamp = time) ↔
            ∃ w, Wins applied (Record.value? (.property key name label)) w (some value) ∧
              v.Shows applied (.property key name label) label w.rank ∧
              w.content.effectiveTime = time) ∧
        state.edges.Pairwise (fun e f => e.order f = .lt) ∧
        ∀ incidence time,
          (∃ e ∈ state.edges, e.incidence = incidence ∧ e.timestamp = time) ↔
            ∃ w, Wins applied (Record.edge? (.adjacency incidence.edge incidence.direction)) w
                (some incidence) ∧
              v.Shows applied (.adjacency incidence.edge incidence.direction)
                incidence.visibility w.rank ∧
              w.content.effectiveTime = time := by
  intro v vertex secret age knows likes filled dropped hidden attached replaced records applied
  have own : ∀ r ∈ records, r.element = vertex := by decide
  have shows : (v.foldElement vertex records).map (fun s => ((s.status, s.hiddenBy),
      s.properties.map (·.value), s.edges.map (·.incidence))) =
      .ok ((.hidden, [secret]), [.int 30], [likes]) := by decide +kernel
  obtain ⟨state, folded, -, contents⟩ := foldElement_contents v vertex records own
  rw [folded] at shows
  simp only [Except.map, Except.ok.injEq, Prod.mk.injEq] at shows
  obtain ⟨⟨status, hiddenBy⟩, properties, edges⟩ := shows
  have isOpen : state.IsOpen v.options := .inr ⟨status, by simp [hiddenBy], rfl⟩
  exact ⟨own, state, folded, isOpen, properties, edges, contents isOpen⟩

end View

end GraphLog
