/-
**What an intake answers, call after call.**

An intake is asked for a number, or given a raw record, or given deliveries that it takes in until
one fails.  Each call moves the counter by just as many numbers as it claims: a call that is refused
claims none, and deliveries claim one each up to the first that fails, those that are lost with the
failure included.  As long as the counter does not come to its end, the numbers that a run of calls
claims therefore follow each other without a gap, and each answer carries those that its own call
claimed.

Main definitions:

* `GraphLog.Intake.Call`, `GraphLog.Intake.Answer`, `GraphLog.Intake.run` — calls, their answers,
  and a run;
* `GraphLog.Intake.Call.demand`, `GraphLog.Intake.claimed` — how many numbers a call claims, and
  which;
* `GraphLog.Intake.Serves`, `GraphLog.Intake.ServesAll` — **what a call is answered**, and what a
  run of calls is.

Main results:

* `GraphLog.Intake.next_call` — a call moves the counter by what it claims;
* `GraphLog.Intake.serves_call` — one call;
* `GraphLog.Intake.run_serves` — **a whole run**.
-/

import Mathlib.Algebra.GroupWithZero.Nat
import Mathlib.Data.List.Forall2
import GraphLog.Proofs.Deliveries

set_option relaxedAutoImplicit false
set_option autoImplicit false

namespace GraphLog

namespace Delivery

/-- The delivery brings a record. -/
def succeeds (d : Delivery) : Bool :=
  d.decoded.isOk

/-- How many deliveries are taken in before one fails: those in front that `succeeds` holds of. -/
def accepted (ds : List Delivery) : Nat :=
  (ds.takeWhile succeeds).length

/-- Each of the deliveries brings its record. -/
def Bring (ds : List Delivery) (rs : List Record) : Prop :=
  List.Forall₂ (fun d r => d.decoded = .ok r) ds rs

end Delivery

namespace Intake

/-! ### Calls -/

/-- **A call**: for a number, with a raw record, or with deliveries. -/
inductive Call where
  | claim
  | ingest (raw : RawRecord)
  | ingestAll (deliveries : List Delivery)

/-- What a call gives. -/
inductive Answer where
  | number (n : UInt64)
  | record (result : Except Failure Record)
  | records (result : Except Failure (List Record))

/-- The answer to a call, and the intake after it. -/
def call (intake : Intake) : Call → Answer × Intake
  | .claim => (.number intake.claim.1, intake.claim.2)
  | .ingest raw => (.record (intake.ingest raw).1, (intake.ingest raw).2)
  | .ingestAll ds => (.records (intake.ingestAll ds).1, (intake.ingestAll ds).2)

/-- The answers to a run of calls, and the intake after it. -/
def run (intake : Intake) : List Call → List Answer × Intake
  | [] => ([], intake)
  | c :: cs => ((intake.call c).1 :: ((intake.call c).2.run cs).1, ((intake.call c).2.run cs).2)

/-- How many numbers a call claims; of deliveries, as many as are `accepted`. -/
def Call.demand : Call → Nat
  | claim => 1
  | ingest raw => Delivery.accepted [.ok raw]
  | ingestAll ds => Delivery.accepted ds

/-- The numbers that deliveries claim in turn, up to the first that fails. -/
def claimedBy (intake : Intake) : List Delivery → List UInt64
  | [] => []
  | d :: ds => if d.succeeds then intake.claim.1 :: intake.claim.2.claimedBy ds else []

/-- The numbers that a call claims, in the order in which it claims them. -/
def claimedIn (intake : Intake) : Call → List UInt64
  | .claim => [intake.claim.1]
  | .ingest raw => intake.claimedBy [.ok raw]
  | .ingestAll ds => intake.claimedBy ds

/-- The numbers that a run of calls claims, call by call as in `claimedIn`. -/
def claimed (intake : Intake) : List Call → List UInt64
  | [] => []
  | c :: cs => intake.claimedIn c ++ (intake.call c).2.claimed cs

/-! ### What is answered -/

/-- **What a call is answered**: `Serves n call answer m` says that this is the answer to the call
when the counter shows `n`, and that it shows `m` afterwards. -/
inductive Serves : Nat → Call → Answer → Nat → Prop where
  | claim {n : UInt64} : Serves n.toNat .claim (.number n) (n.toNat + 1)
  -- the record bears the number that was shown before
  | taken {n : UInt64} {raw : RawRecord} {r : Record} (decodes : raw.decode = .ok r) :
      Serves n.toNat (.ingest raw) (.record (.ok (r.stamped n))) (n.toNat + 1)
  | refused {n : Nat} {raw : RawRecord} {failure : Failure} (fails : raw.decode = .error failure) :
      Serves n (.ingest raw) (.record (.error failure)) n
  -- the records bear the next numbers in turn
  | allTaken {n : UInt64} {ds : List Delivery} {rs : List Record} (bring : Delivery.Bring ds rs)
      (numbers : (arrivals n rs).map (·.sequence.toNat) = List.range' n.toNat ds.length) :
      Serves n.toNat (.ingestAll ds) (.records (.ok (arrivals n rs))) (n.toNat + ds.length)
  -- the deliveries in front of the one that fails have claimed their numbers
  | stopped {n : Nat} {front back : List Delivery} {d : Delivery} {rs : List Record}
      {failure : Failure} (bring : Delivery.Bring front rs) (fails : d.decoded = .error failure) :
      Serves n (.ingestAll (front ++ d :: back)) (.records (.error failure)) (n + front.length)

/-- **What a run of calls is answered**: each call as `Serves` says, with the counter as the one
before left it. -/
inductive ServesAll : Nat → List Call → List Answer → Nat → Prop where
  | nil {n : Nat} : ServesAll n [] [] n
  | cons {n m last : Nat} {c : Call} {cs : List Call} {answer : Answer} {answers : List Answer}
      (serves : Serves n c answer m) (others : ServesAll m cs answers last) :
      ServesAll n (c :: cs) (answer :: answers) last

end Intake

/-! ### Deliveries -/

namespace Delivery

variable {d : Delivery} {ds front : List Delivery} {r : Record} {rs : List Record}
  {failure : Failure}

theorem succeeds_of_decoded (brings : d.decoded = .ok r) : d.succeeds = true := by
  rw [succeeds, brings]
  rfl

theorem succeeds_eq_false_of_decoded (fails : d.decoded = .error failure) :
    d.succeeds = false := by
  rw [succeeds, fails]
  rfl

theorem accepted_cons (d : Delivery) (ds : List Delivery) :
    accepted (d :: ds) = if d.succeeds then accepted ds + 1 else 0 := by
  rw [accepted, List.takeWhile_cons]
  split <;> rfl

/-- Deliveries bring records, or there is a first one that fails. -/
theorem bring_or_exists_first (ds : List Delivery) :
    (∃ rs, Bring ds rs) ∨
      ∃ front d back rs failure, ds = front ++ d :: back ∧ Bring front rs ∧
        d.decoded = .error failure := by
  induction ds with
  | nil => exact .inl ⟨[], .nil⟩
  | cons d ds ih =>
      cases here : d.decoded with
      | error failure => exact .inr ⟨[], d, ds, [], failure, rfl, .nil, here⟩
      | ok r =>
          rcases ih with ⟨rs, bring⟩ | ⟨front, bad, back, rs, failure, rfl, bring, fails⟩
          · exact .inl ⟨r :: rs, .cons here bring⟩
          · exact .inr ⟨d :: front, bad, back, r :: rs, failure, rfl, .cons here bring, fails⟩

theorem Bring.mapM_eq (bring : Bring ds rs) : ds.mapM decoded = .ok rs := by
  induction bring with
  | nil => rfl
  | cons here _ ih =>
      rw [List.mapM_cons, here, ih]
      rfl

/-- All of the deliveries that bring records are taken in, and those behind them go on. -/
theorem Bring.accepted_append (bring : Bring front rs) (ds : List Delivery) :
    accepted (front ++ ds) = front.length + accepted ds := by
  induction bring with
  | nil => simp
  | cons here _ ih =>
      rw [List.cons_append, accepted_cons, succeeds_of_decoded here, ih, List.length_cons]
      simp only [if_true]
      omega

theorem Bring.accepted_eq (bring : Bring ds rs) : accepted ds = ds.length := by
  simpa [accepted] using bring.accepted_append []

/-- Of deliveries with one that fails, those in front of the first such are `accepted`. -/
theorem Bring.accepted_stopped (bring : Bring front rs) (fails : d.decoded = .error failure)
    (back : List Delivery) : accepted (front ++ d :: back) = front.length := by
  rw [bring.accepted_append, accepted_cons, succeeds_eq_false_of_decoded fails]
  rfl

theorem Bring.exists_ok (bring : Bring ds rs) : ∀ d ∈ ds, ∃ r, d.decoded = .ok r := by
  intro d mem
  obtain ⟨i, lt, rfl⟩ := List.mem_iff_getElem.1 mem
  exact ⟨_, List.forall₂_iff_get.1 bring |>.2 i lt (bring.length_eq ▸ lt)⟩

end Delivery

/-! ### One call -/

namespace Intake

variable (intake : Intake)

theorem next_claim (room : intake.next.toNat + 1 < 2 ^ 64) :
    intake.claim.2.next.toNat = intake.next.toNat + 1 := by
  show (intake.next + 1).toNat = _
  rw [UInt64.toNat_add, UInt64.toNat_one]
  omega

/-- Behind a delivery that brings a record the counter goes on, and behind one that does not it
stays. -/
theorem ingestAll_cons_snd (d : Delivery) (ds : List Delivery) :
    (intake.ingestAll (d :: ds)).2 =
      if d.succeeds then (intake.claim.2.ingestAll ds).2 else intake := by
  cases d with
  | error failure => rfl
  | ok raw =>
      rw [ingestAll, ingest]
      cases decoded : raw.decode with
      | error failure =>
          rw [Delivery.succeeds_eq_false_of_decoded (d := .ok raw) decoded]
          rfl
      | ok r =>
          rw [Delivery.succeeds_of_decoded (d := .ok raw) decoded]
          rfl

/-- Deliveries move the counter by as many as are `accepted`. -/
theorem next_ingestAll (ds : List Delivery)
    (room : intake.next.toNat + Delivery.accepted ds < 2 ^ 64) :
    (intake.ingestAll ds).2.next.toNat = intake.next.toNat + Delivery.accepted ds := by
  induction ds generalizing intake with
  | nil => rfl
  | cons d ds ih =>
      rw [ingestAll_cons_snd]
      rw [Delivery.accepted_cons] at room ⊢
      cases brings : d.succeeds with
      | false => rfl
      | true =>
          rw [brings] at room
          simp only [if_true] at room ⊢
          have next := intake.next_claim (by omega)
          rw [ih _ (by omega), next]
          omega

/-- The numbers that deliveries claim follow each other from the counter on. -/
theorem claimedBy_eq (ds : List Delivery)
    (room : intake.next.toNat + Delivery.accepted ds < 2 ^ 64) :
    (intake.claimedBy ds).map (·.toNat) =
      List.range' intake.next.toNat (Delivery.accepted ds) := by
  induction ds generalizing intake with
  | nil => rfl
  | cons d ds ih =>
      rw [claimedBy]
      rw [Delivery.accepted_cons] at room ⊢
      cases brings : d.succeeds with
      | false => rfl
      | true =>
          rw [brings] at room
          simp only [if_true] at room ⊢
          have next := intake.next_claim (by omega)
          rw [List.map_cons, ih _ (by omega), next, List.range'_succ]
          rfl

theorem ingest_snd (raw : RawRecord) :
    (intake.ingest raw).2 = (intake.ingestAll [.ok raw]).2 := by
  rw [ingestAll, ingest]
  cases raw.decode <;> rfl

/-- A call moves the counter by its `demand`. -/
theorem next_call (c : Call) (room : intake.next.toNat + c.demand < 2 ^ 64) :
    (intake.call c).2.next.toNat = intake.next.toNat + c.demand := by
  cases c with
  | claim => exact intake.next_claim room
  | ingest raw =>
      show (intake.ingest raw).2.next.toNat = _
      rw [ingest_snd]
      exact intake.next_ingestAll _ room
  | ingestAll ds => exact intake.next_ingestAll ds room

theorem claimedIn_eq (c : Call) (room : intake.next.toNat + c.demand < 2 ^ 64) :
    (intake.claimedIn c).map (·.toNat) = List.range' intake.next.toNat c.demand := by
  cases c with
  | claim => rfl
  | ingest raw => exact intake.claimedBy_eq _ room
  | ingestAll ds => exact intake.claimedBy_eq ds room

/-- **One call** is answered as `Serves` says. -/
theorem serves_call (c : Call) (room : intake.next.toNat + c.demand < 2 ^ 64) :
    Serves intake.next.toNat c (intake.call c).1 (intake.call c).2.next.toNat := by
  rw [intake.next_call c room]
  cases c with
  | claim => exact .claim
  | ingest raw =>
      cases decoded : raw.decode with
      | error failure =>
          have none : (Call.ingest raw).demand = 0 := by
            rw [Call.demand, Delivery.accepted_cons,
              Delivery.succeeds_eq_false_of_decoded (d := .ok raw) decoded]
            rfl
          have answer : (intake.call (.ingest raw)).1 = .record (.error failure) := by
            rw [call, ingest, decoded]
          rw [none, answer]
          exact .refused decoded
      | ok r =>
          have one : (Call.ingest raw).demand = 1 := by
            rw [Call.demand, Delivery.accepted_cons,
              Delivery.succeeds_of_decoded (d := .ok raw) decoded]
            rfl
          have answer :
              (intake.call (.ingest raw)).1 = .record (.ok (r.stamped intake.next)) := by
            rw [call, ingest, decoded]
            rfl
          rw [one, answer]
          exact .taken decoded
  | ingestAll ds =>
      have answer : (intake.call (.ingestAll ds)).1 =
          .records ((ds.mapM Delivery.decoded).map (arrivals intake.next)) :=
        congrArg Answer.records (ingestAll_eq intake ds)
      rw [answer]
      rcases Delivery.bring_or_exists_first ds with
        ⟨rs, bring⟩ | ⟨front, d, back, rs, failure, rfl, bring, fails⟩
      · have all : (Call.ingestAll ds).demand = ds.length := bring.accepted_eq
        have same : ds.length = rs.length := bring.length_eq
        rw [all] at room
        rw [all, bring.mapM_eq]
        refine .allTaken bring ?_
        rw [same] at room ⊢
        exact sequences_arrivals (Nat.le_of_lt room)
      · have some : (Call.ingestAll (front ++ d :: back)).demand = front.length :=
          bring.accepted_stopped fails back
        rw [some, mapM_eq_error bring.exists_ok fails back]
        exact .stopped bring fails

/-! ### A run of calls -/

/-- **A whole run.**  If a run of calls claims no more numbers than there are from the counter on,
each call is answered as it should be, with the counter as the calls in front of it left it, and the
numbers that the calls claim are those from the counter on, each once and in this order. -/
theorem run_serves {calls : List Call}
    (room : (calls.map Call.demand).sum ≤ 2 ^ 64 - 1 - intake.next.toNat) :
    ServesAll intake.next.toNat calls (intake.run calls).1 (intake.run calls).2.next.toNat ∧
      (intake.claimed calls).map (·.toNat) =
        List.range' intake.next.toNat (calls.map Call.demand).sum := by
  induction calls generalizing intake with
  | nil => exact ⟨.nil, rfl⟩
  | cons c cs ih =>
      rw [List.map_cons, List.sum_cons] at room
      have bound := intake.next.toNat_lt
      have here : intake.next.toNat + c.demand < 2 ^ 64 := by omega
      have next := intake.next_call c here
      obtain ⟨others, numbers⟩ := ih (intake.call c).2 (by omega)
      refine ⟨.cons (intake.serves_call c here) others, ?_⟩
      rw [claimed, List.map_append, intake.claimedIn_eq c here, numbers, next, List.map_cons,
        List.sum_cons, List.range'_append_1]

/-- A record with a garbled label claims nothing, a failure of the source loses the two numbers that
were claimed in front of it, and the run ends with the last number that there is. -/
theorem run_serves_of_lost_numbers :
    let creation := RawRecord.ofRecord (View.sampleCreation 0)
    let garbled : RawRecord := { RawRecord.ofRecord (View.sampleValue 0) with visibility := [0xff] }
    let lost : Failure := .invalid (.reported "connection lost")
    let calls := [.ingest garbled,
      .ingestAll [.ok creation, .ok creation, .error lost, .ok creation], .claim, .ingest creation]
    let intake : Intake := ⟨18446744073709551611⟩
    (calls.map Call.demand).sum ≤ 2 ^ 64 - 1 - intake.next.toNat ∧
      ServesAll intake.next.toNat calls (intake.run calls).1 18446744073709551615 ∧
      (intake.claimed calls).map (·.toNat) =
        [18446744073709551611, 18446744073709551612, 18446744073709551613,
          18446744073709551614] := by
  intro creation garbled lost calls intake
  have demand : (calls.map Call.demand).sum = 4 := by decide +kernel
  have last : (intake.run calls).2.next.toNat = 18446744073709551615 := by decide +kernel
  have room : (calls.map Call.demand).sum ≤ 2 ^ 64 - 1 - intake.next.toNat := by
    rw [demand]
    decide
  obtain ⟨serves, numbers⟩ := intake.run_serves room
  rw [last] at serves
  rw [demand] at numbers
  exact ⟨room, serves, numbers⟩

end Intake

end GraphLog
