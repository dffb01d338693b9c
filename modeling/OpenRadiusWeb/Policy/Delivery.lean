import OpenRadiusWeb.Policy.Engine
import Mathlib.Data.List.Count

/-! # Redelivery of an evaluation request

The subscriber acknowledges a message when the handler returns and asks for it again when
the handler raises. The handler publishes while its transaction is open, so what a raising
call has published stays published although its rows are rolled back.
-/

namespace OpenRadiusWeb.Policy

/-- What one delivery of a message meets. -/
structure Delivery where
  now : Now
  tables : Tables
  attempt : Attempt

section Schedule

variable (B : Builtins)

def Delivery.run (d : Delivery) (data : Dict PyVal) : Run Unit :=
  handleEvaluateDevice B d.now d.attempt d.tables data

def actionStep (attempt : Attempt) (device : Context) (ref : ActionRef) (action : Dict PyVal) :
    Step :=
  match actionMessage B action device with
  | .error _ => .failing
  | .ok none => .quiet
  | .ok (some _) =>
    match attempt.publish ref.policy ref.index with
    | .sent => ⟨true, false⟩
    | .lost _ => .failing
    | .sentButRaised _ => ⟨true, true⟩

def actionSteps (attempt : Attempt) (device : Context) (k : Nat) (matched : Bool)
    (actions : List (Nat × Dict PyVal)) : List Step :=
  actions.map fun a => actionStep B attempt device ⟨k, matched, a.1⟩ a.2

def verdictSteps (attempt : Attempt) (context : Context) (k : Nat) (policy : PolicyRow)
    (matched : Bool) : List Step :=
  Step.ofResult (attempt.insert k) ++
    match actionDicts (chosenActions policy matched) with
    | .error _ => [.failing]
    | .ok actions => actionSteps B attempt context k matched actions

def policySteps (now : Now) (attempt : Attempt) (context : Context) : Nat → List PolicyRow →
    List Step
  | _, [] => []
  | k, policy :: policies =>
    (match evaluate B now policy context with
      | .error _ => [.failing]
      | .ok matched => verdictSteps B attempt context k policy matched) ++
      policySteps now attempt context (k + 1) policies

/-- The fallible steps of one call, each decided by the row, the action and the answers of
the database and the broker. -/
def deliverySteps (d : Delivery) (data : Dict PyVal) : List Step :=
  match item data "device_id" with
  | .error _ => [.failing]
  | .ok deviceId =>
    match loadDevice B d.tables deviceId with
    | .error _ => [.failing]
    | .ok none => Step.ofResult d.attempt.commit
    | .ok (some (context, policies)) =>
      policySteps B d.now d.attempt context 0 policies ++ Step.ofResult d.attempt.commit

/-- Either no step fails, or nothing is sent up to the first one that does. -/
def FailsBeforeSending (steps : List Step) : Prop :=
  Step.anyFails steps = true → Step.anySent steps = false

end Schedule

/-! ## The handler follows its schedule -/

def Event.published? : Event → Option ActionRef
  | .published ref _ => some ref
  | _ => none

def Event.isPublished (e : Event) : Bool := e.published?.isSome

def publishedRefs (x : Run Unit) : List ActionRef := x.events.filterMap Event.published?

theorem publishedRefs_eq_nil {x : Run Unit} :
    publishedRefs x = [] ↔ x.events.any Event.isPublished = false := by
  simp only [publishedRefs, List.filterMap_eq_nil_iff, List.any_eq_false, Event.isPublished,
    Option.not_isSome_iff_eq_none]

section Follows

variable {B : Builtins}

open Traced (Follows)

theorem executeAction_follows (attempt : Attempt) (device : Context) (ref : ActionRef)
    (action : Dict PyVal) : Follows Event.isPublished (executeAction B attempt device ref action)
      [actionStep B attempt device ref action] := by
  unfold executeAction actionStep
  cases actionMessage B action device with
  | error e => exact ⟨rfl, rfl⟩
  | ok message? =>
    cases message? with
    | none => exact ⟨rfl, rfl⟩
    | some message =>
      rw [Traced.lift_ok_bind]
      dsimp only [publish]
      cases attempt.publish ref.policy ref.index <;> exact ⟨rfl, rfl⟩

theorem executeActions_follows (attempt : Attempt) (device : Context) (k : Nat) (matched : Bool)
    (actions : List (Nat × Dict PyVal)) :
    Follows Event.isPublished (executeActions B attempt device k matched actions)
      (actionSteps B attempt device k matched actions) := by
  induction actions with
  | nil => exact Traced.follows_pure ()
  | cons a rest ih =>
    exact (executeAction_follows attempt device ⟨k, matched, a.1⟩ a.2).bind fun _ _ => ih

theorem insertEvaluation_follows (attempt : Attempt) (k : Nat) (row : EvaluationRow) :
    Follows Event.isPublished (insertEvaluation attempt k row) (Step.ofResult (attempt.insert k)) := by
  rw [insertEvaluation]
  cases attempt.insert k <;> exact ⟨rfl, rfl⟩

theorem applyVerdict_follows (attempt : Attempt) (context : Context) (deviceId : PyVal) (k : Nat)
    (policy : PolicyRow) (matched : Bool) :
    Follows Event.isPublished (applyVerdict B attempt context deviceId k policy matched)
      (verdictSteps B attempt context k policy matched) := by
  refine (insertEvaluation_follows attempt k _).bind fun _ _ => ?_
  cases actionDicts (chosenActions policy matched) with
  | error e => exact ⟨rfl, rfl⟩
  | ok actions =>
    rw [Traced.lift_ok_bind]
    exact executeActions_follows attempt context k matched actions

theorem evaluatePolicies_follows (now : Now) (attempt : Attempt) (context : Context)
    (deviceId : PyVal) (k : Nat) (policies : List PolicyRow) :
    Follows Event.isPublished (evaluatePolicies B now attempt context deviceId k policies)
      (policySteps B now attempt context k policies) := by
  induction policies generalizing k with
  | nil => exact Traced.follows_pure ()
  | cons policy policies ih =>
    rw [evaluatePolicies, policySteps]
    cases evaluate B now policy context with
    | error e =>
      exact (Traced.follows_lift (.error e)).bind fun _ hOk => nomatch hOk
    | ok matched =>
      rw [Traced.lift_ok_bind]
      exact (applyVerdict_follows attempt context deviceId k policy matched).bind
        fun _ _ => ih (k + 1)

theorem handleEvaluateDevice_follows (d : Delivery) (data : Dict PyVal) :
    Follows Event.isPublished (d.run B data)
      (deliverySteps B d data) := by
  unfold Delivery.run handleEvaluateDevice deliverySteps
  cases item data "device_id" with
  | error e => exact ⟨rfl, rfl⟩
  | ok deviceId =>
    rw [Traced.lift_ok_bind]
    dsimp only
    cases loadDevice B d.tables deviceId with
    | error e => exact ⟨rfl, rfl⟩
    | ok found =>
      rw [Traced.lift_ok_bind]
      cases found with
      | none => exact (Traced.follows_pure ()).bind fun _ _ => Traced.follows_lift d.attempt.commit
      | some loaded =>
        exact (evaluatePolicies_follows d.now d.attempt loaded.1 deviceId 0 loaded.2).bind
          fun _ _ => Traced.follows_lift d.attempt.commit

end Follows

/-! ## What is published, and whose row is inserted -/

def Event.inserted? : Event → Option Nat
  | .inserted k _ => some k
  | _ => none

section Published

variable {B : Builtins}

open Traced (Emits)

def policyRefs (k : Nat) (policy : PolicyRow) (matched : Bool) : List ActionRef :=
  match actionDicts (chosenActions policy matched) with
  | .ok actions => actions.map fun a => ⟨k, matched, a.1⟩
  | .error _ => []

/-- The actions a run may publish, in order. -/
def candidateRefs (now : Now) (context : Context) : Nat → List PolicyRow → List ActionRef
  | _, [] => []
  | k, policy :: policies =>
    (match evaluate B now policy context with
      | .ok matched => policyRefs k policy matched
      | .error _ => []) ++ candidateRefs now context (k + 1) policies

theorem executeAction_emits (attempt : Attempt) (device : Context) (ref : ActionRef)
    (action : Dict PyVal) :
    Emits Event.published? (executeAction B attempt device ref action) [ref] := by
  unfold executeAction
  cases actionMessage B action device with
  | error e => exact List.nil_sublist _
  | ok message? =>
    cases message? with
    | none => exact List.nil_sublist _
    | some message =>
      rw [Traced.lift_ok_bind]
      dsimp only [publish]
      cases attempt.publish ref.policy ref.index with
      | sent => exact List.Sublist.refl [ref]
      | lost e => exact List.nil_sublist _
      | sentButRaised e => exact List.Sublist.refl [ref]

theorem executeActions_emits (attempt : Attempt) (device : Context) (k : Nat) (matched : Bool)
    (actions : List (Nat × Dict PyVal)) :
    Emits Event.published? (executeActions B attempt device k matched actions)
      (actions.map fun a => ⟨k, matched, a.1⟩) := by
  induction actions with
  | nil => exact List.nil_sublist _
  | cons a rest ih =>
    exact (executeAction_emits attempt device ⟨k, matched, a.1⟩ a.2).bind fun _ _ => ih

theorem insertEvaluation_emits (attempt : Attempt) (k : Nat) (row : EvaluationRow) :
    Emits Event.published? (insertEvaluation attempt k row) [] := by
  rw [insertEvaluation]
  cases attempt.insert k <;> exact List.nil_sublist _

theorem applyVerdict_emits (attempt : Attempt) (context : Context) (deviceId : PyVal) (k : Nat)
    (policy : PolicyRow) (matched : Bool) :
    Emits Event.published? (applyVerdict B attempt context deviceId k policy matched)
      (policyRefs k policy matched) := by
  refine (insertEvaluation_emits attempt k _).bind (t := policyRefs k policy matched)
    fun _ _ => ?_
  unfold policyRefs
  cases actionDicts (chosenActions policy matched) with
  | error e => exact List.nil_sublist _
  | ok actions =>
    rw [Traced.lift_ok_bind]
    exact executeActions_emits attempt context k matched actions

theorem evaluatePolicies_emits (now : Now) (attempt : Attempt) (context : Context)
    (deviceId : PyVal) (k : Nat) (policies : List PolicyRow) :
    Emits Event.published? (evaluatePolicies B now attempt context deviceId k policies)
      (candidateRefs (B := B) now context k policies) := by
  induction policies generalizing k with
  | nil => exact List.nil_sublist _
  | cons policy policies ih =>
    rw [evaluatePolicies, candidateRefs]
    cases evaluate B now policy context with
    | error e => exact List.nil_sublist _
    | ok matched =>
      rw [Traced.lift_ok_bind]
      exact (applyVerdict_emits attempt context deviceId k policy matched).bind
        fun _ _ => ih (k + 1)

theorem policyRefs_policy {k : Nat} {policy : PolicyRow} {matched : Bool} {ref : ActionRef}
    (h : ref ∈ policyRefs k policy matched) : ref.policy = k := by
  unfold policyRefs at h
  cases hDicts : actionDicts (chosenActions policy matched) with
  | error e =>
    rw [hDicts] at h
    cases h
  | ok actions =>
    rw [hDicts] at h
    obtain ⟨a, -, rfl⟩ := List.mem_map.mp h
    rfl

theorem policyRefs_nodup (k : Nat) (policy : PolicyRow) (matched : Bool) :
    (policyRefs k policy matched).Nodup := by
  unfold policyRefs
  cases hDicts : actionDicts (chosenActions policy matched) with
  | error e => exact List.nodup_nil
  | ok actions =>
    have hIncreasing : actions.Pairwise fun a b => a.1 < b.1 := by
      unfold actionDicts at hDicts
      split at hDicts
      · obtain ⟨xs, -, hPure⟩ := Except.ok_of_bind hDicts
        cases hPure
        exact PyVal.dicts_pairwise 0 xs
      · cases hDicts
        exact List.Pairwise.nil
    refine List.pairwise_map.mpr (hIncreasing.imp fun {a b} hLt hEq => ?_)
    have : a.1 = b.1 := congrArg ActionRef.index hEq
    omega

theorem candidateRefs_policy {now : Now} {context : Context} {k : Nat}
    {policies : List PolicyRow} {ref : ActionRef}
    (h : ref ∈ candidateRefs (B := B) now context k policies) : k ≤ ref.policy := by
  induction policies generalizing k with
  | nil => cases h
  | cons policy policies ih =>
    rw [candidateRefs] at h
    rcases List.mem_append.mp h with hHead | hTail
    · cases hEval : evaluate B now policy context with
      | error e =>
        rw [hEval] at hHead
        cases hHead
      | ok matched =>
        rw [hEval] at hHead
        exact (policyRefs_policy hHead).ge
    · have := ih hTail
      omega

theorem candidateRefs_nodup (now : Now) (context : Context) (k : Nat)
    (policies : List PolicyRow) : (candidateRefs (B := B) now context k policies).Nodup := by
  induction policies generalizing k with
  | nil => exact List.nodup_nil
  | cons policy policies ih =>
    rw [candidateRefs]
    cases evaluate B now policy context with
    | error e => exact ih (k + 1)
    | ok matched =>
      refine List.nodup_append.mpr ⟨policyRefs_nodup k policy matched, ih (k + 1), ?_⟩
      rintro a ha b hb rfl
      have hHead := policyRefs_policy ha
      have hTail := candidateRefs_policy hb
      omega

/-- Every published action has its policy's evaluation row among the rows inserted. -/
def Covered {α : Type} (x : Run α) : Prop :=
  ∀ ref ∈ x.events.filterMap Event.published?, ref.policy ∈ x.events.filterMap Event.inserted?

theorem Covered.bind {α β : Type} {x : Run α} {f : α → Run β} (hx : Covered x)
    (hf : ∀ a, Covered (f a)) : Covered (x >>= f) := by
  unfold Covered
  cases hResult : x.result with
  | error e =>
    rw [Traced.bind_of_error f hResult]
    exact hx
  | ok a =>
    rw [Traced.bind_of_ok f hResult]
    intro ref hRef
    rw [List.filterMap_append, List.mem_append] at hRef ⊢
    exact hRef.imp (hx ref) (hf a ref)

theorem covered_lift {α : Type} (x : Except PyErr α) : Covered (Traced.lift x : Run α) := by
  intro ref hRef
  cases hRef

theorem applyVerdict_covered (attempt : Attempt) (context : Context) (deviceId : PyVal) (k : Nat)
    (policy : PolicyRow) (matched : Bool) :
    Covered (applyVerdict B attempt context deviceId k policy matched) := by
  intro ref hRef
  have hPolicy : ref.policy = k := policyRefs_policy
    ((applyVerdict_emits attempt context deviceId k policy matched).subset hRef)
  unfold applyVerdict insertEvaluation at hRef ⊢
  cases hInsert : attempt.insert k with
  | error e =>
    rw [hInsert] at hRef
    cases hRef
  | ok u =>
    rw [Traced.bind_of_ok _ rfl, hPolicy]
    exact List.mem_cons_self

theorem evaluatePolicies_covered (now : Now) (attempt : Attempt) (context : Context)
    (deviceId : PyVal) (k : Nat) (policies : List PolicyRow) :
    Covered (evaluatePolicies B now attempt context deviceId k policies) := by
  induction policies generalizing k with
  | nil => exact covered_lift (.ok ())
  | cons policy policies ih =>
    exact (covered_lift _).bind fun matched =>
      (applyVerdict_covered attempt context deviceId k policy matched).bind fun _ => ih (k + 1)

theorem handleEvaluateDevice_covered (d : Delivery) (data : Dict PyVal) :
    Covered (d.run B data) := by
  refine (covered_lift _).bind fun deviceId => (covered_lift _).bind fun found => ?_
  cases found with
  | none => exact (covered_lift (.ok ())).bind fun _ => covered_lift d.attempt.commit
  | some loaded =>
    exact (evaluatePolicies_covered d.now d.attempt loaded.1 deviceId 0 loaded.2).bind
      fun _ => covered_lift d.attempt.commit

theorem handleEvaluateDevice_nodup (d : Delivery) (data : Dict PyVal) :
    (publishedRefs (d.run B data)).Nodup := by
  have hEmits : ∃ out : List ActionRef, out.Nodup ∧
      Emits Event.published? (d.run B data) out := by
    unfold Delivery.run handleEvaluateDevice
    cases item data "device_id" with
    | error e => exact ⟨[], List.nodup_nil, List.nil_sublist _⟩
    | ok deviceId =>
      rw [Traced.lift_ok_bind]
      cases loadDevice B d.tables deviceId with
      | error e => exact ⟨[], List.nodup_nil, List.nil_sublist _⟩
      | ok found =>
        rw [Traced.lift_ok_bind]
        cases found with
        | none =>
          exact ⟨[], List.nodup_nil, (Traced.emits_lift Event.published? (.ok ())).bind
            fun _ _ => Traced.emits_lift _ d.attempt.commit⟩
        | some loaded =>
          refine ⟨candidateRefs (B := B) d.now loaded.1 0 loaded.2 ++ [], ?_,
            (evaluatePolicies_emits d.now d.attempt loaded.1 deviceId 0 loaded.2).bind
              fun _ _ => Traced.emits_lift _ d.attempt.commit⟩
          rw [List.append_nil]
          exact candidateRefs_nodup d.now loaded.1 0 loaded.2
  obtain ⟨out, hNodup, hOut⟩ := hEmits
  exact hNodup.sublist hOut

end Published

/-! ## All deliveries of one message -/

section Redelivery

variable (B : Builtins)

/-- The runs of the handler on one message: it comes again until a run returns. -/
def redeliver (data : Dict PyVal) : List Delivery → List (Run Unit)
  | [] => []
  | d :: ds => if (d.run B data).raises then d.run B data :: redeliver data ds else [d.run B data]

/-- The deliveries that take place: those before and the first one with no failing step. -/
def reached (data : Dict PyVal) : List Delivery → List Delivery
  | [] => []
  | d :: ds => if Step.anyFails (deliverySteps B d data) then d :: reached data ds else [d]

/-- The policies whose evaluation rows a run leaves in the database. -/
def keptRows (x : Run Unit) : List Nat :=
  if x.raises then [] else x.events.filterMap Event.inserted?

/-- No action is published without its row, and none twice. -/
structure PublishedOnce (runs : List (Run Unit)) : Prop where
  rowsKept : ∀ x ∈ runs, ∀ ref ∈ publishedRefs x, ref.policy ∈ keptRows x
  atMostOnce : ∀ ref, (runs.flatMap publishedRefs).count ref ≤ 1

variable {B}

theorem redeliver_eq (data : Dict PyVal) (ds : List Delivery) :
    redeliver B data ds = (reached B data ds).map fun d => d.run B data := by
  induction ds with
  | nil => rfl
  | cons d ds ih =>
    rw [redeliver, reached, ← (handleEvaluateDevice_follows d data).raises, ih]
    split <;> rfl

theorem failsBeforeSending_iff {d : Delivery} {data : Dict PyVal} :
    FailsBeforeSending (deliverySteps B d data) ↔
      ((d.run B data).raises = true → publishedRefs (d.run B data) = []) := by
  rw [publishedRefs_eq_nil, (handleEvaluateDevice_follows d data).raises,
    (handleEvaluateDevice_follows d data).sends]
  rfl

theorem rowsKept_iff {d : Delivery} {data : Dict PyVal} :
    (∀ ref ∈ publishedRefs (d.run B data), ref.policy ∈ keptRows (d.run B data)) ↔
      FailsBeforeSending (deliverySteps B d data) := by
  rw [failsBeforeSending_iff]
  cases hRaises : (d.run B data).raises with
  | false =>
    refine iff_of_true ?_ fun h => nomatch h
    rw [keptRows, hRaises]
    exact handleEvaluateDevice_covered d data
  | true => simp [keptRows, hRaises, List.eq_nil_iff_forall_not_mem]

/-- When the failing deliveries publish nothing, only the last delivery publishes. -/
theorem count_published_le {data : Dict PyVal} {ds : List Delivery}
    (h : ∀ d ∈ reached B data ds, FailsBeforeSending (deliverySteps B d data)) (ref : ActionRef) :
    ((redeliver B data ds).flatMap publishedRefs).count ref ≤ 1 := by
  induction ds with
  | nil => simp [redeliver]
  | cons d ds ih =>
    have hSame := (handleEvaluateDevice_follows (B := B) d data).raises
    rw [reached, ← hSame] at h
    rw [redeliver]
    cases hRaises : (d.run B data).raises with
    | false =>
      have hOnce := List.nodup_iff_count.mp (handleEvaluateDevice_nodup (B := B) d data) ref
      simpa using hOnce
    | true =>
      rw [hRaises, if_pos rfl, List.forall_mem_cons] at h
      rw [if_pos rfl, List.flatMap_cons, failsBeforeSending_iff.mp h.1 hRaises, List.nil_append]
      exact ih h.2

end Redelivery

/-! ## A row rejected after a message went out -/

def noon : Now := ⟨12, 0, 2, 15, 7, "2026-07-15"⟩

def vlanAction (vlan : Int) : PyVal :=
  .dict [("type", .str "vlan_assign"), ("params", .dict [("vlan_id", .int vlan)])]

/-- A policy without conditions. -/
def matchAll (id : String) (priority : Int) (actions : PyVal) : PolicyRow :=
  ⟨.str id, .str id, priority, .list [], actions, .list []⟩

def oneDevice (policies : List PolicyRow) : Tables where
  device _ := .ok (some [("id", .str "d1"), ("mac_address", .str "00:11:22:33:44:55"),
    ("tenant_id", .str "t1")])
  properties _ := .ok []
  enabledPolicies _ := .ok policies

def allAccepted : Attempt := ⟨fun _ => .ok (), fun _ _ => .sent, .ok ()⟩

/-- The second evaluation row is rejected. -/
def secondRejected : Attempt :=
  { allAccepted with
    insert := fun k => if k = 1 then .error (.other "ForeignKeyViolationError") else .ok () }

def twoPolicies : List PolicyRow :=
  [matchAll "p1" 50 (.list [vlanAction 99]), matchAll "p2" 100 (.list [])]

end OpenRadiusWeb.Policy
