import OpenRadiusWeb.Policy.Delivery
import Mathlib.Data.List.TakeWhile

/-! # The first matching policy

The gateway's simulation names the first policy whose conditions all match. The engine
executes the actions of every policy it passes, matching or not, until something raises.
The two agree when only the first matching policy has anything to execute.
-/

namespace OpenRadiusWeb.Policy

structure WinningPolicy where
  policyId : String
  policyName : PyVal
  priority : Int
  actions : PyVal

structure SimulationResult where
  deviceContext : Context
  winningPolicy : Option WinningPolicy
  allEvaluations : List EvaluationDetails
  totalPolicies : Nat

section Simulate

variable (B : Builtins) (now : Now)

def PolicyRow.asWinner (policy : PolicyRow) : WinningPolicy :=
  ⟨policy.id.toStr B, policy.name, policy.priority, policy.matchActions⟩

/-- The loop of `simulate_all_policies`. -/
def simulatePolicies (context : Context) : List PolicyRow → List EvaluationDetails →
    Option WinningPolicy → Except PyErr (List EvaluationDetails × Option WinningPolicy)
  | [], results, winning => .ok (results, winning)
  | policy :: policies, results, winning => do
    let r ← evaluateWithDetails B now policy context
    simulatePolicies context policies (results ++ [r])
      (if r.matched ∧ winning.isNone then some (policy.asWinner B) else winning)

/-- `simulate_all_policies` on the rows of `list_enabled_policies`. -/
def simulateAllPolicies (policies : List PolicyRow) (context : Context) :
    Except PyErr SimulationResult := do
  let (results, winning) ← simulatePolicies B now context policies [] none
  return ⟨context, winning, results, policies.length⟩

/-- The first policy whose conditions all match, with its position. -/
def firstMatch (context : Context) : Nat → List PolicyRow → Option (Nat × PolicyRow)
  | _, [] => none
  | k, policy :: policies =>
    if evaluate B now policy context = .ok true then some (k, policy)
    else firstMatch context (k + 1) policies

def Details (context : Context) (policies : List PolicyRow) : Prop :=
  ∀ policy ∈ policies, ∃ r, evaluateWithDetails B now policy context = .ok r

variable {B now}

theorem simulatePolicies_of_details {context : Context} {policies : List PolicyRow}
    (h : Details B now context policies) (results : List EvaluationDetails) (k : Nat)
    (winning : Option WinningPolicy) :
    ∃ rs, simulatePolicies B now context policies results winning =
      .ok (rs, winning.or ((firstMatch B now context k policies).map fun w => w.2.asWinner B)) := by
  induction policies generalizing results k winning with
  | nil => exact ⟨results, by cases winning <;> rfl⟩
  | cons policy policies ih =>
    obtain ⟨⟨r, hDetails⟩, hRest⟩ := List.forall_mem_cons.mp h
    have hEval := evaluate_of_details hDetails
    obtain ⟨rs, hSimulate⟩ := ih hRest (results ++ [r]) (k + 1)
      (if r.matched ∧ winning.isNone then some (policy.asWinner B) else winning)
    refine ⟨rs, ?_⟩
    rw [simulatePolicies, hDetails]
    refine hSimulate.trans ?_
    rw [firstMatch, hEval]
    cases r.matched <;> cases winning <;> simp

theorem details_of_simulatePolicies {context : Context} {policies : List PolicyRow}
    {results : List EvaluationDetails} {winning : Option WinningPolicy}
    {out : List EvaluationDetails × Option WinningPolicy}
    (h : simulatePolicies B now context policies results winning = .ok out) :
    Details B now context policies := by
  induction policies generalizing results winning with
  | nil => intro policy hp; cases hp
  | cons policy policies ih =>
    obtain ⟨r, hDetails, hRest⟩ := Except.ok_of_bind h
    exact List.forall_mem_cons.mpr ⟨⟨r, hDetails⟩, ih hRest⟩

/-- The simulation answers when every detailed evaluation does, and then names the first
matching policy. -/
theorem simulateAllPolicies_spec (policies : List PolicyRow) (context : Context) :
    (∃ r, simulateAllPolicies B now policies context = .ok r ∧
      r.winningPolicy = (firstMatch B now context 0 policies).map fun w => w.2.asWinner B) ↔
    Details B now context policies := by
  constructor
  · rintro ⟨r, hSimulate, -⟩
    obtain ⟨out, hLoop, -⟩ := Except.ok_of_bind hSimulate
    exact details_of_simulatePolicies hLoop
  · intro h
    obtain ⟨rs, hLoop⟩ := simulatePolicies_of_details h [] 0 none
    rw [simulateAllPolicies, hLoop]
    exact ⟨_, rfl, by simp⟩

end Simulate

/-! ## What the engine executes -/

def Event.executed? : Event → Option (ActionRef × Dict PyVal)
  | .executed ref action => some (ref, action)
  | _ => none

def executedActions {α : Type} (x : Run α) : List (ActionRef × Dict PyVal) :=
  x.events.filterMap Event.executed?

/-- The actions of a value, by position. -/
def listedActions (actions : PyVal) : List (Nat × Dict PyVal) :=
  match actionDicts actions with
  | .ok listed => listed
  | .error _ => []

/-- Nothing, or a list of dictionaries. -/
def OnlyDicts (actions : PyVal) : Prop :=
  actions.truthy = false ∨ ∃ dicts : List (Dict PyVal), actions = .list (dicts.map .dict)

def refer (k : Nat) (matched : Bool) (a : Nat × Dict PyVal) : ActionRef × Dict PyVal :=
  (⟨k, matched, a.1⟩, a.2)

section Conditions

variable (B : Builtins) (now : Now) (attempt : Attempt) (context : Context)

/-- Does executing the action raise? -/
def actionFails (k : Nat) (matched : Bool) (a : Nat × Dict PyVal) : Bool :=
  (actionStep B attempt context ⟨k, matched, a.1⟩ a.2).fails

def rowRejected (k : Nat) : Bool := Step.anyFails (Step.ofResult (attempt.insert k))

/-- The policy has no action to execute: its row is rejected, it has none, or the first
one raises. -/
def Idle (k : Nat) (policy : PolicyRow) (matched : Bool) : Prop :=
  rowRejected attempt k = true ∨
    ∀ a ∈ (listedActions (chosenActions policy matched)).head?,
      actionFails B attempt context k matched a = true

/-- All the policy's match actions are dictionaries and execute. -/
def Completes (k : Nat) (policy : PolicyRow) : Prop :=
  policy.matchActions.truthy = false ∨
    (rowRejected attempt k = false ∧ OnlyDicts policy.matchActions ∧
      ∀ a ∈ listedActions policy.matchActions, actionFails B attempt context k true a = false)

def stops (k : Nat) (policy : PolicyRow) (matched : Bool) : Bool :=
  Step.anyFails (verdictSteps B attempt context k policy matched)

/-- From position `k` on, no policy has an action to execute until one raises. -/
def IdleFrom : Nat → List PolicyRow → Prop
  | _, [] => True
  | k, policy :: policies =>
    match evaluate B now policy context with
    | .error _ => True
    | .ok matched => Idle B attempt context k policy matched ∧
        (stops B attempt context k policy matched = false → IdleFrom (k + 1) policies)

/-- No policy before the first matching one has an action to execute, nor one after it until
something raises, and the first matching one executes all of its own. -/
def OnlyWinnerActs : Nat → List PolicyRow → Prop
  | _, [] => True
  | k, policy :: policies =>
    match evaluate B now policy context with
    | .error _ => False
    | .ok true => Completes B attempt context k policy ∧
        (stops B attempt context k policy true = false → IdleFrom B now attempt context (k + 1) policies)
    | .ok false => Idle B attempt context k policy false ∧
        if stops B attempt context k policy false then
          ∀ winner ∈ firstMatch B now context (k + 1) policies,
            winner.2.matchActions.truthy = false
        else OnlyWinnerActs (k + 1) policies

end Conditions

section Executed

variable {B : Builtins} {now : Now} {attempt : Attempt} {context : Context}

theorem executedActions_bind {α β : Type} (x : Run α) (f : α → Run β) :
    executedActions (x >>= f) = executedActions x ++
      match x.result with
      | .ok a => executedActions (f a)
      | .error _ => [] := by
  unfold executedActions
  cases hResult : x.result with
  | error e => rw [Traced.bind_of_error f hResult, List.append_nil]
  | ok a => rw [Traced.bind_of_ok f hResult, List.filterMap_append]

theorem executeAction_executed (k : Nat) (matched : Bool) (a : Nat × Dict PyVal) :
    executedActions (executeAction B attempt context ⟨k, matched, a.1⟩ a.2) =
      if actionFails B attempt context k matched a then [] else [refer k matched a] := by
  unfold executeAction actionFails actionStep
  cases actionMessage B a.2 context with
  | error e => rfl
  | ok message? =>
    cases message? with
    | none => rfl
    | some message =>
      rw [Traced.lift_ok_bind]
      dsimp only [publish]
      cases attempt.publish k a.1 <;> rfl

theorem result_of_not_raises {α : Type} {x : Run α} (h : x.raises = false) :
    ∃ a, x.result = .ok a := Traced.raises_eq_false.mp h

theorem result_of_raises {α : Type} {x : Run α} (h : x.raises = true) :
    ∃ e, x.result = .error e := by
  unfold Traced.raises at h
  cases hResult : x.result with
  | error e => exact ⟨e, rfl⟩
  | ok a =>
    rw [hResult] at h
    cases h

/-- The actions of a turn are executed up to the first one that raises. -/
theorem executeActions_executed (k : Nat) (matched : Bool) (actions : List (Nat × Dict PyVal)) :
    executedActions (executeActions B attempt context k matched actions) =
      (actions.takeWhile fun a => !actionFails B attempt context k matched a).map
        (refer k matched) := by
  induction actions with
  | nil => rfl
  | cons a rest ih =>
    have hRaises := (executeAction_follows (B := B) attempt context ⟨k, matched, a.1⟩ a.2).raises
    have hFails : Step.anyFails [actionStep B attempt context ⟨k, matched, a.1⟩ a.2] =
        actionFails B attempt context k matched a := Bool.or_false _
    rw [executeActions, executedActions_bind, executeAction_executed, List.takeWhile_cons]
    rw [hFails] at hRaises
    cases hStep : actionFails B attempt context k matched a with
    | true =>
      obtain ⟨e, hResult⟩ := result_of_raises (hRaises.trans hStep)
      simp [hResult]
    | false =>
      obtain ⟨u, hResult⟩ := result_of_not_raises (hRaises.trans hStep)
      simp [hResult, ih]

def verdictActions (B : Builtins) (attempt : Attempt) (context : Context) (k : Nat)
    (policy : PolicyRow) (matched : Bool) : List (ActionRef × Dict PyVal) :=
  if rowRejected attempt k then []
  else ((listedActions (chosenActions policy matched)).takeWhile
    fun a => !actionFails B attempt context k matched a).map (refer k matched)

theorem applyVerdict_executed (deviceId : PyVal) (k : Nat) (policy : PolicyRow) (matched : Bool) :
    executedActions (applyVerdict B attempt context deviceId k policy matched) =
      verdictActions B attempt context k policy matched := by
  unfold applyVerdict insertEvaluation verdictActions rowRejected
  cases attempt.insert k with
  | error e => rfl
  | ok u =>
    rw [executedActions_bind]
    dsimp only [Traced.emit]
    unfold listedActions
    cases actionDicts (chosenActions policy matched) with
    | error e => rfl
    | ok actions =>
      rw [Traced.lift_ok_bind, executeActions_executed]
      rfl

theorem evaluatePolicies_executed (deviceId : PyVal) (k : Nat) (policy : PolicyRow)
    (policies : List PolicyRow) {matched : Bool}
    (hEval : evaluate B now policy context = .ok matched) :
    executedActions (evaluatePolicies B now attempt context deviceId k (policy :: policies)) =
      verdictActions B attempt context k policy matched ++
        if stops B attempt context k policy matched then []
        else executedActions (evaluatePolicies B now attempt context deviceId (k + 1) policies) := by
  have hRaises := (applyVerdict_follows (B := B) attempt context deviceId k policy matched).raises
  rw [evaluatePolicies, hEval, Traced.lift_ok_bind, executedActions_bind, applyVerdict_executed]
  unfold stops
  cases hStops : Step.anyFails (verdictSteps B attempt context k policy matched) with
  | true =>
    obtain ⟨e, hResult⟩ := result_of_raises (hRaises.trans hStops)
    rw [hResult]
    rfl
  | false =>
    obtain ⟨u, hResult⟩ := result_of_not_raises (hRaises.trans hStops)
    rw [hResult]
    rfl

theorem verdictActions_policy {k : Nat} {policy : PolicyRow} {matched : Bool}
    {a : ActionRef × Dict PyVal} (h : a ∈ verdictActions B attempt context k policy matched) :
    a.1.policy = k := by
  unfold verdictActions at h
  split at h
  · cases h
  · obtain ⟨b, -, rfl⟩ := List.mem_map.mp h
    rfl

theorem evaluatePolicies_policy {deviceId : PyVal} {k : Nat} {policies : List PolicyRow}
    {a : ActionRef × Dict PyVal}
    (h : a ∈ executedActions (evaluatePolicies B now attempt context deviceId k policies)) :
    k ≤ a.1.policy := by
  induction policies generalizing k with
  | nil => cases h
  | cons policy policies ih =>
    cases hEval : evaluate B now policy context with
    | error e =>
      rw [evaluatePolicies, hEval] at h
      cases h
    | ok matched =>
      rw [evaluatePolicies_executed deviceId k policy policies hEval, List.mem_append] at h
      rcases h with hHead | hTail
      · exact (verdictActions_policy hHead).ge
      · split at hTail
        · cases hTail
        · have := ih hTail
          omega

theorem firstMatch_position {k i : Nat} {policies : List PolicyRow} {policy : PolicyRow}
    (h : firstMatch B now context k policies = some (i, policy)) : k ≤ i := by
  induction policies generalizing k with
  | nil => cases h
  | cons p policies ih =>
    rw [firstMatch] at h
    split at h
    · cases h
      exact le_rfl
    · have := ih h
      omega

theorem verdictActions_eq_nil {k : Nat} {policy : PolicyRow} {matched : Bool} :
    verdictActions B attempt context k policy matched = [] ↔
      Idle B attempt context k policy matched := by
  unfold verdictActions Idle
  cases rowRejected attempt k with
  | true => simp
  | false =>
    cases listedActions (chosenActions policy matched) with
    | nil => simp
    | cons a rest =>
      cases hFails : actionFails B attempt context k matched a <;>
        simp [hFails]

theorem listedActions_of_falsy {actions : PyVal} (h : actions.truthy = false) :
    listedActions actions = [] := by
  rw [listedActions, actionDicts, h]
  rfl

theorem falsy_of_listed_nil {actions : PyVal} (hDicts : OnlyDicts actions)
    (h : listedActions actions = []) : actions.truthy = false := by
  rcases hDicts with hFalsy | ⟨ds, rfl⟩
  · exact hFalsy
  · cases ds with
    | nil => rfl
    | cons d ds => cases h

theorem completes_iff {k : Nat} {policy : PolicyRow} :
    OnlyDicts policy.matchActions ∧ verdictActions B attempt context k policy true =
        (listedActions policy.matchActions).map (refer k true) ↔
      Completes B attempt context k policy := by
  unfold verdictActions Completes
  simp only [chosenActions, if_true]
  constructor
  · rintro ⟨hDicts, hAll⟩
    cases hRejected : rowRejected attempt k with
    | true =>
      rw [if_pos hRejected] at hAll
      exact .inl (falsy_of_listed_nil hDicts (List.map_eq_nil_iff.mp hAll.symm))
    | false =>
      refine .inr ⟨rfl, hDicts, fun a ha => ?_⟩
      rw [hRejected, if_neg Bool.false_ne_true] at hAll
      have hLength := congrArg List.length hAll
      rw [List.length_map, List.length_map] at hLength
      rw [← (List.takeWhile_prefix _).eq_of_length hLength] at ha
      simpa using List.mem_takeWhile_imp ha
  · rintro (hFalsy | ⟨hRejected, hDicts, hFails⟩)
    · rw [listedActions_of_falsy hFalsy]
      exact ⟨.inl hFalsy, by simp⟩
    · rw [hRejected, if_neg Bool.false_ne_true, List.takeWhile_eq_self_iff.mpr]
      · exact ⟨hDicts, rfl⟩
      · intro a ha
        rw [hFails a ha]
        rfl

theorem idleFrom_iff (deviceId : PyVal) (k : Nat) (policies : List PolicyRow) :
    executedActions (evaluatePolicies B now attempt context deviceId k policies) = [] ↔
      IdleFrom B now attempt context k policies := by
  induction policies generalizing k with
  | nil => exact iff_of_true rfl trivial
  | cons policy policies ih =>
    unfold IdleFrom
    cases hEval : evaluate B now policy context with
    | error e =>
      rw [evaluatePolicies, hEval]
      exact iff_of_true rfl trivial
    | ok matched =>
      rw [evaluatePolicies_executed deviceId k policy policies hEval, List.append_eq_nil_iff,
        verdictActions_eq_nil]
      refine and_congr_right fun _ => ?_
      cases stops B attempt context k policy matched with
      | true => simp
      | false => simpa using ih (k + 1)

end Executed

/-- What a run executed is what the first matching policy lists, and nothing without one. -/
def ExecutesWinner (B : Builtins) (now : Now) (context : Context) (k : Nat)
    (policies : List PolicyRow) (executed : List (ActionRef × Dict PyVal)) : Prop :=
  match firstMatch B now context k policies with
  | some (i, winner) => OnlyDicts winner.matchActions ∧
      executed = (listedActions winner.matchActions).map (refer i true)
  | none => executed = []

section Wins

variable {B : Builtins} {now : Now} {attempt : Attempt} {context : Context}

theorem executesWinner_of_match {deviceId : PyVal} {k : Nat} {policy : PolicyRow}
    {policies : List PolicyRow} (hEval : evaluate B now policy context = .ok true) :
    ExecutesWinner B now context k (policy :: policies)
        (executedActions
          (evaluatePolicies B now attempt context deviceId k (policy :: policies))) ↔
      Completes B attempt context k policy ∧
        (stops B attempt context k policy true = false →
          IdleFrom B now attempt context (k + 1) policies) := by
  unfold ExecutesWinner
  rw [firstMatch, if_pos hEval, evaluatePolicies_executed deviceId k policy policies hEval,
    ← completes_iff, ← idleFrom_iff deviceId]
  dsimp only
  constructor
  · rintro ⟨hDicts, hExecuted⟩
    have hTail : (if stops B attempt context k policy true then [] else
        executedActions (evaluatePolicies B now attempt context deviceId (k + 1) policies)) = [] := by
      refine List.eq_nil_iff_forall_not_mem.mpr fun a ha => ?_
      have hMem := hExecuted ▸ List.mem_append_right _ ha
      obtain ⟨b, -, rfl⟩ := List.mem_map.mp hMem
      split at ha
      · cases ha
      · have := evaluatePolicies_policy ha
        simp only [refer] at this
        omega
    rw [hTail, List.append_nil] at hExecuted
    refine ⟨⟨hDicts, hExecuted⟩, fun hStops => ?_⟩
    rwa [hStops, if_neg Bool.false_ne_true] at hTail
  · rintro ⟨⟨hDicts, hExecuted⟩, hTail⟩
    refine ⟨hDicts, ?_⟩
    rw [hExecuted]
    cases hStops : stops B attempt context k policy true with
    | true => simp
    | false => simp [hTail hStops]

theorem executesWinner_of_no_match {deviceId : PyVal} {k : Nat} {policy : PolicyRow}
    {policies : List PolicyRow} (hEval : evaluate B now policy context = .ok false) :
    ExecutesWinner B now context k (policy :: policies)
        (executedActions
          (evaluatePolicies B now attempt context deviceId k (policy :: policies))) ↔
      Idle B attempt context k policy false ∧
        ExecutesWinner B now context (k + 1) policies
          (if stops B attempt context k policy false then [] else
            executedActions (evaluatePolicies B now attempt context deviceId (k + 1) policies)) := by
  unfold ExecutesWinner
  rw [firstMatch, if_neg (by simp [hEval]), evaluatePolicies_executed deviceId k policy policies hEval,
    ← verdictActions_eq_nil]
  cases hFirst : firstMatch B now context (k + 1) policies with
  | none => exact List.append_eq_nil_iff
  | some found =>
    obtain ⟨i, winner⟩ := found
    have hLater := firstMatch_position hFirst
    constructor
    · rintro ⟨hDicts, hExecuted⟩
      have hHead : verdictActions B attempt context k policy false = [] := by
        refine List.eq_nil_iff_forall_not_mem.mpr fun a ha => ?_
        have hMem := hExecuted ▸ List.mem_append_left _ ha
        obtain ⟨b, -, rfl⟩ := List.mem_map.mp hMem
        have := verdictActions_policy ha
        simp only [refer] at this
        omega
      rw [hHead, List.nil_append] at hExecuted
      exact ⟨hHead, hDicts, hExecuted⟩
    · rintro ⟨hHead, hDicts, hExecuted⟩
      rw [hHead, List.nil_append]
      exact ⟨hDicts, hExecuted⟩

theorem executesWinner_nil {k : Nat} {policies : List PolicyRow} :
    ExecutesWinner B now context k policies [] ↔
      ∀ winner ∈ firstMatch B now context k policies, winner.2.matchActions.truthy = false := by
  unfold ExecutesWinner
  cases firstMatch B now context k policies with
  | none => simp
  | some found =>
    obtain ⟨i, winner⟩ := found
    constructor
    · rintro ⟨hDicts, hNil⟩ w hw
      cases hw
      exact falsy_of_listed_nil hDicts (List.map_eq_nil_iff.mp hNil.symm)
    · intro h
      have hFalsy := h (i, winner) rfl
      exact ⟨.inl hFalsy, by rw [listedActions_of_falsy hFalsy]; rfl⟩

theorem executesWinner_iff {policies : List PolicyRow} (h : Details B now context policies)
    (deviceId : PyVal) (k : Nat) :
    ExecutesWinner B now context k policies
        (executedActions (evaluatePolicies B now attempt context deviceId k policies)) ↔
      OnlyWinnerActs B now attempt context k policies := by
  induction policies generalizing k with
  | nil => exact iff_of_true rfl trivial
  | cons policy policies ih =>
    obtain ⟨⟨r, hDetails⟩, hRest⟩ := List.forall_mem_cons.mp h
    have hEval := evaluate_of_details hDetails
    unfold OnlyWinnerActs
    cases hMatched : r.matched with
    | true =>
      rw [hMatched] at hEval
      rw [hEval]
      exact executesWinner_of_match hEval
    | false =>
      rw [hMatched] at hEval
      rw [hEval, executesWinner_of_no_match hEval]
      refine and_congr_right fun _ => ?_
      cases stops B attempt context k policy false with
      | true => exact executesWinner_nil
      | false => exact ih hRest (k + 1)

end Wins

/-- The engine executes exactly the match actions of the first matching policy, and the
gateway's simulation names that policy and those actions. -/
structure FirstMatchWins (B : Builtins) (now : Now) (context : Context)
    (policies : List PolicyRow) (run : Run Unit) : Prop where
  executed : ExecutesWinner B now context 0 policies (executedActions run)
  simulated : ∃ r, simulateAllPolicies B now policies context = .ok r ∧
    r.winningPolicy = (firstMatch B now context 0 policies).map fun w => w.2.asWinner B

theorem run_executed {B : Builtins} {d : Delivery} {data : Dict PyVal} {deviceId : PyVal}
    {context : Context} {policies : List PolicyRow} (hData : item data "device_id" = .ok deviceId)
    (hLoad : loadDevice B d.tables deviceId = .ok (some (context, policies))) :
    executedActions (d.run B data) =
      executedActions (evaluatePolicies B d.now d.attempt context deviceId 0 policies) := by
  unfold Delivery.run handleEvaluateDevice
  rw [hData, Traced.lift_ok_bind, hLoad, Traced.lift_ok_bind]
  exact congrArg (List.filterMap Event.executed?) Traced.lift_bind_events

/-- The first matching policy wins exactly when every detailed evaluation returns and no
other policy of the list has anything to execute. -/
theorem handleEvaluateDevice_firstMatch {B : Builtins} {d : Delivery} {data : Dict PyVal}
    {deviceId : PyVal} {context : Context} {policies : List PolicyRow}
    (hData : item data "device_id" = .ok deviceId)
    (hLoad : loadDevice B d.tables deviceId = .ok (some (context, policies))) :
    FirstMatchWins B d.now context policies (d.run B data) ↔
      Details B d.now context policies ∧
        OnlyWinnerActs B d.now d.attempt context 0 policies := by
  constructor
  · rintro ⟨hExecuted, hSimulated⟩
    have hDetails := (simulateAllPolicies_spec policies context).mp hSimulated
    rw [run_executed hData hLoad] at hExecuted
    exact ⟨hDetails, (executesWinner_iff hDetails deviceId 0).mp hExecuted⟩
  · rintro ⟨hDetails, hActs⟩
    refine ⟨?_, (simulateAllPolicies_spec policies context).mpr hDetails⟩
    rw [run_executed hData hLoad]
    exact (executesWinner_iff hDetails deviceId 0).mpr hActs

/-- The context of the device in `oneDevice`. -/
def oneContext : Context := [("id", .str "d1"), ("mac_address", .str "00:11:22:33:44:55"),
  ("tenant_id", .str "t1"), ("properties", .dict [])]

def oneDelivery (policies : List PolicyRow) (attempt : Attempt) : Delivery :=
  ⟨noon, oneDevice policies, attempt⟩

theorem oneDevice_load (policies : List PolicyRow) :
    loadDevice plainBuiltins (oneDevice policies) (.str "d1") = .ok (some (oneContext, policies)) :=
  rfl

def quarantineAll : List PolicyRow := [matchAll "p1" 50 (.list [vlanAction 99])]

theorem single_policy_wins :
    FirstMatchWins plainBuiltins noon oneContext quarantineAll
      ((oneDelivery quarantineAll allAccepted).run plainBuiltins [("device_id", .str "d1")]) := by
  refine (handleEvaluateDevice_firstMatch (d := oneDelivery quarantineAll allAccepted) rfl
    (oneDevice_load quarantineAll)).mpr ⟨?_, ?_⟩
  · exact List.forall_mem_cons.mpr ⟨⟨_, rfl⟩, by simp⟩
  · refine ⟨.inr ⟨rfl, .inr ⟨[[("type", .str "vlan_assign"),
      ("params", .dict [("vlan_id", .int 99)])]], rfl⟩, ?_⟩, fun _ => trivial⟩
    intro a ha
    obtain rfl := List.mem_singleton.mp ha
    decide

/-- A policy for devices with a risk score that has an action for the others. -/
def riskPolicy : PolicyRow :=
  ⟨.str "p1", .str "p1", 50,
    .list [.dict [("field", .str "device.risk_score"), ("operator", .str "exists")]],
    .list [], .list [vlanAction 20]⟩

def riskPolicies : List PolicyRow := [riskPolicy, matchAll "p2" 100 (.list [vlanAction 10])]

def noneAccepted : Attempt :=
  { allAccepted with insert := fun _ => .error (.other "ProgrammingError") }

theorem no_match_actions_compete :
    ¬FirstMatchWins plainBuiltins noon oneContext riskPolicies
        ((oneDelivery riskPolicies allAccepted).run plainBuiltins [("device_id", .str "d1")]) ∧
      ¬FirstMatchWins plainBuiltins noon oneContext riskPolicies
        ((oneDelivery riskPolicies noneAccepted).run plainBuiltins
          [("device_id", .str "d1")]) := by
  have hEval : evaluate plainBuiltins noon riskPolicy oneContext = .ok false := by rfl
  have hSplit : ∀ attempt, ExecutesWinner plainBuiltins noon oneContext 0 riskPolicies
      (executedActions ((oneDelivery riskPolicies attempt).run plainBuiltins
        [("device_id", .str "d1")])) →
      Idle plainBuiltins attempt oneContext 0 riskPolicy false ∧
        ExecutesWinner plainBuiltins noon oneContext 1 [matchAll "p2" 100 (.list [vlanAction 10])]
          (if stops plainBuiltins attempt oneContext 0 riskPolicy false then [] else
            executedActions (evaluatePolicies plainBuiltins noon attempt oneContext (.str "d1") 1
              [matchAll "p2" 100 (.list [vlanAction 10])])) := by
    intro attempt h
    rw [run_executed (d := oneDelivery riskPolicies attempt)
      (rfl : item [("device_id", .str "d1")] "device_id" = .ok (.str "d1"))
      (oneDevice_load riskPolicies)] at h
    exact (executesWinner_of_no_match hEval).mp h
  constructor
  · rintro ⟨hExecuted, -⟩
    rcases (hSplit allAccepted hExecuted).1 with hRejected | hFirst
    · cases hRejected
    · have hFails := hFirst (0, [("type", .str "vlan_assign"),
        ("params", .dict [("vlan_id", .int 20)])]) rfl
      revert hFails
      decide
  · rintro ⟨hExecuted, -⟩
    have hFalsy := executesWinner_nil.mp (hSplit noneAccepted hExecuted).2
      (1, matchAll "p2" 100 (.list [vlanAction 10])) rfl
    cases hFalsy

end OpenRadiusWeb.Policy
