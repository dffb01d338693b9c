import OpenRadiusWeb.Policy.Comparison
import OpenRadiusWeb.Policy.Simulate

/-! # Which policies can be evaluated

A condition raises on a field that is no text and on a hazardous comparison, and conditions
that cannot be iterated raise by themselves. `evaluate` does not get past the first condition
that fails, `evaluate_with_details` checks them all, and neither the engine's loop nor the
gateway's survives a policy that raises.
-/

namespace OpenRadiusWeb.Policy

section Conditions

variable (B : Builtins) (now : Now) (context : Context)

/-- The condition names its field by a text, or by nothing, and compares it without a hazard. -/
def Checkable (condition : Dict PyVal) : Prop :=
  let field := condition.getD "field" (.str "")
  (field.truthy = false ∨ ∃ name, field = .str name) ∧
    ∀ actual op, resolveField now context field = .ok actual →
      condition.getD "operator" (.str "equals") = .str op →
      ¬Hazard B actual op (condition.getD "value" .none)

def Passes (condition : Dict PyVal) : Prop :=
  ∃ r, checkCondition B now context condition = .ok r ∧ r.matched = true

/-- Every condition up to the first one that fails can be checked. -/
def Walkable : List PyVal → Prop
  | [] => True
  | .dict condition :: rest =>
    Checkable B now context condition ∧ (Passes B now context condition → Walkable rest)
  | _ :: rest => Walkable rest

def AllCheckable (conditions : List PyVal) : Prop :=
  ∀ condition, .dict condition ∈ conditions → Checkable B now context condition

/-- If the conditions before one pass, it can be checked and it fails, then those behind it can
be checked too. -/
def Settled : List PyVal → Prop
  | [] => True
  | .dict condition :: rest => Checkable B now context condition →
    (Passes B now context condition → Settled rest) ∧
      (¬Passes B now context condition → AllCheckable B now context rest)
  | _ :: rest => Settled rest

/-- `evaluate` returns on the policy. -/
def Evaluable (policy : PolicyRow) : Prop :=
  policy.conditions.truthy = true →
    ∃ conditions, policy.conditions.iter = .ok conditions ∧ Walkable B now context conditions

/-- `evaluate_with_details` returns on the policy. -/
def Inspectable (policy : PolicyRow) : Prop :=
  ∃ conditions, policy.conditions.iter = .ok conditions ∧ AllCheckable B now context conditions

variable {B now context}

theorem resolveField_returns_iff {field : PyVal} : (∃ actual, resolveField now context field = .ok actual) ↔
    (field.truthy = false ∨ ∃ name, field = .str name) := by
  unfold resolveField
  split
  · rename_i hFalsy
    exact iff_of_true ⟨_, rfl⟩ (.inl hFalsy)
  · rename_i hTruthy
    rw [or_iff_right hTruthy]
    cases field with
    | str name => exact iff_of_true ⟨_, rfl⟩ ⟨name, rfl⟩
    | _ =>
      refine iff_of_false ?_ nofun
      dsimp only
      split <;> exact nofun

theorem checkCondition_returns_iff {condition : Dict PyVal} :
    (∃ r, checkCondition B now context condition = .ok r) ↔ Checkable B now context condition := by
  rw [checkCondition, Except.exists_ok_bind, Checkable]
  constructor
  · rintro ⟨actual, hActual, hRest⟩
    obtain ⟨matched, hMatched⟩ := Except.exists_ok_bind_pure.mp hRest
    refine ⟨resolveField_returns_iff.mp ⟨actual, hActual⟩, ?_⟩
    intro actual' op hActual' hOp
    cases Except.ok.inj (hActual.symm.trans hActual')
    rw [hOp] at hMatched
    exact compare_returns_iff.mp ⟨matched, hMatched⟩
  · rintro ⟨hField, hHazard⟩
    obtain ⟨actual, hActual⟩ := (@resolveField_returns_iff now context _).mpr hField
    refine ⟨actual, hActual, Except.exists_ok_bind_pure.mpr ?_⟩
    cases hOp : condition.getD "operator" (.str "equals") with
    | str op => exact compare_returns_iff.mpr (hHazard actual op hActual hOp)
    | _ => exact ⟨false, rfl⟩

theorem not_checkable {condition : Dict PyVal} {e : PyErr}
    (h : checkCondition B now context condition = .error e) : ¬Checkable B now context condition := by
  intro hCheckable
  obtain ⟨r, hr⟩ := checkCondition_returns_iff.mpr hCheckable
  rw [h] at hr
  cases hr

theorem passes_iff {condition : Dict PyVal} {r : ConditionResult}
    (h : checkCondition B now context condition = .ok r) :
    Passes B now context condition ↔ r.matched = true := by
  constructor
  · rintro ⟨r', hr', hMatched⟩
    cases Except.ok.inj (h.symm.trans hr')
    exact hMatched
  · exact fun hMatched => ⟨r, h, hMatched⟩

theorem evaluateConditions_returns_iff {conditions : List PyVal} :
    (∃ b, evaluateConditions B now context conditions = .ok b) ↔
      Walkable B now context conditions := by
  induction conditions with
  | nil => exact iff_of_true ⟨true, rfl⟩ trivial
  | cons c rest ih =>
    cases c with
    | dict condition =>
      unfold evaluateConditions Walkable
      cases hCheck : checkCondition B now context condition with
      | error e => exact iff_of_false Except.error_not_ok fun h => not_checkable hCheck h.1
      | ok r =>
        rw [and_iff_right (checkCondition_returns_iff.mp ⟨r, hCheck⟩), passes_iff hCheck, ← ih]
        cases hMatched : r.matched with
        | true => simp [bind, Except.bind, hMatched]
        | false => simp [bind, Except.bind, hMatched, pure, Except.pure]
    | _ => exact ih

theorem allCheckable_cons {c : PyVal} {rest : List PyVal} :
    AllCheckable B now context (c :: rest) ↔
      (∀ condition, c = .dict condition → Checkable B now context condition) ∧
        AllCheckable B now context rest := by
  unfold AllCheckable
  constructor
  · intro h
    exact ⟨fun condition hc => h condition (hc ▸ List.mem_cons_self),
      fun condition hc => h condition (List.mem_cons_of_mem c hc)⟩
  · rintro ⟨hHead, hRest⟩ condition hc
    obtain hc | hc := List.mem_cons.mp hc
    · exact hHead condition hc.symm
    · exact hRest condition hc

theorem conditionResults_returns_iff {conditions : List PyVal} :
    (∃ rs, conditionResults B now context conditions = .ok rs) ↔
      AllCheckable B now context conditions := by
  induction conditions with
  | nil =>
    refine iff_of_true ⟨[], rfl⟩ ?_
    intro condition hc
    cases hc
  | cons c rest ih =>
    rw [allCheckable_cons, ← ih]
    cases c with
    | dict condition =>
      have hHead : (∀ condition', PyVal.dict condition = .dict condition' →
          Checkable B now context condition') ↔ Checkable B now context condition := by
        constructor
        · exact fun h => h condition rfl
        · intro h condition' hSame
          cases hSame
          exact h
      rw [conditionResults, Except.exists_ok_bind, hHead, ← checkCondition_returns_iff]
      simp only [Except.exists_ok_bind_pure, exists_and_right]
    | _ =>
      refine (and_iff_right ?_).symm
      intro condition h
      cases h

theorem evaluate_returns_iff {policy : PolicyRow} :
    (∃ b, evaluate B now policy context = .ok b) ↔ Evaluable B now context policy := by
  unfold evaluate Evaluable
  cases hTruthy : policy.conditions.truthy with
  | false => simp
  | true =>
    simp only [Bool.true_eq_false, if_false, forall_const]
    cases policy.conditions.iter with
    | error e =>
      refine iff_of_false Except.error_not_ok ?_
      rintro ⟨conditions, h, -⟩
      exact Except.error_ne_ok h
    | ok conditions => 
      have hLoop := @evaluateConditions_returns_iff B now context conditions
      simpa [bind, Except.bind] using hLoop

theorem evaluateWithDetails_returns_iff {policy : PolicyRow} :
    (∃ r, evaluateWithDetails B now policy context = .ok r) ↔ Inspectable B now context policy := by
  rw [evaluateWithDetails, Except.exists_ok_bind, Inspectable]
  refine exists_congr fun conditions => and_congr_right fun _ => ?_
  rw [Except.exists_ok_bind_pure, conditionResults_returns_iff]

theorem conditions_agree_iff {conditions : List PyVal} :
    evaluateConditions B now context conditions =
        (conditionResults B now context conditions).map (fun rs => rs.all ConditionResult.matched) ↔
      Settled B now context conditions := by
  induction conditions with
  | nil => exact iff_of_true rfl trivial
  | cons c rest ih =>
    cases c with
    | dict condition =>
      rw [evaluateConditions, conditionResults, Settled]
      cases hCheck : checkCondition B now context condition with
      | error e => exact iff_of_true rfl fun h => absurd h (not_checkable hCheck)
      | ok r =>
        have hCheckable := checkCondition_returns_iff.mp ⟨r, hCheck⟩
        rw [forall_prop_of_true hCheckable, passes_iff hCheck, ← ih, ← conditionResults_returns_iff]
        simp only [bind, Except.bind]
        cases hMatched : r.matched with
        | true =>
          cases conditionResults B now context rest with
          | error e => simp [Except.map]
          | ok rs => simp [Except.map, pure, Except.pure, hMatched]
        | false =>
          cases conditionResults B now context rest with
          | error e => simp [Except.map, pure, Except.pure]
          | ok rs => simp [Except.map, pure, Except.pure, hMatched]
    | _ => exact ih

/-- The conditions can be iterated, unless they are not looked at, and settle the outcome. -/
def SettlesOutcome (B : Builtins) (now : Now) (context : Context) (policy : PolicyRow) : Prop :=
  (policy.conditions.truthy = false → ∃ conditions, policy.conditions.iter = .ok conditions) ∧
    ∀ conditions, policy.conditions.iter = .ok conditions → Settled B now context conditions

theorem evaluations_agree_iff {policy : PolicyRow} :
    evaluate B now policy context =
        (evaluateWithDetails B now policy context).map EvaluationDetails.matched ↔
      SettlesOutcome B now context policy := by
  unfold evaluate evaluateWithDetails SettlesOutcome
  cases hIter : policy.conditions.iter with
  | error e =>
    cases policy.conditions.truthy with
    | false =>
      refine iff_of_false ?_ fun h => Except.error_not_ok (h.1 rfl)
      intro h
      cases h
    | true => exact iff_of_true rfl ⟨nofun, nofun⟩
  | ok conditions =>
    have hLoop := @conditions_agree_iff B now context conditions
    have hSame : (policy.conditions.truthy = false → ∃ cs, Except.ok (ε := PyErr) conditions = .ok cs) ∧
        (∀ cs, Except.ok (ε := PyErr) conditions = .ok cs → Settled B now context cs) ↔
          Settled B now context conditions :=
      ⟨fun h => h.2 conditions rfl, fun h => ⟨fun _ => ⟨conditions, rfl⟩, fun _ hcs => Except.ok.inj hcs ▸ h⟩⟩
    have hMap : ∀ x : Except PyErr (List ConditionResult),
        ((x >>= fun results => return ⟨policy.id, policy.name, results.all ConditionResult.matched,
          results⟩) : Except PyErr EvaluationDetails).map EvaluationDetails.matched =
          x.map fun rs => rs.all ConditionResult.matched := by
      intro x
      cases x <;> rfl
    rw [hSame, ← hLoop]
    cases hTruthy : policy.conditions.truthy with
    | false =>
      obtain rfl := iter_of_not_truthy hIter hTruthy
      exact iff_of_true rfl rfl
    | true =>
      rw [if_neg Bool.true_eq_false.mp, ← hMap]
      exact Iff.rfl

/-- Both evaluations and both copies of them give the verdict of `evaluate`. -/
structure OneOutcome (B : Builtins) (now : Now) (context : Context) (policy : PolicyRow) : Prop where
  engine : evaluate B now policy context =
    (evaluateWithDetails B now policy context).map EvaluationDetails.matched
  shared : evaluate B now policy context =
    (Shared.evaluateWithDetails B now policy context).map EvaluationDetails.matched
  verdict : Shared.evaluate B now policy context = evaluate B now policy context
  details : Shared.evaluateWithDetails B now policy context = evaluateWithDetails B now policy context

/-- There is one outcome unless the conditions are falsy and cannot be iterated, or one of them
raises behind the first that fails. -/
theorem oneOutcome_iff (B : Builtins) (now : Now) (context : Context) (policy : PolicyRow) :
    OneOutcome B now context policy ↔ SettlesOutcome B now context policy := by
  rw [← evaluations_agree_iff]
  constructor
  · exact fun h => h.engine
  · intro h
    refine ⟨h, ?_, Shared.evaluate_eq B now policy context,
      Shared.evaluateWithDetails_eq B now policy context⟩
    rw [Shared.evaluateWithDetails_eq]
    exact h

/-- The library functions, with a pattern that cannot be compiled. -/
def bracketBuiltins : Builtins :=
  { plainBuiltins with
    reSearch := fun pattern text =>
      if pattern = "[" then .error (.other "PatternError") else plainBuiltins.reSearch pattern text }

def hostContext : Context := [("hostname", .str "test-pc")]

def hostCondition (op value : String) : PyVal :=
  .dict (conditionOf (.str "hostname") (.str value) op)

def policyOn (conditions : PyVal) : PolicyRow := ⟨.str "p1", .str "p1", 100, conditions, .none, .none⟩

theorem outcomes_differ :
    ¬OneOutcome bracketBuiltins noon hostContext (policyOn .none) ∧
    ¬OneOutcome bracketBuiltins noon hostContext
      (policyOn (.list [hostCondition "equals" "printer", hostCondition "regex" "["])) := by
  constructor
  · intro h
    cases h.engine
  · intro h
    cases h.engine

end Conditions

/-! ## One policy and the others -/

section Loops

variable {B : Builtins} {now : Now} {attempt : Attempt} {context : Context}

def insertedRows {α : Type} (x : Run α) : List Nat := x.events.filterMap Event.inserted?

/-- Nothing but an evaluation can stop the run: the rows are accepted and the actions execute. -/
def Undisturbed (B : Builtins) (attempt : Attempt) (context : Context) (k : Nat)
    (policies : List PolicyRow) : Prop :=
  ∀ i policy, policies[i]? = some policy → ∀ matched, stops B attempt context (k + i) policy matched = false

theorem insertedRows_bind {α β : Type} {x : Run α} {f : α → Run β} {a : α} (h : x.result = .ok a) :
    insertedRows (x >>= f) = insertedRows x ++ insertedRows (f a) := by
  unfold insertedRows
  rw [Traced.bind_of_ok f h, List.filterMap_append]

theorem executeAction_noRow (ref : ActionRef) (action : Dict PyVal) :
    Traced.Emits Event.inserted? (executeAction B attempt context ref action) [] := by
  unfold executeAction
  cases actionMessage B action context with
  | error e => exact List.nil_sublist []
  | ok message? =>
    cases message? with
    | none => exact List.nil_sublist []
    | some message =>
      rw [Traced.lift_ok_bind]
      dsimp only [publish]
      cases attempt.publish ref.policy ref.index <;> exact List.nil_sublist []

theorem executeActions_noRow (k : Nat) (matched : Bool) (actions : List (Nat × Dict PyVal)) :
    Traced.Emits Event.inserted? (executeActions B attempt context k matched actions) [] := by
  induction actions with
  | nil => exact List.nil_sublist []
  | cons a rest ih =>
    exact Traced.Emits.bind (executeAction_noRow ⟨k, matched, a.1⟩ a.2) fun _ _ => ih

theorem applyVerdict_row {deviceId : PyVal} {k : Nat} {policy : PolicyRow} {matched : Bool}
    (h : stops B attempt context k policy matched = false) :
    (applyVerdict B attempt context deviceId k policy matched).result = .ok () ∧
      insertedRows (applyVerdict B attempt context deviceId k policy matched) = [k] := by
  have hReturns := (applyVerdict_follows (B := B) attempt context deviceId k policy matched).raises
  rw [stops] at h
  rw [h] at hReturns
  obtain ⟨_, hResult⟩ := Traced.raises_eq_false.mp hReturns
  refine ⟨hResult, ?_⟩
  unfold applyVerdict at hResult ⊢
  obtain ⟨_, hInsert, -⟩ := Traced.ok_of_bind hResult
  have hRow : insertedRows (insertEvaluation attempt k (evaluationRow B deviceId policy matched)) = [k] := by
    unfold insertEvaluation at hInsert ⊢
    cases hAnswer : attempt.insert k with
    | ok _ => rfl
    | error e =>
      rw [hAnswer] at hInsert
      cases hInsert
  have hNone : Traced.Emits Event.inserted? (do
      let actions ← Traced.lift (actionDicts (chosenActions policy matched))
      executeActions B attempt context k matched actions) ([] ++ []) :=
    (Traced.emits_lift Event.inserted? _).bind fun actions _ => executeActions_noRow k matched actions
  rw [insertedRows_bind hInsert, hRow]
  exact congrArg (k :: ·) (List.sublist_nil.mp hNone)

/-- The loop inserts the rows of all policies exactly when all of them can be evaluated. -/
theorem evaluatePolicies_rows {deviceId : PyVal} {k : Nat} {policies : List PolicyRow}
    (h : Undisturbed B attempt context k policies) :
    insertedRows (evaluatePolicies B now attempt context deviceId k policies) =
        List.range' k policies.length ↔
      ∀ policy ∈ policies, Evaluable B now context policy := by
  induction policies generalizing k with
  | nil => exact iff_of_true rfl (List.forall_mem_nil _)
  | cons policy policies ih =>
    rw [List.forall_mem_cons, ← evaluate_returns_iff, evaluatePolicies, List.length_cons,
      List.range'_succ]
    cases hEval : evaluate B now policy context with
    | error e =>
      refine iff_of_false ?_ fun h => Except.error_not_ok h.1
      intro h
      cases h
    | ok matched =>
      have hTail : Undisturbed B attempt context (k + 1) policies := by
        intro i policy' hPolicy matched'
        have hStops := h (i + 1) policy' hPolicy matched'
        rwa [← Nat.add_assoc, Nat.add_right_comm] at hStops
      obtain ⟨hResult, hRow⟩ := @applyVerdict_row B attempt context deviceId k policy matched
        (h 0 policy rfl matched)
      rw [Traced.lift_ok_bind, insertedRows_bind hResult, hRow, List.singleton_append, ← ih hTail]
      constructor
      · exact fun hRows => ⟨⟨matched, rfl⟩, (List.cons.inj hRows).2⟩
      · exact fun hRows => congrArg (k :: ·) hRows.2

theorem simulatePolicies_length {policies : List PolicyRow} {results : List EvaluationDetails}
    {winning : Option WinningPolicy} {out : List EvaluationDetails × Option WinningPolicy}
    (h : simulatePolicies B now context policies results winning = .ok out) :
    out.1.length = results.length + policies.length := by
  induction policies generalizing results winning with
  | nil =>
    cases h
    rfl
  | cons policy policies ih =>
    obtain ⟨r, -, hRest⟩ := Except.ok_of_bind h
    rw [ih hRest]
    simp only [List.length_append, List.length_cons, List.length_nil]
    omega

/-- The simulation evaluates all policies exactly when every one of them can be inspected. -/
theorem simulateAllPolicies_evaluates {policies : List PolicyRow} :
    (∃ r, simulateAllPolicies B now policies context = .ok r ∧
        r.allEvaluations.length = policies.length) ↔
      ∀ policy ∈ policies, Inspectable B now context policy := by
  have hDetails : Details B now context policies ↔
      ∀ policy ∈ policies, Inspectable B now context policy :=
    forall₂_congr fun policy _ => evaluateWithDetails_returns_iff
  rw [← hDetails]
  constructor
  · rintro ⟨r, h, -⟩
    obtain ⟨out, hLoop, -⟩ := Except.ok_of_bind h
    exact details_of_simulatePolicies hLoop
  · intro h
    obtain ⟨rs, hLoop⟩ := simulatePolicies_of_details h [] 0 none
    have hLength := simulatePolicies_length hLoop
    rw [simulateAllPolicies, hLoop]
    exact ⟨_, rfl, by simpa using hLength⟩

end Loops

/-- A comparison returns unless it is a hazard, and no policy keeps the others from being
evaluated, by the engine or in the simulation, exactly when all of them can be. -/
theorem no_policy_prevents_iff {B : Builtins} {d : Delivery} {data : Dict PyVal} {deviceId : PyVal}
    {context : Context} {policies : List PolicyRow} (hData : item data "device_id" = .ok deviceId)
    (hLoad : loadDevice B d.tables deviceId = .ok (some (context, policies)))
    (hUndisturbed : Undisturbed B d.attempt context 0 policies) :
    (∀ actual op expected, (∃ b, compare B actual (.str op) expected = .ok b) ↔
      ¬Hazard B actual op expected) ∧
    (insertedRows (d.run B data) = List.range policies.length ↔
      ∀ policy ∈ policies, Evaluable B d.now context policy) ∧
    ∀ now context policies, ((∃ r, simulateAllPolicies B now policies context = .ok r ∧
        r.allEvaluations.length = policies.length) ↔
      ∀ policy ∈ policies, Inspectable B now context policy) := by
  refine ⟨fun _ _ _ => compare_returns_iff, ?_, fun _ _ _ => simulateAllPolicies_evaluates⟩
  have hRun : insertedRows (d.run B data) =
      insertedRows (evaluatePolicies B d.now d.attempt context deviceId 0 policies) := by
    unfold Delivery.run handleEvaluateDevice
    rw [hData, Traced.lift_ok_bind, hLoad, Traced.lift_ok_bind]
    exact congrArg (List.filterMap Event.inserted?) Traced.lift_bind_events
  rw [hRun, List.range_eq_range', evaluatePolicies_rows hUndisturbed]

def knownHost : PolicyRow := policyOn (.list [hostCondition "regex" "test"])

theorem knownHost_evaluated :
    insertedRows ((oneDelivery [knownHost, knownHost] allAccepted).run plainBuiltins
      [("device_id", .str "d1")]) = List.range 2 := by
  have hUndisturbed : Undisturbed plainBuiltins allAccepted oneContext 0 [knownHost, knownHost] := by
    intro i policy hPolicy matched
    have hMem := List.mem_of_getElem? hPolicy
    simp only [List.mem_cons, List.not_mem_nil, or_false, or_self] at hMem
    subst hMem
    cases matched <;> rfl
  refine (no_policy_prevents_iff (d := oneDelivery [knownHost, knownHost] allAccepted) rfl
    (oneDevice_load [knownHost, knownHost]) hUndisturbed).2.1.mpr ?_
  have hEvaluable : Evaluable plainBuiltins noon oneContext knownHost :=
    evaluate_returns_iff.mp ⟨false, rfl⟩
  exact List.forall_mem_cons.mpr ⟨hEvaluable, List.forall_mem_singleton.mpr hEvaluable⟩

/-- A policy whose pattern cannot be compiled, before one without conditions. -/
def bracketPolicies : List PolicyRow :=
  [policyOn (.list [hostCondition "regex" "["]), policyOn (.list [])]

theorem bracket_prevents :
    compare bracketBuiltins (.str "test-pc") (.str "regex") (.str "[") =
      .error (.other "PatternError") ∧
    insertedRows (evaluatePolicies bracketBuiltins noon allAccepted hostContext (.str "d1") 0
      bracketPolicies) = [] ∧
    simulateAllPolicies bracketBuiltins noon bracketPolicies hostContext = .error (.other "PatternError") :=
  ⟨by rfl, by rfl, by rfl⟩

end OpenRadiusWeb.Policy
