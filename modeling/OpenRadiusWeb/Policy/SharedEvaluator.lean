import OpenRadiusWeb.Policy.Evaluator

/-! # The evaluator of the shared library

The gateway evaluates policies with a copy in the shared library. It is embedded a second
time, its loops with the variables they carry, and each function of it is shown to be the
engine's.
-/

namespace OpenRadiusWeb.Policy.Shared

/-! ## Fields -/

def aliases : Dict String := [
  ("device.type", "device_type"),
  ("device.os", "os_family"),
  ("device.os_version", "os_version"),
  ("device.vendor", "vendor"),
  ("device.mac", "mac_address"),
  ("device.ip", "ip_address"),
  ("device.hostname", "hostname"),
  ("device.status", "status"),
  ("device.risk_score", "risk_score"),
  ("auth.method", "auth_method"),
  ("auth.username", "username"),
  ("auth.802_1x", "is_dot1x"),
  ("auth.mab", "is_mab"),
  ("network.nas_ip", "nas_ip"),
  ("network.nas_port", "nas_port"),
  ("network.switch_ip", "nas_ip"),
  ("network.port", "nas_port_id"),
  ("network.vlan", "current_vlan"),
  ("network.ssid", "ssid"),
  ("user.name", "username"),
  ("user.domain", "user_domain"),
  ("user.group", "ad_groups"),
  ("user.department", "ad_department"),
  ("user.email", "user_email")]

def directFields : List String := [
  "mac_address", "ip_address", "hostname", "device_type",
  "os_family", "os_version", "vendor", "model", "status",
  "risk_score", "first_seen", "last_seen"]

def resolveTimeField (now : Now) (field : String) : PyVal :=
  Dict.getD [
    ("time.hour", .int now.hour),
    ("time.minute", .int now.minute),
    ("time.weekday", .int now.weekday),
    ("time.day_of_month", .int now.day),
    ("time.month", .int now.month),
    ("time.date", .str now.date),
    ("time.is_business_hours",
      .bool (decide (9 ≤ now.hour ∧ now.hour ≤ 17 ∧ now.weekday < 5))),
    ("time.is_weekend", .bool (decide (5 ≤ now.weekday)))] field .none

/-- One turn of the loop over the parts; `none` is its early return. -/
def descend (current : PyVal) (part : String) : Option PyVal :=
  match current with
  | .dict items => Dict.get? items part
  | _ => none

def resolveField (now : Now) (context : Context) (field : PyVal) : Except PyErr PyVal :=
  if field.truthy = false then .ok .none
  else if field.hashable = false then .error .typeError
  else match field with
    | .str field =>
      if field ∈ directFields then .ok (context.getD field .none)
      else if let some key := aliases.get? field then .ok (context.getD key .none)
      else if let some v := context.get? (Text.replaceChar '.' "_" field) then .ok v
      else if field.startsWith "time." then .ok (resolveTimeField now field)
      else
        let properties := context.getD "properties" (.dict [])
        .ok (((Text.split '.' field).foldlM descend properties).getD .none)
    | _ => .error .attributeError

/-! ## Comparison -/

section Compare

variable (B : Builtins)

def normalize (value : PyVal) : PyVal :=
  match value with
  | .none => .none
  | .bool b => .bool b
  | .str s =>
    let v := Text.strip (B.lower s)
    if v ∈ ["true", "yes", "1"] then .bool true
    else if v ∈ ["false", "no", "0"] then .bool false
    else .str v
  | v => v

def equals (a b : PyVal) : Bool :=
  if a.isNone && b.isNone then true
  else if a.isNone || b.isNone then false
  else match a, b with
    | .str s, .str t => B.lower s == B.lower t
    | .bool x, b => x == b.truthy
    | a, .bool y => a.truthy == y
    | a, b => a.eq b

def isMemberOf (actual expected : PyVal) : Except PyErr Bool :=
  match actual with
  | .list as =>
    match expected with
    | .list es =>
      if (es.map (normalize B)).all PyVal.hashable && (as.map (normalize B)).all PyVal.hashable then
        return (es.map (normalize B)).any fun e => e.elem (as.map (normalize B))
      else .error .typeError
    | e => return (normalize B e).elem (as.map (normalize B))
  | _ => return false

def compareOp (actual : PyVal) (operator : String) (expected : PyVal) : Except PyErr Bool :=
  let actualN := normalize B actual
  let expectedN := normalize B expected
  match operator with
  | "equals" | "eq" | "==" => return equals B actualN expectedN
  | "not_equals" | "ne" | "!=" => return !equals B actualN expectedN
  | "in" =>
    match expected with
    | .list es => return actualN.elem (es.map (normalize B))
    | _ =>
      return if actualN.truthy then Text.contains (actualN.toStr B) (expectedN.toStr B) else false
  | "not_in" =>
    match expected with
    | .list es => return !actualN.elem (es.map (normalize B))
    | _ =>
      return if actualN.truthy then !Text.contains (actualN.toStr B) (expectedN.toStr B) else true
  | "contains" =>
    return if actual.truthy then Text.contains (lowerStr B expectedN) (lowerStr B actual) else false
  | "not_contains" =>
    return if actual.truthy then !Text.contains (lowerStr B expectedN) (lowerStr B actual) else true
  | "starts_with" =>
    return if actual.truthy then (lowerStr B expectedN).toList.isPrefixOf (lowerStr B actual).toList
      else false
  | "ends_with" =>
    return if actual.truthy then (lowerStr B expectedN).toList.isSuffixOf (lowerStr B actual).toList
      else false
  | "gt" | ">" => compareFloats B (fun a e => e.lt a) actual expected
  | "gte" | ">=" => compareFloats B (fun a e => e.le a) actual expected
  | "lt" | "<" => compareFloats B (fun a e => a.lt e) actual expected
  | "lte" | "<=" => compareFloats B (fun a e => a.le e) actual expected
  | "between" => between B actual expected
  | "regex" =>
    if actual.truthy then B.reSearch (expected.toStr B) (actual.toStr B) else return false
  | "exists" => return !actual.isNone
  | "not_exists" => return actual.isNone
  | "is_empty" => return actual.isNone || actual.eq (.str "") || actual.eq (.list [])
  | "is_not_empty" => return !actual.isNone && !actual.eq (.str "") && !actual.eq (.list [])
  | "is_member_of" => isMemberOf B actual expected
  | "matches_oui" =>
    return if actual.truthy && expectedN.truthy then
      B.lower (Text.take 8 (actual.toStr B)) == B.lower (Text.take 8 (expectedN.toStr B))
    else false
  | _ => return false

def compare (actual operator expected : PyVal) : Except PyErr Bool :=
  match operator with
  | .str op =>
    match compareOp B actual op expected with
    | .ok b => .ok b
    | .error e => if e.isValueOrTypeError then .ok false else .error e
  | _ => .ok false

end Compare

/-! ## Evaluation -/

section Evaluation

variable (B : Builtins) (now : Now)

def checkCondition (context : Context) (condition : Dict PyVal) : Except PyErr ConditionResult := do
  let field := condition.getD "field" (.str "")
  let operator := condition.getD "operator" (.str "equals")
  let expected := condition.getD "value" .none
  let actual ← resolveField now context field
  let matched ← compare B actual operator expected
  return ⟨field, operator, expected, actual, matched⟩

def evaluateConditions (context : Context) : List PyVal → Except PyErr Bool
  | [] => .ok true
  | .dict condition :: rest => do
    let r ← checkCondition B now context condition
    if !r.matched then return false else evaluateConditions context rest
  | _ :: rest => evaluateConditions context rest

def evaluate (policy : PolicyRow) (context : Context) : Except PyErr Bool :=
  if policy.conditions.truthy = false then .ok true
  else do
    let conditions ← policy.conditions.iter
    evaluateConditions B now context conditions

/-- The loop of `evaluate_with_details` with `results` and `all_matched`. -/
def conditionResults (context : Context) : List PyVal → List ConditionResult → Bool →
    Except PyErr (List ConditionResult × Bool)
  | [], results, allMatched => .ok (results, allMatched)
  | .dict condition :: rest, results, allMatched => do
    let r ← checkCondition B now context condition
    conditionResults context rest (results ++ [r]) (if !r.matched then false else allMatched)
  | _ :: rest, results, allMatched => conditionResults context rest results allMatched

def evaluateWithDetails (policy : PolicyRow) (context : Context) :
    Except PyErr EvaluationDetails := do
  let conditions ← policy.conditions.iter
  let (results, allMatched) ← conditionResults B now context conditions [] true
  return ⟨policy.id, policy.name, allMatched, results⟩

end Evaluation

/-! ## The two copies agree -/

section Agreement

variable (B : Builtins) (now : Now)

theorem foldlM_descend (parts : List String) (v : PyVal) :
    (parts.foldlM descend v).getD .none = lookupPath v parts := by
  induction parts generalizing v with
  | nil => cases v <;> rfl
  | cons part parts ih =>
    cases v with
    | dict items =>
      rw [List.foldlM_cons, lookupPath, descend]
      cases Dict.get? items part with
      | none => rfl
      | some v => exact ih v
    | _ => rfl

theorem resolveField_text (context : Context) {s : String} (h : s ≠ "") :
    resolveField now context (.str s) = .ok (resolveName now context s) := by
  have hTruthy : (PyVal.str s).truthy ≠ false := by simpa [PyVal.truthy] using h
  have hHashable : (PyVal.str s).hashable ≠ false := Bool.noConfusion
  rw [resolveField, if_neg hTruthy, if_neg hHashable, resolveName]
  have hAliases : aliases = Policy.aliases := rfl
  have hDirect : directFields = Policy.directFields := rfl
  have hTime : resolveTimeField = Policy.resolveTimeField := rfl
  simp only [hAliases, hDirect, hTime, foldlM_descend]
  split
  · rfl
  · cases Policy.aliases.get? s with
    | some key => rfl
    | none =>
      cases context.get? (Text.replaceChar '.' "_" s) with
      | some v => rfl
      | none =>
        dsimp only
        split <;> rfl

theorem resolveField_eq (context : Context) (field : PyVal) :
    resolveField now context field = Policy.resolveField now context field := by
  by_cases hTruthy : field.truthy = false
  · unfold resolveField Policy.resolveField
    rw [if_pos hTruthy, if_pos hTruthy]
  · cases field with
    | str s =>
      have hNonempty : s ≠ "" := by
        rintro rfl
        exact hTruthy rfl
      rw [resolveField_text now context hNonempty, Policy.resolveField, if_neg hTruthy]
    | _ =>
      unfold resolveField Policy.resolveField
      rw [if_neg hTruthy, if_neg hTruthy]
      rfl

theorem normalize_eq (v : PyVal) : normalize B v = Policy.normalize B v := by
  cases v <;> rfl

theorem equals_eq (a b : PyVal) : equals B a b = Policy.equals B a b := by
  cases a <;> cases b <;> rfl

theorem compareOp_eq (actual : PyVal) (op : String) (expected : PyVal) :
    compareOp B actual op expected = Policy.compareOp B actual op expected := by
  have hNormalize : normalize B = Policy.normalize B := funext (normalize_eq B)
  have hEquals : equals B = Policy.equals B := funext fun a => funext (equals_eq B a)
  have hMember : ∀ actual expected, isMemberOf B actual expected = Policy.isMemberOf B actual expected := by
    intro actual expected
    unfold isMemberOf Policy.isMemberOf
    rewrite [hNormalize]
    rfl
  unfold compareOp Policy.compareOp
  simp only [hMember]
  rewrite [hNormalize, hEquals]
  rfl

theorem compare_eq (actual operator expected : PyVal) :
    compare B actual operator expected = Policy.compare B actual operator expected := by
  cases operator with
  | str op =>
    cases hOp : Policy.compareOp B actual op expected with
    | ok b => simp only [compare, Policy.compare, compareOp_eq, hOp]
    | error e => simp only [compare, Policy.compare, compareOp_eq, hOp]
  | _ => rfl

theorem checkCondition_eq (context : Context) (condition : Dict PyVal) :
    checkCondition B now context condition = Policy.checkCondition B now context condition := by
  unfold checkCondition Policy.checkCondition
  simp only [resolveField_eq, compare_eq]

theorem evaluateConditions_eq (context : Context) (conditions : List PyVal) :
    evaluateConditions B now context conditions =
      Policy.evaluateConditions B now context conditions := by
  induction conditions with
  | nil => rfl
  | cons c rest ih =>
    cases c with
    | dict condition =>
      rw [evaluateConditions, Policy.evaluateConditions, checkCondition_eq]
      refine congrArg (Except.bind _) (funext fun r => ?_)
      cases r.matched with
      | true => exact ih
      | false => rfl
    | _ => exact ih

theorem evaluate_eq (policy : PolicyRow) (context : Context) :
    evaluate B now policy context = Policy.evaluate B now policy context := by
  unfold evaluate Policy.evaluate
  simp only [evaluateConditions_eq]

theorem conditionResults_eq (context : Context) (conditions : List PyVal)
    (results : List ConditionResult) (allMatched : Bool) :
    conditionResults B now context conditions results allMatched =
      (Policy.conditionResults B now context conditions).map fun rs =>
        (results ++ rs, allMatched && rs.all ConditionResult.matched) := by
  induction conditions generalizing results allMatched with
  | nil => simp [conditionResults, Policy.conditionResults, Except.map]
  | cons c rest ih =>
    cases c with
    | dict condition =>
      rw [conditionResults, Policy.conditionResults, checkCondition_eq]
      cases Policy.checkCondition B now context condition with
      | error e => rfl
      | ok r =>
        simp only [bind, Except.bind, ih]
        cases Policy.conditionResults B now context rest with
        | error e => rfl
        | ok rs => cases hMatched : r.matched <;> simp [Except.map, pure, Except.pure, hMatched]
    | _ => exact ih results allMatched

theorem evaluateWithDetails_eq (policy : PolicyRow) (context : Context) :
    evaluateWithDetails B now policy context = Policy.evaluateWithDetails B now policy context := by
  unfold evaluateWithDetails Policy.evaluateWithDetails
  refine congrArg (Except.bind _) (funext fun conditions => ?_)
  rw [conditionResults_eq]
  cases Policy.conditionResults B now context conditions <;> rfl

end Agreement

end OpenRadiusWeb.Policy.Shared
