import OpenRadiusWeb.Policy.Values
import OpenRadiusWeb.Lib.Effects

/-! # The policy evaluator

One evaluator in two copies, the engine's and the gateway's. `evaluate` stops at the
first condition that fails; `evaluateWithDetails` compares all of them and also differs
on conditions that are no list. Where the detailed evaluation returns, the plain one
returns its verdict.
-/

namespace OpenRadiusWeb.Policy

/-- What `datetime.now(timezone.utc)` gives. -/
structure Now where
  hour : Nat
  minute : Nat
  weekday : Nat
  day : Nat
  month : Nat
  date : String

/-- A row of `policies`. -/
structure PolicyRow where
  id : PyVal
  name : PyVal
  priority : Int
  conditions : PyVal
  matchActions : PyVal
  noMatchActions : PyVal

abbrev Context : Type := Dict PyVal

/-! ## Fields -/

def aliases : Dict String := [
  ("device.type", "device_type"),
  ("device.os", "os_family"),
  ("device.os_version", "os_version"),
  ("device.vendor", "vendor"),
  ("device.mac", "mac_address"),
  ("device.ip", "ip_address"),
  ("device.hostname", "hostname"),
  ("device.status", "status"),
  ("device.risk_score", "risk_score"),
  ("auth.method", "auth_method"),
  ("auth.username", "username"),
  ("auth.802_1x", "is_dot1x"),
  ("auth.mab", "is_mab"),
  ("network.nas_ip", "nas_ip"),
  ("network.nas_port", "nas_port"),
  ("network.switch_ip", "nas_ip"),
  ("network.port", "nas_port_id"),
  ("network.vlan", "current_vlan"),
  ("network.ssid", "ssid"),
  ("user.name", "username"),
  ("user.domain", "user_domain"),
  ("user.group", "ad_groups"),
  ("user.department", "ad_department"),
  ("user.email", "user_email")]

def directFields : List String := [
  "mac_address", "ip_address", "hostname", "device_type", "os_family", "os_version", "vendor",
  "model", "status", "risk_score", "first_seen", "last_seen"]

/-- `_resolve_time_field`. -/
def resolveTimeField (now : Now) (field : String) : PyVal :=
  Dict.getD [
    ("time.hour", .int now.hour),
    ("time.minute", .int now.minute),
    ("time.weekday", .int now.weekday),
    ("time.day_of_month", .int now.day),
    ("time.month", .int now.month),
    ("time.date", .str now.date),
    ("time.is_business_hours",
      .bool (decide (9 ≤ now.hour ∧ now.hour ≤ 17 ∧ now.weekday < 5))),
    ("time.is_weekend", .bool (decide (5 ≤ now.weekday)))] field .none

/-- The walk along the parts of a dotted path. -/
def lookupPath : PyVal → List String → PyVal
  | current, [] => current
  | .dict items, part :: parts =>
    match Dict.get? items part with
    | some v => lookupPath v parts
    | none => .none
  | _, _ :: _ => .none

/-- `_resolve_field` of a non-empty text. -/
def resolveName (now : Now) (context : Context) (field : String) : PyVal :=
  if field ∈ directFields then context.getD field .none
  else match aliases.get? field with
    | some key => context.getD key .none
    | none =>
      match context.get? (Text.replaceChar '.' "_" field) with
      | some v => v
      | none =>
        if field.startsWith "time." then resolveTimeField now field
        else lookupPath (context.getD "properties" (.dict [])) (Text.split '.' field)

/-- `_resolve_field`; a field that is no text has no `replace`, and a list or a dictionary
cannot be looked up in the set of direct fields. -/
def resolveField (now : Now) (context : Context) (field : PyVal) : Except PyErr PyVal :=
  if field.truthy = false then .ok .none
  else match field with
    | .str s => .ok (resolveName now context s)
    | v => if v.hashable then .error .attributeError else .error .typeError

/-! ## Comparison -/

section Compare

variable (B : Builtins)

def normalize : PyVal → PyVal
  | .str s =>
    let v := Text.strip (B.lower s)
    if v ∈ ["true", "yes", "1"] then .bool true
    else if v ∈ ["false", "no", "0"] then .bool false
    else .str v
  | v => v

/-- `_equals`. -/
def equals : PyVal → PyVal → Bool
  | .none, .none => true
  | .none, _ => false
  | _, .none => false
  | .str a, .str b => B.lower a == B.lower b
  | .bool a, b => a == b.truthy
  | a, .bool b => a.truthy == b
  | a, b => a.eq b

def lowerStr (v : PyVal) : String := B.lower (v.toStr B)

/-- `float(a or 0)` against `float(e or 0)`. -/
def compareFloats (test : PyFloat → PyFloat → Bool) (actual expected : PyVal) :
    Except PyErr Bool := do
  let a ← (actual.or (.int 0)).toFloat B
  let e ← (expected.or (.int 0)).toFloat B
  return test a e

/-- The chained comparison does not convert its last operand when the first one fails. -/
def between (actual expected : PyVal) : Except PyErr Bool :=
  match expected with
  | .list [low, high] => do
    let l ← low.toFloat B
    let a ← (actual.or (.int 0)).toFloat B
    if l.le a then
      let h ← high.toFloat B
      return a.le h
    else return false
  | _ => return false

def isMemberOf (actual expected : PyVal) : Except PyErr Bool :=
  match actual with
  | .list as =>
    match expected with
    | .list es =>
      let es := es.map (normalize B)
      let as := as.map (normalize B)
      if es.all PyVal.hashable && as.all PyVal.hashable then return es.any fun e => e.elem as
      else .error .typeError
    | e => return (normalize B e).elem (as.map (normalize B))
  | _ => return false

/-- The `match` of `_compare`, inside its `try`. -/
def compareOp (actual : PyVal) (operator : String) (expected : PyVal) : Except PyErr Bool :=
  let actualN := normalize B actual
  let expectedN := normalize B expected
  match operator with
  | "equals" | "eq" | "==" => return equals B actualN expectedN
  | "not_equals" | "ne" | "!=" => return !equals B actualN expectedN
  | "in" =>
    match expected with
    | .list es => return actualN.elem (es.map (normalize B))
    | _ =>
      return if actualN.truthy then Text.contains (actualN.toStr B) (expectedN.toStr B) else false
  | "not_in" =>
    match expected with
    | .list es => return !actualN.elem (es.map (normalize B))
    | _ =>
      return if actualN.truthy then !Text.contains (actualN.toStr B) (expectedN.toStr B) else true
  | "contains" =>
    return if actual.truthy then Text.contains (lowerStr B expectedN) (lowerStr B actual) else false
  | "not_contains" =>
    return if actual.truthy then !Text.contains (lowerStr B expectedN) (lowerStr B actual) else true
  | "starts_with" =>
    return if actual.truthy then (lowerStr B expectedN).toList.isPrefixOf (lowerStr B actual).toList
      else false
  | "ends_with" =>
    return if actual.truthy then (lowerStr B expectedN).toList.isSuffixOf (lowerStr B actual).toList
      else false
  | "gt" | ">" => compareFloats B (fun a e => e.lt a) actual expected
  | "gte" | ">=" => compareFloats B (fun a e => e.le a) actual expected
  | "lt" | "<" => compareFloats B (fun a e => a.lt e) actual expected
  | "lte" | "<=" => compareFloats B (fun a e => a.le e) actual expected
  | "between" => between B actual expected
  | "regex" =>
    if actual.truthy then B.reSearch (expected.toStr B) (actual.toStr B) else return false
  | "exists" => return !actual.isNone
  | "not_exists" => return actual.isNone
  | "is_empty" => return actual.isNone || actual.eq (.str "") || actual.eq (.list [])
  | "is_not_empty" => return !actual.isNone && !actual.eq (.str "") && !actual.eq (.list [])
  | "is_member_of" => isMemberOf B actual expected
  | "matches_oui" =>
    return if actual.truthy && expectedN.truthy then
      B.lower (Text.take 8 (actual.toStr B)) == B.lower (Text.take 8 (expectedN.toStr B))
    else false
  | _ => return false

/-- `_compare`: a `ValueError` or a `TypeError` is a failed condition, other exceptions
leave the evaluator. An operator that is no text is an unknown one. -/
def compare (actual operator expected : PyVal) : Except PyErr Bool :=
  match operator with
  | .str op =>
    match compareOp B actual op expected with
    | .ok b => .ok b
    | .error e => if e.isValueOrTypeError then .ok false else .error e
  | _ => .ok false

end Compare

/-! ## Evaluation -/

section Evaluation

variable (B : Builtins) (now : Now)

/-- What the details say about one condition. -/
structure ConditionResult where
  field : PyVal
  operator : PyVal
  expected : PyVal
  actual : PyVal
  matched : Bool

def checkCondition (context : Context) (condition : Dict PyVal) : Except PyErr ConditionResult := do
  let field := condition.getD "field" (.str "")
  let operator := condition.getD "operator" (.str "equals")
  let expected := condition.getD "value" .none
  let actual ← resolveField now context field
  let matched ← compare B actual operator expected
  return ⟨field, operator, expected, actual, matched⟩

/-- The loop of `evaluate`. -/
def evaluateConditions (context : Context) : List PyVal → Except PyErr Bool
  | [] => .ok true
  | .dict condition :: rest => do
    let r ← checkCondition B now context condition
    if r.matched then evaluateConditions context rest else return false
  | _ :: rest => evaluateConditions context rest

def evaluate (policy : PolicyRow) (context : Context) : Except PyErr Bool :=
  if policy.conditions.truthy = false then .ok true
  else do
    let conditions ← policy.conditions.iter
    evaluateConditions B now context conditions

/-- The loop of `evaluate_with_details`. -/
def conditionResults (context : Context) : List PyVal → Except PyErr (List ConditionResult)
  | [] => .ok []
  | .dict condition :: rest => do
    let r ← checkCondition B now context condition
    let results ← conditionResults context rest
    return r :: results
  | _ :: rest => conditionResults context rest

structure EvaluationDetails where
  policyId : PyVal
  policyName : PyVal
  matched : Bool
  conditions : List ConditionResult

def evaluateWithDetails (policy : PolicyRow) (context : Context) :
    Except PyErr EvaluationDetails := do
  let conditions ← policy.conditions.iter
  let results ← conditionResults B now context conditions
  return ⟨policy.id, policy.name, results.all ConditionResult.matched, results⟩

variable {B now}

theorem evaluateConditions_of_results {context : Context} {conditions : List PyVal}
    {results : List ConditionResult}
    (h : conditionResults B now context conditions = .ok results) :
    evaluateConditions B now context conditions = .ok (results.all ConditionResult.matched) := by
  induction conditions generalizing results with
  | nil =>
    cases h
    rfl
  | cons c rest ih =>
    cases c with
    | dict condition =>
      obtain ⟨r, hCheck, hRest⟩ := Except.ok_of_bind h
      obtain ⟨rs, hResults, hPure⟩ := Except.ok_of_bind hRest
      cases hPure
      rw [evaluateConditions, hCheck]
      cases hMatched : r.matched with
      | true => simpa [Bind.bind, Except.bind, hMatched] using ih hResults
      | false => simp [Bind.bind, Except.bind, Pure.pure, Except.pure, hMatched]
    | _ => exact ih h

theorem iter_of_not_truthy {v : PyVal} {xs : List PyVal} (hIter : v.iter = .ok xs)
    (hFalsy : v.truthy = false) : xs = [] := by
  cases v with
  | list ys =>
    cases hIter
    simpa [PyVal.truthy] using hFalsy
  | dict items =>
    cases hIter
    simpa [PyVal.truthy] using hFalsy
  | str s =>
    cases hIter
    simpa [PyVal.truthy] using hFalsy
  | _ => cases hIter

theorem evaluate_of_details {policy : PolicyRow} {context : Context} {r : EvaluationDetails}
    (h : evaluateWithDetails B now policy context = .ok r) :
    evaluate B now policy context = .ok r.matched := by
  obtain ⟨conditions, hIter, hRest⟩ := Except.ok_of_bind h
  obtain ⟨results, hResults, hPure⟩ := Except.ok_of_bind hRest
  cases hPure
  have hLoop := evaluateConditions_of_results hResults
  rw [evaluate]
  split
  · rename_i hFalsy
    rw [iter_of_not_truthy hIter hFalsy] at hLoop
    exact hLoop
  · rw [hIter]
    exact hLoop

end Evaluation

end OpenRadiusWeb.Policy
