import OpenRadiusWeb.Policy.Evaluator
import OpenRadiusWeb.Lib.Traced

/-! # The policy engine's handler

`handleEvaluateDevice` evaluates the enabled policies in order, inserts one evaluation row
for each inside an open transaction and executes the chosen actions as it goes. Which row
the database accepts and which publish reaches the broker is up to an `Attempt`.
-/

namespace OpenRadiusWeb.Policy

structure Message where
  subject : String
  data : Dict PyVal

inductive PublishOutcome
  | sent
  | lost (e : PyErr)
  | sentButRaised (e : PyErr)

/-- The answers of the database and the broker to one call, by the position of the policy
and of the action. -/
structure Attempt where
  insert : Nat → Except PyErr Unit
  publish : Nat → Nat → PublishOutcome
  commit : Except PyErr Unit

structure EvaluationRow where
  policyId : String
  deviceId : PyVal
  result : String
  actionsTaken : String

/-- An action of the policy list: the position of its policy, which of the two lists it is
in, and its position there. -/
structure ActionRef where
  policy : Nat
  matched : Bool
  index : Nat
  deriving DecidableEq

inductive Event
  | inserted (policy : Nat) (row : EvaluationRow)
  | published (ref : ActionRef) (message : Message)
  | executed (ref : ActionRef) (action : Dict PyVal)

abbrev Run : Type → Type := Traced Event PyErr

section Actions

variable (B : Builtins)

/-- `str(device.get(k))`. -/
def deviceText (device : Context) (k : String) : PyVal := .str ((device.getD k .none).toStr B)

/-- The message of `execute_action`, if the action has one. -/
def actionMessage (action : Dict PyVal) (device : Context) : Except PyErr (Option Message) :=
  let params := action.getD "params" (.dict [])
  match action.getD "type" (.str "") with
  | .str "vlan_assign" => do
    let vlan ← params.getAttr "vlan" .none
    let vlanId ← params.getAttr "vlan_id" .none
    if (vlan.or vlanId).truthy then
      return some ⟨"orw.policy.action.vlan_assign", [
        ("device_id", deviceText B device "id"),
        ("mac_address", deviceText B device "mac_address"),
        ("target_vlan", vlan.or vlanId)]⟩
    else return none
  | .str "quarantine" => do
    let reason ← params.getAttr "reason" (.str "policy_violation")
    return some ⟨"orw.policy.action.quarantine", [
      ("device_id", deviceText B device "id"),
      ("mac_address", deviceText B device "mac_address"),
      ("reason", reason)]⟩
  | .str "notify" => do
    let template ← params.getAttr "template" (.str "default")
    let recipients ← params.getAttr "recipients" (.list [])
    return some ⟨"orw.policy.action.notify", [
      ("device_id", deviceText B device "id"),
      ("template", template),
      ("recipients", recipients)]⟩
  | .str "acl_apply" => do
    let acl ← params.getAttr "acl" .none
    return some ⟨"orw.policy.action.acl_apply", [
      ("device_id", deviceText B device "id"),
      ("acl_name", acl)]⟩
  | .str "coa" => do
    let coaAction ← params.getAttr "action" (.str "reauthenticate")
    let vlanId ← params.getAttr "vlan_id" .none
    let aclName ← params.getAttr "acl_name" .none
    return some ⟨"orw.policy.action.coa", [
      ("mac_address", deviceText B device "mac_address"),
      ("action", coaAction),
      ("vlan_id", vlanId),
      ("acl_name", aclName)]⟩
  | .str "reject" => do
    let reason ← params.getAttr "reason" .none
    return some ⟨"orw.policy.action.reject", [
      ("device_id", deviceText B device "id"),
      ("reason", reason)]⟩
  | .str "bounce_port" =>
    return some ⟨"orw.switch.bounce_port", [
      ("device_id", deviceText B device "id"),
      ("mac_address", deviceText B device "mac_address")]⟩
  | .str "create_incident" => do
    let title ← params.getAttr "title" .none
    let severity ← params.getAttr "severity" (.str "medium")
    let integration ← params.getAttr "integration" (.str "thehive")
    return some ⟨"orw.policy.action.create_incident", [
      ("device_id", deviceText B device "id"),
      ("title", title),
      ("severity", severity),
      ("integration", integration)]⟩
  | .str "tag_device" => do
    let tag ← params.getAttr "tag" .none
    return some ⟨"orw.policy.action.tag_device", [
      ("device_id", deviceText B device "id"),
      ("tag", tag)]⟩
  | .str actionType =>
    if actionType ∈ ["log", "captive_portal", "qos_apply"] then
      -- `**params` needs a mapping and may replace the device id
      match params with
      | .dict items =>
        return some ⟨"orw.policy.action." ++ actionType,
          items.foldl (fun d item => Dict.set d item.1 item.2)
            [("device_id", deviceText B device "id")]⟩
      | _ => .error .typeError
    else return none
  | _ => return none

def publish (attempt : Attempt) (ref : ActionRef) (message : Message) : Run Unit :=
  match attempt.publish ref.policy ref.index with
  | .sent => .emit (.published ref message)
  | .lost e => .raise e
  | .sentButRaised e => ⟨[.published ref message], .error e⟩

/-- `execute_action`, noted as executed when it returns. -/
def executeAction (attempt : Attempt) (device : Context) (ref : ActionRef)
    (action : Dict PyVal) : Run Unit := do
  match ← Traced.lift (actionMessage B action device) with
  | some message => publish attempt ref message
  | none => pure ()
  Traced.emit (.executed ref action)

/-- The loop over the actions of a policy; elements that are no dictionaries are skipped. -/
def executeActions (attempt : Attempt) (device : Context) (k : Nat) (matched : Bool) :
    List (Nat × Dict PyVal) → Run Unit
  | [] => pure ()
  | (j, action) :: rest => do
    executeAction B attempt device ⟨k, matched, j⟩ action
    executeActions attempt device k matched rest

end Actions

section Handler

variable (B : Builtins) (now : Now) (attempt : Attempt)

def chosenActions (policy : PolicyRow) (matched : Bool) : PyVal :=
  if matched then policy.matchActions else policy.noMatchActions

def evaluationRow (deviceId : PyVal) (policy : PolicyRow) (matched : Bool) : EvaluationRow where
  policyId := policy.id.toStr B
  deviceId := deviceId
  result := if matched then "match" else "no_match"
  actionsTaken :=
    let actions := chosenActions policy matched
    if actions.truthy then actions.toStr B else "[]"

def insertEvaluation (k : Nat) (row : EvaluationRow) : Run Unit :=
  match attempt.insert k with
  | .ok _ => .emit (.inserted k row)
  | .error e => .raise e

/-- The dictionaries among the actions, as the loop over them meets them. -/
def actionDicts (actions : PyVal) : Except PyErr (List (Nat × Dict PyVal)) :=
  if actions.truthy then do
    let xs ← actions.iter
    return PyVal.dicts 0 xs
  else return []

/-- The turn of one policy, once it is evaluated. -/
def applyVerdict (context : Context) (deviceId : PyVal) (k : Nat) (policy : PolicyRow)
    (matched : Bool) : Run Unit := do
  insertEvaluation attempt k (evaluationRow B deviceId policy matched)
  let actions ← Traced.lift (actionDicts (chosenActions policy matched))
  executeActions B attempt context k matched actions

/-- The loop over the policies. -/
def evaluatePolicies (context : Context) (deviceId : PyVal) : Nat → List PolicyRow → Run Unit
  | _, [] => pure ()
  | k, policy :: policies => do
    let matched ← Traced.lift (evaluate B now policy context)
    applyVerdict B attempt context deviceId k policy matched
    evaluatePolicies context deviceId (k + 1) policies

/-- What the handler's queries return. -/
structure Tables where
  device : PyVal → Except PyErr (Option Context)
  properties : PyVal → Except PyErr (List (String × String × PyVal))
  enabledPolicies : String → Except PyErr (List PolicyRow)

/-- The property rows as a dictionary of dictionaries. -/
def nestProperties (rows : List (String × String × PyVal)) : PyVal :=
  let properties : Dict (Dict PyVal) := rows.foldl
    (fun d row => d.set row.1 ((d.getD row.1 []).set row.2.1 row.2.2)) []
  .dict (properties.map fun item => (item.1, .dict item.2))

def deviceContext (device : Context) (rows : List (String × String × PyVal)) : Context :=
  device.set "properties" (nestProperties rows)

/-- `d[k]`. -/
def item (d : Dict PyVal) (k : String) : Except PyErr PyVal :=
  match d.get? k with
  | some v => .ok v
  | none => .error .keyError

/-- The queries before the loop: the context and the policies, unless there is no device. -/
def loadDevice (tables : Tables) (deviceId : PyVal) :
    Except PyErr (Option (Context × List PolicyRow)) := do
  match ← tables.device deviceId with
  | none => return none
  | some device =>
    let rows ← tables.properties deviceId
    let tenant ← item device "tenant_id"
    let policies ← tables.enabledPolicies (tenant.toStr B)
    return some (deviceContext device rows, policies)

/-- `handle_evaluate_device`: the rows it inserts are kept only if it returns. -/
def handleEvaluateDevice (tables : Tables) (data : Dict PyVal) : Run Unit := do
  let deviceId ← Traced.lift (item data "device_id")
  match ← Traced.lift (loadDevice B tables deviceId) with
  | none => pure ()
  | some (context, policies) => evaluatePolicies B now attempt context deviceId 0 policies
  Traced.lift attempt.commit

end Handler

end OpenRadiusWeb.Policy
