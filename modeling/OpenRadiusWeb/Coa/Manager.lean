import OpenRadiusWeb.Coa.Session
import OpenRadiusWeb.Lib.Traced

/-! # The CoA manager

Building a request, sending it, writing the audit row and publishing the result, for one
session or for every session of a user. What a call does to the world is the list of its
events; an exception keeps the events before it.
-/

namespace OpenRadiusWeb.Coa

open OpenRadiusWeb.Policy (PyVal Builtins)

inductive Operation
  | disconnect
  | reauthenticate
  | vlanChange (vlan : PyVal)
  | applyAcl (acl : PyVal)

structure AuditRow where
  severity : String
  deviceId : Option String
  message : String
  details : String

/-- What a call does: it sets the identifier counter, sends a packet to the NAS of a session,
sees it acknowledged, commits an audit row, ends a session, publishes a result. -/
inductive CoaEvent
  | identifier (n : Nat)
  | sent (sessionId : String) (operation : Operation) (wire : Bytes)
  | acked (sessionId : String) (operation : Operation)
  | logged (row : AuditRow)
  | terminated (sessionId : String)
  | published (result : Dict PyVal)

abbrev CoaRun : Type → Type := Traced CoaEvent Exc

/-- The answers of the database, the NAS and the broker to one call, by the position of the
request in the call. -/
structure CoaAttempt where
  lookup : Except Exc Unit
  secret : Nat → Except Exc Unit
  answer : Nat → Answer
  insertEvent : Nat → Except Exc Unit
  updateStatus : Nat → Except Exc Unit
  commit : Nat → Except Exc Unit
  publish : Nat → Except Exc Unit
  now : String

/-- `_next_id`. -/
def nextId (identifier : Nat) : Nat := (identifier + 1) % 256

/-! ## Requests -/

section Requests

variable (env : Env)

/-- `if text: pkt.add_string(attr, text)`. -/
def addIfText (pkt : RadiusPacket) (attrType : Nat) (text : Option String) : RadiusPacket :=
  match text with
  | some t => if t = "" then pkt else pkt.addString attrType t
  | none => pkt

def sessionRequest (code identifier : Nat) (sessionId callingStationId : Option String) :
    RadiusPacket :=
  addIfText (addIfText ⟨code, identifier, RadiusPacket.zeroAuthenticator, []⟩
    RadiusAttr.acctSessionId sessionId) RadiusAttr.callingStationId callingStationId

/-- The request of `disconnect_session`. -/
def disconnectRequest (identifier : Nat) (sessionId callingStationId username : Option String)
    (nasPort : Option Nat) : Except Exc RadiusPacket :=
  let pkt := addIfText
    (sessionRequest RadiusCode.disconnectRequest identifier sessionId callingStationId)
    RadiusAttr.userName username
  match nasPort with
  | some port => pkt.addInteger RadiusAttr.nasPort port
  | none => .ok pkt

/-- `vendor.lower()`; a null vendor has no `lower`. -/
def vendorLower (vendor : Option String) : Except Exc String :=
  match vendor with
  | some v => .ok (env.builtins.lower v)
  | none => .error "AttributeError"

def reauthenticateCommand : String := "subscriber:command=reauthenticate"

/-- The request of `reauthenticate_session`. -/
def reauthenticateRequest (identifier : Nat) (sessionId callingStationId vendor : Option String) :
    Except Exc RadiusPacket := do
  let pkt := sessionRequest RadiusCode.coaRequest identifier sessionId callingStationId
  let vendor ← vendorLower env vendor
  if vendor ∈ ["cisco", "aruba", "hpe"] then pkt.addCiscoAvpair reauthenticateCommand
  else if vendor = "juniper" then pkt.addInteger RadiusAttr.serviceType 17
  else pkt.addCiscoAvpair reauthenticateCommand

/-- The request of `change_vlan`. -/
def changeVlanRequest (identifier : Nat) (vlanId : PyVal)
    (sessionId callingStationId vendor : Option String) : Except Exc RadiusPacket := do
  let pkt := (sessionRequest RadiusCode.coaRequest identifier sessionId callingStationId).addTunnelVlan
    (vlanId.toStr env.builtins) 0
  let vendor ← vendorLower env vendor
  if vendor = "cisco" then
    let pkt ← pkt.addCiscoAvpair ("audit-session-id=" ++ sessionId.getD "")
    pkt.addCiscoAvpair reauthenticateCommand
  else return pkt

/-- The request of `apply_acl`; a name that is no text has no `encode`. -/
def applyAclRequest (identifier : Nat) (aclName : PyVal)
    (sessionId callingStationId : Option String) : Except Exc RadiusPacket :=
  match aclName with
  | .str acl =>
    ((sessionRequest RadiusCode.coaRequest identifier sessionId callingStationId).addString
      RadiusAttr.filterId acl).addCiscoAvpair ("ACS:CiscoSecure-Defined-ACL=#" ++ acl)
  | _ => .error "AttributeError"

/-- The request for an operation and the action it is reported under. -/
def buildRequest (identifier : Nat) (operation : Operation)
    (sessionId callingStationId vendor : Option String) : Except Exc RadiusPacket :=
  match operation with
  | .disconnect => disconnectRequest identifier sessionId callingStationId none none
  | .reauthenticate => reauthenticateRequest env identifier sessionId callingStationId vendor
  | .vlanChange vlan => changeVlanRequest env identifier vlan sessionId callingStationId vendor
  | .applyAcl acl => applyAclRequest identifier acl sessionId callingStationId

def Operation.action : Operation → String
  | .disconnect => "disconnect"
  | .reauthenticate => "reauthenticate"
  | .vlanChange vlan => "vlan_change:" ++ vlan.toStr env.builtins
  | .applyAcl acl => "apply_acl:" ++ acl.toStr env.builtins

end Requests

/-! ## One session -/

section Execute

variable (env : Env) (w : World) (attempt : CoaAttempt)

/-- The `i`-th request of a call: the encoded request, and the result once it is sent. -/
def requestResult (i identifier : Nat) (operation : Operation) (session : FoundSession)
    (callingStationId : Option String) (secret : String) :
    Except Exc (Bytes × Except Exc CoAResult) := do
  let pkt ← buildRequest env (nextId identifier) operation (some session.row.sessionId)
    callingStationId session.vendor
  let (wire, result) ← sendPacket env.codecs pkt secret (operation.action env) session.row.nasIp
    attempt.now (attempt.answer i)
  return (wire, result.map fun r =>
    { r with sessionId := some session.row.sessionId, macAddress := callingStationId })

/-- `disconnect_session`, `reauthenticate_session`, `change_vlan` and `apply_acl`. -/
def sendRequest (i identifier : Nat) (operation : Operation) (session : FoundSession)
    (callingStationId : Option String) (secret : String) : CoaRun CoAResult := do
  Traced.emit (.identifier (nextId identifier))
  let (wire, result) ← Traced.lift
    (requestResult env attempt i identifier operation session callingStationId secret)
  if (attempt.answer i).reached then
    Traced.emit (.sent session.row.sessionId operation wire)
  let r ← Traced.lift result
  if r.success then
    Traced.emit (.acked session.row.sessionId operation)
  return r

/-- `_get_coa_secret` for the `i`-th request, whose query may fail. -/
def fetchSecret (i : Nat) (nasIp : Option String) : CoaRun String := do
  Traced.lift (attempt.secret i)
  Traced.lift (getCoaSecret env w nasIp)

def optText : Option String → PyVal
  | some t => .str t
  | none => .none

def optNumber : Option Nat → PyVal
  | some n => .int n
  | none => .none

def optInt : Option Int → PyVal
  | some n => .int n
  | none => .none

/-- `to_dict`. -/
def CoAResult.toDict (r : CoAResult) : Dict PyVal := [
  ("success", .bool r.success),
  ("action", .str r.action),
  ("nas_ip", optText r.nasIp),
  ("session_id", optText r.sessionId),
  ("mac_address", optText r.macAddress),
  ("response_code", optNumber r.responseCode),
  ("error_cause", optNumber r.errorCause),
  ("error_message", optText r.errorMessage),
  ("timestamp", .str r.timestamp)]

def auditRow (session : FoundSession) (r : CoAResult) : AuditRow where
  severity := if r.success then "info" else "warning"
  deviceId := session.row.deviceId
  message := "CoA " ++ r.action ++ " to " ++ (optText r.nasIp).toStr env.builtins ++ ": " ++
    (if r.success then "success" else "failed")
  details := Text.replaceChar '\'' "\"" ((PyVal.dict r.toDict).toStr env.builtins)

/-- Does `_log_coa` also end the session? -/
def endsSession (r : CoAResult) : Bool := r.success && r.action == "disconnect"

/-- The statements of `_log_coa` and its commit. -/
def logStatements (i : Nat) (r : CoAResult) : Except Exc Unit := do
  attempt.insertEvent i
  if endsSession r then attempt.updateStatus i
  attempt.commit i

/-- `_log_coa`: both statements are kept or neither. -/
def logCoa (i : Nat) (session : FoundSession) (r : CoAResult) : CoaRun Unit := do
  Traced.lift (logStatements attempt i r)
  Traced.emit (.logged (auditRow env session r))
  if endsSession r then
    Traced.emit (.terminated session.row.sessionId)

def publishResult (i : Nat) (r : CoAResult) : CoaRun Unit := do
  Traced.lift (attempt.publish i)
  Traced.emit (.published r.toDict)

/-- The operation an action names, with its parameters present. -/
def operationOf (action vlanId aclName : PyVal) : Option Operation :=
  match action with
  | .str "disconnect" => some .disconnect
  | .str "reauthenticate" => some .reauthenticate
  | .str "vlan_change" => if vlanId.isNone then none else some (.vlanChange vlanId)
  | .str "apply_acl" => if aclName.truthy then some (.applyAcl aclName) else none
  | _ => none

/-- `_execute_coa` for the `i`-th session of a call. -/
def executeCoa (i identifier : Nat) (session : FoundSession) (action vlanId aclName : PyVal) :
    CoaRun CoAResult := do
  let secret ← fetchSecret env w attempt i session.row.nasIp
  match operationOf action vlanId aclName with
  | none =>
    let action := action.toStr env.builtins
    return { CoAResult.basic false action session.row.nasIp attempt.now with
      errorMessage := some ("Unknown action '" ++ action ++ "' or missing parameters") }
  | some operation =>
    let r ← sendRequest env attempt i identifier operation session session.row.callingStationId
      secret
    logCoa env attempt i session r
    publishResult attempt i r
    return r

end Execute

/-! ## Sessions by identifier, MAC and user -/

section Coa

variable (env : Env) (w : World) (attempt : CoaAttempt)

/-- `coa_by_session_id` and `coa_by_mac`, which differ in the lookup and in the result without
a session. -/
def coaBySession (sessionId mac action vlanId aclName : PyVal) (notFound : CoAResult) :
    CoaRun CoAResult := do
  Traced.lift attempt.lookup
  match ← Traced.lift (findActiveSession env w sessionId mac) with
  | none => return notFound
  | some session => executeCoa env w attempt 0 w.identifier session action vlanId aclName

def coaBySessionId (sessionId action vlanId aclName : PyVal) : CoaRun CoAResult :=
  let sid := sessionId.toStr env.builtins
  coaBySession env w attempt sessionId .none action vlanId aclName
    { CoAResult.basic false (action.toStr env.builtins) (some "") attempt.now with
      sessionId := some sid
      errorMessage := some ("Session " ++ sid ++ " not found or not active") }

def coaByMac (mac action vlanId aclName : PyVal) : CoaRun CoAResult :=
  let mac' := mac.toStr env.builtins
  coaBySession env w attempt .none mac action vlanId aclName
    { CoAResult.basic false (action.toStr env.builtins) (some "") attempt.now with
      macAddress := some mac'
      errorMessage := some ("No active session found for MAC " ++ mac') }

/-- The loop of `coa_by_username`, with the identifier counter of the manager. -/
def executeAll (action vlanId aclName : PyVal) : Nat → Nat → List FoundSession →
    CoaRun (List CoAResult)
  | _, _, [] => pure []
  | i, identifier, session :: rest => do
    let r ← executeCoa env w attempt i identifier session action vlanId aclName
    let identifier :=
      if (operationOf action vlanId aclName).isSome then nextId identifier else identifier
    let rs ← executeAll action vlanId aclName (i + 1) identifier rest
    return r :: rs

/-- The address of a result, as text to join; a null address is no text. -/
def nasIpText (r : CoAResult) : Except Exc String :=
  match r.nasIp with
  | some ip => .ok ip
  | none => .error "TypeError"

/-- `", ".join(r.nas_ip for r in results)`. -/
def joinNasIps (rs : List CoAResult) : Except Exc String := do
  let ips ← rs.mapM nasIpText
  return ", ".intercalate ips

def combineResults (now action : String) (rs : List CoAResult) : Except Exc CoAResult := do
  let ips ← joinNasIps rs
  let failed := rs.countP fun r => !r.success
  return { CoAResult.basic (failed = 0) action (some ips) now with
    errorMessage := if failed = 0 then none
      else some (toString failed ++ "/" ++ toString rs.length ++ " sessions failed") }

def coaByUsername (username action vlanId aclName : PyVal) : CoaRun CoAResult := do
  Traced.lift attempt.lookup
  match findActiveSessionsByUser env w username with
  | [] =>
    return { CoAResult.basic false (action.toStr env.builtins) (some "") attempt.now with
      errorMessage := some
        ("No active sessions found for user " ++ username.toStr env.builtins) }
  | s :: ss =>
    let rs ← executeAll env w attempt action vlanId aclName 0 w.identifier (s :: ss)
    Traced.lift (combineResults attempt.now (action.toStr env.builtins) rs)

/-- `handle_coa_action`. -/
def handleCoaAction (data : Dict PyVal) : CoaRun Unit := do
  let action := data.getD "action" (.str "reauthenticate")
  let vlanId := data.getD "vlan_id" .none
  let aclName := data.getD "acl_name" .none
  let sessionId := data.getD "session_id" .none
  let mac := data.getD "mac_address" .none
  let username := data.getD "username" .none
  if sessionId.truthy then
    let _ ← coaBySessionId env w attempt sessionId action vlanId aclName
  else if mac.truthy then
    let _ ← coaByMac env w attempt mac action vlanId aclName
  else if username.truthy then
    let _ ← coaByUsername env w attempt username action vlanId aclName

/-- The requests of `handle_policy_vlan_assign`: a refused change is followed by a disconnect. -/
def changeOrDisconnect (session : FoundSession) (calling : Option String) (newVlan : PyVal) :
    CoaRun Unit := do
  let secret ← fetchSecret env w attempt 0 session.row.nasIp
  let r ← sendRequest env attempt 0 w.identifier (.vlanChange newVlan) session calling secret
  if !r.success then
    let secret ← fetchSecret env w attempt 1 session.row.nasIp
    let _ ← sendRequest env attempt 1 (nextId w.identifier) .disconnect session calling secret

/-- `handle_policy_vlan_assign`: a message without a MAC or a VLAN is dropped, and a VLAN that
the row already has is skipped. -/
def handlePolicyVlanAssign (data : Dict PyVal) : CoaRun Unit := do
  let mac := data.getD "mac_address" .none
  let newVlan := data.getD "vlan_id" .none
  if mac.truthy && newVlan.truthy then
    Traced.lift attempt.lookup
    match ← Traced.lift (findActiveSession env w .none mac) with
    | none => pure ()
    | some session =>
      if !(optInt session.row.assignedVlan).eq newVlan then
        changeOrDisconnect env w attempt session (some (mac.toStr env.builtins)) newVlan

end Coa

/-! ## The events of one request -/

section Events

variable {env : Env} {w : World} {attempt : CoaAttempt}

def fetchedSecret (env : Env) (w : World) (attempt : CoaAttempt) (i : Nat)
    (nasIp : Option String) : Except Exc String := do
  attempt.secret i
  getCoaSecret env w nasIp

theorem fetchSecret_eq (i : Nat) (nasIp : Option String) :
    fetchSecret env w attempt i nasIp = Traced.lift (fetchedSecret env w attempt i nasIp) := by
  unfold fetchSecret fetchedSecret
  cases attempt.secret i <;> rfl

/-- The events of a request once it is encoded: the packet, if the socket opened, and the
acknowledgement. -/
def requestEvents (attempt : CoaAttempt) (i : Nat) (sessionId : String) (operation : Operation)
    (wire : Bytes) (result : Except Exc CoAResult) : List CoaEvent :=
  (if (attempt.answer i).reached then [.sent sessionId operation wire] else []) ++
    match result with
    | .ok r => if r.success then [.acked sessionId operation] else []
    | .error _ => []

theorem sendRequest_of_error {i identifier : Nat} {operation : Operation} {session : FoundSession}
    {calling : Option String} {secret : String} {e : Exc}
    (h : requestResult env attempt i identifier operation session calling secret = .error e) :
    sendRequest env attempt i identifier operation session calling secret =
      ⟨[.identifier (nextId identifier)], .error e⟩ := by
  rw [sendRequest, h]
  rfl

theorem sendRequest_of_ok {i identifier : Nat} {operation : Operation} {session : FoundSession}
    {calling : Option String} {secret : String} {wire : Bytes} {result : Except Exc CoAResult}
    (h : requestResult env attempt i identifier operation session calling secret =
      .ok (wire, result)) :
    sendRequest env attempt i identifier operation session calling secret =
      ⟨.identifier (nextId identifier) ::
        requestEvents attempt i session.row.sessionId operation wire result, result⟩ := by
  rw [sendRequest, h]
  unfold requestEvents
  cases (attempt.answer i).reached with
  | false =>
    cases result with
    | error e => rfl
    | ok r => cases hSuccess : r.success <;> simp [hSuccess, Traced.emit, Traced.lift, Bind.bind, Pure.pure]
  | true =>
    cases result with
    | error e => rfl
    | ok r => cases hSuccess : r.success <;> simp [hSuccess, Traced.emit, Traced.lift, Bind.bind, Pure.pure]

theorem logCoa_of_error {i : Nat} {session : FoundSession} {r : CoAResult} {e : Exc}
    (h : logStatements attempt i r = .error e) :
    logCoa env attempt i session r = ⟨[], .error e⟩ := by
  rw [logCoa, h]
  rfl

theorem logCoa_of_ok {i : Nat} {session : FoundSession} {r : CoAResult}
    (h : logStatements attempt i r = .ok ()) :
    logCoa env attempt i session r = ⟨.logged (auditRow env session r) ::
      if endsSession r then [.terminated session.row.sessionId] else [], .ok ()⟩ := by
  rw [logCoa, h]
  cases hEnds : endsSession r <;> rfl

end Events

/-! ## What a call leaves behind -/

def SessionRow.terminate (sessionId : String) (row : SessionRow) : SessionRow :=
  if row.sessionId = sessionId then { row with status := "terminated" } else row

theorem SessionRow.terminate_sessionId (sessionId : String) (row : SessionRow) :
    (row.terminate sessionId).sessionId = row.sessionId := by
  unfold SessionRow.terminate
  split <;> rfl

def SessionTable.terminate (table : SessionTable) (sessionId : String) : SessionTable where
  rows := table.rows.map (SessionRow.terminate sessionId)
  unique := by
    rw [List.map_map]
    have hSame : SessionRow.sessionId ∘ SessionRow.terminate sessionId = SessionRow.sessionId :=
      funext fun row => row.terminate_sessionId sessionId
    rw [hSame]
    exact table.unique

def World.apply (w : World) : CoaEvent → World
  | .identifier n => { w with identifier := n }
  | .terminated sessionId => { w with sessions := w.sessions.terminate sessionId }
  | _ => w

/-- The world after a call, whether it returned or raised. -/
def World.after {α : Type} (w : World) (x : CoaRun α) : World := x.events.foldl World.apply w

end OpenRadiusWeb.Coa
