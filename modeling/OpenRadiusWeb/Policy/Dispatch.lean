import OpenRadiusWeb.Coa.Schedule
import OpenRadiusWeb.Switch.BouncePort
import Mathlib.Data.List.Nodup

/-! # From a policy action to the service that performs it

The engine publishes an untyped message and another service reads it. The VLAN of a
`vlan_assign` message is under a name that its handler does not read, and a `bounce_port`
message has no address to bounce. A `coa` message is served, unless it asks for the
registered action `bounce-port`.
-/

namespace OpenRadiusWeb.Policy

open OpenRadiusWeb.Coa
open OpenRadiusWeb.Switch

/-- The values of `params.action` in `ACTION_TYPES["coa"]`. -/
def registeredCoaActions : List String := ["reauthenticate", "disconnect", "bounce-port"]

/-- The hexadecimal digits of a MAC in any notation, in lower case. -/
def macDigits (mac : String) : List Char :=
  (mac.toList.map Char.toLower).filter fun c => c.isDigit || ('a' ≤ c && c ≤ 'f')

def sameMac (a b : String) : Prop := macDigits a = macDigits b ∧ (macDigits b).length = 12

/-- The session is active and its station has this MAC. -/
structure ActiveFor (w : World) (mac : String) (s : FoundSession) : Prop where
  found : s ∈ w.joined
  active : s.row.status = "active"
  station : ∃ calling, s.row.callingStationId = some calling ∧ sameMac calling mac

/-- What an action's parameters ask the CoA service for. -/
structure CoaParams where
  action : PyVal
  vlanId : PyVal
  aclName : PyVal

def coaParams (action : Dict PyVal) : Except PyErr CoaParams := do
  let params := action.getD "params" (.dict [])
  return ⟨← params.getAttr "action" (.str "reauthenticate"), ← params.getAttr "vlan_id" .none,
    ← params.getAttr "acl_name" .none⟩

section Serves

variable (env : Env) (w : World) (attempt : CoaAttempt) (switch : SwitchEnv)

/-- A packet for the operation went to the NAS of a session with this MAC. -/
def Performs (x : CoaRun Unit) (mac : String) (operation : Operation) : Prop :=
  ∃ s wire, ActiveFor w mac s ∧ .sent s.row.sessionId operation wire ∈ x.events

/-- The handler acts on a `coa` message: it does not drop it, and given an active session it
performs the operation that the action names, and knows every registered action. -/
def ServesCoa (params : CoaParams) (mac : String) (data : Dict PyVal) : Prop :=
  mac ≠ "" ∧ ((∃ s, ActiveFor w mac s) →
    match operationOf params.action params.vlanId params.aclName with
    | some operation => Performs w (handleCoaAction env w attempt data) mac operation
    | none => ∀ name ∈ registeredCoaActions, ¬params.action.eq (.str name))

/-- The handler acts on a `vlan_assign` message: it finds the MAC and the VLAN, and given an
active session in another VLAN it changes the VLAN. -/
def ServesVlanAssign (vlan : PyVal) (mac : String) (data : Dict PyVal) : Prop :=
  ((data.getD "mac_address" .none).truthy = true ∧ (data.getD "vlan_id" .none).truthy = true) ∧
    ∀ s, ActiveFor w mac s → (optInt s.row.assignedVlan).eq vlan = false →
      Performs w (handlePolicyVlanAssign env w attempt data) mac (.vlanChange vlan)

/-- The handler acts on a `bounce_port` message: no key is missing, and commands are executed
on a switch or the failure is one of the switch. -/
def ServesBouncePort (data : Dict PyVal) : Prop :=
  (handleBouncePort switch data).result ≠ .error .keyError

/-- The handler subscribed to the message of an action acts on it. -/
def Serves (action : Dict PyVal) (device : Context) (message : Message) : Prop :=
  let mac := (device.getD "mac_address" .none).toStr env.builtins
  match action.getD "type" (.str "") with
  | .str "vlan_assign" => ∀ vlan, message.data.get? "target_vlan" = some vlan →
      ServesVlanAssign env w attempt vlan mac message.data
  | .str "bounce_port" => ServesBouncePort switch message.data
  | .str "coa" => ∃ params, coaParams action = .ok params ∧
      ServesCoa env w attempt params mac message.data
  | _ => True

end Serves

/-! ## When the handler acts -/

/-- The lookup finds an active session of the MAC and the request goes out: its secret is
known, the packet can be built and encoded, and the socket opens. -/
def Reaches (env : Env) (w : World) (attempt : CoaAttempt) (mac : String)
    (operation : Operation) : Prop :=
  attempt.lookup = .ok () ∧ (attempt.answer 0).reached = true ∧
    ∃ s secret wire result, findByMac env w mac = some s ∧ ActiveFor w mac s ∧
      fetchedSecret env w attempt 0 s.row.nasIp = .ok secret ∧
      requestResult env attempt 0 w.identifier operation s s.row.callingStationId secret =
        .ok (wire, result)

/-- An action whose message is served. -/
def Servable (env : Env) (w : World) (attempt : CoaAttempt) (action : Dict PyVal)
    (device : Context) : Prop :=
  let mac := (device.getD "mac_address" .none).toStr env.builtins
  action.getD "type" (.str "") = .str "coa" ∧ ∃ params, coaParams action = .ok params ∧ mac ≠ "" ∧
    ((∃ s, ActiveFor w mac s) →
      match operationOf params.action params.vlanId params.aclName with
      | some operation => Reaches env w attempt mac operation
      | none => ∀ name ∈ registeredCoaActions, ¬params.action.eq (.str name))

section Handlers

variable {env : Env} {w : World} {attempt : CoaAttempt}

def coaData (params : CoaParams) (mac : String) : Dict PyVal :=
  [("mac_address", .str mac), ("action", params.action), ("vlan_id", params.vlanId),
    ("acl_name", params.aclName)]

theorem activeFor_of_same_id {mac : String} {s t : FoundSession} (hs : ActiveFor w mac s)
    (ht : t ∈ w.joined) (hId : s.row.sessionId = t.row.sessionId) : ActiveFor w mac t := by
  have hRow : s.row = t.row := List.inj_on_of_nodup_map w.sessions.unique (mem_joined hs.found)
    (mem_joined ht) hId
  exact ⟨ht, hRow ▸ hs.active, hRow ▸ hs.station⟩

theorem findByMac_joined {mac : String} {s : FoundSession} (h : findByMac env w mac = some s) :
    s ∈ w.joined := (List.mem_filter.mp (latest_mem h)).1

/-- The call that a `coa` message leads to. -/
theorem handleCoaAction_events {params : CoaParams} {mac : String} (hMac : mac ≠ "") :
    (handleCoaAction env w attempt (coaData params mac)).events =
      match attempt.lookup, findByMac env w mac with
      | .ok _, some s => (executeCoa env w attempt 0 w.identifier s params.action params.vlanId
          params.aclName).events
      | _, _ => [] := by
  have hTruthy : (PyVal.str mac).truthy = true := by simpa [PyVal.truthy] using hMac
  unfold handleCoaAction
  rw [show (coaData params mac).getD "action" (.str "reauthenticate") = params.action from rfl,
    show (coaData params mac).getD "vlan_id" .none = params.vlanId from rfl,
    show (coaData params mac).getD "acl_name" .none = params.aclName from rfl,
    show (coaData params mac).getD "session_id" .none = .none from rfl,
    show (coaData params mac).getD "mac_address" .none = .str mac from rfl]
  dsimp only
  rw [if_neg (by simp [PyVal.truthy]), if_pos hTruthy]
  unfold coaByMac coaBySession findActiveSession
  cases attempt.lookup with
  | error e => rfl
  | ok u =>
    rw [Traced.lift_ok_bind, if_neg (by simp [PyVal.truthy]), if_pos hTruthy, Traced.lift_ok_bind]
    cases findByMac env w mac with
    | none => rfl
    | some s =>
      exact Traced.lift_bind_events (y := fun _ => .ok ())

theorem performs_iff_reaches {params : CoaParams} {mac : String} {operation : Operation}
    (hMac : mac ≠ "")
    (hOperation : operationOf params.action params.vlanId params.aclName = some operation) :
    Performs w (handleCoaAction env w attempt (coaData params mac)) mac operation ↔
      Reaches env w attempt mac operation := by
  unfold Performs Reaches
  rw [handleCoaAction_events hMac]
  cases hLookup : attempt.lookup with
  | error e => simp
  | ok u =>
    cases hFind : findByMac env w mac with
    | none => simp
    | some t =>
      constructor
      · rintro ⟨s, wire, hActive, hSent⟩
        obtain ⟨-, hId, hReached, secret, result, hSecret, hRequest⟩ :=
          sent_mem_executeCoa.mp hSent
        exact ⟨rfl, hReached, t, secret, wire, result, rfl,
          activeFor_of_same_id hActive (findByMac_joined hFind) hId, hSecret, hRequest⟩
      · rintro ⟨-, hReached, s, secret, wire, result, hSame, hActive, hSecret, hRequest⟩
        cases hSame
        exact ⟨t, wire, hActive, sent_mem_executeCoa.mpr
          ⟨hOperation, rfl, hReached, secret, result, hSecret, hRequest⟩⟩

/-- The message of a `coa` action carries the MAC and the parameters. -/
theorem coa_message {action : Dict PyVal} {device : Context} {message : Message}
    (hType : action.getD "type" (.str "") = .str "coa")
    (hMessage : actionMessage env.builtins action device = .ok (some message)) :
    ∃ params, coaParams action = .ok params ∧
      message.data = coaData params ((device.getD "mac_address" .none).toStr env.builtins) := by
  unfold actionMessage at hMessage
  rw [hType] at hMessage
  obtain ⟨coaAction, hAction, hRest⟩ := Except.ok_of_bind hMessage
  obtain ⟨vlanId, hVlan, hRest⟩ := Except.ok_of_bind hRest
  obtain ⟨aclName, hAcl, hPure⟩ := Except.ok_of_bind hRest
  cases hPure
  refine ⟨⟨coaAction, vlanId, aclName⟩, ?_, rfl⟩
  unfold coaParams
  dsimp only at hAction hVlan hAcl ⊢
  rw [hAction, hVlan, hAcl]
  rfl

theorem vlanAssign_message {action : Dict PyVal} {device : Context} {message : Message}
    (hType : action.getD "type" (.str "") = .str "vlan_assign")
    (hMessage : actionMessage env.builtins action device = .ok (some message)) :
    ∃ vlan, message.data = [("device_id", deviceText env.builtins device "id"),
      ("mac_address", deviceText env.builtins device "mac_address"), ("target_vlan", vlan)] := by
  unfold actionMessage at hMessage
  rw [hType] at hMessage
  obtain ⟨vlan, -, hRest⟩ := Except.ok_of_bind hMessage
  obtain ⟨vlanId, -, hRest⟩ := Except.ok_of_bind hRest
  split at hRest
  · cases hRest
    exact ⟨_, rfl⟩
  · cases hRest

theorem bouncePort_message {action : Dict PyVal} {device : Context} {message : Message}
    (hType : action.getD "type" (.str "") = .str "bounce_port")
    (hMessage : actionMessage env.builtins action device = .ok (some message)) :
    message.data = [("device_id", deviceText env.builtins device "id"),
      ("mac_address", deviceText env.builtins device "mac_address")] := by
  unfold actionMessage at hMessage
  rw [hType] at hMessage
  cases hMessage
  rfl

/-- Of the messages of the three action types exactly those of a `coa` action are served whose
request goes out and which do not ask for `bounce-port`. -/
theorem serves_iff (switch : SwitchEnv) {action : Dict PyVal} {device : Context}
    {message : Message}
    (hType : action.getD "type" (.str "") = .str "vlan_assign" ∨
      action.getD "type" (.str "") = .str "coa" ∨
      action.getD "type" (.str "") = .str "bounce_port")
    (hMessage : actionMessage env.builtins action device = .ok (some message)) :
    Serves env w attempt switch action device message ↔ Servable env w attempt action device := by
  rcases hType with hType | hType | hType
  · obtain ⟨vlan, hData⟩ := vlanAssign_message hType hMessage
    unfold Serves Servable
    rw [hType]
    dsimp only
    refine iff_of_false (fun h => ?_) (by simp)
    have hDropped := (h vlan (by rw [hData]; rfl)).1.2
    rw [hData] at hDropped
    cases hDropped
  · obtain ⟨params, hParams, hData⟩ := coa_message hType hMessage
    unfold Serves Servable ServesCoa
    rw [hType, hData]
    dsimp only
    have hOne : ∀ params', coaParams action = .ok params' → params' = params := fun params' h =>
      Except.ok.inj (h.symm.trans hParams)
    constructor
    · rintro ⟨params', h, hMac, hActs⟩
      obtain rfl := hOne params' h
      refine ⟨rfl, params', h, hMac, fun hActive => ?_⟩
      have hActs := hActs hActive
      cases hOperation : operationOf params'.action params'.vlanId params'.aclName with
      | none =>
        rw [hOperation] at hActs
        exact hActs
      | some operation =>
        rw [hOperation] at hActs
        exact (performs_iff_reaches hMac hOperation).mp hActs
    · rintro ⟨-, params', h, hMac, hActs⟩
      obtain rfl := hOne params' h
      refine ⟨params', h, hMac, fun hActive => ?_⟩
      have hActs := hActs hActive
      cases hOperation : operationOf params'.action params'.vlanId params'.aclName with
      | none =>
        rw [hOperation] at hActs
        exact hActs
      | some operation =>
        rw [hOperation] at hActs
        exact (performs_iff_reaches hMac hOperation).mpr hActs
  · have hData := bouncePort_message hType hMessage
    unfold Serves Servable ServesBouncePort
    rw [hType]
    dsimp only
    refine iff_of_false (fun h => h ?_) (by simp)
    rw [handleBouncePort_of_missing switch (by rw [hData]; rfl)]

end Handlers

/-! ## Messages for one device -/

def phone : Context := [("id", .str "d1"), ("mac_address", .str "00:11:22:33:44:55")]

def phoneSession : FoundSession :=
  ⟨{ oneSession with callingStationId := some "00:11:22:33:44:55" }, none⟩

def phoneWorld : World := ⟨0, ⟨[phoneSession.row], by decide⟩, []⟩

/-- The digest is the one of the disconnect request for the session of the phone. -/
def phoneEnv : Env :=
  { oneEnv with codecs := ⟨fun _ => [15, 182, 117, 113, 72, 192, 169, 46, 14, 16, 72, 113, 83, 22, 33, 95], fun _ => ""⟩ }

def noSwitch : SwitchEnv where
  builtins := plainBuiltins
  sshRow _ := .ok none
  decryptSecret _ := .ok none
  connect _ _ _ _ _ := .error (.other "NetmikoTimeoutException")
  publish := .ok ()

def coaAction (name : String) : Dict PyVal :=
  [("type", .str "coa"), ("params", .dict [("action", .str name)])]

def coaMessage (name : String) : Message :=
  ⟨"orw.policy.action.coa", coaData ⟨.str name, .none, .none⟩ "00:11:22:33:44:55"⟩

theorem phone_active : ActiveFor phoneWorld "00:11:22:33:44:55" phoneSession where
  found := by decide +kernel
  active := rfl
  station := ⟨_, rfl, rfl, by decide +kernel⟩

theorem disconnect_served :
    Serves phoneEnv phoneWorld acknowledged noSwitch (coaAction "disconnect") phone
      (coaMessage "disconnect") := by
  have hFind : findByMac phoneEnv phoneWorld "00:11:22:33:44:55" = some phoneSession := by
    decide +kernel
  have hEncodes : (requestResult phoneEnv acknowledged 0 0 .disconnect phoneSession
      phoneSession.row.callingStationId defaultCoaSecret).toOption.isSome = true := by
    decide +kernel
  refine (serves_iff noSwitch (.inr (.inl rfl)) rfl).mpr
    ⟨rfl, ⟨.str "disconnect", .none, .none⟩, rfl, by decide, fun _ => ?_⟩
  cases hRequest : requestResult phoneEnv acknowledged 0 0 .disconnect phoneSession
      phoneSession.row.callingStationId defaultCoaSecret with
  | error e =>
    rw [hRequest] at hEncodes
    cases hEncodes
  | ok sent =>
    exact ⟨rfl, rfl, phoneSession, defaultCoaSecret, sent.1, sent.2, hFind, phone_active, rfl,
      hRequest⟩

/-- The action of the template for corporate devices. -/
def corporateAction : Dict PyVal :=
  [("type", .str "vlan_assign"),
    ("params", .dict [("vlan_id", .int 20), ("vlan_name", .str "Corporate")])]

def corporateMessage : Message :=
  ⟨"orw.policy.action.vlan_assign", [("device_id", .str "d1"),
    ("mac_address", .str "00:11:22:33:44:55"), ("target_vlan", .int 20)]⟩

def bouncePortMessage : Message :=
  ⟨"orw.switch.bounce_port",
    [("device_id", .str "d1"), ("mac_address", .str "00:11:22:33:44:55")]⟩

theorem messages_not_served :
    (actionMessage plainBuiltins corporateAction phone = .ok (some corporateMessage) ∧
      ¬Serves phoneEnv phoneWorld acknowledged noSwitch corporateAction phone corporateMessage) ∧
    (actionMessage plainBuiltins [("type", .str "bounce_port")] phone =
        .ok (some bouncePortMessage) ∧
      ¬Serves phoneEnv phoneWorld acknowledged noSwitch [("type", .str "bounce_port")] phone
        bouncePortMessage) ∧
    (actionMessage plainBuiltins (coaAction "bounce-port") phone =
        .ok (some (coaMessage "bounce-port")) ∧
      ¬Serves phoneEnv phoneWorld acknowledged noSwitch (coaAction "bounce-port") phone
        (coaMessage "bounce-port")) := by
  refine ⟨⟨rfl, fun h => ?_⟩, ⟨rfl, fun h => ?_⟩, rfl, fun h => ?_⟩
  · cases (h (.int 20) rfl).1.2
  · exact h rfl
  · obtain ⟨params, hParams, -, hActs⟩ := h
    obtain rfl : params = ⟨.str "bounce-port", .none, .none⟩ := (Except.ok.inj hParams).symm
    exact hActs ⟨phoneSession, phone_active⟩ "bounce-port" (by decide) (by decide)

end OpenRadiusWeb.Policy
