import OpenRadiusWeb.Coa.Schedule
import OpenRadiusWeb.Coa.Codec

/-! # The four operations on a session

`disconnect_session`, `reauthenticate_session`, `change_vlan` and `apply_acl` build a packet
from their arguments, send it and hand out a result. The arguments are any texts, so a packet
may be one that `encode` refuses; that and most of what can be wrong with an answer are raised
and not made a result.
-/

namespace OpenRadiusWeb.Coa

open OpenRadiusWeb.Policy (PyVal plainBuiltins)

/-- The arguments that the operations share. -/
structure CoaTarget where
  nasIp : Option String
  secret : String
  sessionId : Option String
  callingStationId : Option String

/-- An operation with its own arguments. -/
inductive Call
  | disconnect (username : Option String) (nasPort : Option Int)
  | reauthenticate (vendor : Option String)
  | changeVlan (vlanId : PyVal) (vendor : Option String)
  | applyAcl (aclName : PyVal)

/-- `struct.pack("!I", n)` of any integer. -/
def packIntI (n : Int) : Except Exc Bytes :=
  if 0 ≤ n ∧ n < 2 ^ 32 then .ok (octets n.toNat)
  else .error "'I' format requires 0 <= number <= 4294967295"

section Operations

variable (env : Env) (identifier : Nat) (target : CoaTarget) (now : String) (answer : Answer)

/-- The packet of `disconnect_session`, whose port is any integer. -/
def disconnectPacket (username : Option String) (nasPort : Option Int) : Except Exc RadiusPacket := do
  let pkt := addIfText (sessionRequest RadiusCode.disconnectRequest (nextId identifier)
    target.sessionId target.callingStationId) RadiusAttr.userName username
  match nasPort with
  | some port => return pkt.addAttribute RadiusAttr.nasPort (← packIntI port)
  | none => return pkt

/-- What the operations do with their packet. -/
def operate (request : Except Exc RadiusPacket) (action : String) : Except Exc CoAResult := do
  let pkt ← request
  let (_, result) ← sendPacket env.codecs pkt target.secret action target.nasIp now answer
  let r ← result
  return { r with sessionId := target.sessionId, macAddress := target.callingStationId }

def disconnectSession (username : Option String) (nasPort : Option Int) : Except Exc CoAResult :=
  operate env target now answer (disconnectPacket identifier target username nasPort) "disconnect"

def reauthenticateSession (vendor : Option String) : Except Exc CoAResult :=
  operate env target now answer
    (reauthenticateRequest env (nextId identifier) target.sessionId target.callingStationId vendor)
    "reauthenticate"

def changeVlan (vlanId : PyVal) (vendor : Option String) : Except Exc CoAResult :=
  operate env target now answer
    (changeVlanRequest env (nextId identifier) vlanId target.sessionId target.callingStationId vendor)
    ("vlan_change:" ++ vlanId.toStr env.builtins)

def applyAcl (aclName : PyVal) : Except Exc CoAResult :=
  operate env target now answer
    (applyAclRequest (nextId identifier) aclName target.sessionId target.callingStationId)
    ("apply_acl:" ++ aclName.toStr env.builtins)

namespace Call

/-- The result of an operation, or what it raises. -/
def run : Call → Except Exc CoAResult
  | .disconnect username nasPort => disconnectSession env identifier target now answer username nasPort
  | .reauthenticate vendor => reauthenticateSession env identifier target now answer vendor
  | .changeVlan vlanId vendor => Coa.changeVlan env identifier target now answer vlanId vendor
  | .applyAcl aclName => Coa.applyAcl env identifier target now answer aclName

/-- The packet of an operation. -/
def request : Call → Except Exc RadiusPacket
  | .disconnect username nasPort => disconnectPacket identifier target username nasPort
  | .reauthenticate vendor =>
    reauthenticateRequest env (nextId identifier) target.sessionId target.callingStationId vendor
  | .changeVlan vlanId vendor =>
    changeVlanRequest env (nextId identifier) vlanId target.sessionId target.callingStationId vendor
  | .applyAcl aclName =>
    applyAclRequest (nextId identifier) aclName target.sessionId target.callingStationId

/-- The octets an operation sends. -/
def wire (call : Call) : Except Exc Bytes := do
  (← call.request env identifier target).encode env.codecs target.secret

end Call

end Operations

/-! ## The attributes of a request -/

/-- The attribute `addIfText` adds. -/
def textAttribute (attrType : Nat) (text : Option String) : List (Nat × Bytes) :=
  match text with
  | some t => if t = "" then [] else [(attrType, utf8 t)]
  | none => []

def avpairAttribute (avpair : String) : Nat × Bytes :=
  (RadiusAttr.vendorSpecific,
    octets ciscoVendorId ++ [ciscoAvPair.toUInt8, ((utf8 avpair).length + 2).toUInt8] ++ utf8 avpair)

def sessionAttributes (sessionId callingStationId : Option String) : List (Nat × Bytes) :=
  textAttribute RadiusAttr.acctSessionId sessionId ++
    textAttribute RadiusAttr.callingStationId callingStationId

theorem utf8_append (s t : String) : utf8 (s ++ t) = utf8 s ++ utf8 t := by
  simp [utf8]

theorem addIfText_eq (pkt : RadiusPacket) (attrType : Nat) (text : Option String) :
    addIfText pkt attrType text = { pkt with attributes := pkt.attributes ++ textAttribute attrType text } := by
  cases text with
  | none => simp [addIfText, textAttribute]
  | some t =>
    by_cases hEmpty : t = ""
    · simp [addIfText, textAttribute, hEmpty]
    · simp [addIfText, textAttribute, hEmpty, RadiusPacket.addString, RadiusPacket.addAttribute]

theorem sessionRequest_eq (code identifier : Nat) (sessionId callingStationId : Option String) :
    sessionRequest code identifier sessionId callingStationId =
      ⟨code, identifier, RadiusPacket.zeroAuthenticator,
        sessionAttributes sessionId callingStationId⟩ := by
  rw [sessionRequest, addIfText_eq, addIfText_eq]
  rfl

theorem addCiscoAvpair_ok {pkt : RadiusPacket} {avpair : String} (h : (utf8 avpair).length ≤ 253) :
    pkt.addCiscoAvpair avpair =
      .ok { pkt with attributes := pkt.attributes ++ [avpairAttribute avpair] } := by
  rw [RadiusPacket.addCiscoAvpair]
  simp only [packB_ok (show (utf8 avpair).length + 2 < 256 by omega), bind, Except.bind, pure,
    Except.pure]
  rfl

theorem length_of_addCiscoAvpair {pkt pkt' : RadiusPacket} {avpair : String}
    (h : pkt.addCiscoAvpair avpair = .ok pkt') : (utf8 avpair).length ≤ 253 := by
  obtain ⟨length, hLength, -⟩ := Except.ok_of_bind h
  have := lt_of_packB hLength
  omega

theorem packIntI_ok {n : Int} (h : 0 ≤ n ∧ n < 2 ^ 32) : packIntI n = .ok (octets n.toNat) := if_pos h

theorem range_of_packIntI {n : Int} {bs : Bytes} (h : packIntI n = .ok bs) : 0 ≤ n ∧ n < 2 ^ 32 := by
  unfold packIntI at h
  split at h
  · assumption
  · cases h

def auditSession (sessionId : Option String) : String := "audit-session-id=" ++ sessionId.getD ""

def definedAcl (aclName : String) : String := "ACS:CiscoSecure-Defined-ACL=#" ++ aclName

/-- The three attributes of `add_tunnel_vlan` with tag 0. -/
def tunnelAttributes (vlanText : String) : List (Nat × Bytes) := [
  (RadiusAttr.tunnelType, RadiusPacket.taggedInteger 0 13),
  (RadiusAttr.tunnelMediumType, RadiusPacket.taggedInteger 0 6),
  (RadiusAttr.tunnelPrivateGroupId, 0 :: utf8 vlanText)]

namespace Call

section

variable (env : Env) (target : CoaTarget)

def code : Call → Nat
  | .disconnect _ _ => RadiusCode.disconnectRequest
  | _ => RadiusCode.coaRequest

def ownAttributes : Call → List (Nat × Bytes)
  | .disconnect username nasPort =>
    textAttribute RadiusAttr.userName username ++
      (nasPort.map fun port => (RadiusAttr.nasPort, octets port.toNat)).toList
  | .reauthenticate vendor =>
    [if vendor.map env.builtins.lower = some "juniper" then (RadiusAttr.serviceType, octets 17)
      else avpairAttribute reauthenticateCommand]
  | .changeVlan vlanId vendor =>
    tunnelAttributes (vlanId.toStr env.builtins) ++
      if vendor.map env.builtins.lower = some "cisco" then
        [avpairAttribute (auditSession target.sessionId), avpairAttribute reauthenticateCommand]
      else []
  | .applyAcl aclName =>
    [(RadiusAttr.filterId, utf8 (aclName.toStr env.builtins)),
      avpairAttribute (definedAcl (aclName.toStr env.builtins))]

def attributes (call : Call) : List (Nat × Bytes) :=
  sessionAttributes target.sessionId target.callingStationId ++ call.ownAttributes env target

/-- Nothing raises while the packet is put together. -/
def Buildable : Call → Prop
  | .disconnect _ nasPort => ∀ port ∈ nasPort, 0 ≤ port ∧ port < 2 ^ 32
  | .reauthenticate vendor => vendor ≠ none
  | .changeVlan _ vendor =>
    vendor ≠ none ∧ (vendor.map env.builtins.lower = some "cisco" →
      (utf8 (auditSession target.sessionId)).length ≤ 253)
  | .applyAcl aclName => ∃ name, aclName = .str name ∧ (utf8 (definedAcl name)).length ≤ 253

end

theorem length_reauthenticateCommand : (utf8 reauthenticateCommand).length = 33 := by decide +kernel

theorem request_ok {env : Env} {target : CoaTarget} {call : Call} (identifier : Nat)
    (h : call.Buildable env target) : call.request env identifier target =
      .ok ⟨call.code, nextId identifier, RadiusPacket.zeroAuthenticator,
        call.attributes env target⟩ := by
  have hCommand : (utf8 reauthenticateCommand).length ≤ 253 := by
    rw [length_reauthenticateCommand]
    omega
  cases call with
  | disconnect username nasPort =>
    rw [request]
    cases nasPort with
    | none =>
      unfold disconnectPacket
      rw [sessionRequest_eq, addIfText_eq]
      simp only [attributes, ownAttributes, Option.map_none, Option.toList_none, List.append_nil]
      rfl
    | some port =>
      unfold disconnectPacket
      rw [sessionRequest_eq, addIfText_eq]
      simp only [packIntI_ok (h port rfl), attributes, ownAttributes, ← List.append_assoc]
      rfl
  | reauthenticate vendor =>
    obtain ⟨v, rfl⟩ := Option.ne_none_iff_exists'.mp h
    rw [request, reauthenticateRequest, sessionRequest_eq]
    simp only [attributes, ownAttributes, vendorLower, Option.map_some, Option.some.injEq, bind,
      Except.bind]
    by_cases hJuniper : env.builtins.lower v = "juniper"
    · rw [hJuniper, if_neg (by decide), if_pos rfl, if_pos rfl]
      rfl
    · rw [if_neg hJuniper, if_neg hJuniper, ite_self, addCiscoAvpair_ok hCommand]
      rfl
  | changeVlan vlanId vendor =>
    obtain ⟨v, rfl⟩ := Option.ne_none_iff_exists'.mp h.1
    rw [request, changeVlanRequest, sessionRequest_eq]
    simp only [attributes, ownAttributes, vendorLower, Option.map_some, Option.some.injEq, bind,
      Except.bind]
    by_cases hCisco : env.builtins.lower v = "cisco"
    · have hAudit : (utf8 ("audit-session-id=" ++ target.sessionId.getD "")).length ≤ 253 :=
        h.2 (congrArg some hCisco)
      simp only [if_pos hCisco, addCiscoAvpair_ok hAudit, addCiscoAvpair_ok hCommand,
        RadiusPacket.addTunnelVlan, RadiusPacket.addAttribute, List.append_assoc]
      rfl
    · rw [if_neg hCisco, if_neg hCisco, List.append_nil]
      simp only [RadiusPacket.addTunnelVlan, RadiusPacket.addAttribute, List.append_assoc]
      rfl
  | applyAcl aclName =>
    obtain ⟨name, rfl, hName⟩ := h
    have hAcl : (utf8 ("ACS:CiscoSecure-Defined-ACL=#" ++ name)).length ≤ 253 := hName
    rw [request, applyAclRequest, sessionRequest_eq, addCiscoAvpair_ok hAcl]
    simp only [RadiusPacket.addString, RadiusPacket.addAttribute, List.append_assoc]
    rfl

theorem buildable_of_request {env : Env} {target : CoaTarget} {call : Call} {identifier : Nat}
    {pkt : RadiusPacket} (h : call.request env identifier target = .ok pkt) :
    call.Buildable env target := by
  cases call with
  | disconnect username nasPort =>
    rintro port rfl
    rw [request] at h
    unfold disconnectPacket at h
    obtain ⟨bs, hPort, -⟩ := Except.ok_of_bind h
    exact range_of_packIntI hPort
  | reauthenticate vendor =>
    rintro rfl
    cases h
  | changeVlan vlanId vendor =>
    rw [request, changeVlanRequest] at h
    obtain ⟨v, hVendor, hBody⟩ := Except.ok_of_bind h
    cases vendor with
    | none => cases hVendor
    | some vendor =>
      refine ⟨Option.some_ne_none vendor, fun hCisco => ?_⟩
      have hLower : v = "cisco" := (Except.ok.inj hVendor).symm.trans (Option.some.inj hCisco)
      rw [if_pos hLower] at hBody
      obtain ⟨pkt, hAudit, -⟩ := Except.ok_of_bind hBody
      exact length_of_addCiscoAvpair hAudit
  | applyAcl aclName =>
    cases aclName with
    | str name => exact ⟨name, rfl, length_of_addCiscoAvpair h⟩
    | _ => cases h

/-! ## Which packets can be encoded -/

theorem sum_lengths_le {attributes : List (Nat × Bytes)} (h : ∀ attr ∈ attributes, attr.2.length ≤ 253) :
    (attributes.map fun attr => attr.2.length + 2).sum ≤ 255 * attributes.length := by
  induction attributes with
  | nil => exact Nat.le_refl 0
  | cons attr attributes ih =>
    rw [List.forall_mem_cons] at h
    have hRest := ih h.2
    have hHead := h.1
    rw [List.map_cons, List.sum_cons, List.length_cons]
    omega

/-- A short packet is encoded when all its values fit. -/
theorem encode_iff_values {codecs : Codecs} {secret : String} {pkt : RadiusPacket}
    (hCode : pkt.code < 256) (hIdentifier : pkt.identifier < 256)
    (hTypes : ∀ attr ∈ pkt.attributes, attr.1 < 256) (hFew : pkt.attributes.length ≤ 256) :
    (∃ bs, pkt.encode codecs secret = .ok bs) ↔ ∀ attr ∈ pkt.attributes, attr.2.length ≤ 253 := by
  rw [← IntPacket.encode_toInts, IntPacket.encode_iff]
  have hMem : ∀ P : Int × Bytes → Prop, (∀ attr ∈ pkt.toInts.attributes, P attr) ↔
      ∀ attr ∈ pkt.attributes, P (attr.1, attr.2) := fun P => List.forall_mem_map
  constructor
  · intro h
    exact (hMem fun attr => attr.2.length ≤ 253).mp h.values
  · intro h
    have hTotal := sum_lengths_le h
    have hOctet : ∀ n : Nat, n < 256 → IntPacket.Octet n := by
      intro n hn
      constructor <;> omega
    refine ⟨hOctet _ hCode, hOctet _ hIdentifier, ?_, (hMem fun attr => attr.2.length ≤ 253).mpr h, ?_⟩
    · exact (hMem fun attr => IntPacket.Octet attr.1).mpr fun attr hAttr => hOctet _ (hTypes attr hAttr)
    · rw [IntPacket.attributesLength, RadiusPacket.toInts, List.map_map]
      refine Nat.le_trans (Nat.add_le_add_left hTotal 20) ?_
      omega

def FitsText (text : Option String) : Prop := ∀ t ∈ text, (utf8 t).length ≤ 253

/-- The texts fit into their attributes and the numbers into their formats. -/
def Encodable (env : Env) (target : CoaTarget) (call : Call) : Prop :=
  FitsText target.sessionId ∧ FitsText target.callingStationId ∧
  match call with
  | .disconnect username nasPort => FitsText username ∧ ∀ port ∈ nasPort, 0 ≤ port ∧ port < 2 ^ 32
  | .reauthenticate vendor => vendor ≠ none
  | .changeVlan vlanId vendor => (utf8 (vlanId.toStr env.builtins)).length ≤ 252 ∧ vendor ≠ none ∧
    (vendor.map env.builtins.lower = some "cisco" → (utf8 (target.sessionId.getD "")).length ≤ 230)
  | .applyAcl aclName => ∃ name, aclName = .str name ∧ (utf8 name).length ≤ 218

theorem forall_textAttribute {attrType : Nat} {text : Option String} :
    (∀ attr ∈ textAttribute attrType text, attr.2.length ≤ 253) ↔ FitsText text := by
  cases text with
  | none => simp [textAttribute, FitsText]
  | some t =>
    by_cases hEmpty : t = ""
    · simp [textAttribute, FitsText, hEmpty, utf8]
    · simp [textAttribute, FitsText, hEmpty]

theorem length_avpairAttribute (avpair : String) :
    (avpairAttribute avpair).2.length = 6 + (utf8 avpair).length := by
  simp [avpairAttribute, octets]
  omega

theorem length_utf8_append {s : String} {n : Nat} (h : (utf8 s).length = n) (t : String) :
    (utf8 (s ++ t)).length = n + (utf8 t).length := by
  rw [utf8_append, List.length_append, h]

theorem length_auditSession (sessionId : Option String) :
    (utf8 (auditSession sessionId)).length = 17 + (utf8 (sessionId.getD "")).length :=
  length_utf8_append (by decide +kernel) (sessionId.getD "")

theorem length_definedAcl (aclName : String) :
    (utf8 (definedAcl aclName)).length = 29 + (utf8 aclName).length :=
  length_utf8_append (by decide +kernel) aclName

theorem forall_sessionAttributes {sessionId calling : Option String} :
    (∀ attr ∈ sessionAttributes sessionId calling, attr.2.length ≤ 253) ↔
      FitsText sessionId ∧ FitsText calling := by
  rw [sessionAttributes, List.forall_mem_append, forall_textAttribute, forall_textAttribute]

theorem encodable_iff {env : Env} {target : CoaTarget} {call : Call} :
    call.Encodable env target ↔ call.Buildable env target ∧
      ∀ attr ∈ call.attributes env target, attr.2.length ≤ 253 := by
  have hCommand := length_reauthenticateCommand
  rw [attributes, List.forall_mem_append, forall_sessionAttributes]
  cases call with
  | disconnect username nasPort =>
    have hPort : ∀ attr ∈ (nasPort.map fun port => (RadiusAttr.nasPort, octets port.toNat)).toList,
        attr.2.length ≤ 253 := by
      intro attr hAttr
      obtain ⟨port, -, rfl⟩ := Option.map_eq_some_iff.mp (Option.mem_toList.mp hAttr)
      exact Nat.le_of_ble_eq_true rfl
    rw [Encodable, Buildable, ownAttributes, List.forall_mem_append, forall_textAttribute]
    tauto
  | reauthenticate vendor =>
    have hOwn : ∀ attr ∈ ownAttributes env target (.reauthenticate vendor), attr.2.length ≤ 253 := by
      intro attr hAttr
      rw [ownAttributes, List.mem_singleton] at hAttr
      subst hAttr
      split
      · exact Nat.le_of_ble_eq_true rfl
      · rw [length_avpairAttribute]
        omega
    rw [Encodable, Buildable]
    tauto
  | changeVlan vlanId vendor =>
    have hTunnel : (∀ attr ∈ tunnelAttributes (vlanId.toStr env.builtins), attr.2.length ≤ 253) ↔
        (utf8 (vlanId.toStr env.builtins)).length ≤ 252 := by
      have hShort : ∀ n, (RadiusPacket.taggedInteger 0 n).length ≤ 253 := fun n =>
        (List.length_take_le 4 _).trans (by decide)
      rw [tunnelAttributes, List.forall_mem_cons, List.forall_mem_cons, List.forall_mem_singleton,
        and_iff_right (hShort 13), and_iff_right (hShort 6), List.length_cons]
      omega
    have hAudit := length_auditSession target.sessionId
    rw [Encodable, Buildable, ownAttributes, List.forall_mem_append, hTunnel, hAudit]
    by_cases hCisco : vendor.map env.builtins.lower = some "cisco"
    · have hPairs : (∀ attr ∈ [avpairAttribute (auditSession target.sessionId),
          avpairAttribute reauthenticateCommand], attr.2.length ≤ 253) ↔
          (utf8 (target.sessionId.getD "")).length ≤ 230 := by
        rw [List.forall_mem_cons, List.forall_mem_singleton, length_avpairAttribute,
          length_avpairAttribute]
        omega
      have hRoom : (utf8 (target.sessionId.getD "")).length ≤ 230 →
          17 + (utf8 (target.sessionId.getD "")).length ≤ 253 := by omega
      rw [if_pos hCisco, hPairs]
      tauto
    · rw [if_neg hCisco]
      have hNone : ∀ attr ∈ ([] : List (Nat × Bytes)), attr.2.length ≤ 253 := nofun
      tauto
  | applyAcl aclName =>
    rw [Encodable, Buildable]
    constructor
    · rintro ⟨hSession, hCalling, name, rfl, hName⟩
      have hAcl := length_definedAcl name
      refine ⟨⟨name, rfl, by omega⟩, ⟨hSession, hCalling⟩, ?_⟩
      rw [ownAttributes, List.forall_mem_cons, List.forall_mem_singleton, length_avpairAttribute,
        PyVal.toStr]
      exact ⟨Nat.le_trans hName (by decide), by omega⟩
    · rintro ⟨⟨name, rfl, -⟩, ⟨hSession, hCalling⟩, hOwn⟩
      have hAcl := length_definedAcl name
      rw [ownAttributes, List.forall_mem_cons, List.forall_mem_singleton, length_avpairAttribute,
        PyVal.toStr] at hOwn
      exact ⟨hSession, hCalling, name, rfl, by omega⟩

/-- At most `n` attributes, with types of one octet. -/
def Few (n : Nat) (attributes : List (Nat × Bytes)) : Prop :=
  attributes.length ≤ n ∧ ∀ attr ∈ attributes, attr.1 < 256

theorem Few.append {m n : Nat} {xs ys : List (Nat × Bytes)} (hxs : Few m xs) (hys : Few n ys) :
    Few (m + n) (xs ++ ys) := by
  refine ⟨?_, List.forall_mem_append.mpr ⟨hxs.2, hys.2⟩⟩
  rw [List.length_append]
  exact Nat.add_le_add hxs.1 hys.1

theorem few_textAttribute {attrType : Nat} (h : attrType < 256) (text : Option String) :
    Few 1 (textAttribute attrType text) := by
  unfold textAttribute
  split
  · split
    · exact ⟨Nat.zero_le 1, nofun⟩
    · exact ⟨Nat.le_refl 1, List.forall_mem_singleton.mpr h⟩
  · exact ⟨Nat.zero_le 1, nofun⟩

theorem few_ownAttributes (env : Env) (target : CoaTarget) (call : Call) :
    Few 5 (call.ownAttributes env target) := by
  cases call with
  | disconnect username nasPort =>
    have hPort : Few 4 (nasPort.map fun port => (RadiusAttr.nasPort, octets port.toNat)).toList := by
      cases nasPort with
      | none => exact ⟨Nat.zero_le 4, nofun⟩
      | some port =>
        have hType : RadiusAttr.nasPort < 256 := by decide
        exact ⟨Nat.le_add_left 1 3, List.forall_mem_singleton.mpr hType⟩
    exact (few_textAttribute (by decide) username).append hPort
  | reauthenticate vendor =>
    refine ⟨Nat.le_add_left 1 4, List.forall_mem_singleton.mpr ?_⟩
    have hService : RadiusAttr.serviceType < 256 := by decide
    have hVendor : RadiusAttr.vendorSpecific < 256 := by decide
    split
    · exact hService
    · exact hVendor
  | changeVlan vlanId vendor =>
    have hTunnel : Few 3 (tunnelAttributes (vlanId.toStr env.builtins)) := by
      refine ⟨Nat.le_refl 3, ?_⟩
      simp [tunnelAttributes, RadiusAttr.tunnelType, RadiusAttr.tunnelMediumType,
        RadiusAttr.tunnelPrivateGroupId]
    refine @Few.append 3 2 _ _ hTunnel ?_
    split
    · exact ⟨Nat.le_refl 2, by simp [avpairAttribute, RadiusAttr.vendorSpecific]⟩
    · exact ⟨Nat.zero_le 2, nofun⟩
  | applyAcl aclName =>
    exact ⟨by simp [ownAttributes], by
      simp [ownAttributes, avpairAttribute, RadiusAttr.vendorSpecific, RadiusAttr.filterId]⟩

theorem few_attributes (env : Env) (target : CoaTarget) (call : Call) :
    Few 7 (call.attributes env target) := by
  have hSession := @few_textAttribute RadiusAttr.acctSessionId (by decide) target.sessionId
  have hCalling := @few_textAttribute RadiusAttr.callingStationId (by decide) target.callingStationId
  exact (hSession.append hCalling).append (few_ownAttributes env target call)

/-- What is sent exists exactly when the arguments are within the limits. -/
theorem wire_iff {env : Env} {identifier : Nat} {target : CoaTarget} {call : Call} :
    (∃ wire, call.wire env identifier target = .ok wire) ↔ call.Encodable env target := by
  have hCode : call.code < 256 := by
    unfold code
    split <;> decide
  have hFew := few_attributes env target call
  have hValues := @encode_iff_values env.codecs target.secret
    ⟨call.code, nextId identifier, RadiusPacket.zeroAuthenticator, call.attributes env target⟩
    hCode (Nat.mod_lt _ (by decide)) hFew.2 (Nat.le_trans hFew.1 (by decide))
  rw [encodable_iff]
  constructor
  · rintro ⟨wire, h⟩
    obtain ⟨pkt, hRequest, hEncode⟩ := Except.ok_of_bind h
    have hBuildable := buildable_of_request hRequest
    rw [request_ok identifier hBuildable] at hRequest
    cases hRequest
    exact ⟨hBuildable, hValues.mp ⟨wire, hEncode⟩⟩
  · rintro ⟨hBuildable, hFit⟩
    obtain ⟨wire, hEncode⟩ := hValues.mpr hFit
    refine ⟨wire, ?_⟩
    rw [Call.wire, request_ok identifier hBuildable]
    exact hEncode

theorem run_eq (env : Env) (identifier : Nat) (target : CoaTarget) (now : String) (answer : Answer)
    (call : Call) : ∃ action, call.run env identifier target now answer =
      operate env target now answer (call.request env identifier target) action := by
  cases call with
  | disconnect username nasPort => exact ⟨_, rfl⟩
  | reauthenticate vendor => exact ⟨_, rfl⟩
  | changeVlan vlanId vendor => exact ⟨_, rfl⟩
  | applyAcl aclName => exact ⟨_, rfl⟩

end Call

/-- On a natural port the packet is the one of the manager. -/
theorem disconnectPacket_natCast (identifier : Nat) (target : CoaTarget) (username : Option String)
    (nasPort : Option Nat) :
    disconnectPacket identifier target username (nasPort.map Nat.cast) =
      disconnectRequest (nextId identifier) target.sessionId target.callingStationId username
        nasPort := by
  cases nasPort with
  | none => rfl
  | some port =>
    have hPack : packIntI (port : Int) = packI port := by
      unfold packIntI packI
      by_cases h : port < 2 ^ 32
      · rw [if_pos (by omega), if_pos h, Int.toNat_natCast]
      · rw [if_neg (by omega), if_neg h]
    unfold disconnectPacket disconnectRequest
    simp only [Option.map_some, hPack]
    rfl

/-! ## Answers -/

/-- A datagram with a known code, a length it has and attributes that fill it. -/
structure WellFormed (data : Bytes) : Prop where
  header : 20 ≤ data.length
  code : codeOf data ∈ RadiusCode.known
  length : 20 ≤ lengthOf data ∧ lengthOf data ≤ data.length
  attributes : ∃ attributes : List (Int × Bytes),
    (∀ attr ∈ attributes, IntPacket.Octet attr.1 ∧ attr.2.length ≤ 253) ∧
    (data.take (lengthOf data)).drop 20 = IntPacket.attributesBytes attributes

/-- The answers that become the right result: no datagram in time, an error the handlers list, or
a datagram with a known code that is well formed when it acknowledges. -/
def Answer.Readable : Answer → Prop
  | .datagram data => 20 ≤ data.length ∧ codeOf data ∈ RadiusCode.known ∧
    (isAck (codeOf data) → WellFormed data)
  | .timeout | .osError _ | .unreachable _ => True
  | .raises _ | .noEndpoint _ => False

theorem known_of_isAck {code : Nat} (h : isAck code) : code ∈ RadiusCode.known := by
  obtain rfl | rfl := h <;> decide

theorem readResponse_iff {codecs : Codecs} {action now : String} {nasIp : Option String}
    {data : Bytes} : (∃ r, readResponse codecs action nasIp now data = .ok r) ↔
      20 ≤ data.length ∧ codeOf data ∈ RadiusCode.known := by
  constructor
  · rintro ⟨r, h⟩
    obtain ⟨response, hDecode, hRest⟩ := Except.ok_of_bind h
    by_cases hLength : data.length < 20
    · rw [RadiusPacket.decode, if_pos hLength] at hDecode
      cases hDecode
    · obtain ⟨attributes, hOk⟩ := decode_of_length (Nat.le_of_not_lt hLength)
      cases hOk.symm.trans hDecode
      refine ⟨Nat.le_of_not_lt hLength, ?_⟩
      split at hRest
      · exact known_of_isAck ‹_›
      · obtain ⟨_, hName, -⟩ := Except.ok_of_bind hRest
        unfold radiusCodeName at hName
        split at hName
        · assumption
        · cases hName
  · rintro ⟨hLength, hKnown⟩
    obtain ⟨attributes, hOk⟩ := decode_of_length hLength
    by_cases hAck : isAck (codeOf data)
    · exact ⟨_, readResponse_of_ack hLength hAck⟩
    · rw [readResponse, hOk]
      simp only [bind, Except.bind, if_neg hAck, radiusCodeName, if_pos hKnown]
      exact ⟨_, rfl⟩

/-- An operation returns, without success when nothing could be sent and when the answer is
malformed. -/
structure Handled (env : Env) (identifier : Nat) (target : CoaTarget) (now : String) (answer : Answer)
    (call : Call) : Prop where
  returns : ∃ r, call.run env identifier target now answer = .ok r
  unsent : (¬∃ wire, call.wire env identifier target = .ok wire) →
    ∀ r, call.run env identifier target now answer = .ok r → r.success = false
  malformed : ∀ data, answer = .datagram data → ¬WellFormed data →
    ∀ r, call.run env identifier target now answer = .ok r → r.success = false

/-- The result of sending a packet, with the answer read. -/
def readAnswer (codecs : Codecs) (action : String) (nasIp : Option String) (now : String) :
    Answer → Except Exc CoAResult
  | .datagram data => readResponse codecs action nasIp now data
  | .timeout => .ok { CoAResult.basic false action nasIp now with
      errorMessage := some
        "CoA timeout after 5s - NAS may not support CoA or secret mismatch" }
  | .osError e | .unreachable e => .ok { CoAResult.basic false action nasIp now with
      errorMessage := some ("Network error: " ++ e) }
  | .raises e | .noEndpoint e => .error e

theorem sendPacket_ok {codecs : Codecs} {pkt : RadiusPacket} {secret action now : String}
    {nasIp : Option String} {answer : Answer} {wire : Bytes} (hEncode : pkt.encode codecs secret = .ok wire)
    (hKnown : pkt.code ∈ RadiusCode.known) : sendPacket codecs pkt secret action nasIp now answer =
      .ok (wire, readAnswer codecs action nasIp now answer) := by
  unfold sendPacket
  rw [hEncode, radiusCodeName, if_pos hKnown]
  cases answer <;> rfl

namespace Call

variable {env : Env} {identifier : Nat} {target : CoaTarget} {now : String} {answer : Answer} {call : Call}

theorem code_known (call : Call) : call.code ∈ RadiusCode.known := by
  unfold code
  split <;> decide

theorem run_of_encodable (h : call.Encodable env target) (identifier : Nat) (now : String)
    (answer : Answer) :
    ∃ action, call.run env identifier target now answer =
      (readAnswer env.codecs action target.nasIp now answer).map fun r =>
        { r with sessionId := target.sessionId, macAddress := target.callingStationId } := by
  obtain ⟨action, hRun⟩ := call.run_eq env identifier target now answer
  obtain ⟨wire, hWire⟩ := (@wire_iff env identifier target call).mpr h
  obtain ⟨pkt, hRequest, hEncode⟩ := Except.ok_of_bind hWire
  have hKnown : pkt.code ∈ RadiusCode.known := by
    rw [request_ok identifier (buildable_of_request hRequest)] at hRequest
    cases hRequest
    exact call.code_known
  refine ⟨action, ?_⟩
  rw [hRun, operate, hRequest]
  simp only [bind, Except.bind, sendPacket_ok hEncode hKnown]
  cases readAnswer env.codecs action target.nasIp now answer <;> rfl

theorem encodable_of_run {r : CoAResult} (h : call.run env identifier target now answer = .ok r) :
    call.Encodable env target := by
  obtain ⟨action, hRun⟩ := call.run_eq env identifier target now answer
  rw [hRun] at h
  obtain ⟨pkt, hRequest, h⟩ := Except.ok_of_bind h
  obtain ⟨sent, hSend, -⟩ := Except.ok_of_bind h
  obtain ⟨wire, hEncode, -⟩ := Except.ok_of_bind hSend
  refine (@wire_iff env identifier target call).mp ⟨wire, ?_⟩
  rw [Call.wire, hRequest]
  exact hEncode

end Call

theorem readAnswer_iff {codecs : Codecs} {action now : String} {nasIp : Option String}
    {answer : Answer} :
    ((∃ r, readAnswer codecs action nasIp now answer = .ok r) ∧
      ∀ data, answer = .datagram data → ¬WellFormed data →
        ∀ r, readAnswer codecs action nasIp now answer = .ok r → r.success = false) ↔
      answer.Readable := by
  cases answer with
  | datagram data =>
    rw [readAnswer, readResponse_iff, Answer.Readable, and_assoc]
    refine and_congr_right fun hLength => and_congr_right fun hKnown => ?_
    constructor
    · intro h hAck
      by_contra hMalformed
      cases h data rfl hMalformed _ (readResponse_of_ack hLength hAck)
    · intro h data' hData hMalformed r hr
      cases hData
      rw [← Bool.not_eq_true]
      intro hSuccess
      exact hMalformed (h (readResponse_success hr hSuccess).2)
  | timeout => exact iff_of_true ⟨⟨_, rfl⟩, nofun⟩ trivial
  | osError e => exact iff_of_true ⟨⟨_, rfl⟩, nofun⟩ trivial
  | raises e => exact iff_of_false (fun ⟨⟨_, h⟩, _⟩ => nomatch h) id
  | unreachable e => exact iff_of_true ⟨⟨_, rfl⟩, nofun⟩ trivial
  | noEndpoint e => exact iff_of_false (fun ⟨⟨_, h⟩, _⟩ => nomatch h) id

/-- The operations handle exactly what fits into a packet and is answered readably. -/
theorem handled_iff (env : Env) (identifier : Nat) (target : CoaTarget) (now : String) (answer : Answer)
    (call : Call) : Handled env identifier target now answer call ↔
      call.Encodable env target ∧ answer.Readable := by
  have hResult : call.Encodable env target →
      ((∃ r, call.run env identifier target now answer = .ok r) ∧
        (∀ data, answer = .datagram data → ¬WellFormed data →
          ∀ r, call.run env identifier target now answer = .ok r → r.success = false) ↔
        answer.Readable) := by
    intro hEncodable
    obtain ⟨action, hRun⟩ := Call.run_of_encodable hEncodable identifier now answer
    rw [hRun, ← @readAnswer_iff env.codecs action now target.nasIp answer]
    cases readAnswer env.codecs action target.nasIp now answer with
    | error e => simp [Except.map]
    | ok r => simp [Except.map]
  constructor
  · rintro ⟨⟨r, hr⟩, -, hMalformed⟩
    have hEncodable := Call.encodable_of_run hr
    exact ⟨hEncodable, (hResult hEncodable).mp ⟨⟨r, hr⟩, hMalformed⟩⟩
  · rintro ⟨hEncodable, hReadable⟩
    obtain ⟨hReturns, hMalformed⟩ := (hResult hEncodable).mpr hReadable
    exact ⟨hReturns, fun hNone => absurd (Call.wire_iff.mpr hEncodable) hNone, hMalformed⟩

/-- Session `s1` on a NAS. -/
def cornerTarget : CoaTarget := ⟨some "10.0.0.1", "secret", some "s1", none⟩

theorem raises_or_succeeds :
    ¬Handled oneEnv 0 cornerTarget "" .timeout (.disconnect none (some (-1))) ∧
    ¬Handled oneEnv 0 cornerTarget "" (.datagram [41]) (.disconnect none none) ∧
    ¬Handled oneEnv 0 cornerTarget "" (.datagram ([7, 1, 0, 20] ++ RadiusPacket.zeroAuthenticator))
      (.disconnect none none) ∧
    ¬Handled oneEnv 0 cornerTarget "" (.datagram ([41, 1, 0, 0] ++ RadiusPacket.zeroAuthenticator))
      (.disconnect none none) := by
  refine ⟨fun h => ?_, fun h => ?_, fun h => ?_, fun h => ?_⟩
  · obtain ⟨r, hr⟩ := h.returns
    cases hr
  · obtain ⟨r, hr⟩ := h.returns
    cases hr
  · obtain ⟨r, hr⟩ := h.returns
    cases hr
  · obtain ⟨r, hr⟩ := h.returns
    have hMalformed : ¬WellFormed ([41, 1, 0, 0] ++ RadiusPacket.zeroAuthenticator) :=
      fun hWell => absurd hWell.length.1 (by decide)
    have hSuccess := h.malformed _ rfl hMalformed r hr
    cases hr
    cases hSuccess

end OpenRadiusWeb.Coa
