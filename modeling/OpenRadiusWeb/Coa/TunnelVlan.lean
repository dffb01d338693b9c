import OpenRadiusWeb.Coa.Operations

/-! # What a VLAN change tells the NAS

The tunnel attributes carry a tag octet and, for the type and the medium, an integer of three
octets. `add_tunnel_vlan` packs the tag before an integer of four octets and keeps the first
four of the five, which cuts off the octet that holds the number.
-/

namespace OpenRadiusWeb.Coa

open OpenRadiusWeb.Policy (PyVal)

/-- A tag and an integer of three octets. -/
def readTaggedInteger : Bytes → Option (UInt8 × Nat)
  | [tag, a, b, c] => some (tag, readBe [a, b, c])
  | _ => none

def readTaggedText : Bytes → Option (UInt8 × Bytes)
  | tag :: text => some (tag, text)
  | [] => none

def valuesOf (attributes : List (Nat × Bytes)) (attrType : Nat) : List Bytes :=
  (attributes.filter fun attr => attr.1 = attrType).map fun attr => attr.2

/-- The values under which a text that is there and not empty is sent. -/
def textValues (text : Option String) : List Bytes :=
  match text with
  | some t => if t = "" then [] else [utf8 t]
  | none => []

/-- The datagram names this type, medium and group once each under one tag, and the session. -/
def Tells (wire : Bytes) (tunnelType mediumType : Nat) (group : String) (target : CoaTarget) : Prop :=
  ∃ pkt tag, RadiusPacket.decode wire = .ok pkt ∧
    (valuesOf pkt.attributes RadiusAttr.tunnelType).map readTaggedInteger = [some (tag, tunnelType)] ∧
    (valuesOf pkt.attributes RadiusAttr.tunnelMediumType).map readTaggedInteger =
      [some (tag, mediumType)] ∧
    (valuesOf pkt.attributes RadiusAttr.tunnelPrivateGroupId).map readTaggedText =
      [some (tag, utf8 group)] ∧
    valuesOf pkt.attributes RadiusAttr.acctSessionId = textValues target.sessionId ∧
    valuesOf pkt.attributes RadiusAttr.callingStationId = textValues target.callingStationId

theorem Tells.unique {wire : Bytes} {type type' medium medium' : Nat} {group group' : String}
    {target target' : CoaTarget} (h : Tells wire type medium group target)
    (h' : Tells wire type' medium' group' target') : type = type' ∧ medium = medium' := by
  obtain ⟨pkt, tag, hDecode, hType, hMedium, -⟩ := h
  obtain ⟨pkt', tag', hDecode', hType', hMedium', -⟩ := h'
  cases Except.ok.inj (hDecode.symm.trans hDecode')
  have hTypes := hType.symm.trans hType'
  have hMediums := hMedium.symm.trans hMedium'
  simp only [List.cons.injEq, Option.some.injEq, Prod.mk.injEq, and_true] at hTypes hMediums
  exact ⟨hTypes.2, hMediums.2⟩

theorem valuesOf_append (xs ys : List (Nat × Bytes)) (attrType : Nat) :
    valuesOf (xs ++ ys) attrType = valuesOf xs attrType ++ valuesOf ys attrType := by
  rw [valuesOf, List.filter_append, List.map_append]
  rfl

theorem valuesOf_textAttribute (attrType attrType' : Nat) (text : Option String) :
    valuesOf (textAttribute attrType text) attrType' =
      if attrType = attrType' then textValues text else [] := by
  cases text with
  | none => simp [valuesOf, textAttribute, textValues]
  | some t =>
    by_cases hEmpty : t = ""
    · simp [valuesOf, textAttribute, textValues, hEmpty]
    · by_cases hType : attrType = attrType'
      · simp [valuesOf, textAttribute, textValues, hEmpty, hType]
      · simp [valuesOf, textAttribute, hEmpty, hType]

theorem decode_of_encode {codecs : Codecs} (hDigest : DigestOfSixteen codecs) {pkt : RadiusPacket}
    {secret : String} {wire : Bytes} (h : pkt.encode codecs secret = .ok wire) :
    ∃ pkt', RadiusPacket.decode wire = .ok pkt' ∧ pkt'.attributes = pkt.attributes := by
  rw [← IntPacket.encode_toInts] at h
  have hLimits := IntPacket.inLimits_of_encode h
  obtain ⟨authenticator, hDecode⟩ := IntPacket.decode_wire hDigest hLimits secret
  cases Except.ok.inj ((IntPacket.encode_ok hLimits codecs secret).symm.trans h)
  refine ⟨_, hDecode, ?_⟩
  rw [RadiusPacket.toInts, List.map_map]
  exact List.map_id _

/-- Every VLAN change that is sent names the group and the session, and 0 for the type and the
medium. -/
theorem changeVlan_tells_zero {env : Env} (hDigest : DigestOfSixteen env.codecs) {identifier : Nat}
    {target : CoaTarget} {vlanId : Int} {vendor : Option String} {wire : Bytes}
    (h : (Call.changeVlan (.int vlanId) vendor).wire env identifier target = .ok wire) :
    Tells wire 0 0 (toString vlanId) target := by
  obtain ⟨pkt, hRequest, hEncode⟩ := Except.ok_of_bind h
  obtain ⟨pkt', hDecode, hAttributes⟩ := decode_of_encode hDigest hEncode
  rw [Call.request_ok identifier (Call.buildable_of_request hRequest)] at hRequest
  cases hRequest
  have hVendor : ∀ attrType, attrType ≠ RadiusAttr.vendorSpecific →
      valuesOf (if vendor.map env.builtins.lower = some "cisco" then
        [avpairAttribute (auditSession target.sessionId), avpairAttribute reauthenticateCommand]
        else []) attrType = [] := by
    intro attrType hType
    split
    · simp [valuesOf, avpairAttribute, hType.symm]
    · rfl
  have hValues : ∀ attrType, attrType ≠ RadiusAttr.vendorSpecific →
      valuesOf pkt'.attributes attrType =
        (if RadiusAttr.acctSessionId = attrType then textValues target.sessionId else []) ++
        (if RadiusAttr.callingStationId = attrType then textValues target.callingStationId else []) ++
        valuesOf (tunnelAttributes (toString vlanId)) attrType := by
    intro attrType hType
    rw [hAttributes, Call.attributes, Call.ownAttributes, sessionAttributes, valuesOf_append,
      valuesOf_append, valuesOf_append, valuesOf_textAttribute, valuesOf_textAttribute,
      hVendor attrType hType, List.append_nil, PyVal.toStr]
  refine ⟨pkt', 0, hDecode, ?_, ?_, ?_, ?_, ?_⟩
  · rw [hValues _ (by decide)]
    rfl
  · rw [hValues _ (by decide)]
    rfl
  · rw [hValues _ (by decide)]
    rfl
  · rw [hValues _ (by decide), if_pos rfl, if_neg (by decide), List.append_nil]
    exact List.append_nil _
  · rw [hValues _ (by decide), if_neg (by decide), if_pos rfl]
    exact List.append_nil _

/-- No VLAN change says that the tunnel is a VLAN on IEEE 802. -/
theorem changeVlan_never_tells (env : Env) (hDigest : DigestOfSixteen env.codecs) (identifier : Nat)
    (target : CoaTarget) (vlanId : Int) (vendor : Option String) :
    ¬∃ wire, (Call.changeVlan (.int vlanId) vendor).wire env identifier target = .ok wire ∧
      Tells wire 13 6 (toString vlanId) target := by
  rintro ⟨wire, hWire, hTells⟩
  have hZero := changeVlan_tells_zero hDigest hWire
  exact absurd (hTells.unique hZero).1 (by decide)

/-- The request for VLAN 20 in session `s1`. -/
def vlanTwenty : Except Exc Bytes :=
  (Call.changeVlan (.int 20) (some "cisco")).wire oneEnv 0 cornerTarget

theorem vlanTwenty_never_tells : (∃ wire, vlanTwenty = .ok wire) ∧
    ¬∃ wire, vlanTwenty = .ok wire ∧ Tells wire 13 6 "20" cornerTarget :=
  ⟨⟨_, rfl⟩, changeVlan_never_tells oneEnv (fun _ => rfl) 0 cornerTarget 20 (some "cisco")⟩

theorem vlanTwenty_tells_zero : ∃ wire, vlanTwenty = .ok wire ∧ Tells wire 0 0 "20" cornerTarget ∧
    ¬Tells wire 13 6 "20" cornerTarget := by
  have hTells := @changeVlan_tells_zero oneEnv (fun _ => rfl) 0 cornerTarget 20 (some "cisco") _ rfl
  exact ⟨_, rfl, hTells, fun h => absurd (h.unique hTells).1 (by decide)⟩

end OpenRadiusWeb.Coa
