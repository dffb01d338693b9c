import OpenRadiusWeb.Radius.Request

/-! # Access by MAC address

`authorize` of the RADIUS module lets a request in without a password when its MAC address
is on the whitelist. What it takes for the address of a request, and when it raises, is set
against the address that the gateway stores for the same text.
-/

namespace OpenRadiusWeb.Radius

open OpenRadiusWeb.Policy (PyErr)

/-- A row of `mab_devices`. -/
structure MabDevice where
  macAddress : Nat
  assignedVlanId : Option Int
  enabled : Option Bool
  expiryDate : Option Nat
  tenantId : Option String

structure Env where
  py : Python
  /-- `ORW_TENANT_ID`. -/
  tenantId : Option String
  /-- The cast to MACADDR; a bad text is an error. -/
  macaddr : String → Option Nat
  /-- `NOW()`. -/
  now : Nat

inductive Reply
  /-- `RLM_MODULE_OK` alone. -/
  | ok
  | okWith (reply control : List (String × String))
  deriving DecidableEq

def Reply.attributes : Reply → List (String × String)
  | .ok => []
  | .okWith reply _ => reply

def Reply.control : Reply → List (String × String)
  | .ok => []
  | .okWith _ control => control

section Functions

variable (env : Env)

/-- The row counts: it is enabled, has not expired and is the tenant's, if one is set. -/
def usable (device : MabDevice) : Bool :=
  device.enabled = some true && device.expiryDate.all (env.now < ·) &&
    match env.tenantId with
    | none => true
    | some tenantId => tenantId = "" || device.tenantId = some tenantId

/-- The row that the query for an address returns first. -/
def findDevice (table : List MabDevice) (mac : Nat) : Option MabDevice :=
  table.find? fun device => device.macAddress = mac && usable env device

/-- A text that is no address makes the query fail, which is logged. -/
def lookupMabDevice (table : List MabDevice) (mac : String) : Option MabDevice :=
  (env.macaddr mac).bind (findDevice env table)

/-- The realm of a user name. A list is searched for an element, and then has no `split`. -/
def realmOf : AttrValue → Except PyErr (Option String)
  | .text s =>
    if '@' ∈ s.toList then
      .ok (some (String.ofList (s.toList.reverse.takeWhile (· ≠ '@')).reverse))
    else if '\\' ∈ s.toList then .ok (some (String.ofList (s.toList.takeWhile (· ≠ '\\'))))
    else .ok none
  | .list values => if "@" ∈ values ∨ "\\" ∈ values then .error .attributeError else .ok none

def realmAttrs : Option String → List (String × String)
  | none => []
  | some realm => if realm = "" then [] else [("OpenRadiusWeb-Realm", realm)]

/-- A VLAN id of 0 counts as none. -/
def vlanAttrs : Option Int → List (String × String)
  | none => []
  | some vlanId =>
    if vlanId = 0 then []
    else [("Tunnel-Type", "VLAN"), ("Tunnel-Medium-Type", "IEEE-802"),
      ("Tunnel-Private-Group-Id", toString vlanId)]

/-- The reply to a request that is not let in here. -/
def continueWith (realm : Option String) : Reply :=
  if realmAttrs realm = [] then .ok else .okWith [] (realmAttrs realm)

def acceptWith (realm : Option String) (device : MabDevice) : Reply :=
  .okWith (vlanAttrs device.assignedVlanId) (("Auth-Type", "Accept") :: realmAttrs realm)

/-- `_normalize_mac` of an attribute; a list has no `replace`. -/
def normalizeMacAttr : AttrValue → Except PyErr String
  | .text raw => .ok (normalizeMac env.py raw)
  | .list _ => .error .attributeError

def authorize (table : List MabDevice) (p : List (String × String)) : Except PyErr Reply := do
  let request := extractAttrs p
  let username := request.getD "User-Name" (.text "")
  let callingStationId := request.getD "Calling-Station-Id" (.text "")
  let realm ← realmOf username
  let authMethod ← detectAuthMethod env.py request
  if authMethod = "MAB" ∧ callingStationId.truthy then
    let macClean ← normalizeMacAttr env callingStationId
    match lookupMabDevice env table macClean with
    | some device => .ok (acceptWith realm device)
    | none => .ok (continueWith realm)
  else .ok (continueWith realm)

end Functions

section Statements

variable (env : Env) (p : List (String × String))

def users : List String := valuesOf p "User-Name"
def stations : List String := valuesOf p "Calling-Station-Id"
def eapTypes : List String := valuesOf p "EAP-Type"
def services : List String := valuesOf p "Service-Type"

/-- The attribute is there and not one empty text. -/
def Given (values : List String) : Prop := values ≠ [] ∧ values ≠ [""]

instance (values : List String) : Decidable (Given values) := inferInstanceAs (Decidable (_ ∧ _))

/-- The requests on which the module raises. -/
inductive Raises : Prop
  | realm (hMany : 2 ≤ (users p).length) (hSeparator : "@" ∈ users p ∨ "\\" ∈ users p)
  | eapTypes (hMany : 2 ≤ (eapTypes p).length)
  | eapDigit (eapType : String) (hEap : eapTypes p = [eapType]) (hGiven : eapType ≠ "")
      (hDigit : env.py.isdigit eapType) (hInt : env.py.int eapType = none)
  | addresses (hEap : ¬Given (eapTypes p)) (hStation : Given (stations p))
      (hUser : Given (users p)) (hMany : 2 ≤ (stations p).length ∨ 2 ≤ (users p).length)
  | callCheck (hEap : ¬Given (eapTypes p)) (hMany : 2 ≤ (stations p).length)
      (hUser : ¬Given (users p)) (hService : services p = ["Call-Check"])

/-- The one Calling-Station-Id whose address the module looks up. -/
def LooksUp (station : String) : Prop :=
  ¬Given (eapTypes p) ∧ stations p = [station] ∧ station ≠ "" ∧
    (services p = ["Call-Check"] ∨
      ∃ user, users p = [user] ∧ user ≠ "" ∧ macClean env.py station = macClean env.py user)

/-- Every value is a notation of the address, as the gateway normalises it. -/
def Denotes (values : List String) (mac : Nat) : Prop :=
  values ≠ [] ∧ ∀ raw ∈ values, (gatewayNormalizeMac env.py raw).bind env.macaddr = some mac

/-- A MAB request for the address: no EAP type, and User-Name and Calling-Station-Id are the
address, or Calling-Station-Id is and Service-Type is Call-Check. -/
def MabRequest (mac : Nat) : Prop :=
  eapTypes p = [] ∧ Denotes env (stations p) mac ∧
    (Denotes env (users p) mac ∨ (services p ≠ [] ∧ ∀ service ∈ services p, service = "Call-Check"))

def Accepts (reply : Reply) : Prop := ("Auth-Type", "Accept") ∈ reply.control

/-- The reply attributes for an assigned VLAN. -/
def vlanTriple : Option Int → List (String × String)
  | none => []
  | some vlanId => [("Tunnel-Type", "VLAN"), ("Tunnel-Medium-Type", "IEEE-802"),
      ("Tunnel-Private-Group-Id", toString vlanId)]

/-- The module answers, lets the request in exactly when it is a MAB request for an address
on the whitelist, and then with the VLAN of its row. -/
def Authorizes (table : List MabDevice) : Prop :=
  ∃ reply, authorize env table p = .ok reply ∧
    (Accepts reply ↔ ∃ mac device, MabRequest env p mac ∧
      findDevice env table mac = some device) ∧
    (Accepts reply → ∃ mac device, MabRequest env p mac ∧
      findDevice env table mac = some device ∧
      reply.attributes = vlanTriple device.assignedVlanId)

/-- The address that the module looks up, if any, is the one that makes it a MAB request. -/
def SameAddress : Prop :=
  ∀ mac, (∃ station, LooksUp env p station ∧
      env.macaddr (normalizeMac env.py station) = some mac) ↔ MabRequest env p mac

end Statements

section Values

variable {values : List String}

/-- The value that `request.get(name, "")` answers. -/
def valueOf (values : List String) : AttrValue := (ofValues values).getD (.text "")

theorem valueOf_list (h : 2 ≤ values.length) : valueOf values = .list values := by
  match values with
  | _ :: _ :: _ => rfl

theorem valueOf_single (value : String) : valueOf [value] = .text value := rfl

theorem truthy_valueOf : (valueOf values).truthy = true ↔ Given values := by
  match values with
  | [] => simp [valueOf, ofValues, AttrValue.truthy, Given]
  | [value] => simp [valueOf, ofValues, AttrValue.truthy, Given]
  | _ :: _ :: _ => simp [valueOf, ofValues, AttrValue.truthy, Given]

theorem ofValues_filter : (ofValues values).filter AttrValue.truthy =
    if Given values then some (valueOf values) else none := by
  match values with
  | [] => rfl
  | [value] => by_cases h : value = "" <;> simp [valueOf, ofValues, AttrValue.truthy, Given, h]
  | _ :: _ :: _ => simp [valueOf, ofValues, AttrValue.truthy, Given]

theorem ofValues_eq_text {value : String} : ofValues values = some (.text value) ↔ values = [value] := by
  match values with
  | [] => simp [ofValues]
  | [_] => simp [ofValues]
  | _ :: _ :: _ => simp [ofValues]

theorem Given.cases (h : Given values) :
    2 ≤ values.length ∨ ∃ value, values = [value] ∧ value ≠ "" := by
  match values with
  | [] => exact absurd rfl h.1
  | [value] => exact .inr ⟨value, rfl, fun hEmpty => h.2 (by rw [hEmpty])⟩
  | _ :: _ :: _ => exact .inl (by simp)

theorem given_of_two_le (h : 2 ≤ values.length) : Given values := by
  match values with
  | _ :: _ :: _ => simp [Given]

theorem given_single {value : String} (h : value ≠ "") : Given [value] := by
  simp [Given, h]

theorem realmOf_error (hMany : 2 ≤ values.length) (hSeparator : "@" ∈ values ∨ "\\" ∈ values) :
    realmOf (valueOf values) = .error .attributeError := by
  rw [valueOf_list hMany]
  exact if_pos hSeparator

theorem realmOf_ok (h : 2 ≤ values.length → ¬("@" ∈ values ∨ "\\" ∈ values)) :
    ∃ realm, realmOf (valueOf values) = .ok realm := by
  match values with
  | [] => exact ⟨none, rfl⟩
  | [value] =>
    rw [valueOf_single, realmOf]
    by_cases hAt : '@' ∈ value.toList
    · exact ⟨_, if_pos hAt⟩
    · rw [if_neg hAt]
      by_cases hBackslash : '\\' ∈ value.toList
      · exact ⟨_, if_pos hBackslash⟩
      · exact ⟨_, if_neg hBackslash⟩
  | _ :: _ :: _ => exact ⟨none, if_neg (h (by simp))⟩

end Values

section Method

variable {env : Env} {p : List (String × String)}

theorem eapMethodName_ne_mab (n : Int) (eapType : String) :
    eapMethodName n ("EAP-" ++ eapType) ≠ "MAB" := by
  unfold eapMethodName
  cases hFind : eapMethodMap.find? fun entry => entry.1 = n with
  | none =>
    intro hEq
    have hChars := congrArg String.toList hEq
    simp at hChars
  | some entry =>
    have hNames : ∀ entry ∈ eapMethodMap, entry.2 ≠ "MAB" := by decide
    exact hNames entry (List.mem_of_find?_eq_some hFind)

theorem eapMethod_ne_mab {py : Python} {eapType method : String}
    (h : eapMethod py (.text eapType) = .ok method) : method ≠ "MAB" := by
  rw [eapMethod] at h
  by_cases hDigit : py.isdigit eapType
  · rw [if_pos hDigit] at h
    cases hInt : py.int eapType with
    | none =>
      rw [hInt] at h
      cases h
    | some n =>
      rw [hInt] at h
      cases h
      exact eapMethodName_ne_mab n eapType
  · rw [if_neg hDigit] at h
    cases h
    exact eapMethodName_ne_mab 0 eapType

theorem detectAuthMethod_of_eap (h : Given (eapTypes p)) :
    detectAuthMethod env.py (extractAttrs p) = eapMethod env.py (valueOf (eapTypes p)) := by
  have hType : ((extractAttrs p).get? "EAP-Type").filter AttrValue.truthy =
      some (valueOf (eapTypes p)) := by
    rw [get?_extractAttrs, ofValues_filter]
    exact if_pos h
  rw [detectAuthMethod, hType]

theorem detectAuthMethod_of_no_eap (h : ¬Given (eapTypes p)) :
    detectAuthMethod env.py (extractAttrs p) =
      userIsStation env.py (valueOf (stations p)) (valueOf (users p)) >>= fun same =>
      if same || services p = ["Call-Check"] then .ok "MAB" else .ok "PAP" := by
  have hType : ((extractAttrs p).get? "EAP-Type").filter AttrValue.truthy = none := by
    rw [get?_extractAttrs, ofValues_filter]
    exact if_neg h
  unfold detectAuthMethod
  rw [hType, getD_extractAttrs, getD_extractAttrs, get?_extractAttrs]
  simp only [ofValues_eq_text]
  rfl

/-- The module takes the request for a MAB request. -/
def TakenForMab (env : Env) (p : List (String × String)) : Prop :=
  ¬Given (eapTypes p) ∧ (services p = ["Call-Check"] ∨
    ∃ station user, stations p = [station] ∧ users p = [user] ∧ station ≠ "" ∧ user ≠ "" ∧
      macClean env.py station = macClean env.py user)

theorem userIsStation_ok (env : Env) (h : Given (stations p) → Given (users p) →
      ¬(2 ≤ (stations p).length ∨ 2 ≤ (users p).length)) :
    ∃ same, userIsStation env.py (valueOf (stations p)) (valueOf (users p)) = .ok same ∧
      (same = true ↔ ∃ station user, stations p = [station] ∧ users p = [user] ∧ station ≠ "" ∧
        user ≠ "" ∧ macClean env.py station = macClean env.py user) := by
  unfold userIsStation
  by_cases hBoth : Given (stations p) ∧ Given (users p)
  · obtain ⟨hStation, hUser⟩ := hBoth
    have hFew := h hStation hUser
    obtain ⟨station, hStations, hs⟩ := hStation.cases.resolve_left fun hMany => hFew (.inl hMany)
    obtain ⟨user, hUsers, hu⟩ := hUser.cases.resolve_left fun hMany => hFew (.inr hMany)
    rw [truthy_valueOf.mpr hStation, truthy_valueOf.mpr hUser, hStations, hUsers]
    refine ⟨_, rfl, ?_⟩
    rw [beq_iff_eq]
    constructor
    · exact fun hSame => ⟨station, user, rfl, rfl, hs, hu, hSame⟩
    · rintro ⟨station', user', hStation', hUser', -, -, hSame⟩
      cases hStation'
      cases hUser'
      exact hSame
  · have hFalse : ((valueOf (stations p)).truthy && (valueOf (users p)).truthy) = false := by
      rw [Bool.eq_false_iff]
      intro hTrue
      rw [Bool.and_eq_true, truthy_valueOf, truthy_valueOf] at hTrue
      exact hBoth hTrue
    rw [hFalse]
    refine ⟨false, rfl, ?_⟩
    constructor
    · intro hTrue
      cases hTrue
    · rintro ⟨station, user, hStation, hUser, hs, hu, -⟩
      exact absurd ⟨hStation ▸ given_single hs, hUser ▸ given_single hu⟩ hBoth

theorem detectAuthMethod_ok (h : ¬Raises env p) :
    ∃ method, detectAuthMethod env.py (extractAttrs p) = .ok method ∧
      (method = "MAB" ↔ TakenForMab env p) := by
  by_cases hEap : Given (eapTypes p)
  · obtain ⟨eapType, hOne, hNonempty⟩ := hEap.cases.resolve_left fun hMany => h (.eapTypes hMany)
    have hMethod : ∃ method, eapMethod env.py (.text eapType) = .ok method := by
      unfold eapMethod
      by_cases hDigit : env.py.isdigit eapType
      · dsimp only
        rw [if_pos hDigit]
        cases hInt : env.py.int eapType with
        | none => exact absurd (.eapDigit eapType hOne hNonempty hDigit hInt) h
        | some n => exact ⟨_, rfl⟩
      · dsimp only
        rw [if_neg hDigit]
        exact ⟨_, rfl⟩
    obtain ⟨method, hMethod⟩ := hMethod
    refine ⟨method, ?_, ?_⟩
    · rw [detectAuthMethod_of_eap hEap, hOne]
      exact hMethod
    · exact ⟨fun hMab => absurd hMab (eapMethod_ne_mab hMethod), fun hTaken => absurd hEap hTaken.1⟩
  · obtain ⟨same, hSame, hIff⟩ := userIsStation_ok env
      fun hStation hUser hMany => h (.addresses hEap hStation hUser hMany)
    rw [detectAuthMethod_of_no_eap hEap, hSame]
    by_cases hMab : (same || services p = ["Call-Check"]) = true
    · refine ⟨"MAB", if_pos hMab, ?_⟩
      rw [Bool.or_eq_true, decide_eq_true_eq, hIff] at hMab
      exact ⟨fun _ => ⟨hEap, hMab.symm⟩, fun _ => rfl⟩
    · refine ⟨"PAP", if_neg hMab, ?_⟩
      rw [Bool.or_eq_true, decide_eq_true_eq, hIff] at hMab
      exact ⟨fun hEq => absurd hEq (by decide), fun hTaken => absurd hTaken.2.symm hMab⟩

/-- An address is looked up when the request is taken for a MAB request and has a station. -/
theorem looksUp_iff (h : ¬Raises env p) :
    TakenForMab env p ∧ Given (stations p) ↔ ∃ station, LooksUp env p station := by
  constructor
  · rintro ⟨⟨hEap, hKind⟩, hStation⟩
    rcases hKind with hService | ⟨station, user, hOne, hUsers, hs, hu, hSame⟩
    · rcases hStation.cases with hMany | ⟨station, hOne, hs⟩
      · by_cases hUser : Given (users p)
        · exact absurd (.addresses hEap hStation hUser (.inl hMany)) h
        · exact absurd (.callCheck hEap hMany hUser hService) h
      · exact ⟨station, hEap, hOne, hs, .inl hService⟩
    · exact ⟨station, hEap, hOne, hs, .inr ⟨user, hUsers, hu, hSame⟩⟩
  · rintro ⟨station, hEap, hOne, hs, hKind⟩
    refine ⟨⟨hEap, ?_⟩, hOne ▸ given_single hs⟩
    rcases hKind with hService | ⟨user, hUsers, hu, hSame⟩
    · exact .inl hService
    · exact .inr ⟨station, user, hOne, hUsers, hs, hu, hSame⟩

end Method

section Main

variable {env : Env} {p : List (String × String)} (table : List MabDevice)

theorem authorize_eq : authorize env table p =
    realmOf (valueOf (users p)) >>= fun realm =>
      detectAuthMethod env.py (extractAttrs p) >>= fun authMethod =>
        if authMethod = "MAB" ∧ (valueOf (stations p)).truthy then
          normalizeMacAttr env (valueOf (stations p)) >>= fun macClean =>
            match lookupMabDevice env table macClean with
            | some device => .ok (acceptWith realm device)
            | none => .ok (continueWith realm)
        else .ok (continueWith realm) := by
  have hUsers : (extractAttrs p).getD "User-Name" (.text "") = valueOf (users p) :=
    getD_extractAttrs p _
  have hStations : (extractAttrs p).getD "Calling-Station-Id" (.text "") = valueOf (stations p) :=
    getD_extractAttrs p _
  simp only [authorize, hUsers, hStations]

theorem authorize_of_looksUp {station : String} (h : ¬Raises env p)
    (hLooksUp : LooksUp env p station) :
    ∃ realm, authorize env table p =
      .ok (match lookupMabDevice env table (normalizeMac env.py station) with
        | some device => acceptWith realm device
        | none => continueWith realm) := by
  obtain ⟨realm, hRealm⟩ := realmOf_ok fun hMany hSeparator => h (.realm hMany hSeparator)
  obtain ⟨method, hMethod, hIff⟩ := detectAuthMethod_ok h
  obtain ⟨hTaken, hGiven⟩ := (looksUp_iff h).mpr ⟨station, hLooksUp⟩
  refine ⟨realm, ?_⟩
  rw [authorize_eq, hRealm, hMethod]
  change (if method = "MAB" ∧ (valueOf (stations p)).truthy then _ else _) = _
  rw [if_pos ⟨hIff.mpr hTaken, truthy_valueOf.mpr hGiven⟩, hLooksUp.2.1]
  change (match lookupMabDevice env table (normalizeMac env.py station) with
    | some device => Except.ok (acceptWith realm device)
    | none => Except.ok (continueWith realm)) = _
  cases lookupMabDevice env table (normalizeMac env.py station) <;> rfl

theorem authorize_of_not_looksUp (h : ¬Raises env p)
    (hNone : ¬∃ station, LooksUp env p station) :
    ∃ realm, authorize env table p = .ok (continueWith realm) := by
  obtain ⟨realm, hRealm⟩ := realmOf_ok fun hMany hSeparator => h (.realm hMany hSeparator)
  obtain ⟨method, hMethod, hIff⟩ := detectAuthMethod_ok h
  refine ⟨realm, ?_⟩
  rw [authorize_eq, hRealm, hMethod]
  refine if_neg ?_
  rintro ⟨hMab, hTruthy⟩
  exact hNone ((looksUp_iff h).mp ⟨hIff.mp hMab, truthy_valueOf.mp hTruthy⟩)

theorem authorize_of_detect_error {e : PyErr}
    (h : detectAuthMethod env.py (extractAttrs p) = .error e) :
    ∃ e', authorize env table p = .error e' := by
  rw [authorize_eq, h]
  cases realmOf (valueOf (users p)) with
  | error e' => exact ⟨e', rfl⟩
  | ok realm => exact ⟨e, rfl⟩

theorem authorize_raises (h : Raises env p) : ∃ e, authorize env table p = .error e := by
  cases h with
  | realm hMany hSeparator =>
    rw [authorize_eq, realmOf_error hMany hSeparator]
    exact ⟨_, rfl⟩
  | eapTypes hMany =>
    apply authorize_of_detect_error table (e := .attributeError)
    rw [detectAuthMethod_of_eap (given_of_two_le hMany), valueOf_list hMany]
    rfl
  | eapDigit eapType hEap hGiven hDigit hInt =>
    apply authorize_of_detect_error table (e := .valueError)
    rw [detectAuthMethod_of_eap (hEap ▸ given_single hGiven), hEap, valueOf_single, eapMethod,
      if_pos hDigit, hInt]
  | addresses hEap hStation hUser hMany =>
    apply authorize_of_detect_error table (e := .attributeError)
    rw [detectAuthMethod_of_no_eap hEap, userIsStation, truthy_valueOf.mpr hStation,
      truthy_valueOf.mpr hUser]
    rcases hMany with hMany | hMany
    · rw [valueOf_list hMany]
      rfl
    · rw [valueOf_list hMany]
      cases valueOf (stations p) <;> rfl
  | callCheck hEap hMany hUser hService =>
    have hMab : detectAuthMethod env.py (extractAttrs p) = .ok "MAB" := by
      have hFalse : (valueOf (users p)).truthy = false :=
        Bool.eq_false_iff.mpr fun hTrue => hUser (truthy_valueOf.mp hTrue)
      rw [detectAuthMethod_of_no_eap hEap, userIsStation, hFalse, Bool.and_false, hService]
      rfl
    have hStation : (valueOf (stations p)).truthy = true :=
      truthy_valueOf.mpr (given_of_two_le hMany)
    rw [authorize_eq, hMab]
    cases realmOf (valueOf (users p)) with
    | error e => exact ⟨e, rfl⟩
    | ok realm =>
      change ∃ e, (if "MAB" = "MAB" ∧ (valueOf (stations p)).truthy then _ else _) = _
      rw [if_pos ⟨rfl, hStation⟩, valueOf_list hMany]
      exact ⟨_, rfl⟩

theorem realmAttrs_not_accept (realm : Option String) :
    ("Auth-Type", "Accept") ∉ realmAttrs realm := by
  cases realm with
  | none => exact List.not_mem_nil
  | some realm =>
    unfold realmAttrs
    split <;> simp

theorem not_accepts_continueWith (realm : Option String) : ¬Accepts (continueWith realm) := by
  unfold continueWith Accepts
  split
  · exact List.not_mem_nil
  · exact realmAttrs_not_accept realm

theorem accepts_acceptWith (realm : Option String) (device : MabDevice) :
    Accepts (acceptWith realm device) := List.mem_cons_self

/-- The row the module finds: by the address it looks up, if any. -/
def Finds (env : Env) (p : List (String × String)) (table : List MabDevice)
    (device : MabDevice) : Prop :=
  ∃ station, LooksUp env p station ∧
    lookupMabDevice env table (normalizeMac env.py station) = some device

theorem LooksUp.unique {station other : String} (h : LooksUp env p station)
    (h' : LooksUp env p other) : other = station := by
  have hSame := h'.2.1.symm.trans h.2.1
  simpa using hSame

/-- Without an exception the module lets in the requests for which it finds a row. -/
theorem authorize_ok (h : ¬Raises env p) : ∃ reply, authorize env table p = .ok reply ∧
    (Accepts reply ↔ ∃ device, Finds env p table device) ∧
    ∀ device, Finds env p table device → reply.attributes = vlanAttrs device.assignedVlanId := by
  by_cases hAny : ∃ station, LooksUp env p station
  · obtain ⟨station, hLooksUp⟩ := hAny
    obtain ⟨realm, hReply⟩ := authorize_of_looksUp table h hLooksUp
    cases hFound : lookupMabDevice env table (normalizeMac env.py station) with
    | none =>
      rw [hFound] at hReply
      have hNot : ∀ device, ¬Finds env p table device := by
        rintro device ⟨other, hOther, hDevice⟩
        rw [hLooksUp.unique hOther, hFound] at hDevice
        cases hDevice
      exact ⟨_, hReply, ⟨fun hAccepts => absurd hAccepts (not_accepts_continueWith realm),
        fun ⟨device, hFinds⟩ => absurd hFinds (hNot device)⟩,
        fun device hFinds => absurd hFinds (hNot device)⟩
    | some device =>
      rw [hFound] at hReply
      refine ⟨_, hReply, ⟨fun _ => ⟨device, station, hLooksUp, hFound⟩,
        fun _ => accepts_acceptWith realm device⟩, ?_⟩
      rintro device' ⟨other, hOther, hDevice⟩
      rw [hLooksUp.unique hOther, hFound] at hDevice
      cases hDevice
      rfl
  · obtain ⟨realm, hReply⟩ := authorize_of_not_looksUp table h hAny
    have hNot : ∀ device, ¬Finds env p table device :=
      fun device ⟨station, hLooksUp, _⟩ => hAny ⟨station, hLooksUp⟩
    exact ⟨_, hReply, ⟨fun hAccepts => absurd hAccepts (not_accepts_continueWith realm),
      fun ⟨device, hFinds⟩ => absurd hFinds (hNot device)⟩,
      fun device hFinds => absurd hFinds (hNot device)⟩

variable {table}

theorem finds_iff {device : MabDevice} (hSame : SameAddress env p) :
    Finds env p table device ↔
      ∃ mac, MabRequest env p mac ∧ findDevice env table mac = some device := by
  constructor
  · rintro ⟨station, hLooksUp, hFound⟩
    obtain ⟨mac, hMac, hDevice⟩ := Option.bind_eq_some_iff.mp hFound
    exact ⟨mac, (hSame mac).mp ⟨station, hLooksUp, hMac⟩, hDevice⟩
  · rintro ⟨mac, hMab, hDevice⟩
    obtain ⟨station, hLooksUp, hMac⟩ := (hSame mac).mpr hMab
    exact ⟨station, hLooksUp, Option.bind_eq_some_iff.mpr ⟨mac, hMac, hDevice⟩⟩

theorem vlanAttrs_eq_triple {vlan : Option Int} : vlanAttrs vlan = vlanTriple vlan ↔ vlan ≠ some 0 := by
  cases vlan with
  | none => simp [vlanAttrs, vlanTriple]
  | some vlanId =>
    by_cases h : vlanId = 0
    · simp [vlanAttrs, vlanTriple, h]
    · simp [vlanAttrs, vlanTriple, h]

/-- When the addresses agree only a VLAN id of 0 is lost. -/
theorem authorizes_iff_vlan (h : ¬Raises env p) (hSame : SameAddress env p) :
    Authorizes env p table ↔ ∀ device, Finds env p table device →
      device.assignedVlanId ≠ some 0 := by
  obtain ⟨reply, hReply, hAccepts, hAttributes⟩ := authorize_ok table h
  have hIff : Accepts reply ↔ ∃ mac device, MabRequest env p mac ∧
      findDevice env table mac = some device := by
    rw [hAccepts]
    constructor
    · rintro ⟨device, hFinds⟩
      obtain ⟨mac, hMab, hDevice⟩ := (finds_iff hSame).mp hFinds
      exact ⟨mac, device, hMab, hDevice⟩
    · rintro ⟨mac, device, hMab, hDevice⟩
      exact ⟨device, (finds_iff hSame).mpr ⟨mac, hMab, hDevice⟩⟩
  constructor
  · rintro ⟨reply', hReply', -, hTriple⟩ device hFinds
    rw [hReply] at hReply'
    cases hReply'
    obtain ⟨mac, device', hMab, hDevice', hEq⟩ := hTriple (hAccepts.mpr ⟨device, hFinds⟩)
    have hFinds' := (finds_iff hSame).mpr ⟨mac, hMab, hDevice'⟩
    rw [hAttributes device' hFinds', vlanAttrs_eq_triple] at hEq
    obtain ⟨station, hLooksUp, hFound⟩ := hFinds
    obtain ⟨other, hOther, hFound'⟩ := hFinds'
    rw [hLooksUp.unique hOther, hFound] at hFound'
    cases hFound'
    exact hEq
  · intro hVlan
    refine ⟨reply, hReply, hIff, fun hAccept => ?_⟩
    obtain ⟨device, hFinds⟩ := hAccepts.mp hAccept
    obtain ⟨mac, hMab, hDevice⟩ := (finds_iff hSame).mp hFinds
    refine ⟨mac, device, hMab, hDevice, ?_⟩
    rw [hAttributes device hFinds]
    exact vlanAttrs_eq_triple.mpr (hVlan device hFinds)

/-- A row for an address that counts, with no VLAN. -/
def plainDevice (env : Env) (mac : Nat) : MabDevice := ⟨mac, none, some true, none, env.tenantId⟩

theorem findDevice_plain (mac other : Nat) :
    findDevice env [plainDevice env mac] other =
      if mac = other then some (plainDevice env mac) else none := by
  have hUsable : usable env (plainDevice env mac) = true := by
    cases hTenant : env.tenantId <;> simp [usable, plainDevice, hTenant]
  have hMac : (plainDevice env mac).macAddress = mac := rfl
  by_cases h : mac = other
  · subst h
    simp [findDevice, hMac, hUsable]
  · simp [findDevice, hMac, h]

/-- Over all tables without a VLAN id of 0 the module decides correctly about the requests on
which it does not raise and looks up the right address, and about no others. -/
theorem authorize_correct (env : Env) (p : List (String × String)) :
    ((∀ table : List MabDevice, (∀ device ∈ table, device.assignedVlanId ≠ some 0) →
        Authorizes env p table) ↔ ¬Raises env p ∧ SameAddress env p) ∧
      (¬Raises env p → SameAddress env p → ∀ table, Authorizes env p table ↔
        ∀ device, Finds env p table device → device.assignedVlanId ≠ some 0) := by
  refine ⟨⟨fun hAll => ?_, ?_⟩, fun h hSame table => authorizes_iff_vlan h hSame⟩
  · have hNot : ¬Raises env p := by
      intro hRaises
      obtain ⟨reply, hReply, -⟩ := hAll [] (by simp)
      obtain ⟨e, hError⟩ := authorize_raises [] hRaises
      rw [hReply] at hError
      cases hError
    refine ⟨hNot, fun mac => ?_⟩
    obtain ⟨reply, hReply, hIff, -⟩ := hAll [plainDevice env mac] (by simp [plainDevice])
    obtain ⟨reply', hReply', hAccepts, -⟩ := authorize_ok [plainDevice env mac] hNot
    rw [hReply] at hReply'
    cases hReply'
    rw [hIff] at hAccepts
    constructor
    · rintro ⟨station, hLooksUp, hMac⟩
      have hFinds : Finds env p [plainDevice env mac] (plainDevice env mac) :=
        ⟨station, hLooksUp, by
          rw [lookupMabDevice, hMac, Option.bind_some, findDevice_plain, if_pos rfl]⟩
      obtain ⟨mac', device, hMab, hDevice⟩ := hAccepts.mpr ⟨_, hFinds⟩
      rw [findDevice_plain] at hDevice
      split at hDevice
      · next hEq => exact hEq ▸ hMab
      · cases hDevice
    · intro hMab
      obtain ⟨device, station, hLooksUp, hFound⟩ := hAccepts.mp
        ⟨mac, plainDevice env mac, hMab, by rw [findDevice_plain, if_pos rfl]⟩
      obtain ⟨mac', hMac, hDevice⟩ := Option.bind_eq_some_iff.mp hFound
      rw [findDevice_plain] at hDevice
      split at hDevice
      · next hEq => exact ⟨station, hLooksUp, hEq ▸ hMac⟩
      · cases hDevice
  · rintro ⟨h, hSame⟩ table hTable
    refine (authorizes_iff_vlan h hSame).mpr fun device hFinds => ?_
    obtain ⟨station, -, hFound⟩ := hFinds
    obtain ⟨mac, -, hDevice⟩ := Option.bind_eq_some_iff.mp hFound
    exact hTable device (List.mem_of_find?_eq_some hDevice)

end Main

/-! ## Three requests that are decided wrongly -/

def plainPython : Python where
  lower s := if s = "AA-BB-CC-DD-EE-FF:ORW" then "aa-bb-cc-dd-ee-ff:orw"
    else if s = "AABBCCDDEEFFORW" then "aabbccddeefforw"
    else if s = "AA" then "aa" else if s = "BB" then "bb" else if s = "CC" then "cc"
    else if s = "DD" then "dd" else if s = "EE" then "ee" else if s = "FF" then "ff" else s
  isdigit s := s = "²"
  int _ := none

def plainEnv : Env where
  py := plainPython
  tenantId := none
  macaddr text := if text = "aa:bb:cc:dd:ee:ff" then some 0xaabbccddeeff else none
  now := 0

def station : String × String := ("Calling-Station-Id", "AA-BB-CC-DD-EE-FF:ORW")

/-- A repeated attribute and an EAP type that is a superscript raise, and an address with
the name of the network behind it is looked up with it. -/
theorem not_authorized :
    (∀ table, ¬Authorizes plainEnv [("User-Name", "host"), station, station] table) ∧
      (∀ table, ¬Authorizes plainEnv [("EAP-Type", "²")] table) ∧
      ¬Authorizes plainEnv [("Service-Type", "Call-Check"), station]
        [plainDevice plainEnv 0xaabbccddeeff] := by
  have hNever : ∀ p, Raises plainEnv p → ∀ table, ¬Authorizes plainEnv p table := by
    rintro p hRaises table ⟨reply, hReply, -⟩
    obtain ⟨e, hError⟩ := authorize_raises table hRaises
    rw [hReply] at hError
    cases hError
  refine ⟨hNever _ (.addresses (by decide) (by decide) (by decide) (by decide)),
    hNever _ (.eapDigit "²" (by decide) (by decide) (by decide) rfl), ?_⟩
  rintro ⟨reply, hReply, hIff, -⟩
  have hContinue : authorize plainEnv [plainDevice plainEnv 0xaabbccddeeff]
      [("Service-Type", "Call-Check"), station] = .ok .ok := by decide +kernel
  rw [hContinue] at hReply
  cases hReply
  have hDenotes : (gatewayNormalizeMac plainPython "AA-BB-CC-DD-EE-FF:ORW").bind plainEnv.macaddr =
      some 0xaabbccddeeff := by decide +kernel
  have hMab : MabRequest plainEnv [("Service-Type", "Call-Check"), station] 0xaabbccddeeff := by
    refine ⟨rfl, ⟨by decide, ?_⟩, .inr ⟨by decide, by decide⟩⟩
    intro raw hRaw
    obtain rfl := List.mem_singleton.mp hRaw
    exact hDenotes
  have hAccepts := hIff.mpr ⟨_, _, hMab, by rw [findDevice_plain, if_pos rfl]⟩
  cases hAccepts

end OpenRadiusWeb.Radius
