import OpenRadiusWeb.Lib.Effects
import OpenRadiusWeb.Radius.Authorize

/-! # VLAN assignment after authentication

`post_auth` of the RADIUS module: the device of the calling MAC goes before the groups of the
user, and each look-up that fails counts as one without a result. What is answered is also
written to the log, from the attributes of this hook alone.
-/

namespace OpenRadiusWeb.Radius

open OpenRadiusWeb.Policy (PyErr)

/-- A row of `group_vlan_mappings`. -/
structure VlanMapping where
  groupName : String
  vlanId : Int
  priority : Int
  enabled : Bool
  tenantId : String
  deriving DecidableEq

/-- A row of `radius_auth_log`; the columns that are copies of attributes stand in `copied`. -/
structure AuthLog where
  requestType : String
  authResult : String
  authMethod : String
  failureReason : Option String
  userDomain : Option String
  assignedVlan : Option Int
  copied : List (String × Option AttrValue)

/-- What the hook reads besides the request. A table is missing when there is no connection or
the query fails. -/
structure Sources where
  devices : Option (List MabDevice)
  /-- The `memberOf` values of the user's entry, if LDAP answers with one. -/
  memberOf : String → Option (List String)
  mappings : Option (List VlanMapping)
  /-- The insertion of a log row succeeds. -/
  inserts : AuthLog → Bool

structure PostAuth where
  attributes : List (String × String)
  logged : Option AuthLog

/-! ## Groups -/

/-- `part.upper().startswith("CN=")`. -/
def isCn (part : String) : Bool := (part.toList.take 3).map Char.toUpper == "CN=".toList

/-- The first CN of a distinguished name. -/
def cnOf (dn : String) : Option String :=
  (((Text.split ',' dn).map Text.strip).find? isCn).map fun part =>
    String.ofList (part.toList.drop 3)

/-- `_get_user_ldap_groups`; a list for a name makes it fail. -/
def getUserLdapGroups (src : Sources) : AttrValue → List String
  | .text username => ((src.memberOf username).getD []).filterMap cnOf
  | .list _ => []

/-- `ORDER BY priority ASC LIMIT 1`. -/
def leastPriority : List VlanMapping → Option VlanMapping
  | [] => none
  | m :: rest =>
    match leastPriority rest with
    | none => some m
    | some least => if least.priority < m.priority then some least else some m

/-- The backslash goes before the at sign here. -/
def userDomain : AttrValue → Except PyErr (Option String)
  | .text s =>
    if '\\' ∈ s.toList then .ok (some (String.ofList (s.toList.takeWhile (· ≠ '\\'))))
    else if '@' ∈ s.toList then
      .ok (some (String.ofList (s.toList.reverse.takeWhile (· ≠ '@')).reverse))
    else .ok none
  | .list values => if "\\" ∈ values ∨ "@" ∈ values then .error .attributeError else .ok none

section Functions

variable (env : Env) (src : Sources)

def eligible (groups : List String) (m : VlanMapping) : Bool :=
  decide (m.groupName ∈ groups) && m.enabled &&
    match env.tenantId with
    | none => true
    | some tenantId => tenantId = "" || m.tenantId = tenantId

/-- `_lookup_vlan_for_groups`. -/
def lookupVlanForGroups (groups : List String) : Option VlanMapping :=
  if groups = [] then none
  else src.mappings.bind fun mappings => leastPriority (mappings.filter (eligible env groups))

/-- A VLAN id that counts. -/
def truthyVlan (vlanId : Option Int) : Option Int := vlanId.filter (· ≠ 0)

/-- The device of the calling MAC, if the module finds it and it has a VLAN. -/
def overrideVlan (callingMac : AttrValue) : Except PyErr (Option Int) :=
  if callingMac.truthy then do
    let macClean ← normalizeMacAttr env callingMac
    let device := src.devices.bind fun table => lookupMabDevice env table macClean
    return truthyVlan (device.bind MabDevice.assignedVlanId)
  else .ok none

def groupVlan (username : AttrValue) : Option Int :=
  (lookupVlanForGroups env src (getUserLdapGroups src username)).map VlanMapping.vlanId

def chooseVlan (callingMac username : AttrValue) : Except PyErr (Option Int) := do
  match ← overrideVlan env src callingMac with
  | some vlanId => return some vlanId
  | none =>
    let _ ← userDomain username
    return groupVlan env src username

/-- The VLAN of a successful authentication. -/
def assignVlan (request : Dict AttrValue) : Except PyErr (Option Int) := do
  let username := request.getD "User-Name" (.text "")
  let authMethod ← detectAuthMethod env.py request
  let callingMac := request.getD "Calling-Station-Id" (.text "")
  if authMethod ≠ "MAB" ∧ username.truthy then chooseVlan env src callingMac username
  else return none

/-- Only a successful authentication is assigned a VLAN. -/
def hookVlan (reject : Bool) (request : Dict AttrValue) : Except PyErr (Option Int) :=
  if reject then .ok none else assignVlan env src request

def isReject : AttrValue → Except PyErr Bool
  | .text marker => .ok (env.py.lower marker = "reject")
  | .list _ => .error .attributeError

/-! ## The log -/

/-- The columns that are `request.get(attribute)`. -/
def requestColumns : List (String × String) :=
  [("session_id", "Acct-Session-Id"), ("eap_type", "EAP-Type"),
    ("calling_station_id", "Calling-Station-Id"), ("username", "User-Name"),
    ("nas_ip", "NAS-IP-Address"), ("nas_port", "NAS-Port"), ("nas_port_type", "NAS-Port-Type"),
    ("nas_port_id", "NAS-Port-Id"), ("nas_identifier", "NAS-Identifier"),
    ("service_type", "Service-Type"), ("source_ip", "Packet-Src-IP-Address")]

/-- The `Tunnel-Private-Group-Id` of the reply dictionary. -/
def groupId (attributes : List (String × String)) : Option String :=
  (attributes.find? fun attr => attr.1 = "Tunnel-Private-Group-Id").map Prod.snd

/-- The row `_log_auth_to_db` makes; without attributes in the reply a failure is logged as a
rejection. A value that `int` refuses is logged as none. -/
def authLog (request : Dict AttrValue) (reply : List (String × String)) (reject : Bool) :
    Except PyErr AuthLog := do
  let authMethod ← detectAuthMethod env.py request
  let domain ← userDomain (request.getD "User-Name" (.text ""))
  return {
    requestType := if reject then "Access-Reject" else "Access-Accept"
    authResult := if reject then "reject" else "success"
    authMethod := authMethod
    failureReason := if reject then some "Authentication rejected" else none
    userDomain := domain
    assignedVlan := (groupId reply).bind env.py.int
    copied := requestColumns.map fun column => (column.1, request.get? column.2) }

/-- `_log_auth_to_db`: nothing is logged when it fails. -/
def logAuthToDb (request : Dict AttrValue) (reply : List (String × String)) (reject : Bool) :
    Option AuthLog :=
  (authLog env request reply reject).toOption.filter src.inserts

/-- `post_auth`: with attributes in the reply the request is updated. -/
def postAuth (p : List (String × String)) : Except PyErr PostAuth := do
  let request := extractAttrs p
  let reject ← isReject env (request.getD "OpenRadiusWeb-Result" (.text ""))
  let vlanId ← hookVlan env src reject request
  return ⟨vlanAttrs vlanId, logAuthToDb env src request (vlanAttrs vlanId) reject⟩

end Functions

/-! ## Which VLAN is assigned -/

section Rules

variable (env : Env) (src : Sources) (p : List (String × String))

/-- No attribute is repeated. -/
def SingleValued : Prop := ∀ name, (valuesOf p name).length ≤ 1

/-- `request.get(name, "")` of a request without repeated attributes. -/
def textOf (name : String) : String := (valuesOf p name).headD ""

def Rejected : Prop := env.py.lower (textOf p "OpenRadiusWeb-Result") = "reject"

instance : Decidable (Rejected env p) := inferInstanceAs (Decidable (_ = _))

/-- `int` reads the EAP type if `isdigit` accepts it. -/
def EapReadable : Prop :=
  textOf p "EAP-Type" ≠ "" → env.py.isdigit (textOf p "EAP-Type") = true →
    env.py.int (textOf p "EAP-Type") ≠ none

/-- The row of the calling MAC. -/
def CallingDevice (device : MabDevice) : Prop :=
  textOf p "Calling-Station-Id" ≠ "" ∧ ∃ table mac, src.devices = some table ∧
    env.macaddr (normalizeMac env.py (textOf p "Calling-Station-Id")) = some mac ∧
    findDevice env table mac = some device

/-- The row of the calling MAC has the VLAN. -/
def Overrides (vlanId : Int) : Prop :=
  ∃ device, CallingDevice env src p device ∧ device.assignedVlanId = some vlanId ∧ vlanId ≠ 0

/-- An enabled mapping of one of the user's groups. -/
def Candidate (m : VlanMapping) : Prop :=
  ∃ mappings, src.mappings = some mappings ∧ m ∈ mappings ∧
    eligible env (getUserLdapGroups src (.text (textOf p "User-Name"))) m = true

def LeastCandidate (m : VlanMapping) : Prop :=
  Candidate env src p m ∧ ∀ other, Candidate env src p other → m.priority ≤ other.priority

/-- The rules in the order of precedence. -/
inductive Assigns : Option Int → Prop
  | rejected (hMarker : Rejected env p) : Assigns none
  | skipped (hMarker : ¬Rejected env p) (hSkip : TakenForMab env p ∨ textOf p "User-Name" = "") :
    Assigns none
  | device (hMarker : ¬Rejected env p) (hMab : ¬TakenForMab env p) (hUser : textOf p "User-Name" ≠ "")
    (vlanId : Int) (hDevice : Overrides env src p vlanId) : Assigns (some vlanId)
  | group (hMarker : ¬Rejected env p) (hMab : ¬TakenForMab env p) (hUser : textOf p "User-Name" ≠ "")
    (hDevice : ∀ vlanId, ¬Overrides env src p vlanId) (m : VlanMapping)
    (hLeast : LeastCandidate env src p m) (hVlan : m.vlanId ≠ 0) : Assigns (some m.vlanId)
  | groupWithout (hMarker : ¬Rejected env p) (hMab : ¬TakenForMab env p)
    (hUser : textOf p "User-Name" ≠ "") (hDevice : ∀ vlanId, ¬Overrides env src p vlanId)
    (m : VlanMapping) (hLeast : LeastCandidate env src p m) (hVlan : m.vlanId = 0) : Assigns none
  | nothing (hMarker : ¬Rejected env p) (hMab : ¬TakenForMab env p)
    (hUser : textOf p "User-Name" ≠ "") (hDevice : ∀ vlanId, ¬Overrides env src p vlanId)
    (hNone : ∀ m, ¬Candidate env src p m) : Assigns none

end Rules

theorem leastPriority_none {mappings : List VlanMapping} (h : leastPriority mappings = none) :
    mappings = [] := by
  cases mappings with
  | nil => rfl
  | cons m rest =>
    rw [leastPriority] at h
    split at h
    · cases h
    · split at h
      · cases h
      · cases h

/-- The first row of the query has the least priority. -/
theorem leastPriority_least {mappings : List VlanMapping} {m : VlanMapping}
    (h : leastPriority mappings = some m) :
    m ∈ mappings ∧ ∀ other ∈ mappings, m.priority ≤ other.priority := by
  induction mappings generalizing m with
  | nil => cases h
  | cons first rest ih =>
    rw [leastPriority] at h
    cases hRest : leastPriority rest with
    | none =>
      rw [hRest] at h
      cases h
      rw [leastPriority_none hRest]
      exact ⟨List.mem_cons_self, fun other hOther => by rw [List.mem_singleton.mp hOther]⟩
    | some least =>
      obtain ⟨hMem, hLeast⟩ := ih hRest
      rw [hRest] at h
      dsimp only at h
      split at h
      · rename_i hLess
        cases h
        refine ⟨List.mem_cons_of_mem _ hMem, fun other hOther => ?_⟩
        rcases List.mem_cons.mp hOther with rfl | hOther
        · omega
        · exact hLeast other hOther
      · rename_i hNotLess
        cases h
        refine ⟨List.mem_cons_self, fun other hOther => ?_⟩
        rcases List.mem_cons.mp hOther with rfl | hOther
        · omega
        · have hOrder := hLeast other hOther
          omega

@[simp] theorem truthyVlan_zero : truthyVlan (some 0) = none := rfl

theorem truthyVlan_of_ne {vlanId : Int} (h : vlanId ≠ 0) : truthyVlan (some vlanId) = some vlanId := by
  simp [truthyVlan, Option.filter_some, h]

theorem vlanAttrs_truthy (vlanId : Option Int) : vlanAttrs vlanId = vlanTriple (truthyVlan vlanId) := by
  cases vlanId with
  | none => rfl
  | some v =>
    by_cases h : v = 0
    · rw [h]
      rfl
    · rw [truthyVlan_of_ne h]
      exact if_neg h

section Correct

variable {env : Env} {src : Sources} {p : List (String × String)}

theorem lookupVlanForGroups_some {m : VlanMapping}
    (h : lookupVlanForGroups env src (getUserLdapGroups src (.text (textOf p "User-Name"))) =
      some m) : LeastCandidate env src p m := by
  unfold lookupVlanForGroups at h
  split at h
  · cases h
  · obtain ⟨mappings, hMappings, hLeast⟩ := Option.bind_eq_some_iff.mp h
    obtain ⟨hMem, hOrder⟩ := leastPriority_least hLeast
    rw [List.mem_filter] at hMem
    refine ⟨⟨mappings, hMappings, hMem.1, hMem.2⟩, ?_⟩
    rintro other ⟨mappings', hMappings', hOther, hEligible⟩
    rw [hMappings] at hMappings'
    cases hMappings'
    exact hOrder other (List.mem_filter.mpr ⟨hOther, hEligible⟩)

theorem lookupVlanForGroups_none
    (h : lookupVlanForGroups env src (getUserLdapGroups src (.text (textOf p "User-Name"))) = none)
    (m : VlanMapping) : ¬Candidate env src p m := by
  rintro ⟨mappings, hMappings, hMem, hEligible⟩
  unfold lookupVlanForGroups at h
  split at h
  · rename_i hNoGroups
    rw [hNoGroups] at hEligible
    simp [eligible] at hEligible
  · rw [hMappings, Option.bind_some] at h
    have hEmpty := leastPriority_none h
    have hStill : m ∈ mappings.filter
        (eligible env (getUserLdapGroups src (.text (textOf p "User-Name")))) :=
      List.mem_filter.mpr ⟨hMem, hEligible⟩
    rw [hEmpty] at hStill
    cases hStill

theorem valueOf_textOf (h : SingleValued p) (name : String) :
    valueOf (valuesOf p name) = .text (textOf p name) := by
  have hLength := h name
  unfold textOf
  match hValues : valuesOf p name with
  | [] => rfl
  | [value] => rfl
  | _ :: _ :: _ =>
    rw [hValues] at hLength
    simp at hLength

theorem getD_textOf (h : SingleValued p) (name : String) :
    (extractAttrs p).getD name (.text "") = .text (textOf p name) := by
  rw [getD_extractAttrs]
  exact valueOf_textOf h name

/-- What a request without repeated attributes can raise on is its EAP type. -/
theorem not_raises (hSingle : SingleValued p) (hEap : EapReadable env p) : ¬Raises env p := by
  intro h
  have hFew : ∀ name, ¬2 ≤ (valuesOf p name).length := fun name hMany => by
    have hLength := hSingle name
    omega
  cases h with
  | realm hMany _ => exact hFew _ hMany
  | eapTypes hMany => exact hFew _ hMany
  | eapDigit eapType hType hGiven hDigit hInt =>
    have hText : textOf p "EAP-Type" = eapType := by
      rw [textOf, show valuesOf p "EAP-Type" = [eapType] from hType]
      rfl
    rw [EapReadable, hText] at hEap
    exact hEap hGiven hDigit hInt
  | addresses _ _ _ hMany => exact hMany.elim (hFew _) (hFew _)
  | callCheck _ hMany _ _ => exact hFew _ hMany

/-- The override is the VLAN of the calling device. -/
theorem overrideVlan_eq :
    ∃ vlanId, overrideVlan env src (.text (textOf p "Calling-Station-Id")) = .ok vlanId ∧
      (∀ v, vlanId = some v → Overrides env src p v) ∧
      (vlanId = none → ∀ v, ¬Overrides env src p v) := by
  unfold overrideVlan
  by_cases hEmpty : textOf p "Calling-Station-Id" = ""
  · have hFalsy : ¬(AttrValue.text (textOf p "Calling-Station-Id")).truthy = true := by
      rw [hEmpty]
      decide
    rw [if_neg hFalsy]
    refine ⟨none, rfl, fun v hSome => ?_, ?_⟩
    · cases hSome
    · rintro - v ⟨device, ⟨hGiven, -⟩, -⟩
      exact hGiven hEmpty
  · have hTruthy : (AttrValue.text (textOf p "Calling-Station-Id")).truthy = true :=
      decide_eq_true hEmpty
    rw [if_pos hTruthy]
    refine ⟨_, rfl, ?_, ?_⟩
    · intro v hVlan
      obtain ⟨hSome, hNonzero⟩ := Option.filter_eq_some_iff.mp hVlan
      obtain ⟨device, hDevice, hAssigned⟩ := Option.bind_eq_some_iff.mp hSome
      obtain ⟨table, hTable, hLookup⟩ := Option.bind_eq_some_iff.mp hDevice
      obtain ⟨mac, hMac, hFound⟩ := Option.bind_eq_some_iff.mp hLookup
      exact ⟨device, ⟨hEmpty, table, mac, hTable, hMac, hFound⟩, hAssigned, by simpa using hNonzero⟩
    · rintro hNone v ⟨device, ⟨-, table, mac, hTable, hMac, hFound⟩, hAssigned, hNonzero⟩
      rw [hTable, Option.bind_some, lookupMabDevice, hMac, Option.bind_some, hFound,
        Option.bind_some, hAssigned] at hNone
      simp [truthyVlan, hNonzero] at hNone

theorem isReject_eq (hSingle : SingleValued p) :
    isReject env ((extractAttrs p).getD "OpenRadiusWeb-Result" (.text "")) =
      .ok (decide (Rejected env p)) := by
  rw [getD_textOf hSingle]
  rfl

theorem postAuth_eq (hSingle : SingleValued p) :
    postAuth env src p = hookVlan env src (decide (Rejected env p)) (extractAttrs p) >>= fun vlanId =>
      .ok ⟨vlanAttrs vlanId,
        logAuthToDb env src (extractAttrs p) (vlanAttrs vlanId) (decide (Rejected env p))⟩ := by
  unfold postAuth
  dsimp only
  rw [isReject_eq hSingle]
  rfl

theorem userDomain_ok (s : String) : ∃ domain, userDomain (.text s) = .ok domain := by
  unfold userDomain
  dsimp only
  split
  · exact ⟨_, rfl⟩
  · split
    · exact ⟨_, rfl⟩
    · exact ⟨_, rfl⟩

/-- The VLAN of a request that was not rejected. -/
theorem assignVlan_assigns (hSingle : SingleValued p) (hEap : EapReadable env p)
    (hMarker : ¬Rejected env p) :
    ∃ vlanId, assignVlan env src (extractAttrs p) = .ok vlanId ∧
      Assigns env src p (truthyVlan vlanId) := by
  obtain ⟨method, hMethod, hMab⟩ := detectAuthMethod_ok (not_raises hSingle hEap)
  have hAssign : assignVlan env src (extractAttrs p) =
      if method ≠ "MAB" ∧ textOf p "User-Name" ≠ "" then
        chooseVlan env src (.text (textOf p "Calling-Station-Id")) (.text (textOf p "User-Name"))
      else .ok none := by
    unfold assignVlan
    rw [getD_textOf hSingle, getD_textOf hSingle, hMethod]
    simp only [AttrValue.truthy, decide_eq_true_eq]
    rfl
  rw [hAssign]
  by_cases hGo : method ≠ "MAB" ∧ textOf p "User-Name" ≠ ""
  · obtain ⟨hNotMab, hUser⟩ := hGo
    rw [ne_eq, hMab] at hNotMab
    rw [if_pos ⟨by rwa [ne_eq, hMab], hUser⟩]
    obtain ⟨override, hOverride, hSome, hNone⟩ := @overrideVlan_eq env src p
    cases override with
    | some v =>
      have hDevice := hSome v rfl
      obtain ⟨-, -, -, hNonzero⟩ := id hDevice
      refine ⟨some v, ?_, ?_⟩
      · unfold chooseVlan
        rw [hOverride]
        rfl
      · rw [truthyVlan_of_ne hNonzero]
        exact .device hMarker hNotMab hUser v hDevice
    | none =>
      have hDevice := hNone rfl
      obtain ⟨domain, hDomain⟩ := userDomain_ok (textOf p "User-Name")
      refine ⟨groupVlan env src (.text (textOf p "User-Name")), ?_, ?_⟩
      · unfold chooseVlan
        rw [hOverride]
        change (userDomain _ >>= fun _ => _) = _
        rw [hDomain]
        rfl
      · unfold groupVlan
        cases hLookup : lookupVlanForGroups env src
            (getUserLdapGroups src (.text (textOf p "User-Name"))) with
        | none => exact .nothing hMarker hNotMab hUser hDevice (lookupVlanForGroups_none hLookup)
        | some m =>
          have hLeast := lookupVlanForGroups_some hLookup
          by_cases hZero : m.vlanId = 0
          · rw [Option.map_some, hZero, truthyVlan_zero]
            exact .groupWithout hMarker hNotMab hUser hDevice m hLeast hZero
          · rw [Option.map_some, truthyVlan_of_ne hZero]
            exact .group hMarker hNotMab hUser hDevice m hLeast hZero
  · rw [if_neg hGo]
    refine ⟨none, rfl, .skipped hMarker ?_⟩
    rw [not_and_or, Decidable.not_not, Decidable.not_not, hMab] at hGo
    exact hGo

end Correct

/-- The hook answers with the triple of the VLAN that the rules assign, and with nothing when
they assign none. -/
theorem postAuth_correct (env : Env) (src : Sources) (p : List (String × String))
    (hSingle : SingleValued p) (hEap : ¬Rejected env p → EapReadable env p) :
    ∃ result vlanId, postAuth env src p = .ok result ∧ Assigns env src p vlanId ∧
      result.attributes = vlanTriple vlanId := by
  have hHook : ∃ vlanId, hookVlan env src (decide (Rejected env p)) (extractAttrs p) = .ok vlanId ∧
      Assigns env src p (truthyVlan vlanId) := by
    by_cases hMarker : Rejected env p
    · exact ⟨none, if_pos (decide_eq_true hMarker), .rejected hMarker⟩
    · rw [hookVlan, if_neg (by rwa [decide_eq_true_eq])]
      exact assignVlan_assigns hSingle (hEap hMarker) hMarker
  obtain ⟨vlanId, hVlan, hAssigns⟩ := hHook
  rw [postAuth_eq hSingle, hVlan]
  exact ⟨_, truthyVlan vlanId, rfl, hAssigns, vlanAttrs_truthy vlanId⟩

def staffEnv : Env where
  py := ⟨Policy.lowerAscii, fun _ => false, Text.decimal⟩
  tenantId := none
  macaddr text := if text = "aa:bb:cc:dd:ee:ff" then some 0xaabbccddeeff else none
  now := 0

/-- Alice is of the staff, whose VLAN is given. -/
def staffSources (vlanId : Int) : Sources where
  devices := some [⟨0xaabbccddeeff, some 10, some true, none, none⟩]
  memberOf username :=
    if username = "alice" then some ["OU=All,CN=Staff,DC=example", "DC=example"] else none
  mappings := some [⟨"Guests", 30, 1, true, "t"⟩, ⟨"Staff", vlanId, 5, true, "t"⟩]
  inserts _ := true

theorem single_user (username : String) : SingleValued [("User-Name", username)] := by
  intro name
  unfold valuesOf
  rw [List.length_map]
  exact List.length_filter_le _ _

theorem alice_assigned :
    ∃ result vlanId, postAuth staffEnv (staffSources 20) [("User-Name", "alice")] = .ok result ∧
      Assigns staffEnv (staffSources 20) [("User-Name", "alice")] vlanId ∧
      result.attributes = vlanTriple vlanId :=
  postAuth_correct staffEnv (staffSources 20) _ (single_user "alice") fun _ hGiven =>
    absurd rfl hGiven

/-- A mapping to VLAN 0 is the one of least priority, and nothing is answered. -/
theorem zero_not_assigned :
    SingleValued [("User-Name", "alice")] ∧ ¬Rejected staffEnv [("User-Name", "alice")] ∧
      ¬TakenForMab staffEnv [("User-Name", "alice")] ∧
      (∀ vlanId, ¬Overrides staffEnv (staffSources 0) [("User-Name", "alice")] vlanId) ∧
      LeastCandidate staffEnv (staffSources 0) [("User-Name", "alice")] ⟨"Staff", 0, 5, true, "t"⟩ ∧
      ∃ result, postAuth staffEnv (staffSources 0) [("User-Name", "alice")] = .ok result ∧
        result.attributes ≠ vlanTriple (some 0) := by
  have hLookup : lookupVlanForGroups staffEnv (staffSources 0)
      (getUserLdapGroups (staffSources 0) (.text (textOf [("User-Name", "alice")] "User-Name"))) =
        some ⟨"Staff", 0, 5, true, "t"⟩ := by decide +kernel
  have hAttributes : ((postAuth staffEnv (staffSources 0) [("User-Name", "alice")]).map
      PostAuth.attributes).toOption = some [] := by decide +kernel
  refine ⟨single_user "alice", by decide, ?_, ?_, lookupVlanForGroups_some hLookup, ?_⟩
  · rintro ⟨-, hService | ⟨station, user, hStation, -⟩⟩
    · exact absurd hService (by decide)
    · cases hStation
  · rintro vlanId ⟨device, ⟨hGiven, -⟩, -⟩
    exact hGiven rfl
  · cases hResult : postAuth staffEnv (staffSources 0) [("User-Name", "alice")] with
    | error e =>
      rw [hResult] at hAttributes
      cases hAttributes
    | ok result =>
      rw [hResult] at hAttributes
      refine ⟨result, rfl, ?_⟩
      rw [Option.some.inj hAttributes]
      exact fun h => nomatch h

/-! ## The VLAN in the log -/

/-- The request with the marker set, as the site templates set it before the hook. -/
def marked (p : List (String × String)) (marker : String) : List (String × String) :=
  (p.filter fun attr => attr.1 ≠ "OpenRadiusWeb-Result") ++ [("OpenRadiusWeb-Result", marker)]

section Log

variable {env : Env} {src : Sources} {p : List (String × String)} {table : List MabDevice}

theorem valuesOf_marked {name : String} (h : name ≠ "OpenRadiusWeb-Result") (marker : String) :
    valuesOf (marked p marker) name = valuesOf p name := by
  rw [marked, valuesOf_concat, if_neg h, valuesOf, List.filter_filter, valuesOf]
  congr 1
  apply List.filter_congr
  intro attr _
  by_cases hName : attr.1 = name
  · simp [hName, h]
  · simp [hName]

theorem detectAuthMethod_marked (marker : String) :
    detectAuthMethod env.py (extractAttrs (marked p marker)) =
      detectAuthMethod env.py (extractAttrs p) := by
  unfold detectAuthMethod
  simp only [get?_extractAttrs, getD_extractAttrs]
  rw [valuesOf_marked (by decide), valuesOf_marked (by decide), valuesOf_marked (by decide),
    valuesOf_marked (by decide)]

theorem groupId_vlanAttrs (vlanId : Option Int) :
    groupId (vlanAttrs vlanId) = (truthyVlan vlanId).map toString := by
  cases vlanId with
  | none => rfl
  | some v =>
    by_cases h : v = 0
    · rw [h]
      rfl
    · rw [truthyVlan_of_ne h, vlanAttrs, if_neg h]
      rfl

theorem groupId_append (attributes more : List (String × String)) :
    groupId (attributes ++ more) = (groupId attributes).or (groupId more) := by
  rw [groupId, List.find?_append, groupId, groupId, Option.map_or]

theorem hookVlan_mab {request : Dict AttrValue} {reject : Bool} {vlanId : Option Int}
    (hMethod : detectAuthMethod env.py request = .ok "MAB")
    (h : hookVlan env src reject request = .ok vlanId) : vlanId = none := by
  cases reject with
  | true => exact (Except.ok.inj h).symm
  | false =>
    change assignVlan env src request = .ok vlanId at h
    unfold assignVlan at h
    dsimp only at h
    rw [hMethod] at h
    exact (Except.ok.inj h).symm

/-- What is answered and what is logged, when there is an answer and a row. -/
theorem postAuth_logged {result : PostAuth} {row : AuthLog}
    (hInt : ∀ n : Int, env.py.int (toString n) = some n) (h : postAuth env src p = .ok result)
    (hRow : result.logged = some row) :
    ∃ reject vlanId, hookVlan env src reject (extractAttrs p) = .ok vlanId ∧
      result.attributes = vlanAttrs vlanId ∧ row.assignedVlan = truthyVlan vlanId := by
  unfold postAuth at h
  obtain ⟨reject, -, h⟩ := Except.ok_of_bind h
  obtain ⟨vlanId, hVlan, hResult⟩ := Except.ok_of_bind h
  cases hResult
  refine ⟨reject, vlanId, hVlan, rfl, ?_⟩
  obtain ⟨hMade, -⟩ := Option.filter_eq_some_iff.mp hRow
  cases hLog : authLog env (extractAttrs p) (vlanAttrs vlanId) reject with
  | error e =>
    rw [hLog] at hMade
    cases hMade
  | ok made =>
    rw [hLog] at hMade
    cases hMade
    unfold authLog at hLog
    obtain ⟨method, -, hLog⟩ := Except.ok_of_bind hLog
    obtain ⟨domain, -, hLog⟩ := Except.ok_of_bind hLog
    cases hLog
    change (groupId (vlanAttrs vlanId)).bind env.py.int = _
    rw [groupId_vlanAttrs]
    cases truthyVlan vlanId with
    | none => rfl
    | some v => exact hInt v

/-- Without a device the first hook sends no attributes. -/
theorem authorize_nothing {reply : Reply} (h : authorize env table p = .ok reply)
    (hNone : ∀ device, ¬Finds env p table device) : reply.attributes = [] := by
  have hContinue : ∀ realm, (continueWith realm).attributes = [] := by
    intro realm
    unfold continueWith
    split
    · rfl
    · rfl
  have hNot : ¬Raises env p := by
    intro hRaises
    obtain ⟨e, hError⟩ := authorize_raises table hRaises
    rw [h] at hError
    cases hError
  by_cases hAny : ∃ station, LooksUp env p station
  · obtain ⟨station, hLooksUp⟩ := hAny
    obtain ⟨realm, hReply⟩ := authorize_of_looksUp table hNot hLooksUp
    cases hFound : lookupMabDevice env table (normalizeMac env.py station) with
    | none =>
      rw [h, hFound] at hReply
      cases hReply
      exact hContinue realm
    | some device => exact absurd ⟨station, hLooksUp, hFound⟩ (hNone device)
  · obtain ⟨realm, hReply⟩ := authorize_of_not_looksUp table hNot hAny
    rw [h] at hReply
    cases hReply
    exact hContinue realm

/-- A request for which a device is found is taken for a MAB request in both hooks. -/
theorem detect_of_finds {reply : Reply} {device : MabDevice}
    (h : authorize env table p = .ok reply) (hFinds : Finds env p table device) :
    detectAuthMethod env.py (extractAttrs p) = .ok "MAB" ∧
      reply.attributes = vlanAttrs device.assignedVlanId := by
  have hNot : ¬Raises env p := by
    intro hRaises
    obtain ⟨e, hError⟩ := authorize_raises table hRaises
    rw [h] at hError
    cases hError
  obtain ⟨reply', hReply, -, hAttributes⟩ := authorize_ok table hNot
  rw [h] at hReply
  cases hReply
  obtain ⟨method, hMethod, hMab⟩ := detectAuthMethod_ok hNot
  obtain ⟨station, hLooksUp, -⟩ := id hFinds
  have hTaken := ((looksUp_iff hNot).mpr ⟨station, hLooksUp⟩).1
  exact ⟨hMethod.trans (congrArg _ (hMab.mpr hTaken)), hAttributes device hFinds⟩

end Log

/-- The log has the VLAN that was sent exactly when the first hook sent none. -/
theorem logged_vlan_iff (env : Env) (src : Sources) (table : List MabDevice)
    (p : List (String × String)) (hInt : ∀ n : Int, env.py.int (toString n) = some n)
    (reply : Reply) (hAuthorize : authorize env table p = .ok reply) (result : PostAuth)
    (row : AuthLog) (hPostAuth : postAuth env src (marked p "success") = .ok result)
    (hLogged : result.logged = some row) :
    row.assignedVlan.map toString = groupId (reply.attributes ++ result.attributes) ↔
      ∀ device, Finds env p table device → truthyVlan device.assignedVlanId = none := by
  obtain ⟨reject, vlanId, hHook, hSent, hRow⟩ := postAuth_logged hInt hPostAuth hLogged
  rw [groupId_append, hSent, groupId_vlanAttrs, hRow]
  by_cases hFound : ∃ device, Finds env p table device
  · obtain ⟨device, hFinds⟩ := hFound
    obtain ⟨hMab, hReply⟩ := detect_of_finds hAuthorize hFinds
    have hNone : vlanId = none := by
      apply hookVlan_mab _ hHook
      rw [detectAuthMethod_marked, hMab]
    rw [hReply, groupId_vlanAttrs, hNone]
    constructor
    · intro hSame other hOther
      obtain ⟨-, hReply'⟩ := detect_of_finds hAuthorize hOther
      rw [hReply, vlanAttrs_truthy, vlanAttrs_truthy] at hReply'
      cases hVlan : truthyVlan device.assignedVlanId with
      | some v =>
        rw [hVlan] at hSame
        cases hSame
      | none =>
        rw [hVlan] at hReply'
        cases hOtherVlan : truthyVlan other.assignedVlanId with
        | none => rfl
        | some v =>
          rw [hOtherVlan] at hReply'
          cases hReply'
    · intro hAll
      rw [hAll device hFinds]
      rfl
  · have hNothing := authorize_nothing hAuthorize fun device hFinds => hFound ⟨device, hFinds⟩
    rw [hNothing]
    exact ⟨fun _ device hFinds => absurd ⟨device, hFinds⟩ hFound, fun _ => rfl⟩

/-- A request of the device on the whitelist. -/
def callCheck : List (String × String) :=
  [("Calling-Station-Id", "AA-BB-CC-DD-EE-FF"), ("Service-Type", "Call-Check")]

theorem int_staffEnv (n : Int) : staffEnv.py.int (toString n) = some n := Text.decimal_toString n

/-- Alice's VLAN is sent by the second hook, and logged. -/
theorem alice_logged :
    ∃ reply result row, authorize staffEnv [] [("User-Name", "alice")] = .ok reply ∧
      postAuth staffEnv (staffSources 20) (marked [("User-Name", "alice")] "success") = .ok result ∧
      result.logged = some row ∧
      row.assignedVlan.map toString = groupId (reply.attributes ++ result.attributes) := by
  have hLogged : ((postAuth staffEnv (staffSources 20)
      (marked [("User-Name", "alice")] "success")).toOption.bind PostAuth.logged).isSome = true := by
    decide +kernel
  obtain ⟨row, hRow⟩ := Option.isSome_iff_exists.mp hLogged
  obtain ⟨result, hResult, hLog⟩ := Option.bind_eq_some_iff.mp hRow
  have hPost : postAuth staffEnv (staffSources 20) (marked [("User-Name", "alice")] "success") =
      .ok result := by
    cases hRun : postAuth staffEnv (staffSources 20) (marked [("User-Name", "alice")] "success") with
    | error e =>
      rw [hRun] at hResult
      cases hResult
    | ok other =>
      rw [hRun] at hResult
      cases hResult
      rfl
  have hNoDevice : ∀ device, ¬Finds staffEnv [("User-Name", "alice")] [] device := by
    rintro device ⟨station, ⟨-, hStation, -⟩, -⟩
    cases hStation
  exact ⟨.ok, result, row, rfl, hPost, hLog,
    (logged_vlan_iff staffEnv (staffSources 20) [] [("User-Name", "alice")] int_staffEnv _ rfl result
      row hPost hLog).mpr fun device hFinds => absurd hFinds (hNoDevice device)⟩

/-- The VLAN of a device that is let in by its address is sent, and none is logged. -/
theorem mab_vlan_not_logged :
    ((authorize staffEnv [⟨0xaabbccddeeff, some 10, some true, none, none⟩] callCheck).toOption.map
        fun reply => groupId reply.attributes) = some (some "10") ∧
      (((postAuth staffEnv (staffSources 20) (marked callCheck "success")).toOption.bind
        PostAuth.logged).map AuthLog.assignedVlan) = some none := by
  decide +kernel

end OpenRadiusWeb.Radius
