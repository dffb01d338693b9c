import OpenRadiusWeb.Certificates.Rows
import OpenRadiusWeb.Lib.Dict

/-! # The settings feature

The rows of `system_settings`, the statements on them, the use cases and their routes. A row
is of one tenant, or of all when it names none, and a row may be secret. What a request
leaves behind is the table, the audit log and the messages published.
-/

namespace OpenRadiusWeb.Settings

export OpenRadiusWeb.Certificates (PyException notFoundError validationError)

/-- A text that PostgreSQL stores: one without a NUL. -/
abbrev Text : Type := {text : String // text.toList.all (· != '\x00') = true}

/-- The columns that the lists select, but for the category. -/
structure Entry where
  settingKey : Text
  settingValue : Option Text
  valueType : Option Text
  description : Option Text
  isSecret : Option Bool
  deriving DecidableEq

structure Selected extends Entry where
  category : Text
  deriving DecidableEq

/-- A row of `system_settings`. -/
structure Setting extends Selected where
  tenantId : Option String
  deriving DecidableEq

/-- `bool(row["is_secret"])`. -/
def Entry.secret (entry : Entry) : Bool := entry.isSecret.getD false

/-- `(tenant_id = :tenant_id OR tenant_id IS NULL)`. -/
def Setting.visibleTo (tenantId : String) (row : Setting) : Bool :=
  row.tenantId.all (· == tenantId)

/-- The user of a request, as the token has it. -/
structure User where
  sub : String
  username : Option String
  role : String
  tenantId : String
  deriving DecidableEq

/-- What is left to PostgreSQL and its driver. -/
structure Host (Collated : Type) where
  collate : String → Collated
  /-- The exception for a parameter with a NUL. -/
  rejected : String → PyException

variable {Collated : Type} [LinearOrder Collated] (host : Host Collated)

/-! ## Repository -/

def textParameter (text : String) : Except PyException Text :=
  if h : text.toList.all (· != '\x00') = true then .ok ⟨text, h⟩ else .error (host.rejected text)

def listAllSettings (rows : List Setting) (tenantId : String) : List Selected :=
  (Sorting.sortBy (fun row => toLex (host.collate row.category.val, host.collate row.settingKey.val))
    (rows.filter (Setting.visibleTo tenantId))).map Setting.toSelected

def listSettingsByCategory (rows : List Setting) (tenantId category : String) :
    Except PyException (List Selected) := do
  let category ← textParameter host category
  return (Sorting.sortBy (fun row => host.collate row.settingKey.val)
    (rows.filter fun row => row.category == category && row.visibleTo tenantId)).map
      Setting.toSelected

/-- Later rows replace earlier ones with their key. -/
def lookupSettingsForAudit (rows : List Setting) (tenantId category : String) (keys : List String) :
    Except PyException (Dict Entry) := do
  let category ← textParameter host category
  let keys ← keys.mapM (textParameter host)
  return (rows.filter fun row =>
      row.category == category && keys.contains row.settingKey && row.visibleTo tenantId).foldl
    (fun found row => found.set row.settingKey.val row.toEntry) []

def updateSettingValue (rows : List Setting) (tenantId category key value : String) :
    Except PyException (List Setting) := do
  let value ← textParameter host value
  let category ← textParameter host category
  let key ← textParameter host key
  return rows.map fun row =>
    if row.category == category && row.settingKey == key && row.visibleTo tenantId then
      { row with settingValue := some value }
    else row

/-! ## Use cases -/

def masked : String := "********"

def maskSensitive (row : Selected) : Selected :=
  if row.secret then { row with settingValue := some ⟨masked, by decide⟩ } else row

def getAllSettingsGrouped (rows : List Setting) (tenantId : String) : Dict (List Entry) :=
  ((listAllSettings host rows tenantId).map maskSensitive).foldl
    (fun categories row =>
      categories.set row.category.val (categories.getD row.category.val [] ++ [row.toEntry])) []

def getSettingsByCategory (rows : List Setting) (tenantId category : String) :
    Except PyException (List Selected) := do
  match ← listSettingsByCategory host rows tenantId category with
  | [] => .error (notFoundError "settings category" category)
  | found => return found.map maskSensitive

/-- The body of PUT /settings/{category}. -/
structure SettingsUpdate where
  settings : Dict String
  nonempty : settings ≠ []
  nodup : settings.keys.Nodup

structure Change where
  key : String
  oldValue : Option String
  newValue : String
  deriving DecidableEq

def change (old : Entry) (key newValue : String) : Change where
  key := key
  oldValue := if old.secret then some masked else old.settingValue.map Subtype.val
  newValue := if old.secret then masked else newValue

/-- The loop over the items of the body: the rows, the keys and the changes it leaves. -/
def updateEach (tenantId category : String) (existing : Dict Entry) :
    Dict String → List Setting → Except PyException (List Setting × List String × List Change)
  | [], rows => .ok (rows, [], [])
  | (key, value) :: rest, rows =>
    match existing.get? key with
    | none => updateEach tenantId category existing rest rows
    | some old => do
      let rows ← updateSettingValue host rows tenantId category key value
      let (rows, keys, changes) ← updateEach tenantId category existing rest rows
      return (rows, key :: keys, change old key value :: changes)

def noValidKeys : PyException := validationError "No valid settings keys found for this category"

/-- The updates of a batch, up to its entry in the audit log. -/
def updateSettingsBatch (rows : List Setting) (tenantId category : String) (body : SettingsUpdate) :
    Except PyException (List Setting × List String × List Change) := do
  let existing ← lookupSettingsForAudit host rows tenantId category body.settings.keys
  match ← updateEach host tenantId category existing body.settings rows with
  | (_, [], _) => .error noValidKeys
  | done => return done

def infraServices : List String := ["postgres", "redis", "nats", "frontend"]

def serviceRestartTopics : Dict String :=
  [("freeradius", "orw.service.freeradius.restart"),
    ("discovery", "orw.service.discovery.restart"),
    ("device_inventory", "orw.service.device_inventory.restart"),
    ("policy_engine", "orw.service.policy_engine.restart"),
    ("switch_mgmt", "orw.service.switch_mgmt.restart"),
    ("coa", "orw.service.coa.restart")]

/-- The topic of the request to restart a background service. -/
def restartTopic (serviceName : String) : Except PyException String :=
  if infraServices.contains serviceName then
    .error ⟨"AuthorizationError", "Cannot restart " ++ serviceName ++
      " from Web UI. Use SSH to restart infrastructure services."⟩
  else
    match serviceRestartTopics.get? serviceName with
    | none => .error (validationError ("Unknown service: " ++ serviceName))
    | some topic => .ok topic

/-! ## Routes -/

inductive Details
  | changes (category : String) (changes : List Change)
  | service (name : String) (description : Option String)
  deriving DecidableEq

structure AuditEntry where
  userId : String
  action : String
  resourceType : String
  details : Details
  ipAddress : Option String
  tenantId : String
  deriving DecidableEq

/-- A restart request on the message bus. -/
structure Message where
  topic : String
  requestedBy : String
  deriving DecidableEq

structure State where
  rows : List Setting
  auditLog : List AuditEntry
  published : List Message

inductive Request
  | getAllSettings (user : User)
  | getSettingsByCategory (user : User) (category : String)
  | updateSettings (user : User) (category : String) (body : SettingsUpdate)
  | restartService (user : User) (serviceName : String)

/-- A request, with the client's address and the calls that fail. -/
structure Call where
  request : Request
  clientIp : Option String
  auditFails : Option PyException
  publishFails : Option PyException

inductive Response
  | categories (categories : Dict (List Entry))
  | category (category : String) (settings : List Selected)
  | updated (keys : List String) (category : String)
  | restart (status service message : String)
  deriving DecidableEq

def requireAdmin (user : User) : Except PyException Unit :=
  if user.role = "admin" then .ok () else .error ⟨"HTTPException", "403: Admin access required"⟩

def outcome : Option PyException → Except PyException Unit
  | none => .ok ()
  | some e => .error e

def auditEntry (user : User) (call : Call) (action resourceType : String) (details : Details) :
    AuditEntry :=
  ⟨user.sub, action, resourceType, details, call.clientIp, user.tenantId⟩

def updateRoute (call : Call) (user : User) (category : String) (body : SettingsUpdate) (s : State) :
    Except PyException (Response × State) := do
  requireAdmin user
  let (rows, keys, changes) ← updateSettingsBatch host s.rows user.tenantId category body
  outcome call.auditFails
  return (.updated keys category, { s with
    rows := rows
    auditLog := s.auditLog ++
      [auditEntry user call "update" "system_settings" (.changes category changes)] })

/-- The gateway exits by itself, a second after the answer. -/
def restartGateway (call : Call) (user : User) (s : State) : Except PyException (Response × State) := do
  outcome call.auditFails
  return (.restart "restarting" "gateway" "Gateway is restarting. Please wait a few seconds.",
    { s with auditLog := s.auditLog ++ [auditEntry user call "restart" "service"
      (.service "gateway" (some "Gateway restart requested"))] })

/-- What is published stays so when the audit entry fails. -/
def restartBackground (call : Call) (user : User) (serviceName : String) (s : State) :
    Except PyException Response × State :=
  match restartTopic serviceName, call.publishFails, call.auditFails with
  | .error e, _, _ => (.error e, s)
  | .ok _, some e, _ => (.error e, s)
  | .ok topic, none, audit =>
    let s := { s with published := s.published ++ [⟨topic, user.username.getD user.sub⟩] }
    match audit with
    | some e => (.error e, s)
    | none =>
      (.ok (.restart "restart_requested" serviceName ("Restart request sent to " ++ serviceName)),
        { s with auditLog := s.auditLog ++
          [auditEntry user call "restart" "service" (.service serviceName none)] })

/-- A session of its own: nothing is kept of a request that raises. -/
def transact (s : State) : Except PyException (Response × State) → Except PyException Response × State
  | .ok (response, s') => (.ok response, s')
  | .error e => (.error e, s)

def restartRoute (call : Call) (user : User) (serviceName : String) (s : State) :
    Except PyException Response × State :=
  match requireAdmin user with
  | .error e => (.error e, s)
  | .ok () =>
    if serviceName = "gateway" then transact s (restartGateway call user s)
    else restartBackground call user serviceName s

def handle (call : Call) (s : State) : Except PyException Response × State :=
  match call.request with
  | .getAllSettings user =>
    (.ok (.categories (getAllSettingsGrouped host s.rows user.tenantId)), s)
  | .getSettingsByCategory user category =>
    ((getSettingsByCategory host s.rows user.tenantId category).map (.category category), s)
  | .updateSettings user category body => transact s (updateRoute host call user category body s)
  | .restartService user serviceName => restartRoute call user serviceName s

end OpenRadiusWeb.Settings
