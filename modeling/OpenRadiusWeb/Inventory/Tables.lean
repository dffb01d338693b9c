import OpenRadiusWeb.Lib.Effects
import OpenRadiusWeb.Lib.Upsert
import OpenRadiusWeb.Mab.BulkImport
import OpenRadiusWeb.Policy.Values

/-! # The tables of the device inventory

The rows of `devices`, `device_properties` and `events` that the inventory writes, the columns that
take its values, and its statements. A statement that the database does not prepare, or with a value
that a column does not take, raises.
-/

namespace OpenRadiusWeb.Inventory

open OpenRadiusWeb.Policy (PyErr PyVal Builtins)
open OpenRadiusWeb.Mab (textColumn varcharColumn)
open Upsert

/-- A row of `devices`; addresses are their texts, and times microseconds. -/
structure Device where
  id : String
  macAddress : String
  ipAddress : Option String
  hostname : Option String
  deviceType : Option String
  osFamily : Option String
  osVersion : Option String
  vendor : Option String
  firstSeen : Int
  lastSeen : Int
  status : Option String
  riskScore : Option Int
  tenantId : Option String
  deriving DecidableEq

/-- A row of `device_properties`. -/
structure Property where
  deviceId : String
  category : String
  key : String
  value : Option String
  source : String
  updatedAt : Int
  deriving DecidableEq

/-- A row of `events`. -/
structure EventRow where
  eventType : String
  severity : String
  deviceId : String
  source : String
  message : String
  details : String
  timestamp : Int
  deriving DecidableEq

/-- The tables; of the tenants, the id of each name. -/
structure Tables where
  tenants : Dict String
  devices : List Device
  properties : List Property
  events : List EventRow

/-- The interpreter, the driver and the database. -/
structure Env where
  builtins : Builtins
  /-- The driver binds the parameters of the statement, and the database takes it. -/
  prepares : String → Bool
  /-- A text as MACADDR, in its output form. -/
  macaddr : String → Option String
  /-- A text as INET, in its output form. -/
  inet : String → Option String
  /-- A text as JSONB, in its output form. -/
  jsonb : String → Option String
  /-- `gen_random_uuid()`, given the ids there are. -/
  genRandomUuid : List String → String
  macaddr_lower : ∀ s, macaddr (builtins.lower s) = macaddr s
  macaddr_empty : macaddr "" = none
  genRandomUuid_notMem : ∀ ids, genRandomUuid ids ∉ ids

/-- What a statement needs to go on. -/
def checked {α : Type} : Option α → Except PyErr α
  | some a => .ok a
  | none => .error (.other "DBAPIError")

def Env.prepared {α : Type} (env : Env) (sql : String) (x : Option α) : Option α :=
  if env.prepares sql = true then x else none

/-- A text or `None` as a column that takes texts; the driver takes nothing else. -/
def nullable (column : Option String → Option (Option String)) : PyVal → Option (Option String)
  | .none => column none
  | .str s => column (some s)
  | _ => none

/-! ## Devices -/

/-- The columns that an event may give. -/
inductive Column
  | ipAddress
  | hostname
  | vendor
  | osFamily
  | osVersion
  | deviceType

def Column.field : Column → String
  | .ipAddress => "ip_address"
  | .hostname => "hostname"
  | .vendor => "vendor"
  | .osFamily => "os_family"
  | .osVersion => "os_version"
  | .deviceType => "device_type"

def Device.column : Column → Device → Option String
  | .ipAddress => Device.ipAddress
  | .hostname => Device.hostname
  | .vendor => Device.vendor
  | .osFamily => Device.osFamily
  | .osVersion => Device.osVersion
  | .deviceType => Device.deviceType

def Env.inetColumn (env : Env) : Option String → Option (Option String)
  | none => some none
  | some s => (env.inet s).map some

/-- What a column makes of a text. -/
def Env.takes (env : Env) : Column → Option String → Option (Option String)
  | .ipAddress => env.inetColumn
  | .hostname => varcharColumn 255
  | .vendor => varcharColumn 100
  | .osFamily => varcharColumn 50
  | .osVersion => varcharColumn 100
  | .deviceType => varcharColumn 100

/-- `UNIQUE(mac_address, tenant_id)` and `DO UPDATE SET ...` of the devices. -/
def deviceRule : Rule Device (String × String) where
  key d := d.tenantId.map fun tenant => (d.macAddress, tenant)
  merge excluded device :=
    { device with
      ipAddress := excluded.ipAddress.or device.ipAddress
      hostname := excluded.hostname.or device.hostname
      vendor := excluded.vendor.or device.vendor
      osFamily := excluded.osFamily.or device.osFamily
      osVersion := excluded.osVersion.or device.osVersion
      deviceType := excluded.deviceType.or device.deviceType
      lastSeen := excluded.lastSeen }
  key_merge _ _ := rfl

theorem column_merge (c : Column) (excluded device : Device) :
    (deviceRule.merge excluded device).column c = (excluded.column c).or (device.column c) := by
  cases c <;> rfl

/-- The parameters of the first statement. -/
structure DeviceParams where
  mac : String
  ip : PyVal
  hostname : PyVal
  vendor : PyVal
  osFamily : PyVal
  osVersion : PyVal
  deviceType : PyVal

def DeviceParams.value (params : DeviceParams) : Column → PyVal
  | .ipAddress => params.ip
  | .hostname => params.hostname
  | .vendor => params.vendor
  | .osFamily => params.osFamily
  | .osVersion => params.osVersion
  | .deviceType => params.deviceType

def Tables.ids (tables : Tables) : List String :=
  tables.devices.map Device.id ++ tables.properties.map Property.deviceId

/-- The row of the INSERT, with the defaults of the table. -/
def deviceRow (env : Env) (now : Int) (params : DeviceParams) (tables : Tables) : Option Device := do
  let mac ← env.macaddr params.mac
  let ip ← nullable (env.takes .ipAddress) params.ip
  let hostname ← nullable (env.takes .hostname) params.hostname
  let vendor ← nullable (env.takes .vendor) params.vendor
  let osFamily ← nullable (env.takes .osFamily) params.osFamily
  let osVersion ← nullable (env.takes .osVersion) params.osVersion
  let deviceType ← nullable (env.takes .deviceType) params.deviceType
  return {
    id := env.genRandomUuid tables.ids
    macAddress := mac
    ipAddress := ip
    hostname := hostname
    deviceType := deviceType
    osFamily := osFamily
    osVersion := osVersion
    vendor := vendor
    firstSeen := now
    lastSeen := now
    status := some "discovered"
    riskScore := some 0
    tenantId := tables.tenants.get? "default" }

def upsertDeviceSql : String :=
  "INSERT INTO devices (mac_address, ip_address, hostname, vendor, " ++
  "os_family, os_version, device_type, tenant_id) " ++
  "VALUES (:mac, :ip, :hostname, :vendor, :os_family, :os_version, " ++
  ":device_type, (SELECT id FROM tenants WHERE name = 'default')) " ++
  "ON CONFLICT (mac_address, tenant_id) DO UPDATE SET " ++
  "ip_address = COALESCE(EXCLUDED.ip_address, devices.ip_address), " ++
  "hostname = COALESCE(EXCLUDED.hostname, devices.hostname), " ++
  "vendor = COALESCE(EXCLUDED.vendor, devices.vendor), " ++
  "os_family = COALESCE(EXCLUDED.os_family, devices.os_family), " ++
  "os_version = COALESCE(EXCLUDED.os_version, devices.os_version), " ++
  "device_type = COALESCE(EXCLUDED.device_type, devices.device_type), " ++
  "last_seen = NOW() " ++
  "RETURNING id"

def upsertDevice (env : Env) (now : Int) (params : DeviceParams) (tables : Tables) :
    Except PyErr (String × Tables) := do
  let row ← checked (env.prepared upsertDeviceSql (deviceRow env now params tables))
  let (stored, devices) := deviceRule.upsert row tables.devices
  return (stored.id, { tables with devices := devices })

/-! ## Properties -/

/-- `PRIMARY KEY (device_id, category, key)` and `DO UPDATE SET ...` of the properties. -/
def propertyRule : Rule Property (String × String × String) where
  key p := some (p.deviceId, p.category, p.key)
  merge excluded property := { property with value := excluded.value, updatedAt := excluded.updatedAt }
  key_merge _ _ := rfl

/-- The row of the INSERT; it refers to the device that was just stored. -/
def propertyRow (now : Int) (deviceId category key : String) (value source : PyVal) : Option Property := do
  let key ← (varcharColumn 255 (some key)).join
  let value ← nullable textColumn value
  let source ← (nullable (varcharColumn 50) source).join
  return ⟨deviceId, category, key, value, source, now⟩

def upsertSourceSql : String :=
  "INSERT INTO device_properties (device_id, category, key, value, source) " ++
  "VALUES (:device_id, 'discovery', 'last_source', :source, :source) " ++
  "ON CONFLICT (device_id, category, key) DO UPDATE SET " ++
  "value = EXCLUDED.value, updated_at = NOW()"

def upsertServiceSql : String :=
  "INSERT INTO device_properties (device_id, category, key, value, source) " ++
  "VALUES (:device_id, 'services', :key, :value, 'nmap') " ++
  "ON CONFLICT (device_id, category, key) DO UPDATE SET " ++
  "value = EXCLUDED.value, updated_at = NOW()"

def upsertProperty (env : Env) (sql : String) (row : Option Property) (tables : Tables) :
    Except PyErr Tables := do
  let row ← checked (env.prepared sql row)
  return { tables with properties := (propertyRule.upsert row tables.properties).2 }

/-! ## Events -/

def eventRow (env : Env) (now : Int) (deviceId source message details : String) : Option EventRow := do
  let source ← (varcharColumn 50 (some source)).join
  let message ← (textColumn (some message)).join
  let details ← env.jsonb details
  return ⟨"device_discovered", "info", deviceId, source, message, details, now⟩

def insertEventSql : String :=
  "INSERT INTO events (event_type, severity, device_id, source, message, details) " ++
  "VALUES ('device_discovered', 'info', :device_id, :source, :message, " ++
  ":details::jsonb)"

def insertEvent (env : Env) (row : Option EventRow) (tables : Tables) : Except PyErr Tables := do
  let row ← checked (env.prepared insertEventSql row)
  return { tables with events := tables.events ++ [row] }

/-! ## Statements that succeed -/

theorem checked_eq_ok {α : Type} {x : Option α} {a : α} : checked x = .ok a ↔ x = some a := by
  cases x with
  | none => simp [checked]
  | some b => simp [checked]

theorem prepared_eq_some {α : Type} {env : Env} {sql : String} {x : Option α} {a : α} :
    env.prepared sql x = some a ↔ env.prepares sql = true ∧ x = some a := by
  rw [Env.prepared]
  split <;> simp_all

theorem upsertDevice_eq_ok {env : Env} {now : Int} {params : DeviceParams} {tables after : Tables}
    {id : String} :
    upsertDevice env now params tables = .ok (id, after) ↔
      env.prepares upsertDeviceSql = true ∧ ∃ row, deviceRow env now params tables = some row ∧
        id = (deviceRule.upsert row tables.devices).1.id ∧
        after = { tables with devices := (deviceRule.upsert row tables.devices).2 } := by
  constructor
  · intro h
    obtain ⟨row, hRow, h⟩ := Except.ok_of_bind h
    obtain ⟨hPrepares, hRow⟩ := prepared_eq_some.mp (checked_eq_ok.mp hRow)
    cases h
    exact ⟨hPrepares, row, hRow, rfl, rfl⟩
  · rintro ⟨hPrepares, row, hRow, rfl, rfl⟩
    rw [upsertDevice, checked_eq_ok.mpr (prepared_eq_some.mpr ⟨hPrepares, hRow⟩)]
    rfl

theorem upsertProperty_eq_ok {env : Env} {sql : String} {x : Option Property} {tables after : Tables} :
    upsertProperty env sql x tables = .ok after ↔
      env.prepares sql = true ∧ ∃ row, x = some row ∧
        after = { tables with properties := (propertyRule.upsert row tables.properties).2 } := by
  constructor
  · intro h
    obtain ⟨row, hRow, h⟩ := Except.ok_of_bind h
    obtain ⟨hPrepares, hRow⟩ := prepared_eq_some.mp (checked_eq_ok.mp hRow)
    cases h
    exact ⟨hPrepares, row, hRow, rfl⟩
  · rintro ⟨hPrepares, row, hRow, rfl⟩
    rw [upsertProperty, checked_eq_ok.mpr (prepared_eq_some.mpr ⟨hPrepares, hRow⟩)]
    rfl

theorem insertEvent_eq_ok {env : Env} {x : Option EventRow} {tables after : Tables} :
    insertEvent env x tables = .ok after ↔
      env.prepares insertEventSql = true ∧ ∃ row, x = some row ∧
        after = { tables with events := tables.events ++ [row] } := by
  constructor
  · intro h
    obtain ⟨row, hRow, h⟩ := Except.ok_of_bind h
    obtain ⟨hPrepares, hRow⟩ := prepared_eq_some.mp (checked_eq_ok.mp hRow)
    cases h
    exact ⟨hPrepares, row, hRow, rfl⟩
  · rintro ⟨hPrepares, row, hRow, rfl⟩
    rw [insertEvent, checked_eq_ok.mpr (prepared_eq_some.mpr ⟨hPrepares, hRow⟩)]
    rfl

/-- A row has what its columns make of the parameters. -/
theorem deviceRow_eq_some {env : Env} {now : Int} {params : DeviceParams} {tables : Tables} {row : Device}
    (h : deviceRow env now params tables = some row) :
    env.macaddr params.mac = some row.macAddress ∧
      (∀ c, nullable (env.takes c) (params.value c) = some (row.column c)) ∧
      row.id = env.genRandomUuid tables.ids ∧ row.tenantId = tables.tenants.get? "default" := by
  simp only [deviceRow, bind, Option.bind_eq_some_iff, pure, Option.some.injEq] at h
  obtain ⟨mac, hMac, ip, hIp, hostname, hHostname, vendor, hVendor, osFamily, hFamily, osVersion,
    hVersion, deviceType, hType, rfl⟩ := h
  refine ⟨hMac, ?_, rfl, rfl⟩
  intro c
  cases c
  · exact hIp
  · exact hHostname
  · exact hVendor
  · exact hFamily
  · exact hVersion
  · exact hType

theorem exists_deviceRow {env : Env} {params : DeviceParams} {mac : String}
    (hMac : env.macaddr params.mac = some mac)
    (hColumns : ∀ c, ∃ v, nullable (env.takes c) (params.value c) = some v) (now : Int) (tables : Tables) :
    ∃ row, deviceRow env now params tables = some row := by
  obtain ⟨ip, hIp⟩ := hColumns .ipAddress
  obtain ⟨hostname, hHostname⟩ := hColumns .hostname
  obtain ⟨vendor, hVendor⟩ := hColumns .vendor
  obtain ⟨osFamily, hFamily⟩ := hColumns .osFamily
  obtain ⟨osVersion, hVersion⟩ := hColumns .osVersion
  obtain ⟨deviceType, hType⟩ := hColumns .deviceType
  simp only [DeviceParams.value] at hIp hHostname hVendor hFamily hVersion hType
  simp only [deviceRow, bind, Option.bind_eq_some_iff, pure, Option.some.injEq]
  exact ⟨_, mac, hMac, ip, hIp, hostname, hHostname, vendor, hVendor, osFamily, hFamily, osVersion,
    hVersion, deviceType, hType, rfl⟩

theorem propertyRow_eq_some {now : Int} {deviceId category key : String} {value source : PyVal}
    {row : Property} (h : propertyRow now deviceId category key value source = some row) :
    (varcharColumn 255 (some key)).join = some row.key ∧ nullable textColumn value = some row.value ∧
      (nullable (varcharColumn 50) source).join = some row.source ∧
      row.deviceId = deviceId ∧ row.category = category := by
  simp only [propertyRow, bind, Option.bind_eq_some_iff, pure, Option.some.injEq] at h
  obtain ⟨key', hKey, value', hValue, source', hSource, rfl⟩ := h
  exact ⟨hKey, hValue, hSource, rfl, rfl⟩

end OpenRadiusWeb.Inventory
