import OpenRadiusWeb.Inventory.Tables

/-! # Discovered devices

`handle_device_discovered` stores the device of an event, where it was found and its services, and
logs the event, all in one transaction. What a sequence of events should leave of the devices is
the last value given for each column and each port, and the rest as it was.
-/

namespace OpenRadiusWeb.Inventory

open OpenRadiusWeb.Policy (PyErr PyVal Builtins)
open OpenRadiusWeb.Mab (textColumn varcharColumn)
open Upsert

/-! ## The handler -/

/-- `v.lower()`; only texts have the method. -/
def lowerOf (B : Builtins) : PyVal → Except PyErr String
  | .str s => .ok (B.lower s)
  | _ => .error .attributeError

def sourceOf (data : Dict PyVal) : PyVal := data.getD "source" (.str "unknown")

def deviceParams (mac : String) (data : Dict PyVal) : DeviceParams where
  mac := mac
  ip := data.getD "ip_address" .none
  hostname := data.getD "hostname" .none
  vendor := data.getD "vendor" .none
  osFamily := data.getD "os_family" .none
  osVersion := data.getD "os_version" .none
  deviceType := data.getD "device_type" .none

/-- The key and the value of a service. -/
def serviceText (B : Builtins) (svc : PyVal) : Except PyErr (String × String) := do
  let port ← svc.getAttr "port" (.int 0)
  let service ← svc.getAttr "service" (.str "")
  let version ← svc.getAttr "version" (.str "")
  return ("port_" ++ port.toStr B, Text.strip (service.toStr B ++ " " ++ version.toStr B))

def eventSource (B : Builtins) (source : PyVal) : String := "discovery." ++ source.toStr B

def eventMessage (B : Builtins) (mac : String) (source ip : PyVal) : String :=
  "Device " ++ mac ++ " discovered via " ++ source.toStr B ++
    (if ip.truthy = true then " at " ++ ip.toStr B else "")

def eventDetails (B : Builtins) (mac : String) (source ip : PyVal) : String :=
  "\x7b\"mac\": \"" ++ mac ++ "\", \"ip\": \"" ++ ip.toStr B ++ "\", \"source\": \"" ++ source.toStr B ++
    "\"\x7d"

section Handler

variable (env : Env)

def sourceRow (now : Int) (deviceId : String) (data : Dict PyVal) : Option Property :=
  propertyRow now deviceId "discovery" "last_source" (sourceOf data) (sourceOf data)

def serviceRow (now : Int) (deviceId : String) (service : String × String) : Option Property :=
  propertyRow now deviceId "services" service.1 (.str service.2) (.str "nmap")

/-- `for svc in services: ...`. -/
def storeServices (now : Int) (deviceId : String) : List PyVal → Tables → Except PyErr Tables
  | [], tables => return tables
  | svc :: services, tables => do
    let service ← serviceText env.builtins svc
    let tables ← upsertProperty env upsertServiceSql (serviceRow now deviceId service) tables
    storeServices now deviceId services tables

def loggedRow (now : Int) (deviceId mac : String) (data : Dict PyVal) : Option EventRow :=
  let ip := data.getD "ip_address" .none
  eventRow env now deviceId (eventSource env.builtins (sourceOf data))
    (eventMessage env.builtins mac (sourceOf data) ip) (eventDetails env.builtins mac (sourceOf data) ip)

/-- The statements of the session; they return the id of the device. -/
def record (now : Int) (mac : String) (data : Dict PyVal) (tables : Tables) :
    Except PyErr (String × Tables) := do
  let (deviceId, tables) ← upsertDevice env now (deviceParams mac data) tables
  let tables ← upsertProperty env upsertSourceSql (sourceRow now deviceId data) tables
  let services ← (data.getD "services" (.list [])).iter
  let tables ← storeServices env now deviceId services tables
  let tables ← insertEvent env (loggedRow env now deviceId mac data) tables
  return (deviceId, tables)

/-- What one delivery meets: the time, and whether the evaluation request is published. -/
structure Attempt where
  now : Int
  publish : Except PyErr Unit

/-- `handle_device_discovered`; the session commits, or rolls back what it did when it raises. -/
def handleDeviceDiscovered (attempt : Attempt) (data : Dict PyVal) (tables : Tables) :
    Except PyErr Unit × Tables :=
  let mac := data.getD "mac_address" .none
  if mac.truthy = false then (.ok (), tables)
  else
    match lowerOf env.builtins mac with
    | .error e => (.error e, tables)
    | .ok mac =>
      match record env attempt.now mac data tables with
      | .error e => (.error e, tables)
      | .ok (_, stored) => (attempt.publish, stored)

inductive Reply
  | ack
  | nak

/-- `_wrapper`: what the broker is told. -/
def wrapper (attempt : Attempt) (data : Dict PyVal) (tables : Tables) : Reply × Tables :=
  match handleDeviceDiscovered env attempt data tables with
  | (.ok _, tables) => (.ack, tables)
  | (.error _, tables) => (.nak, tables)

/-- An event and its deliveries: the first, and each again in its place. -/
structure Event where
  data : Dict PyVal
  first : Attempt
  again : List Attempt

def deliverAll (data : Dict PyVal) (attempts : List Attempt) (tables : Tables) : Tables :=
  attempts.foldl (fun tables attempt => (wrapper env attempt data tables).2) tables

def process (events : List Event) (tables : Tables) : Tables :=
  events.foldl (fun tables e => deliverAll env e.data (e.first :: e.again) tables) tables

end Handler

/-! ## What the events give -/

/-- The MAC of an event, in whatever spelling. -/
def Env.macOf (env : Env) (data : Dict PyVal) : Option String :=
  match data.getD "mac_address" .none with
  | .str s => env.macaddr s
  | _ => none

theorem Env.macOf_str {env : Env} {data : Dict PyVal} {s : String}
    (h : data.getD "mac_address" .none = .str s) : env.macOf data = env.macaddr s := by
  rw [Env.macOf, h]

/-- What an event gives for a column, as the column holds it. -/
def Env.given (env : Env) (c : Column) (data : Dict PyVal) : Option String :=
  (nullable (env.takes c) (data.getD c.field .none)).join

/-- The key and the value that a service gives, with the key as its column holds it. -/
def Env.serviceGiven (env : Env) (svc : PyVal) : Option (String × String) :=
  match serviceText env.builtins svc with
  | .ok service => (varcharColumn 255 (some service.1)).join.map fun key => (key, service.2)
  | .error _ => none

def Env.servicesGiven (env : Env) (data : Dict PyVal) : List (String × String) :=
  match (data.getD "services" (.list [])).iter with
  | .ok services => services.filterMap env.serviceGiven
  | .error _ => []

def valueAt (key : String) (service : String × String) : Option String :=
  if service.1 = key then some service.2 else none

def Env.eventsOf (env : Env) (m : String) (events : List (Dict PyVal)) : List (Dict PyVal) :=
  events.filter fun data => decide (env.macOf data = some m)

/-- The last value given for a column of the device. -/
def Env.lastColumn (env : Env) (c : Column) (m : String) (events : List (Dict PyVal)) : Option String :=
  lastGiven (env.given c) (env.eventsOf m events)

/-- The last value given for a port of the device. -/
def Env.lastService (env : Env) (key m : String) (events : List (Dict PyVal)) : Option String :=
  lastGiven (valueAt key) ((env.eventsOf m events).flatMap env.servicesGiven)

/-! ## What they should leave -/

/-- The rows of a MAC for the tenant. -/
def Tables.rows (tables : Tables) (tenant m : String) : List Device :=
  tables.devices.filter fun d => decide (deviceRule.key d = some (m, tenant))

def Tables.row (tables : Tables) (tenant m : String) : Option Device :=
  deviceRule.lookup (m, tenant) tables.devices

def Tables.property (tables : Tables) (deviceId category key : String) : Option (Option String) :=
  (propertyRule.lookup (deviceId, category, key) tables.properties).map Property.value

def Tables.propertiesOf (tables : Tables) (deviceId : String) : List Property :=
  tables.properties.filter fun p => decide (p.deviceId = deviceId)

/-- Is the row one of the tenant whose MAC some event has? -/
def Env.reported (env : Env) (tenant : String) (events : List (Dict PyVal)) (d : Device) : Bool :=
  decide (d.tenantId = some tenant) && events.any fun data => decide (env.macOf data = some d.macAddress)

/-- The tables after the events: one row for each MAC, with the last value given for each column and
each port, and everything else as it was before. -/
structure Recorded (env : Env) (tenant : String) (before : Tables) (events : List (Dict PyVal))
    (after : Tables) : Prop where
  one_row : ∀ m, (∃ data ∈ events, env.macOf data = some m) → ∃ d, after.rows tenant m = [d]
  column : ∀ m d c, after.row tenant m = some d →
    d.column c = (env.lastColumn c m events).or ((before.row tenant m).bind (Device.column c))
  service : ∀ m d key, after.row tenant m = some d →
    after.property d.id "services" key = ((env.lastService key m events).map some).or
      ((before.row tenant m).bind fun d => before.property d.id "services" key)
  kept : ∀ m old, before.row tenant m = some old → ∃ d, after.row tenant m = some d ∧
    d.id = old.id ∧ d.firstSeen = old.firstSeen ∧ d.status = old.status ∧ d.riskScore = old.riskScore
  others : after.devices.filter (fun d => !env.reported tenant events d) =
    before.devices.filter fun d => !env.reported tenant events d
  otherProperties : ∀ d ∈ before.devices, env.reported tenant events d = false →
    after.propertiesOf d.id = before.propertiesOf d.id

/-- The constraints of the tables. -/
structure WellFormed (tables : Tables) : Prop where
  ids : (tables.devices.map Device.id).Nodup
  devices : deviceRule.Unique tables.devices
  properties : propertyRule.Unique tables.properties

/-- What one event leaves when all of its statements succeed. -/
structure Stored (env : Env) (tenant m : String) (data : Dict PyVal) (tables : Tables) (row : Device)
    (new : List Property) (after : Tables) : Prop where
  key : deviceRule.key row = some (m, tenant)
  fresh : row.id ∉ tables.ids
  column : ∀ c, row.column c = env.given c data
  device : ∀ p ∈ new, p.deviceId = (deviceRule.upsert row tables.devices).1.id
  service : ∀ key, lastGiven (fun p : Property =>
      if propertyRule.key p = some ((deviceRule.upsert row tables.devices).1.id, "services", key) then
        some p.value else none) new =
    (lastGiven (valueAt key) (env.servicesGiven data)).map some
  tenants : after.tenants = tables.tenants
  devices : after.devices = (deviceRule.upsert row tables.devices).2
  properties : after.properties = propertyRule.upsertAll new tables.properties

/-! ## One event -/

section Step

variable {env : Env} {tenant m : String} {data : Dict PyVal} {tables after : Tables} {now : Int}
  {deviceId mac : String}

/-- The services that are stored are the services that the event gives. -/
theorem storeServices_eq_ok {services : List PyVal} :
    storeServices env now deviceId services tables = .ok after →
      (∀ svc ∈ services, env.prepares upsertServiceSql = true ∧ ∃ service,
        serviceText env.builtins svc = .ok service ∧ ∃ row, serviceRow now deviceId service = some row) ∧
      ∃ new : List Property,
        after = { tables with properties := propertyRule.upsertAll new tables.properties } ∧
        (∀ p ∈ new, p.deviceId = deviceId) ∧
        ∀ key, lastGiven (fun p : Property =>
            if propertyRule.key p = some (deviceId, "services", key) then some p.value else none) new =
          (lastGiven (valueAt key) (services.filterMap env.serviceGiven)).map some := by
  induction services generalizing tables with
  | nil =>
    intro h
    cases h
    exact ⟨List.forall_mem_nil _, [], rfl, List.forall_mem_nil _, fun key => rfl⟩
  | cons svc services ih =>
    intro h
    obtain ⟨service, hService, h⟩ := Except.ok_of_bind h
    obtain ⟨next, hStored, h⟩ := Except.ok_of_bind h
    obtain ⟨hPrepares, row, hRow, rfl⟩ := upsertProperty_eq_ok.mp hStored
    obtain ⟨hOthers, new, hAfter, hDevice, hGiven⟩ := ih h
    obtain ⟨hKey, hValue, -, hId, hCategory⟩ := propertyRow_eq_some hRow
    refine ⟨List.forall_mem_cons.mpr ⟨⟨hPrepares, service, hService, row, hRow⟩, hOthers⟩, row :: new,
      ?_, List.forall_mem_cons.mpr ⟨hId, hDevice⟩, ?_⟩
    · rw [hAfter, Rule.upsertAll_cons]
    · intro key
      have hServiceGiven : env.serviceGiven svc = some (row.key, service.2) := by
        rw [Env.serviceGiven, hService]
        simp only [hKey, Option.map_some]
      have hRowValue : row.value = some service.2 := by
        rw [nullable, textColumn] at hValue
        split at hValue
        · cases hValue
        · exact (Option.some.inj hValue).symm
      have hRowKey : propertyRule.key row = some (deviceId, "services", row.key) := by
        rw [← hId, ← hCategory]
        rfl
      rw [List.filterMap_cons_some hServiceGiven, lastGiven_cons, lastGiven_cons, hGiven, Option.map_or]
      congr 1
      rw [hRowKey, hRowValue, valueAt]
      by_cases hSame : row.key = key
      · rw [if_pos (by rw [hSame]), if_pos hSame]
        rfl
      · rw [if_neg (by simpa using hSame), if_neg hSame]
        rfl

theorem lookup_none_of_fresh {id category key : String} (h : id ∉ tables.ids) :
    propertyRule.lookup (id, category, key) tables.properties = none := by
  rw [Rule.lookup, List.find?_eq_none]
  intro p hMem hKey
  have hSame : some (p.deviceId, p.category, p.key) = some (id, category, key) := of_decide_eq_true hKey
  cases hSame
  exact h (List.mem_append_right _ (List.mem_map_of_mem hMem))

theorem value_deviceParams (mac : String) (data : Dict PyVal) (c : Column) :
    (deviceParams mac data).value c = data.getD c.field .none := by
  cases c <;> rfl

/-- When the statements succeed, they leave what the event gives. -/
theorem stored_of_record {r : String × Tables} (hTenant : tables.tenants.get? "default" = some tenant)
    (hMac : env.macaddr mac = some m) (h : record env now mac data tables = .ok r) :
    ∃ row new, Stored env tenant m data tables row new r.2 := by
  obtain ⟨⟨id, stored⟩, hDevice, h⟩ := Except.ok_of_bind h
  obtain ⟨-, row, hRow, hId, rfl⟩ := upsertDevice_eq_ok.mp hDevice
  obtain ⟨sourced, hSource, h⟩ := Except.ok_of_bind h
  obtain ⟨-, source, hSourceRow, rfl⟩ := upsertProperty_eq_ok.mp hSource
  obtain ⟨services, hIter, h⟩ := Except.ok_of_bind h
  obtain ⟨serviced, hServices, h⟩ := Except.ok_of_bind h
  obtain ⟨-, new, rfl, hNew, hGiven⟩ := storeServices_eq_ok hServices
  obtain ⟨logged, hLogged, h⟩ := Except.ok_of_bind h
  obtain ⟨-, event, -, rfl⟩ := insertEvent_eq_ok.mp hLogged
  cases h
  subst hId
  obtain ⟨hRowMac, hColumns, hFresh, hRowTenant⟩ := deviceRow_eq_some hRow
  obtain ⟨-, -, -, hSourceId, hSourceCategory⟩ := propertyRow_eq_some hSourceRow
  have hRowKey : deviceRule.key row = some (m, tenant) := by
    have hMacs : row.macAddress = m := Option.some.inj (hRowMac.symm.trans hMac)
    have hKey : deviceRule.key row = row.tenantId.map fun tenant => (row.macAddress, tenant) := rfl
    rw [hKey, hRowTenant, hTenant, hMacs]
    rfl
  refine ⟨row, source :: new, hRowKey, ?_, ?_, ?_, ?_, rfl, rfl, ?_⟩
  · rw [hFresh]
    exact env.genRandomUuid_notMem _
  · intro c
    rw [Env.given, ← value_deviceParams mac, hColumns c, Option.join_some]
  · exact List.forall_mem_cons.mpr ⟨hSourceId, hNew⟩
  · intro key
    have hOther : propertyRule.key source ≠
        some ((deviceRule.upsert row tables.devices).1.id, "services", key) := by
      intro hSame
      have hCategory : source.category = "services" := (Prod.mk.inj (Prod.mk.inj (Option.some.inj hSame)).2).1
      rw [hSourceCategory] at hCategory
      exact absurd hCategory (by decide)
    rw [lastGiven_cons, if_neg hOther, Option.or_none, hGiven, Env.servicesGiven, hIter]
  · rw [Rule.upsertAll_cons]

end Step

/-! ## What is refused -/

/-- The texts fit their columns and the statements are prepared. -/
structure Accepted (env : Env) (data : Dict PyVal) : Prop where
  prepared : env.prepares upsertDeviceSql = true ∧ env.prepares upsertSourceSql = true ∧
    env.prepares insertEventSql = true
  column : ∀ c, ∃ v, nullable (env.takes c) (data.getD c.field .none) = some v
  source : ∃ s, sourceOf data = .str s ∧ (varcharColumn 50 (some s)).isSome ∧
    (varcharColumn 50 (some (eventSource env.builtins (.str s)))).isSome
  services : ∃ services, (data.getD "services" (.list [])).iter = .ok services ∧
    ∀ svc ∈ services, env.prepares upsertServiceSql = true ∧ ∃ key value,
      serviceText env.builtins svc = .ok (key, value) ∧ (varcharColumn 255 (some key)).isSome ∧
      (textColumn (some value)).isSome
  logged : ∀ s, data.getD "mac_address" .none = .str s →
    (textColumn (some (eventMessage env.builtins (env.builtins.lower s) (sourceOf data)
      (data.getD "ip_address" .none)))).isSome ∧
    (env.jsonb (eventDetails env.builtins (env.builtins.lower s) (sourceOf data)
      (data.getD "ip_address" .none))).isSome

section Refused

variable {env : Env} {data : Dict PyVal} {tables : Tables} {m s : String}

theorem isSome_of_join {α : Type} {x : Option (Option α)} {a : α} (h : x.join = some a) : x.isSome := by
  cases x with
  | none => cases h
  | some y => rfl

theorem join_varchar {n : Nat} {s : String} (h : (varcharColumn n (some s)).isSome) :
    ∃ t, (varcharColumn n (some s)).join = some t := by
  rw [varcharColumn] at h ⊢
  split at h
  · cases h
  · split at h
    · rename_i hNull hFits
      rw [if_neg hNull, if_pos hFits]
      exact ⟨_, rfl⟩
    · cases h

theorem textColumn_eq {s : String} (h : (textColumn (some s)).isSome) :
    textColumn (some s) = some (some s) := by
  rw [textColumn] at h ⊢
  split at h
  · cases h
  · rename_i hNull
    rw [if_neg hNull]

theorem exists_serviceRow (now : Int) (id : String) {key value : String} :
    (∃ row, serviceRow now id (key, value) = some row) ↔
      (varcharColumn 255 (some key)).isSome ∧ (textColumn (some value)).isSome := by
  constructor
  · rintro ⟨row, hRow⟩
    obtain ⟨hKey, hValue, -⟩ := propertyRow_eq_some hRow
    exact ⟨isSome_of_join hKey, Option.isSome_of_eq_some hValue⟩
  · rintro ⟨hKey, hValue⟩
    obtain ⟨key', hKey'⟩ := join_varchar hKey
    have hSource : (nullable (varcharColumn 50) (.str "nmap")).join = some "nmap" := by decide
    refine ⟨⟨id, "services", key', some value, "nmap", now⟩, ?_⟩
    rw [serviceRow, propertyRow, hKey', hSource, nullable, textColumn_eq hValue]
    rfl

theorem textColumn_of_varchar {n : Nat} {s : String} (h : (varcharColumn n (some s)).isSome) :
    (textColumn (some s)).isSome := by
  rw [varcharColumn] at h
  rw [textColumn]
  split at h
  · cases h
  · rename_i hNull
    rw [if_neg hNull]
    rfl

/-- Where the device was found is stored when it is a text that fits. -/
theorem exists_sourceRow (now : Int) (id : String) :
    (∃ row, sourceRow now id data = some row) ↔
      ∃ s, sourceOf data = .str s ∧ (varcharColumn 50 (some s)).isSome := by
  have hKey : (varcharColumn 255 (some "last_source")).join = some "last_source" := by decide
  constructor
  · rintro ⟨row, hRow⟩
    obtain ⟨-, -, hSource, -⟩ := propertyRow_eq_some hRow
    cases hData : sourceOf data with
    | str s =>
      rw [hData] at hSource
      exact ⟨s, rfl, isSome_of_join hSource⟩
    | _ =>
      rw [hData] at hSource
      cases hSource
  · rintro ⟨s, hData, hFits⟩
    obtain ⟨t, hSource⟩ := join_varchar hFits
    refine ⟨⟨id, "discovery", "last_source", some s, t, now⟩, ?_⟩
    rw [sourceRow, propertyRow, hKey, hData, nullable, nullable, textColumn_eq (textColumn_of_varchar hFits),
      hSource]
    rfl

theorem exists_eventRow (now : Int) (id : String) {source message details : String} :
    (∃ row, eventRow env now id source message details = some row) ↔
      (varcharColumn 50 (some source)).isSome ∧ (textColumn (some message)).isSome ∧
        (env.jsonb details).isSome := by
  constructor
  · rintro ⟨row, hRow⟩
    simp only [eventRow, bind, Option.bind_eq_some_iff] at hRow
    obtain ⟨s, hSource, t, hMessage, d, hDetails, -⟩ := hRow
    exact ⟨isSome_of_join hSource, isSome_of_join hMessage, Option.isSome_of_eq_some hDetails⟩
  · rintro ⟨hSource, hMessage, hDetails⟩
    obtain ⟨s, hSource⟩ := join_varchar hSource
    obtain ⟨d, hDetails⟩ := Option.isSome_iff_exists.mp hDetails
    refine ⟨⟨"device_discovered", "info", id, s, message, d, now⟩, ?_⟩
    rw [eventRow, hSource, textColumn_eq hMessage, hDetails]
    rfl

theorem exists_storeServices (now : Int) (id : String) {services : List PyVal}
    (h : ∀ svc ∈ services, env.prepares upsertServiceSql = true ∧ ∃ key value,
      serviceText env.builtins svc = .ok (key, value) ∧ (varcharColumn 255 (some key)).isSome ∧
      (textColumn (some value)).isSome) (tables : Tables) :
    ∃ after, storeServices env now id services tables = .ok after := by
  induction services generalizing tables with
  | nil => exact ⟨tables, rfl⟩
  | cons svc services ih =>
    rw [List.forall_mem_cons] at h
    obtain ⟨⟨hPrepares, key, value, hText, hFits⟩, hRest⟩ := h
    obtain ⟨row, hRow⟩ := (exists_serviceRow now id).mpr hFits
    have hStored : upsertProperty env upsertServiceSql (serviceRow now id (key, value)) tables =
        .ok { tables with properties := (propertyRule.upsert row tables.properties).2 } :=
      upsertProperty_eq_ok.mpr ⟨hPrepares, row, hRow, rfl⟩
    rw [storeServices]
    exact Except.exists_ok_bind.mpr ⟨_, hText, Except.exists_ok_bind.mpr ⟨_, hStored, ih hRest _⟩⟩

/-- The statements succeed exactly for the events that are accepted. -/
theorem record_ok_iff (hData : data.getD "mac_address" .none = .str s) (hMac : env.macaddr s = some m)
    (now : Int) (tables : Tables) :
    (∃ r, record env now (env.builtins.lower s) data tables = .ok r) ↔ Accepted env data := by
  constructor
  · rintro ⟨r, h⟩
    obtain ⟨⟨id, stored⟩, hDevice, h⟩ := Except.ok_of_bind h
    obtain ⟨hPrepares, row, hRow, -, rfl⟩ := upsertDevice_eq_ok.mp hDevice
    obtain ⟨sourced, hSource, h⟩ := Except.ok_of_bind h
    obtain ⟨hPreparesSource, source, hSourceRow, rfl⟩ := upsertProperty_eq_ok.mp hSource
    obtain ⟨services, hIter, h⟩ := Except.ok_of_bind h
    obtain ⟨serviced, hServices, h⟩ := Except.ok_of_bind h
    obtain ⟨hEach, -⟩ := storeServices_eq_ok hServices
    obtain ⟨logged, hLogged, -⟩ := Except.ok_of_bind h
    obtain ⟨hPreparesEvent, event, hEvent, -⟩ := insertEvent_eq_ok.mp hLogged
    obtain ⟨hFits, hMessage, hDetails⟩ := (exists_eventRow _ _).mp ⟨event, hEvent⟩
    refine ⟨⟨hPrepares, hPreparesSource, hPreparesEvent⟩, ?_, ?_, ⟨services, hIter, ?_⟩, ?_⟩
    · intro c
      obtain ⟨-, hColumns, -⟩ := deviceRow_eq_some hRow
      exact ⟨_, value_deviceParams (env.builtins.lower s) data c ▸ hColumns c⟩
    · obtain ⟨t, hText, hSourceFits⟩ := (exists_sourceRow _ _).mp ⟨source, hSourceRow⟩
      exact ⟨t, hText, hSourceFits, hText ▸ hFits⟩
    · intro svc hMem
      obtain ⟨hPreparesService, ⟨key, value⟩, hText, hServiceRow⟩ := hEach svc hMem
      exact ⟨hPreparesService, key, value, hText, (exists_serviceRow _ _).mp hServiceRow⟩
    · intro s' hData'
      rw [hData] at hData'
      cases hData'
      exact ⟨hMessage, hDetails⟩
  · intro h
    obtain ⟨hPrepares, hPreparesSource, hPreparesEvent⟩ := h.prepared
    have hLower : env.macaddr (deviceParams (env.builtins.lower s) data).mac = some m :=
      (env.macaddr_lower s).trans hMac
    obtain ⟨row, hRow⟩ := exists_deviceRow hLower
      (fun c => (value_deviceParams (env.builtins.lower s) data c).symm ▸ h.column c) now tables
    obtain ⟨t, hText, hSourceFits, hEventFits⟩ := h.source
    obtain ⟨services, hIter, hEach⟩ := h.services
    obtain ⟨hMessage, hDetails⟩ := h.logged s hData
    rw [hText] at hMessage hDetails
    rw [record]
    refine Except.bind_succeeds ⟨_, upsertDevice_eq_ok.mpr ⟨hPrepares, row, hRow, rfl, rfl⟩⟩ ?_
    rintro ⟨id, stored⟩
    obtain ⟨source, hSourceRow⟩ := (exists_sourceRow now id).mpr ⟨t, hText, hSourceFits⟩
    refine Except.bind_succeeds ⟨_, upsertProperty_eq_ok.mpr ⟨hPreparesSource, source, hSourceRow, rfl⟩⟩ ?_
    intro sourced
    rw [Except.exists_ok_bind]
    refine ⟨services, hIter, ?_⟩
    refine Except.bind_succeeds (exists_storeServices now id hEach sourced) ?_
    intro serviced
    obtain ⟨logged, hLogged⟩ := (exists_eventRow now id).mpr ⟨hEventFits, hMessage, hDetails⟩
    rw [← hText] at hLogged
    exact Except.bind_succeeds ⟨_, insertEvent_eq_ok.mpr ⟨hPreparesEvent, logged, hLogged, rfl⟩⟩
      fun after => ⟨_, rfl⟩

end Refused

end OpenRadiusWeb.Inventory
