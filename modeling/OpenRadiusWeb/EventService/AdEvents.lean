import OpenRadiusWeb.Jsonb.Stored

/-! # Events of Active Directory

The collector maps the sub-status of an event, or its status if there is none, to a failure code and
writes it to the log entries whose user name is like that of the event, at the very time of the
event. The codes are compared as texts. Which entries are written, and with which code, is set
against the entries of that user around that time and the numbers of the codes.
-/

namespace OpenRadiusWeb.AdEvents

open OpenRadiusWeb.Policy (PyErr PyVal Builtins)

/-- `AD_EVENT_MAP`: for each kind of event its codes, with reason and description. -/
def adEventMap : Dict (Dict (String × String)) := [
  ("4625", [
    ("0xC0000064", "AD_MACHINE_NOT_FOUND", "User name does not exist"),
    ("0xC000006A", "AD_INVALID_CREDENTIALS", "Wrong password"),
    ("0xC000006D", "AD_INVALID_CREDENTIALS", "Bad username or authentication info"),
    ("0xC000006E", "AD_LOGON_HOURS", "Account logon time restriction violation"),
    ("0xC000006F", "AD_LOGON_WORKSTATION", "Logon from unauthorized workstation"),
    ("0xC0000070", "AD_LOGON_WORKSTATION", "Logon from unauthorized workstation"),
    ("0xC0000071", "AD_PASSWORD_EXPIRED", "Password has expired"),
    ("0xC0000072", "AD_ACCOUNT_DISABLED", "Account is disabled"),
    ("0xC000009A", "AD_ACCOUNT_DISABLED", "Insufficient system resources"),
    ("0xC0000193", "AD_ACCOUNT_EXPIRED", "Account has expired"),
    ("0xC0000224", "AD_PASSWORD_MUST_CHANGE", "Password must change at next logon"),
    ("0xC0000234", "AD_ACCOUNT_LOCKED", "Account is locked out"),
    ("0xC0000413", "AD_LOGON_HOURS", "Authentication firewall - logon hours")]),
  ("4771", [
    ("0x6", "AD_MACHINE_NOT_FOUND", "Client not found in Kerberos database"),
    ("0x12", "AD_ACCOUNT_DISABLED", "Client's credentials have been revoked"),
    ("0x17", "AD_PASSWORD_EXPIRED", "Password has expired"),
    ("0x18", "AD_INVALID_CREDENTIALS", "Pre-authentication information was invalid (wrong password)"),
    ("0x25", "AD_LOGON_HOURS", "Clock skew too great")]),
  ("4776", [
    ("0xC0000064", "AD_MACHINE_NOT_FOUND", "User name does not exist"),
    ("0xC000006A", "AD_INVALID_CREDENTIALS", "Wrong password"),
    ("0xC0000234", "AD_ACCOUNT_LOCKED", "Account locked out")])]

def logonTypes : List (Int × String) :=
  [(2, "Interactive (local console)"), (3, "Network (SMB, RADIUS, etc.)"), (4, "Batch"),
    (5, "Service"), (7, "Unlock"), (8, "NetworkCleartext (IIS basic auth)"),
    (9, "NewCredentials (RunAs /netonly)"), (10, "RemoteInteractive (RDP)"),
    (11, "CachedInteractive (cached domain credentials)")]

/-- An alert with the texts of its event. -/
structure Alert where
  timestamp : Option String
  system : Dict String
  eventdata : Dict String

/-- The columns of `radius_auth_log` that the statement reads or writes; times in microseconds. -/
structure LogEntry (Attrs : Type) where
  timestamp : Int
  authResult : String
  username : Option String
  adErrorCode : Option String
  adErrorMessage : Option String
  failureReason : Option String
  requestAttributes : Option Attrs

/-- The values that are bound to the statement. -/
structure Params where
  username : String
  adFailureCode : Option String
  adFailureReason : String
  enrichment : String
  tsStart : String
  tsEnd : String

structure Env (Attrs : Type) where
  builtins : Builtins
  /-- `int` of a text, if it is a number. -/
  int : String → Option Int
  /-- The lower case in which ILIKE compares. -/
  sqlLower : String → String
  /-- The driver binds the values to the statement, and the transaction commits. -/
  executes : Params → Bool
  /-- A text as a TIMESTAMPTZ, in microseconds. -/
  timestamptz : String → Option Int
  /-- A text as JSONB. -/
  jsonb : String → Option Attrs
  /-- The operator `||` of JSONB. -/
  concat : Attrs → Attrs → Attrs

structure Enrichment where
  adEventId : String
  adEventTimestamp : String
  adTargetUser : String
  adSourceIp : String
  adWorkstation : String
  adDcName : String
  adLogonType : Option String
  adStatusCode : String
  adSubStatus : String
  adFailureReason : String
  adFailureCode : Option String

def optStr : Option String → PyVal
  | none => .none
  | some s => .str s

/-- The dictionary that is published. -/
def Enrichment.toDict (e : Enrichment) : Dict PyVal := [
  ("ad_event_id", .str e.adEventId), ("ad_event_timestamp", .str e.adEventTimestamp),
  ("ad_target_user", .str e.adTargetUser), ("ad_source_ip", .str e.adSourceIp),
  ("ad_workstation", .str e.adWorkstation), ("ad_dc_name", .str e.adDcName),
  ("ad_logon_type", optStr e.adLogonType), ("ad_status_code", .str e.adStatusCode),
  ("ad_sub_status", .str e.adSubStatus), ("ad_failure_reason", .str e.adFailureReason),
  ("ad_failure_code", optStr e.adFailureCode)]

/-- What the statement leaves, and the entries that it has written. -/
structure Written (Attrs : Type) where
  table : List (LogEntry Attrs)
  updated : List (LogEntry Attrs)

structure Processed (Attrs : Type) where
  written : Written Attrs
  published : List (Dict PyVal)

namespace Alert

variable (alert : Alert)

def eventId : String := alert.system.getD "eventID" ""
def time : String := alert.timestamp.getD ""
def targetUser : String := alert.eventdata.getD "targetUserName" ""
def targetDomain : String := alert.eventdata.getD "targetDomainName" ""
def logonType : String := alert.eventdata.getD "logonType" ""
def statusCode : String := alert.eventdata.getD "status" ""
def subStatus : String := alert.eventdata.getD "subStatus" ""

def eventMap : Dict (String × String) := adEventMap.getD alert.eventId []

/-- `sub_status or status_code`. -/
def lookupCode : String := if alert.subStatus = "" then alert.statusCode else alert.subStatus

def mapped : Option (String × String) := alert.eventMap.get? alert.lookupCode

/-- `failure_desc or failure_reason_text`. -/
def failureReason : String :=
  match alert.mapped with
  | some (_, desc) => if desc = "" then alert.eventdata.getD "failureReason" "" else desc
  | none => alert.eventdata.getD "failureReason" ""

/-- The name by which the log is searched. -/
def searchedUser : String :=
  if alert.targetDomain = "" then alert.targetUser else alert.targetUser ++ "@" ++ alert.targetDomain

end Alert

section Functions

variable {Attrs : Type} (env : Env Attrs)

/-- A logon type that is no number raises. -/
def logonTypeName (logonType : String) : Except PyErr (Option String) :=
  if logonType = "" then .ok none
  else match env.int logonType with
    | none => .error .valueError
    | some n => .ok (some (((logonTypes.find? fun entry => entry.1 = n).map Prod.snd).getD logonType))

def enrichmentOf (alert : Alert) : Except PyErr Enrichment := do
  let logonType ← logonTypeName env alert.logonType
  return {
    adEventId := alert.eventId
    adEventTimestamp := alert.time
    adTargetUser := if alert.targetDomain = "" then alert.targetUser
      else alert.targetDomain ++ "\\" ++ alert.targetUser
    adSourceIp := alert.eventdata.getD "ipAddress" ""
    adWorkstation := alert.eventdata.getD "workstationName" ""
    adDcName := alert.system.getD "computer" ""
    adLogonType := logonType
    adStatusCode := alert.statusCode
    adSubStatus := alert.subStatus
    adFailureReason := alert.failureReason
    adFailureCode := alert.mapped.map Prod.fst }

/-- `f"%{username.split('@')[0]}%"`. -/
def userPattern (username : String) : String :=
  "%" ++ String.ofList (username.toList.takeWhile (· ≠ '@')) ++ "%"

def ilike (pattern s : String) : Bool := Text.like (env.sqlLower pattern).toList (env.sqlLower s).toList

/-- The `WHERE` clause. -/
def selected (params : Params) (start stop : Int) (entry : LogEntry Attrs) : Bool :=
  entry.username.any (ilike env params.username) && entry.authResult != "success" &&
    entry.adErrorCode.isNone && decide (start ≤ entry.timestamp) && decide (entry.timestamp ≤ stop)

def databaseError : PyErr := .other "DBAPIError"

/-- Assignment to a VARCHAR column: only blanks are cut off. -/
def varchar (n : Nat) (s : String) : Except PyErr String :=
  if (s.toList.drop n).all (· = ' ') then .ok (String.ofList (s.toList.take n))
  else .error databaseError

/-- The `SET` clause. -/
def enriched (params : Params) (reason : String) (added : Attrs) (entry : LogEntry Attrs) : LogEntry Attrs :=
  { entry with
    adErrorCode := params.adFailureCode.or entry.adErrorCode
    adErrorMessage := some reason
    failureReason := some reason
    requestAttributes := entry.requestAttributes.map fun attrs => env.concat attrs added }

def writeEntry (params : Params) (start stop : Int) (added : Attrs) (entry : LogEntry Attrs) :
    Except PyErr (LogEntry Attrs) :=
  if selected env params start stop entry then do
    let reason ← varchar 500 params.adFailureReason
    return enriched env params reason added entry
  else return entry

/-- The statement; one value that does not fit makes all of it fail. -/
def updateLog (params : Params) (start stop : Int) (added : Attrs) (table : List (LogEntry Attrs)) :
    Except PyErr (Written Attrs) := do
  let table' ← table.mapM (writeEntry env params start stop added)
  return ⟨table', table.filter (selected env params start stop)⟩

/-- What the database makes of a bound text. -/
def bound {α : Type} : Option α → Except PyErr α
  | none => .error databaseError
  | some a => .ok a

def paramsOf (username adTimestamp : String) (e : Enrichment) : Params where
  username := userPattern username
  adFailureCode := e.adFailureCode
  adFailureReason := e.adFailureReason
  enrichment := Jsonb.enrichmentText env.builtins e.toDict
  tsStart := adTimestamp
  tsEnd := adTimestamp

/-- `_enrich_radius_log`; nothing is written when the statement fails. -/
def enrichRadiusLog (table : List (LogEntry Attrs)) (username adTimestamp : String) (e : Enrichment) :
    Except PyErr (Written Attrs) := do
  let params := paramsOf env username adTimestamp e
  if env.executes params then
    let start ← bound (env.timestamptz params.tsStart)
    let stop ← bound (env.timestamptz params.tsEnd)
    let added ← bound (env.jsonb params.enrichment)
    updateLog env params start stop added table
  else .error databaseError

/-- The body of `_process_ad_event`. -/
def handleEvent (table : List (LogEntry Attrs)) (alert : Alert) : Except PyErr (Processed Attrs) := do
  let e ← enrichmentOf env alert
  if alert.targetUser = "" then return ⟨⟨table, []⟩, [e.toDict]⟩
  else
    let written ← enrichRadiusLog env table alert.searchedUser alert.time e
    return ⟨written, [e.toDict]⟩

/-- `_process_ad_event`: what raises is logged. -/
def processAdEvent (table : List (LogEntry Attrs)) (alert : Alert) : Processed Attrs :=
  (handleEvent env table alert).toOption.getD ⟨⟨table, []⟩, []⟩

end Functions

/-! ## The codes as numbers -/

def hexDigits (ds : List Char) : Option Nat :=
  ds.foldlM (fun n c => (Json.hexValue c).map fun d => 16 * n + d) 0

/-- The number of a code such as `0xC000006A`. -/
def hexNumber (code : String) : Option Nat :=
  match code.toList with
  | '0' :: x :: d :: ds => if x = 'x' ∨ x = 'X' then hexDigits (d :: ds) else none
  | _ => none

/-- The reason of the code with the same number. -/
def reasonOf (codes : Dict (String × String)) (code : String) : Option String :=
  (codes.find? fun entry => (hexNumber code).isSome && hexNumber entry.1 = hexNumber code).map fun entry => entry.2.1

/-- The reason of the sub-status if it is known, and of the status otherwise. -/
def classified (alert : Alert) : Option String :=
  (reasonOf alert.eventMap alert.subStatus).or (reasonOf alert.eventMap alert.statusCode)

/-- A user name without its domain, in any of its forms. -/
def bareName (s : String) : String :=
  if '\\' ∈ s.toList then String.ofList ((s.toList.dropWhile (· ≠ '\\')).drop 1)
  else if '@' ∈ s.toList then String.ofList ((s.toList.reverse.dropWhile (· ≠ '@')).drop 1).reverse
  else s

section Claim

variable {Attrs : Type} (env : Env Attrs) (alert : Alert)

def SameUser (entry : LogEntry Attrs) : Prop :=
  alert.targetUser ≠ "" ∧ ∃ name, entry.username = some name ∧
    env.sqlLower (bareName name) = env.sqlLower (bareName alert.targetUser)

/-- Within five seconds. -/
def Near (entry : LogEntry Attrs) : Prop :=
  ∃ t, env.timestamptz alert.time = some t ∧ |entry.timestamp - t| ≤ 5000000

/-- The entries that the event is about. -/
def Due (entry : LogEntry Attrs) : Prop :=
  entry.authResult = "reject" ∧ entry.adErrorCode = none ∧ SameUser env alert entry ∧ Near env alert entry

/-- The event has its code, and exactly the entries that it is about are written. -/
structure Enriches (table : List (LogEntry Attrs)) : Prop where
  code : ∃ e, enrichmentOf env alert = .ok e ∧ e.adFailureCode = classified alert
  written : ∀ entry, entry ∈ (processAdEvent env table alert).written.updated ↔
    entry ∈ table ∧ Due env alert entry
  frame : List.Forall₂ (fun entry entry' => ¬ Due env alert entry → entry' = entry) table
    (processAdEvent env table alert).written.table

/-- The codes that decide are spelled as in the table, and no unknown sub-status hides a known
status. -/
structure Spelled : Prop where
  sub : (reasonOf alert.eventMap alert.subStatus).isSome → (alert.eventMap.get? alert.subStatus).isSome
  status : alert.subStatus = "" → (reasonOf alert.eventMap alert.statusCode).isSome →
    (alert.eventMap.get? alert.statusCode).isSome
  hidden : alert.subStatus ≠ "" → reasonOf alert.eventMap alert.subStatus = none →
    reasonOf alert.eventMap alert.statusCode = none

/-- At the time of the event, with a name that is like that of the event. -/
def Found (entry : LogEntry Attrs) : Prop :=
  env.timestamptz alert.time = some entry.timestamp ∧
    ∃ name, entry.username = some name ∧ ilike env (userPattern alert.searchedUser) name = true

/-- An entry that is found and is open for a code. -/
def Hit (entry : LogEntry Attrs) : Prop :=
  Found env alert entry ∧ entry.authResult ≠ "success" ∧ entry.adErrorCode = none

/-- The statement succeeds on the table. -/
structure Runs (table : List (LogEntry Attrs)) : Prop where
  user : alert.targetUser ≠ ""
  values : ∃ e, enrichmentOf env alert = .ok e ∧
    env.executes (paramsOf env alert.searchedUser alert.time e) = true ∧
    (env.jsonb (Jsonb.enrichmentText env.builtins e.toDict)).isSome
  time : (env.timestamptz alert.time).isSome
  fits : (∃ entry ∈ table, Hit env alert entry) → ∃ reason, varchar 500 alert.failureReason = .ok reason

/-- Where the statement runs, the entries at the time of the event and with a name like it are those
of the user around that time. -/
inductive Apart (table : List (LogEntry Attrs)) : Prop
  | runs (h : Runs env alert table) (missed : ∀ entry ∈ table, Due env alert entry → Found env alert entry)
      (others : ∀ entry ∈ table, Hit env alert entry →
        entry.authResult = "reject" ∧ SameUser env alert entry) : Apart table
  | idle (h : ¬ Runs env alert table) (none : ∀ entry ∈ table, ¬ Due env alert entry) : Apart table

/-- The logon type can be read, the codes are spelled as in the table, and the entries are apart. -/
structure InScope (table : List (LogEntry Attrs)) : Prop where
  logon : alert.logonType = "" ∨ (env.int alert.logonType).isSome
  spelled : Spelled alert
  entries : Apart env alert table

end Claim

/-! ## The code of an event -/

theorem reasonOf_get? {codes : Dict (String × String)} (hCodes : codes ∈ adEventMap.map Prod.snd)
    {code : String} {entry : String × String} (h : codes.get? code = some entry) :
    reasonOf codes code = some entry.1 := by
  have hTable : ∀ codes ∈ adEventMap.map Prod.snd, ∀ item ∈ codes, reasonOf codes item.1 = some item.2.1 := by
    decide
  exact hTable codes hCodes (code, entry) (Dict.mem_of_get? h)

section Code

variable (alert : Alert)

theorem eventMap_mem : alert.eventMap = [] ∨ alert.eventMap ∈ adEventMap.map Prod.snd := by
  rw [Alert.eventMap, Dict.getD]
  cases h : adEventMap.get? alert.eventId with
  | none => exact .inl rfl
  | some codes => exact .inr (List.mem_map.mpr ⟨_, Dict.mem_of_get? h, rfl⟩)

theorem reason_eq_iff (code : String) :
    (alert.eventMap.get? code).map Prod.fst = reasonOf alert.eventMap code ↔
      ((reasonOf alert.eventMap code).isSome → (alert.eventMap.get? code).isSome) := by
  cases hGet : alert.eventMap.get? code with
  | none =>
    cases reasonOf alert.eventMap code <;> simp
  | some entry =>
    have hReason : reasonOf alert.eventMap code = some entry.1 := by
      obtain hEmpty | hMem := eventMap_mem alert
      · rw [hEmpty] at hGet
        cases hGet
      · exact reasonOf_get? hMem hGet
    simp [hReason]

theorem reasonOf_empty (codes : Dict (String × String)) : reasonOf codes "" = none := by
  have hNone : codes.find? (fun entry => (hexNumber "").isSome && hexNumber entry.1 = hexNumber "") = none := by
    rw [List.find?_eq_none]
    intro entry _ hTest
    cases hTest
  rw [reasonOf, hNone, Option.map_none]

theorem mapped_of_empty (h : alert.subStatus = "") :
    alert.mapped.map Prod.fst = classified alert ↔ Spelled alert := by
  have hClass : classified alert = reasonOf alert.eventMap alert.statusCode := by
    rw [classified, h, reasonOf_empty, Option.none_or]
  rw [Alert.mapped, Alert.lookupCode, if_pos h, hClass, reason_eq_iff]
  constructor
  · intro hStatus
    refine ⟨fun hSome => ?_, fun _ => hStatus, fun hSub => absurd h hSub⟩
    rw [h, reasonOf_empty] at hSome
    cases hSome
  · intro hSpelled
    exact hSpelled.status h

theorem mapped_of_sub (h : alert.subStatus ≠ "") :
    alert.mapped.map Prod.fst = classified alert ↔ Spelled alert := by
  rw [Alert.mapped, Alert.lookupCode, if_neg h, classified]
  cases hSub : reasonOf alert.eventMap alert.subStatus with
  | some reason =>
    rw [Option.some_or, ← hSub, reason_eq_iff]
    constructor
    · intro hStatus
      refine ⟨hStatus, fun hEmpty => absurd hEmpty h, fun _ hNone => ?_⟩
      rw [hSub] at hNone
      cases hNone
    · intro hSpelled
      exact hSpelled.sub
  | none =>
    have hUnknown : (alert.eventMap.get? alert.subStatus).map Prod.fst = none := by
      rw [← hSub, reason_eq_iff, hSub]
      intro hSome
      cases hSome
    rw [hUnknown, Option.none_or]
    constructor
    · intro hStatus
      refine ⟨fun hSome => ?_, fun hEmpty => absurd hEmpty h, fun _ _ => hStatus.symm⟩
      rw [hSub] at hSome
      cases hSome
    · intro hSpelled
      exact (hSpelled.hidden h hSub).symm

theorem mapped_iff : alert.mapped.map Prod.fst = classified alert ↔ Spelled alert := by
  by_cases h : alert.subStatus = ""
  · exact mapped_of_empty alert h
  · exact mapped_of_sub alert h

end Code

/-! ## What is written -/

section Run

variable {Attrs : Type} {env : Env Attrs} {alert : Alert} {table : List (LogEntry Attrs)}

theorem enrichmentOf_ok : (∃ e, enrichmentOf env alert = .ok e) ↔
    alert.logonType = "" ∨ (env.int alert.logonType).isSome := by
  rw [enrichmentOf, Except.exists_ok_bind_pure, logonTypeName]
  by_cases hEmpty : alert.logonType = ""
  · rw [if_pos hEmpty]
    exact ⟨fun _ => .inl hEmpty, fun _ => ⟨none, rfl⟩⟩
  · rw [if_neg hEmpty]
    cases hInt : env.int alert.logonType with
    | none => simp [hEmpty]
    | some n => simp

theorem enrichmentOf_fields {e : Enrichment} (h : enrichmentOf env alert = .ok e) :
    e.adFailureCode = alert.mapped.map Prod.fst ∧ e.adFailureReason = alert.failureReason := by
  obtain ⟨logonType, -, hRest⟩ := Except.ok_of_bind h
  cases hRest
  exact ⟨rfl, rfl⟩

theorem selected_iff {params : Params} {t : Int} (hTime : env.timestamptz alert.time = some t)
    (hParams : params.username = userPattern alert.searchedUser) (entry : LogEntry Attrs) :
    selected env params t t entry = true ↔ Hit env alert entry := by
  simp only [selected, Bool.and_eq_true, decide_eq_true_eq, bne_iff_ne, Option.isNone_iff_eq_none,
    Option.any_eq_true, hParams, Hit, Found, hTime, Option.some_inj]
  constructor
  · rintro ⟨⟨⟨⟨hName, hResult⟩, hCode⟩, hLow⟩, hHigh⟩
    exact ⟨⟨le_antisymm hLow hHigh, hName⟩, hResult, hCode⟩
  · rintro ⟨⟨rfl, hName⟩, hResult, hCode⟩
    exact ⟨⟨⟨⟨hName, hResult⟩, hCode⟩, le_rfl⟩, le_rfl⟩

theorem writeEntry_of_not {params : Params} {start stop : Int} {added : Attrs} {entry : LogEntry Attrs}
    (h : selected env params start stop entry = false) :
    writeEntry env params start stop added entry = .ok entry := by
  rw [writeEntry, h]
  rfl

theorem writeEntry_ok_iff {params : Params} {start stop : Int} {added : Attrs} {entry : LogEntry Attrs}
    (h : selected env params start stop entry = true) :
    (∃ entry', writeEntry env params start stop added entry = .ok entry') ↔
      ∃ reason, varchar 500 params.adFailureReason = .ok reason := by
  rw [writeEntry, if_pos h, Except.exists_ok_bind_pure]

/-- The statement writes the selected entries and leaves the others. -/
theorem updateLog_of_fits {params : Params} {start stop : Int} (added : Attrs)
    (h : (∃ entry ∈ table, selected env params start stop entry = true) →
      ∃ reason, varchar 500 params.adFailureReason = .ok reason) :
    ∃ table', updateLog env params start stop added table =
        .ok ⟨table', table.filter (selected env params start stop)⟩ ∧
      List.Forall₂ (fun entry entry' => selected env params start stop entry = false → entry' = entry)
        table table' := by
  have hWrites : ∀ entry ∈ table, writeEntry env params start stop added entry =
      .ok ((writeEntry env params start stop added entry).toOption.getD entry) := by
    intro entry hEntry
    have hOk : ∃ entry', writeEntry env params start stop added entry = .ok entry' := by
      cases hSelected : selected env params start stop entry with
      | false => exact ⟨entry, writeEntry_of_not hSelected⟩
      | true => exact (writeEntry_ok_iff hSelected).mpr (h ⟨entry, hEntry, hSelected⟩)
    obtain ⟨entry', hEntry'⟩ := hOk
    rw [hEntry']
    rfl
  refine ⟨_, by rw [updateLog, Except.mapM_ok hWrites]; rfl, ?_⟩
  rw [List.forall₂_map_right_iff, List.forall₂_same]
  intro entry _ hNot
  rw [writeEntry_of_not hNot]
  rfl

theorem fits_of_updateLog {params : Params} {start stop : Int} {added : Attrs} {written : Written Attrs}
    (h : updateLog env params start stop added table = .ok written) :
    (∃ entry ∈ table, selected env params start stop entry = true) →
      ∃ reason, varchar 500 params.adFailureReason = .ok reason := by
  rintro ⟨entry, hEntry, hSelected⟩
  obtain ⟨table', hTable, -⟩ := Except.ok_of_bind h
  exact (writeEntry_ok_iff hSelected).mp (Except.ok_of_mapM hTable entry hEntry)

theorem ok_of_bound {α : Type} {x : Option α} {a : α} (h : bound x = .ok a) : x = some a := by
  cases x with
  | none => cases h
  | some b => exact congrArg some (Except.ok.inj h)

/-- Where the statement runs, the entries that are hit are written and the others are left. -/
theorem processAdEvent_of_runs (h : Runs env alert table) :
    (∀ entry, entry ∈ (processAdEvent env table alert).written.updated ↔
        entry ∈ table ∧ Hit env alert entry) ∧
      List.Forall₂ (fun entry entry' => ¬ Hit env alert entry → entry' = entry) table
        (processAdEvent env table alert).written.table := by
  obtain ⟨e, hEnrichment, hExecutes, hJson⟩ := h.values
  obtain ⟨t, hTime⟩ := Option.isSome_iff_exists.mp h.time
  obtain ⟨added, hAdded⟩ := Option.isSome_iff_exists.mp hJson
  have hSelected : ∀ entry : LogEntry Attrs,
      selected env (paramsOf env alert.searchedUser alert.time e) t t entry = true ↔ Hit env alert entry :=
    selected_iff hTime rfl
  have hReason : (paramsOf env alert.searchedUser alert.time e).adFailureReason = alert.failureReason :=
    (enrichmentOf_fields hEnrichment).2
  have hFits : (∃ entry ∈ table, selected env (paramsOf env alert.searchedUser alert.time e) t t entry = true) →
      ∃ reason, varchar 500 (paramsOf env alert.searchedUser alert.time e).adFailureReason = .ok reason := by
    rintro ⟨entry, hEntry, hHit⟩
    rw [hReason]
    exact h.fits ⟨entry, hEntry, (hSelected entry).mp hHit⟩
  obtain ⟨table', hUpdate, hFrame⟩ := updateLog_of_fits added hFits
  have hProcess : processAdEvent env table alert =
      ⟨⟨table', table.filter (selected env (paramsOf env alert.searchedUser alert.time e) t t)⟩, [e.toDict]⟩ := by
    have hStart : bound (env.timestamptz (paramsOf env alert.searchedUser alert.time e).tsStart) = .ok t :=
      congrArg bound hTime
    have hStop : bound (env.timestamptz (paramsOf env alert.searchedUser alert.time e).tsEnd) = .ok t :=
      congrArg bound hTime
    have hText : bound (env.jsonb (paramsOf env alert.searchedUser alert.time e).enrichment) = .ok added :=
      congrArg bound hAdded
    have hLog : enrichRadiusLog env table alert.searchedUser alert.time e =
        .ok ⟨table', table.filter (selected env (paramsOf env alert.searchedUser alert.time e) t t)⟩ := by
      rw [enrichRadiusLog, if_pos hExecutes, hStart, hStop, hText]
      exact hUpdate
    have hEvent : handleEvent env table alert =
        .ok ⟨⟨table', table.filter (selected env (paramsOf env alert.searchedUser alert.time e) t t)⟩, [e.toDict]⟩ := by
      rw [handleEvent, hEnrichment]
      change (if alert.targetUser = "" then _ else _) = _
      rw [if_neg h.user, hLog]
      rfl
    rw [processAdEvent, hEvent]
    rfl
  rw [hProcess]
  constructor
  · intro entry
    rw [List.mem_filter, hSelected]
  · refine hFrame.imp fun entry entry' hKeeps hNot => hKeeps ?_
    rw [← Bool.not_eq_true, hSelected]
    exact hNot

/-- Where it does not, nothing is written. -/
theorem processAdEvent_of_idle (h : ¬ Runs env alert table) :
    (processAdEvent env table alert).written = ⟨table, []⟩ := by
  rw [processAdEvent]
  cases hEvent : handleEvent env table alert with
  | error e => rfl
  | ok processed =>
    obtain ⟨e, hEnrichment, hRest⟩ := Except.ok_of_bind hEvent
    by_cases hUser : alert.targetUser = ""
    · rw [if_pos hUser] at hRest
      cases hRest
      rfl
    · rw [if_neg hUser] at hRest
      obtain ⟨written, hLog, -⟩ := Except.ok_of_bind hRest
      refine absurd ?_ h
      rw [enrichRadiusLog] at hLog
      split at hLog
      · rename_i hExecutes
        obtain ⟨start, hStart, hLog⟩ := Except.ok_of_bind hLog
        obtain ⟨stop, hStop, hLog⟩ := Except.ok_of_bind hLog
        obtain ⟨added, hAdded, hLog⟩ := Except.ok_of_bind hLog
        have hTime : env.timestamptz alert.time = some start := ok_of_bound hStart
        have hSame : start = stop := Except.ok.inj (hStart.symm.trans hStop)
        have hText : env.jsonb (Jsonb.enrichmentText env.builtins e.toDict) = some added := ok_of_bound hAdded
        subst hSame
        refine ⟨hUser, ⟨e, hEnrichment, hExecutes, hText ▸ rfl⟩, hTime ▸ rfl, ?_⟩
        rintro ⟨entry, hEntry, hHit⟩
        have hFits := fits_of_updateLog hLog ⟨entry, hEntry, (selected_iff hTime rfl entry).mpr hHit⟩
        exact (enrichmentOf_fields hEnrichment).2 ▸ hFits
      · cases hLog

theorem due_iff_hit {entry : LogEntry Attrs} (hFound : Found env alert entry) :
    Due env alert entry ↔ Hit env alert entry ∧ entry.authResult = "reject" ∧ SameUser env alert entry := by
  constructor
  · rintro ⟨hReject, hCode, hUser, -⟩
    exact ⟨⟨hFound, by rw [hReject]; decide, hCode⟩, hReject, hUser⟩
  · rintro ⟨⟨-, -, hCode⟩, hReject, hUser⟩
    exact ⟨hReject, hCode, hUser, entry.timestamp, hFound.1, by simp⟩

/-- The entries that are written are those that the event is about exactly if they are apart. -/
theorem written_iff : ((∀ entry, entry ∈ (processAdEvent env table alert).written.updated ↔
      entry ∈ table ∧ Due env alert entry) ∧
    List.Forall₂ (fun entry entry' => ¬ Due env alert entry → entry' = entry) table
      (processAdEvent env table alert).written.table) ↔ Apart env alert table := by
  by_cases hRuns : Runs env alert table
  · obtain ⟨hUpdated, hFrame⟩ := processAdEvent_of_runs hRuns
    constructor
    · rintro ⟨hWritten, -⟩
      have hSame : ∀ entry ∈ table, Hit env alert entry ↔ Due env alert entry := by
        intro entry hEntry
        have hBoth := (hUpdated entry).symm.trans (hWritten entry)
        simpa only [hEntry, true_and] using hBoth
      refine .runs hRuns (fun entry hEntry hDue => ((hSame entry hEntry).mpr hDue).1) ?_
      intro entry hEntry hHit
      exact ((due_iff_hit hHit.1).mp ((hSame entry hEntry).mp hHit)).2
    · intro hApart
      cases hApart with
      | idle hNot => exact absurd hRuns hNot
      | runs _ hMissed hOthers =>
        have hSame : ∀ entry ∈ table, Hit env alert entry ↔ Due env alert entry := by
          intro entry hEntry
          constructor
          · intro hHit
            exact (due_iff_hit hHit.1).mpr ⟨hHit, hOthers entry hEntry hHit⟩
          · intro hDue
            exact ((due_iff_hit (hMissed entry hEntry hDue)).mp hDue).1
        constructor
        · intro entry
          rw [hUpdated]
          exact and_congr_right (hSame entry)
        · rw [List.forall₂_iff_get] at hFrame ⊢
          refine ⟨hFrame.1, fun i h₁ h₂ hNot => hFrame.2 i h₁ h₂ fun hHit => hNot ?_⟩
          exact (hSame _ (List.get_mem _ _)).mp hHit
  · rw [processAdEvent_of_idle hRuns]
    constructor
    · rintro ⟨hWritten, -⟩
      refine .idle hRuns fun entry hEntry hDue => ?_
      exact absurd ((hWritten entry).mpr ⟨hEntry, hDue⟩) List.not_mem_nil
    · intro hApart
      cases hApart with
      | runs hYes => exact absurd hYes hRuns
      | idle _ hNone =>
        refine ⟨fun entry => ?_, List.forall₂_same.mpr fun _ _ _ => rfl⟩
        constructor
        · intro hMem
          exact absurd hMem List.not_mem_nil
        · rintro ⟨hEntry, hDue⟩
          exact absurd hDue (hNone entry hEntry)

end Run

/-- An event gets its code and is written to the entries that it is about, and to no others, exactly
if it is in scope. -/
theorem enriches_iff {Attrs : Type} (env : Env Attrs) (alert : Alert) (table : List (LogEntry Attrs)) :
    Enriches env alert table ↔ InScope env alert table := by
  have hCode : (∃ e, enrichmentOf env alert = .ok e ∧ e.adFailureCode = classified alert) ↔
      (alert.logonType = "" ∨ (env.int alert.logonType).isSome) ∧ Spelled alert := by
    rw [← enrichmentOf_ok, ← mapped_iff]
    constructor
    · rintro ⟨e, hOk, hSame⟩
      exact ⟨⟨e, hOk⟩, (enrichmentOf_fields hOk).1 ▸ hSame⟩
    · rintro ⟨⟨e, hOk⟩, hSame⟩
      exact ⟨e, hOk, (enrichmentOf_fields hOk).1 ▸ hSame⟩
  constructor
  · rintro ⟨hEvent, hWritten, hFrame⟩
    obtain ⟨hLogon, hSpelled⟩ := hCode.mp hEvent
    exact ⟨hLogon, hSpelled, written_iff.mp ⟨hWritten, hFrame⟩⟩
  · rintro ⟨hLogon, hSpelled, hEntries⟩
    obtain ⟨hWritten, hFrame⟩ := written_iff.mpr hEntries
    exact ⟨hCode.mpr ⟨hLogon, hSpelled⟩, hWritten, hFrame⟩

/-- A failed logon with a wrong password, its code in lower case. -/
def wrongPassword : Alert where
  timestamp := some "2024-05-01T10:00:00.000+0000"
  system := [("eventID", "4625"), ("computer", "dc1.corp.local")]
  eventdata := [("targetUserName", "alice"), ("targetDomainName", "CORP"), ("logonType", "3"),
    ("status", "0xc000006d"), ("subStatus", "0xc000006a")]

/-- A code in lower case is not known. -/
theorem code_in_lower_case : ¬ ∀ (env : Env String) (alert : Alert) (table : List (LogEntry String)),
    Enriches env alert table := by
  intro h
  obtain ⟨e, hOk, hSame⟩ := (h ⟨Policy.plainBuiltins, Text.decimal, Policy.lowerAscii, fun _ => true,
    fun _ => some 0, some, fun _ added => added⟩ wrongPassword []).code
  rw [(enrichmentOf_fields hOk).1] at hSame
  exact absurd hSame (by decide)

end OpenRadiusWeb.AdEvents
