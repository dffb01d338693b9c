import OpenRadiusWeb.Coa.SendPacket
import OpenRadiusWeb.Policy.Values

/-! # Active sessions and network devices

The tables the CoA service reads and the queries it makes. Every session is joined with
the network devices at its NAS address, so a session can come back more than once.
-/

namespace OpenRadiusWeb.Coa

open OpenRadiusWeb.Policy (PyVal Builtins)

/-- Functions the service takes from elsewhere. -/
structure Env where
  builtins : Builtins
  codecs : Codecs
  /-- `LOWER` in the database, which `ILIKE` uses too. -/
  sqlLower : String → String
  decryptSecret : String → Except Exc (Option String)

/-- A row of `radius_sessions`. -/
structure SessionRow where
  sessionId : String
  deviceId : Option String
  username : Option String
  callingStationId : Option String
  nasIp : Option String
  assignedVlan : Option Int
  status : String
  startedAt : Nat
  deriving DecidableEq

/-- A row of `network_devices`. -/
structure NetworkDeviceRow where
  ipAddress : String
  vendor : Option String
  coaSecretEncrypted : Option String

/-- `radius_sessions`, where the session id is unique. -/
structure SessionTable where
  rows : List SessionRow
  unique : (rows.map SessionRow.sessionId).Nodup

/-- The database as the service sees it, and the identifier counter of the manager. -/
structure World where
  identifier : Nat
  sessions : SessionTable
  devices : List NetworkDeviceRow

/-- A row of `radius_sessions LEFT JOIN network_devices`. -/
structure FoundSession where
  row : SessionRow
  vendor : Option String
  deriving DecidableEq

def World.joined (w : World) : List FoundSession :=
  w.sessions.rows.flatMap fun row =>
    match w.devices.filter fun d => row.nasIp = some d.ipAddress with
    | [] => [⟨row, none⟩]
    | ds => ds.map fun d => ⟨row, d.vendor⟩

def isActive (s : FoundSession) : Bool := s.row.status = "active"

/-- The `ORDER BY started_at DESC LIMIT 1` of the lookup by MAC. -/
def latest : List FoundSession → Option FoundSession
  | [] => none
  | s :: rest =>
    match latest rest with
    | none => some s
    | some t => if s.row.startedAt < t.row.startedAt then some t else some s

section Queries

variable (env : Env)

/-- The MAC of a request, cleaned. -/
def cleanMac (mac : String) : String :=
  env.builtins.lower (Text.removeChar '.' (Text.removeChar '-' (Text.removeChar ':' mac)))

/-- The MAC of a row, cleaned by the query; dots stay. -/
def cleanCallingStation (mac : String) : String :=
  Text.removeChar '-' (Text.removeChar ':' (env.sqlLower mac))

def findBySessionId (w : World) (sessionId : String) : Option FoundSession :=
  w.joined.find? fun s => s.row.sessionId = sessionId ∧ isActive s

def findByMac (w : World) (mac : String) : Option FoundSession :=
  latest (w.joined.filter fun s =>
    decide (s.row.callingStationId.map (cleanCallingStation env) = some (cleanMac env mac)) &&
      isActive s)

/-- `_find_active_session`; a bound parameter or a MAC that is no text raises. -/
def findActiveSession (w : World) (sessionId mac : PyVal) :
    Except Exc (Option FoundSession) :=
  if sessionId.truthy then
    match sessionId with
    | .str sid => .ok (findBySessionId w sid)
    | _ => .error "DataError"
  else if mac.truthy then
    match mac with
    | .str mac => .ok (findByMac env w mac)
    | _ => .error "AttributeError"
  else .ok none

/-- `_find_active_sessions_by_user`. -/
def findActiveSessionsByUser (w : World) (username : PyVal) : List FoundSession :=
  let pattern := env.sqlLower ("%" ++ username.toStr env.builtins ++ "%")
  w.joined.filter fun s =>
    (match s.row.username with
      | some name => Text.like pattern.toList (env.sqlLower name).toList
      | none => false) && isActive s

def defaultCoaSecret : String := "default_coa_secret"

/-- `_get_coa_secret`. -/
def getCoaSecret (w : World) (nasIp : Option String) : Except Exc String :=
  match w.devices.find? fun d => nasIp = some d.ipAddress with
  | none => .ok defaultCoaSecret
  | some d =>
    match d.coaSecretEncrypted with
    | none => .ok defaultCoaSecret
    | some encrypted =>
      if encrypted = "" then .ok defaultCoaSecret
      else do
        let secret ← env.decryptSecret encrypted
        return (orText secret (some defaultCoaSecret)).getD defaultCoaSecret

end Queries

/-! ## What the queries return -/

theorem mem_joined {w : World} {s : FoundSession} (h : s ∈ w.joined) : s.row ∈ w.sessions.rows := by
  obtain ⟨row, hRow, hs⟩ := List.mem_flatMap.mp h
  split at hs
  · rw [List.mem_singleton.mp hs]
    exact hRow
  · obtain ⟨d, -, rfl⟩ := List.mem_map.mp hs
    exact hRow

theorem latest_mem {ss : List FoundSession} {s : FoundSession} (h : latest ss = some s) :
    s ∈ ss := by
  induction ss with
  | nil => cases h
  | cons t rest ih =>
    rw [latest] at h
    cases hRest : latest rest with
    | none =>
      rw [hRest] at h
      cases h
      exact List.mem_cons_self
    | some u =>
      rw [hRest] at h
      dsimp only at h
      split at h
      · exact List.mem_cons_of_mem _ (ih (hRest.trans h))
      · cases h
        exact List.mem_cons_self

/-- A found session is an active row of the table. -/
theorem findActiveSession_active {env : Env} {w : World} {sessionId mac : PyVal}
    {s : FoundSession} (h : findActiveSession env w sessionId mac = .ok (some s)) :
    s.row ∈ w.sessions.rows ∧ s.row.status = "active" := by
  unfold findActiveSession at h
  split at h
  · split at h
    · have hFind := Except.ok.inj h
      have hActive := List.find?_some hFind
      simp only [isActive, decide_eq_true_eq] at hActive
      exact ⟨mem_joined (List.mem_of_find?_eq_some hFind), hActive.2⟩
    · cases h
  · split at h
    · split at h
      · have hMem := List.mem_filter.mp (latest_mem (Except.ok.inj h))
        simp only [isActive, Bool.and_eq_true, decide_eq_true_eq] at hMem
        exact ⟨mem_joined hMem.1, hMem.2.2⟩
      · cases h
    · cases h

theorem findActiveSessionsByUser_active {env : Env} {w : World} {username : PyVal}
    {s : FoundSession} (h : s ∈ findActiveSessionsByUser env w username) :
    s.row ∈ w.sessions.rows ∧ s.row.status = "active" := by
  have hMem := List.mem_filter.mp h
  simp only [isActive, Bool.and_eq_true, decide_eq_true_eq] at hMem
  exact ⟨mem_joined hMem.1, hMem.2.2⟩

end OpenRadiusWeb.Coa
