import OpenRadiusWeb.Lib.Sorting
import OpenRadiusWeb.Lib.Dict
import Mathlib.Data.Int.Order.Basic
import Mathlib.Data.String.Basic

/-! # The tables the configuration manager reads

Every call of the manager reads one database state. A query may fail instead of
returning rows, and the failing queries of a call are part of its input. Rows keep
the nullable columns of the schema, so a `SELECT *` always has every key.
-/

namespace OpenRadiusWeb.ConfigManager

open Sorting

/-- An exception, as `str(e)` prints it. -/
abbrev Exc : Type := String

/-- A row of `certificates`. -/
structure Certificate where
  certType : String
  name : String
  pemData : String
  keyPemEncrypted : Option String
  chainPem : Option String
  dhParamsPem : Option String
  isActive : Option Bool
  enabled : Option Bool
  deriving DecidableEq

/-- A row of `ldap_servers`. -/
structure LdapServer where
  name : String
  host : String
  port : Option Int
  bindDn : String
  bindPasswordEncrypted : String
  baseDn : String
  userSearchFilter : Option String
  userSearchBase : Option String
  groupSearchFilter : Option String
  groupSearchBase : Option String
  groupMembershipAttr : Option String
  useTls : Option Bool
  useStarttls : Option Bool
  tlsCaCert : Option String
  tlsRequireCert : Option String
  connectTimeoutSeconds : Option Int
  searchTimeoutSeconds : Option Int
  idleTimeoutSeconds : Option Int
  priority : Option Int
  enabled : Option Bool
  deriving DecidableEq

/-- A row of `radius_realms`. -/
structure Realm where
  name : String
  realmType : String
  stripUsername : Option Bool
  proxyHost : Option String
  proxyPort : Option Int
  proxySecretEncrypted : Option String
  proxyDeadTimeSeconds : Option Int
  priority : Option Int
  enabled : Option Bool
  deriving DecidableEq

/-- A row of `radius_nas_clients`. -/
structure NasClient where
  name : String
  ipAddress : String
  secretEncrypted : String
  shortname : Option String
  nasType : Option String
  description : Option String
  virtualServer : Option String
  enabled : Option Bool
  deriving DecidableEq

/-- A row of `system_settings`. -/
structure SystemSetting where
  category : String
  settingKey : String
  settingValue : Option String
  deriving DecidableEq

structure Database where
  certificates : List Certificate
  ldapServers : List LdapServer
  radiusRealms : List Realm
  radiusNasClients : List NasClient
  systemSettings : List SystemSetting

/-- The queries of one call, by the function that makes them. -/
inductive Query
  | hashCertificates | hashLdapServers
  | fileCertificates | fileLdapServers
  | eapCertificates | eapSettings
  | ldapServers | realms | proxyRealms | nasClients
  deriving DecidableEq

/-- A database state, the queries that fail on it and the text of `datetime.now`. -/
structure Reads where
  db : Database
  queryFails : Query → Option Exc
  now : String

namespace Reads

variable (r : Reads)

/-- `_fetch_all`. -/
def fetchAll {α : Type} (q : Query) (rows : List α) : Except Exc (List α) :=
  match r.queryFails q with
  | some e => .error e
  | none => .ok rows

/-- The rows `_load_active_certificates` selects. -/
def activeCertificates : List Certificate :=
  sortBy (fun c => toLex (c.certType, c.name))
    (r.db.certificates.filter fun c => c.isActive = some true ∧ c.enabled = some true)

/-- The rows `_load_ldap_servers` selects. -/
def enabledLdapServers : List LdapServer :=
  sortBy (fun s => toLex (nullsLast s.priority, s.name))
    (r.db.ldapServers.filter fun s => s.enabled = some true)

def loadActiveCertificates (q : Query) : Except Exc (List Certificate) :=
  r.fetchAll q r.activeCertificates

def loadLdapServers (q : Query) : Except Exc (List LdapServer) :=
  r.fetchAll q r.enabledLdapServers

def loadRealms (q : Query) : Except Exc (List Realm) :=
  r.fetchAll q <| sortBy (fun s => toLex (nullsLast s.priority, s.name))
    (r.db.radiusRealms.filter fun s => s.enabled = some true)

def loadNasClients (q : Query) : Except Exc (List NasClient) :=
  r.fetchAll q <| sortBy NasClient.name
    (r.db.radiusNasClients.filter fun s => s.enabled = some true)

/-- The rows as a dictionary; a key given twice keeps the last value. -/
def loadSystemSettings (q : Query) (category : String) : Except Exc (Dict (Option String)) := do
  let rows ← r.fetchAll q (r.db.systemSettings.filter fun s => s.category = category)
  return rows.foldl (fun d s => d.set s.settingKey s.settingValue) []

end Reads

end OpenRadiusWeb.ConfigManager
