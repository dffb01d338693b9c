import OpenRadiusWeb.Certificates.Rows

/-! # The radius_realms feature: rows, requests and repository

The rows of `radius_realms`, with the LDAP servers they refer to, the request models and the
repository. Every column may be null until the constraints of the table are checked.
-/

namespace OpenRadiusWeb.Realms

export OpenRadiusWeb.Certificates (PyException Actor notFoundError validationError)

/-- A row of `radius_realms`. -/
structure Realm where
  id : String
  name : Option String
  description : Option String
  realmType : Option String
  stripUsername : Option Bool
  proxyHost : Option String
  proxyPort : Option Int
  proxySecretEncrypted : Option String
  proxyNostrip : Option Bool
  proxyRetryCount : Option Int
  proxyRetryDelaySeconds : Option Int
  proxyDeadTimeSeconds : Option Int
  ldapServerId : Option String
  authTypesAllowed : Option (List String)
  defaultVlan : Option Int
  defaultFilterId : Option String
  fallbackRealmId : Option String
  priority : Option Int
  enabled : Option Bool
  tenantId : String
  deriving DecidableEq

/-- A row of `ldap_servers`, as far as realms refer to it. -/
structure LdapServer where
  id : String
  tenantId : String
  deriving DecidableEq

/-- A row of either table. -/
inductive Stored
  | realm (r : Realm)
  | ldapServer (s : LdapServer)
  deriving DecidableEq

/-- The body of POST /radius/realms. -/
structure RealmCreate where
  name : String
  description : Option String
  realmType : String
  stripUsername : Bool
  proxyHost : Option String
  proxyPort : Option Int
  proxySecret : Option String
  proxyNostrip : Bool
  proxyRetryCount : Int
  proxyRetryDelaySeconds : Int
  proxyDeadTimeSeconds : Int
  ldapServerId : Option String
  authTypesAllowed : List String
  defaultVlan : Option Int
  defaultFilterId : Option String
  fallbackRealmId : Option String
  priority : Int
  enabled : Bool
  deriving DecidableEq

/-- The body of PUT /radius/realms/{realm_id}: nothing is a field that was not sent. -/
structure RealmUpdate where
  name : Option (Option String) := none
  description : Option (Option String) := none
  realmType : Option (Option String) := none
  stripUsername : Option (Option Bool) := none
  proxyHost : Option (Option String) := none
  proxyPort : Option (Option Int) := none
  proxySecret : Option (Option String) := none
  proxyNostrip : Option (Option Bool) := none
  proxyRetryCount : Option (Option Int) := none
  proxyRetryDelaySeconds : Option (Option Int) := none
  proxyDeadTimeSeconds : Option (Option Int) := none
  ldapServerId : Option (Option String) := none
  authTypesAllowed : Option (Option (List String)) := none
  defaultVlan : Option (Option Int) := none
  defaultFilterId : Option (Option String) := none
  fallbackRealmId : Option (Option String) := none
  priority : Option (Option Int) := none
  enabled : Option (Option Bool) := none
  deriving DecidableEq

/-! ## The constraints of the models -/

/-- `Field(min_length=1, max_length=255)`. -/
def nameAccepted (name : String) : Bool := decide (1 ≤ name.length ∧ name.length ≤ 255)

/-- `Field(pattern=r"^(local|proxy|reject)$")`. -/
def realmTypeAccepted (realmType : String) : Bool := ["local", "proxy", "reject"].contains realmType

/-- `Field(ge=low, le=high)`. -/
def between (low high value : Int) : Bool := decide (low ≤ value ∧ value ≤ high)

def RealmCreate.accepts (fields : RealmCreate) : Bool :=
  nameAccepted fields.name && realmTypeAccepted fields.realmType &&
  fields.proxyPort.all (between 1 65535) && between 0 10 fields.proxyRetryCount &&
  between 1 30 fields.proxyRetryDelaySeconds && between 0 600 fields.proxyDeadTimeSeconds &&
  fields.defaultVlan.all (between 1 4094) && between 0 9999 fields.priority

/-- A constraint on a field that may be left out or null. -/
def sent {α : Type} (accepted : α → Bool) (field : Option (Option α)) : Bool := field.join.all accepted

def RealmUpdate.accepts (updates : RealmUpdate) : Bool :=
  sent nameAccepted updates.name && sent realmTypeAccepted updates.realmType &&
  sent (between 1 65535) updates.proxyPort && sent (between 0 10) updates.proxyRetryCount &&
  sent (between 1 30) updates.proxyRetryDelaySeconds &&
  sent (between 0 600) updates.proxyDeadTimeSeconds &&
  sent (between 1 4094) updates.defaultVlan && sent (between 0 9999) updates.priority

/-! ## What is written -/

/-- A text for a VARCHAR column: blanks beyond its width are cut off. -/
def varchar (width : Nat) (text : String) : String :=
  if (text.toList.drop width).all (· == ' ') then String.ofList (text.toList.take width) else text

/-- The row of an INSERT: the secret is encrypted, the references are keys. -/
def RealmCreate.row (fields : RealmCreate) (tenantId : String)
    (proxySecretEncrypted ldapServerId fallbackRealmId : Option String) (id : String) : Realm where
  id := id
  name := some (varchar 255 fields.name)
  description := fields.description
  realmType := some (varchar 20 fields.realmType)
  stripUsername := some fields.stripUsername
  proxyHost := fields.proxyHost.map (varchar 255)
  proxyPort := fields.proxyPort
  proxySecretEncrypted := proxySecretEncrypted
  proxyNostrip := some fields.proxyNostrip
  proxyRetryCount := some fields.proxyRetryCount
  proxyRetryDelaySeconds := some fields.proxyRetryDelaySeconds
  proxyDeadTimeSeconds := some fields.proxyDeadTimeSeconds
  ldapServerId := ldapServerId
  authTypesAllowed := some fields.authTypesAllowed
  defaultVlan := fields.defaultVlan
  defaultFilterId := fields.defaultFilterId.map (varchar 255)
  fallbackRealmId := fallbackRealmId
  priority := some fields.priority
  enabled := some fields.enabled
  tenantId := tenantId

/-- The SET clause of an UPDATE, whose `proxySecret` is the ciphertext. -/
def RealmUpdate.assign (updates : RealmUpdate) (r : Realm) : Realm where
  id := r.id
  name := (updates.name.map (Option.map (varchar 255))).getD r.name
  description := updates.description.getD r.description
  realmType := (updates.realmType.map (Option.map (varchar 20))).getD r.realmType
  stripUsername := updates.stripUsername.getD r.stripUsername
  proxyHost := (updates.proxyHost.map (Option.map (varchar 255))).getD r.proxyHost
  proxyPort := updates.proxyPort.getD r.proxyPort
  proxySecretEncrypted := updates.proxySecret.getD r.proxySecretEncrypted
  proxyNostrip := updates.proxyNostrip.getD r.proxyNostrip
  proxyRetryCount := updates.proxyRetryCount.getD r.proxyRetryCount
  proxyRetryDelaySeconds := updates.proxyRetryDelaySeconds.getD r.proxyRetryDelaySeconds
  proxyDeadTimeSeconds := updates.proxyDeadTimeSeconds.getD r.proxyDeadTimeSeconds
  ldapServerId := updates.ldapServerId.getD r.ldapServerId
  authTypesAllowed := updates.authTypesAllowed.getD r.authTypesAllowed
  defaultVlan := updates.defaultVlan.getD r.defaultVlan
  defaultFilterId := (updates.defaultFilterId.map (Option.map (varchar 255))).getD r.defaultFilterId
  fallbackRealmId := updates.fallbackRealmId.getD r.fallbackRealmId
  priority := updates.priority.getD r.priority
  enabled := updates.enabled.getD r.enabled
  tenantId := r.tenantId

namespace Stored

def asRealm : Stored → Option Realm
  | realm r => some r
  | ldapServer _ => none

/-- `id = :id AND tenant_id = :tenant_id` on `radius_realms`. -/
def isRealm (tenantId realmId : String) : Stored → Bool
  | realm r => r.id == realmId && r.tenantId == tenantId
  | ldapServer _ => false

/-- `id = :id AND tenant_id = :tenant_id` on `ldap_servers`. -/
def isLdapServer (tenantId ldapServerId : String) : Stored → Bool
  | realm _ => false
  | ldapServer s => s.id == ldapServerId && s.tenantId == tenantId

def fallsBackOn (realmId : String) : Stored → Bool
  | realm r => r.fallbackRealmId == some realmId
  | ldapServer _ => false

def ofTenant (tenantId : String) : Stored → Bool
  | realm r => r.tenantId == tenantId
  | ldapServer s => s.tenantId == tenantId

def mapRealm (f : Realm → Realm) : Stored → Stored
  | realm r => realm (f r)
  | ldapServer s => ldapServer s

/-- The primary keys and `UNIQUE(name, tenant_id)`. -/
def clashes : Stored → Stored → Bool
  | realm a, realm b => a.id == b.id || (a.name == b.name && a.tenantId == b.tenantId)
  | ldapServer a, ldapServer b => a.id == b.id
  | _, _ => false

end Stored

/-- The constraints on a row: NOT NULL, the widths of its columns, the foreign keys. -/
def Stored.admitted (rows : List Stored) : Stored → Bool
  | .ldapServer _ => true
  | .realm r =>
    r.name.any (·.length ≤ 255) && r.realmType.any (·.length ≤ 20) &&
    r.proxyHost.all (·.length ≤ 255) && r.defaultFilterId.all (·.length ≤ 255) &&
    r.ldapServerId.all (fun id => rows.any fun
      | .realm _ => false
      | .ldapServer s => s.id == id) &&
    r.fallbackRealmId.all (fun id => rows.any fun
      | .realm r' => r'.id == id
      | .ldapServer _ => false)

/-- Do the rows meet the constraints of their tables? -/
def constraintsHold (rows : List Stored) : Bool :=
  rows.all (Stored.admitted rows) && decide (rows.Pairwise fun a b => Stored.clashes a b = false)

/-- What `lookup_realm_summary` selects. -/
structure RealmSummary where
  id : String
  name : Option String
  realmType : Option String
  deriving DecidableEq

/-- What `lookup_proxy_state` selects. -/
structure ProxyState where
  proxyHost : Option String
  proxySecretEncrypted : Option String
  deriving DecidableEq

/-- Statements and calls to the outside. -/
inductive Command
  | lookupProxyState (tenantId realmId : String)
  | lookupRealmSummary (tenantId realmId : String)
  | ldapServerExists (tenantId ldapServerId : String)
  | realmExists (tenantId realmId : String)
  | countFallbackReferences (tenantId realmId : String)
  | insertRealm (tenantId : String) (fields : RealmCreate)
      (proxySecretEncrypted ldapServerId fallbackRealmId : Option String)
  | updateRealm (tenantId realmId : String) (updates : RealmUpdate)
  | deleteRealm (tenantId realmId : String)
  | logAudit (action resourceId : String)
  | encryptSecret (plaintext : Option String)
  | decryptSecret (ciphertext : Option String)
  | publishFreeradiusApply (reason realmId : String) (realmName : Option String)
  deriving DecidableEq

abbrev Command.Answer : Command → Type
  | .lookupProxyState .. => Option ProxyState
  | .lookupRealmSummary .. => Option RealmSummary
  | .ldapServerExists .. => Bool
  | .realmExists .. => Bool
  | .countFallbackReferences .. => Nat
  | .insertRealm .. => Option Realm
  | .updateRealm .. => Option Realm
  | .deleteRealm .. => Unit
  | .logAudit .. => Unit
  | .encryptSecret _ => Option String
  | .decryptSecret _ => Option String
  | .publishFreeradiusApply .. => Unit

def Realm.summary (r : Realm) : RealmSummary := ⟨r.id, r.name, r.realmType⟩

def Realm.proxyState (r : Realm) : ProxyState := ⟨r.proxyHost, r.proxySecretEncrypted⟩

/-- `ON DELETE SET NULL`. -/
def Realm.forget (realmId : String) (r : Realm) : Realm :=
  if r.fallbackRealmId = some realmId then { r with fallbackRealmId := none } else r

/-- The SQL of a command; nothing for a call to the outside. A row is deleted together with
the references to it, after the same transaction has looked it up. -/
def Command.statement : (c : Command) → Option (SqlAction Stored c.Answer)
  | .lookupProxyState tenantId realmId =>
    some (.select (Stored.isRealm tenantId realmId) fun rows =>
      (rows.head?.bind Stored.asRealm).map Realm.proxyState)
  | .lookupRealmSummary tenantId realmId =>
    some (.select (Stored.isRealm tenantId realmId) fun rows =>
      (rows.head?.bind Stored.asRealm).map Realm.summary)
  | .ldapServerExists tenantId ldapServerId =>
    some (.select (Stored.isLdapServer tenantId ldapServerId) fun rows => !rows.isEmpty)
  | .realmExists tenantId realmId =>
    some (.select (Stored.isRealm tenantId realmId) fun rows => !rows.isEmpty)
  | .countFallbackReferences tenantId realmId =>
    some (.select (fun row => row.fallsBackOn realmId && row.ofTenant tenantId) List.length)
  | .insertRealm tenantId fields proxySecretEncrypted ldapServerId fallbackRealmId =>
    some (.insert (fun id =>
      .realm (fields.row tenantId proxySecretEncrypted ldapServerId fallbackRealmId id))
      Stored.asRealm)
  | .updateRealm tenantId realmId updates =>
    some (.update (Stored.isRealm tenantId realmId)
      (fun row => some (row.mapRealm updates.assign)) fun rows => rows.head?.bind Stored.asRealm)
  | .deleteRealm tenantId realmId =>
    some (.update (fun row => row.isRealm tenantId realmId || row.fallsBackOn realmId)
      (fun row =>
        if row.isRealm tenantId realmId then none else some (row.mapRealm (Realm.forget realmId)))
      fun _ => ())
  | .logAudit .. => some (.append ())
  | _ => none

end OpenRadiusWeb.Realms
