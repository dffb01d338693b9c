import OpenRadiusWeb.Realms.Rows

/-! # The radius_realms feature: use cases

The mutations of the service, as programs over the repository's commands.
-/

namespace OpenRadiusWeb.Realms

abbrev UseCase := Program Command Command.Answer PyException

/-- How the driver reads a parameter of type UUID. -/
structure UuidCodec where
  /-- The key that a text denotes. -/
  parse : String → Option String
  invalid : String → PyException
  parse_empty : parse "" = none

def issue (c : Command) : UseCase c.Answer := Program.command c

/-- `bool(x)`. -/
def truthy : Option String → Bool
  | none => false
  | some text => text != ""

/-- `x or y`. -/
def pyOr (x y : Option String) : Option String := if truthy x then x else y

variable (codec : UuidCodec)

def bindUuid (text : String) : UseCase String :=
  match codec.parse text with
  | some id => .ret id
  | none => .raise (codec.invalid text)

def bindOptionalUuid : Option String → UseCase (Option String)
  | none => return none
  | some text => do
    let id ← bindUuid codec text
    return some id

def conflictError (message : String) : PyException := ⟨"ConflictError", message⟩

def ldapServerNotFound : PyException := validationError "Referenced LDAP server not found"

def fallbackRealmNotFound : PyException := validationError "Referenced fallback realm not found"

/-- `raise` unless the query finds a row. -/
def require (found : Bool) (e : PyException) : UseCase Unit := if found then .ret () else .raise e

def validateLdapServerRef (actor : Actor) (ldapServerId : Option String) : UseCase Unit :=
  if truthy ldapServerId then do
    let id ← bindUuid codec (ldapServerId.getD "")
    let found ← issue (.ldapServerExists actor.tenantId id)
    require found ldapServerNotFound
  else return ()

def validateFallbackRealmRef (actor : Actor) (fallbackRealmId : Option String) : UseCase Unit :=
  if truthy fallbackRealmId then do
    let id ← bindUuid codec (fallbackRealmId.getD "")
    let found ← issue (.realmExists actor.tenantId id)
    require found fallbackRealmNotFound
  else return ()

/-- The check itself; nothing is wrong with a complete pair. -/
def proxyIncomplete (host secret : Option String) : Option PyException :=
  if !truthy host then some (validationError "proxy_host is required for proxy realm type")
  else if !truthy secret then some (validationError "proxy_secret is required for proxy realm type")
  else none

def validateProxyComplete (host secret : Option String) : UseCase Unit :=
  match proxyIncomplete host secret with
  | some e => .raise e
  | none => .ret ()

/-! ## Repository -/

/-- `lookup_proxy_state`: the secret is decrypted on the way out. -/
def lookupProxyState (actor : Actor) (realmId : String) : UseCase (Option ProxyState) := do
  match ← issue (.lookupProxyState actor.tenantId realmId) with
  | none => return none
  | some row =>
    let secret ← issue (.decryptSecret row.proxySecretEncrypted)
    return some ⟨row.proxyHost, secret⟩

def insertRealm (actor : Actor) (fields : RealmCreate) : UseCase Realm := do
  let secret ← issue (.encryptSecret fields.proxySecret)
  let ldapServerId ← bindOptionalUuid codec fields.ldapServerId
  let fallbackRealmId ← bindOptionalUuid codec fields.fallbackRealmId
  match ← issue (.insertRealm actor.tenantId fields secret ldapServerId fallbackRealmId) with
  | some row => return row
  | none => .raise ⟨"RuntimeError", "INSERT radius_realms RETURNING produced no row"⟩

/-- A field that may be left out. -/
def overSent {α β : Type} (f : α → UseCase β) : Option α → UseCase (Option β)
  | none => return none
  | some a => do
    let b ← f a
    return some b

/-- A secret that is not null is encrypted. -/
def encryptSent : Option String → UseCase (Option String)
  | none => return none
  | some secret => issue (.encryptSecret (some secret))

/-- Every field of the request is a column that may be updated. -/
def updateRow (actor : Actor) (realmId : String) (updates : RealmUpdate) :
    UseCase (Option Realm) := do
  let proxySecret ← overSent encryptSent updates.proxySecret
  let ldapServerId ← overSent (bindOptionalUuid codec) updates.ldapServerId
  let fallbackRealmId ← overSent (bindOptionalUuid codec) updates.fallbackRealmId
  issue (.updateRealm actor.tenantId realmId { updates with
    proxySecret := proxySecret
    ldapServerId := ldapServerId
    fallbackRealmId := fallbackRealmId })

/-! ## Mutations -/

def validateCreate (fields : RealmCreate) : UseCase Unit :=
  if fields.realmType = "proxy" then validateProxyComplete fields.proxyHost fields.proxySecret
  else return ()

def createRealm (actor : Actor) (fields : RealmCreate) : UseCase Realm := do
  validateCreate fields
  validateLdapServerRef codec actor fields.ldapServerId
  validateFallbackRealmRef codec actor fields.fallbackRealmId
  let row ← insertRealm codec actor fields
  issue (.logAudit "create" row.id)
  issue (.publishFreeradiusApply "realm_created" row.id (some fields.name))
  return row

/-- The check of an update that sets the type to proxy. -/
def validateProxyState (actor : Actor) (realmId : String) (updates : RealmUpdate) :
    UseCase Unit := do
  match ← lookupProxyState actor realmId with
  | none => .raise (notFoundError "RADIUS realm" realmId)
  | some existing =>
    validateProxyComplete (pyOr updates.proxyHost.join existing.proxyHost)
      (pyOr updates.proxySecret.join existing.proxySecretEncrypted)

def validateSwitch (actor : Actor) (realmId : String) (updates : RealmUpdate) : UseCase Unit :=
  if updates.realmType.join = some "proxy" then validateProxyState actor realmId updates
  else return ()

def validateLdapServerChange (actor : Actor) : Option (Option String) → UseCase Unit
  | none => return ()
  | some ldapServerId => validateLdapServerRef codec actor ldapServerId

def storeUpdate (actor : Actor) (realmId : String) (updates : RealmUpdate) : UseCase Realm := do
  match ← updateRow codec actor realmId updates with
  | none => .raise (notFoundError "RADIUS realm" realmId)
  | some row => return row

def updateRealm (actor : Actor) (realmId : String) (updates : RealmUpdate) : UseCase Realm := do
  if updates = {} then .raise (validationError "No fields to update")
  else
    validateSwitch actor realmId updates
    validateLdapServerChange codec actor updates.ldapServerId
    let row ← storeUpdate codec actor realmId updates
    issue (.logAudit "update" realmId)
    issue (.publishFreeradiusApply "realm_updated" realmId none)
    return row

def referencedAsFallback (count : Nat) : PyException :=
  conflictError ("Cannot delete: realm is referenced as fallback by " ++
    toString count ++ " other realm(s).")

def checkUnreferenced (actor : Actor) (realmId : String) : UseCase Unit := do
  let count ← issue (.countFallbackReferences actor.tenantId realmId)
  if 0 < count then .raise (referencedAsFallback count) else return ()

def deleteRealm (actor : Actor) (realmId : String) : UseCase Unit := do
  checkUnreferenced actor realmId
  match ← issue (.lookupRealmSummary actor.tenantId realmId) with
  | none => .raise (notFoundError "RADIUS realm" realmId)
  | some _ =>
    issue (.deleteRealm actor.tenantId realmId)
    issue (.logAudit "delete" realmId)
    issue (.publishFreeradiusApply "realm_deleted" realmId none)

/-- A request to one of the mutating routes. -/
inductive Request
  | create (actor : Actor) (fields : RealmCreate)
  | update (actor : Actor) (realmId : String) (updates : RealmUpdate)
  | delete (actor : Actor) (realmId : String)

/-- The body is one that its model accepts. -/
def Request.accepts : Request → Bool
  | .create _ fields => fields.accepts
  | .update _ _ updates => updates.accepts
  | .delete .. => true

def Request.program : Request → UseCase Unit
  | .create actor fields => do let _ ← createRealm codec actor fields
  | .update actor realmId updates => do let _ ← updateRealm codec actor realmId updates
  | .delete actor realmId => deleteRealm actor realmId

end OpenRadiusWeb.Realms
