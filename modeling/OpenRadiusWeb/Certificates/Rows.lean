import OpenRadiusWeb.Lib.Session
import OpenRadiusWeb.Lib.Sorting

/-! # The certificates feature: rows, requests and repository

The rows of `certificates` with the columns that the feature reads back, the request models,
and the repository: each of its atoms is a command, and `Command.statement` is the SQL it
sends. Keys, files, ciphers and NATS are calls to the outside.
-/

namespace OpenRadiusWeb.Certificates

/-- An exception, as `type(exc).__name__` and `str(exc)` show it. -/
structure PyException where
  typeName : String
  text : String
  deriving DecidableEq

def notFoundError (resource resourceId : String) : PyException :=
  ⟨"NotFoundError",
    if resourceId = "" then resource ++ " not found"
    else resource ++ " '" ++ resourceId ++ "' not found"⟩

def validationError (message : String) : PyException := ⟨"ValidationError", message⟩

/-- A point in time, in microseconds. -/
abbrev Timestamp := Int

/-- `timedelta.days`. -/
def days (delta : Int) : Int := delta.fdiv (86400 * 1000000)

structure Certificate where
  id : String
  certType : String
  name : String
  commonName : Option String
  notBefore : Option Timestamp
  notAfter : Option Timestamp
  keySize : Option Int
  subjectAltNames : Option (List String)
  pemData : String
  keyPemEncrypted : Option String
  chainPem : Option String
  isActive : Bool
  imported : Bool
  enabled : Bool
  tenantId : String
  deriving DecidableEq

/-- What `lookup_cert_summary` selects. -/
structure CertSummary where
  id : String
  certType : String
  name : String
  isActive : Bool
  deriving DecidableEq

def Certificate.summary (c : Certificate) : CertSummary := ⟨c.id, c.certType, c.name, c.isActive⟩

/-- What `lookup_active_ca` returns. -/
structure CaMaterial where
  pemData : String
  keyPem : Option String
  deriving DecidableEq

/-- What `parse_cert_metadata` returns, as far as it is stored and read back. -/
structure CertMetadata where
  commonName : Option String
  notBefore : Timestamp
  notAfter : Timestamp
  keySize : Option Int
  deriving DecidableEq

structure Actor where
  sub : String
  tenantId : String
  deriving DecidableEq

structure GenerateCARequest where
  name : String
  commonName : String
  validityDays : Int
  keySize : Int
  organization : Option String
  country : Option String
  deriving DecidableEq

structure GenerateServerRequest where
  name : String
  commonName : String
  sanDns : List String
  sanIps : List String
  validityDays : Int
  keySize : Int
  deriving DecidableEq

/-- The constraints of the model's fields. -/
@[irreducible] def GenerateServerRequest.accepts (req : GenerateServerRequest) : Bool :=
  decide (1 ≤ req.name.length) && decide (req.name.length ≤ 255) &&
  decide (1 ≤ req.commonName.length) && decide (req.commonName.length ≤ 255) &&
  decide (1 ≤ req.validityDays) && decide (req.validityDays ≤ 3650) &&
  decide (2048 ≤ req.keySize) && decide (req.keySize ≤ 8192)

structure ImportCertRequest where
  name : String
  certType : String
  certPem : String
  keyPem : Option String
  chainPem : Option String
  deriving DecidableEq

/-- The arguments of `insert_cert`; `keyPemEncrypted` is the ciphertext. -/
structure NewCert where
  certType : String
  name : String
  metadata : CertMetadata
  pemData : String
  keyPemEncrypted : Option String
  chainPem : Option String
  subjectAltNames : Option (List String)
  imported : Bool
  tenantId : String
  deriving DecidableEq

/-- A new row is inactive and enabled. -/
def NewCert.row (new : NewCert) (id : String) : Certificate where
  id := id
  certType := new.certType
  name := new.name
  commonName := new.metadata.commonName
  notBefore := some new.metadata.notBefore
  notAfter := some new.metadata.notAfter
  keySize := new.metadata.keySize
  subjectAltNames := new.subjectAltNames
  pemData := new.pemData
  keyPemEncrypted := new.keyPemEncrypted
  chainPem := new.chainPem
  isActive := false
  imported := new.imported
  enabled := true
  tenantId := new.tenantId

/-- `PRIMARY KEY (id)` and `UNIQUE(name, tenant_id)`. -/
def clashes (a b : Certificate) : Bool :=
  a.id == b.id || (a.name == b.name && a.tenantId == b.tenantId)

/-- Statements and calls to the outside. -/
inductive Command
  | listRenewableServerCertsWithin (tenantId : String) (horizon : Timestamp)
  | selectActiveCa (tenantId : String)
  | lookupCertSummary (tenantId certId : String)
  | insertCert (new : NewCert)
  | deactivateCertsOfType (tenantId certType : String)
  | setCertActive (tenantId certId : String)
  | deleteCert (tenantId certId : String)
  | logAudit (action resourceId : String)
  | generateCaKeypair (req : GenerateCARequest)
  | generateServerKeypair (req : GenerateServerRequest) (ca : CaMaterial)
  | parseCertMetadata (certPem : String)
  | validatePrivateKeyPem (keyPem : String)
  | writeCertFiles (subdir name certPem keyPem : String)
  | encryptSecret (plaintext : Option String)
  | decryptSecret (ciphertext : Option String)
  | publishFreeradiusApplyForCert (certId certType : String)
  deriving DecidableEq

abbrev Command.Answer : Command → Type
  | .listRenewableServerCertsWithin .. => List Certificate
  | .selectActiveCa _ => Option CaMaterial
  | .lookupCertSummary .. => Option CertSummary
  | .insertCert _ => Certificate
  | .deactivateCertsOfType .. => Unit
  | .setCertActive .. => Option Certificate
  | .deleteCert .. => Unit
  | .logAudit .. => Unit
  | .generateCaKeypair _ => String × String
  | .generateServerKeypair .. => String × String
  | .parseCertMetadata _ => CertMetadata
  | .validatePrivateKeyPem _ => Unit
  | .writeCertFiles .. => Unit
  | .encryptSecret _ => Option String
  | .decryptSecret _ => Option String
  | .publishFreeradiusApplyForCert .. => Unit

def Certificate.renewable (tenantId : String) (horizon : Timestamp) (c : Certificate) : Bool :=
  c.certType == "server" && c.isActive && c.enabled && !c.imported && c.tenantId == tenantId &&
    match c.notAfter with
    | some notAfter => decide (notAfter < horizon)
    | none => false

/-- `ORDER BY not_after`. -/
def byExpiry (rows : List Certificate) : List Certificate :=
  Sorting.sortBy (fun c => Sorting.nullsLast c.notAfter) rows

/-- `id = :id AND tenant_id = :tenant_id`. -/
def Certificate.isRow (tenantId certId : String) (c : Certificate) : Bool :=
  c.id == certId && c.tenantId == tenantId

def Certificate.ofType (tenantId certType : String) (c : Certificate) : Bool :=
  c.certType == certType && c.tenantId == tenantId

/-- The SQL of a command; nothing for a call to the outside. -/
def Command.statement : (c : Command) → Option (SqlAction Certificate c.Answer)
  | .listRenewableServerCertsWithin tenantId horizon =>
    some (.select (Certificate.renewable tenantId horizon) byExpiry)
  | .selectActiveCa tenantId =>
    some (.select (fun c => c.ofType tenantId "ca" && c.isActive) fun rows =>
      rows.head?.map fun c => ⟨c.pemData, c.keyPemEncrypted⟩)
  | .lookupCertSummary tenantId certId =>
    some (.select (Certificate.isRow tenantId certId) fun rows =>
      rows.head?.map Certificate.summary)
  | .insertCert new => some (.insert new.row id)
  | .deactivateCertsOfType tenantId certType =>
    some (.update (Certificate.ofType tenantId certType)
      (fun c => some { c with isActive := false }) fun _ => ())
  | .setCertActive tenantId certId =>
    some (.update (Certificate.isRow tenantId certId)
      (fun c => some { c with isActive := true }) List.head?)
  | .deleteCert tenantId certId =>
    some (.update (Certificate.isRow tenantId certId) (fun _ => none) fun _ => ())
  | .logAudit .. => some (.append ())
  | _ => none

end OpenRadiusWeb.Certificates
