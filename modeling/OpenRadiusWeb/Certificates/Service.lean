import OpenRadiusWeb.Certificates.Rows

/-! # The certificates feature: use cases

The operations of the service as programs over the repository's commands. Every command of
an operation carries the turn of the renewal loop that issued it; outside the loop that is
turn zero.
-/

namespace OpenRadiusWeb.Certificates

/-- A use case over the commands. -/
abbrev UseCase := Program Command Command.Answer PyException

/-- An operation: its commands carry their turn. -/
abbrev Operation := Program (Nat × Command) (fun c => c.2.Answer) PyException

/-- Library functions the operations call. -/
structure Libraries where
  /-- Does `ipaddress.ip_address` accept the text? -/
  isIpAddress : String → Bool
  /-- `when.strftime('%Y%m%d')`. -/
  dateStamp : Timestamp → String
  /-- The text of the exception that a refused request raises. -/
  validationText : GenerateServerRequest → String

open Program (attempt)

def issue (c : Command) : UseCase c.Answer := Program.command c

/-- `lookup_active_ca`: the row's key is decrypted on the way out. -/
def lookupActiveCa (tenantId : String) : UseCase (Option CaMaterial) := do
  match ← issue (.selectActiveCa tenantId) with
  | none => return none
  | some row =>
    let keyPem ← issue (.decryptSecret row.keyPem)
    return some ⟨row.pemData, keyPem⟩

/-- `_insert` and `insert_cert`: the key is encrypted on the way in. -/
def insertCert (actor : Actor) (certType name certPem : String) (keyPem chainPem : Option String)
    (metadata : CertMetadata) (subjectAltNames : Option (List String)) (imported : Bool) :
    UseCase Certificate := do
  let keyPemEncrypted ← issue (.encryptSecret keyPem)
  issue (.insertCert ⟨certType, name, metadata, certPem, keyPemEncrypted, chainPem,
    subjectAltNames, imported, actor.tenantId⟩)

def generateCa (actor : Actor) (req : GenerateCARequest) : UseCase Certificate := do
  let (certPem, keyPem) ← issue (.generateCaKeypair req)
  let metadata ← issue (.parseCertMetadata certPem)
  issue (.writeCertFiles "ca" req.name certPem keyPem)
  let row ← insertCert actor "ca" req.name certPem (some keyPem) none metadata none false
  issue (.logAudit "create" row.id)
  return row

def noActiveCa : String := "No active CA certificate found. Generate or activate a CA first."

/-- The key pair, its metadata and its files: all that precedes the INSERT. -/
def makeServerCert (req : GenerateServerRequest) (ca : CaMaterial) :
    UseCase (String × String × CertMetadata) := do
  let (certPem, keyPem) ← issue (.generateServerKeypair req ca)
  let metadata ← issue (.parseCertMetadata certPem)
  issue (.writeCertFiles "server" req.name certPem keyPem)
  return (certPem, keyPem, metadata)

/-- `san_list or None`. -/
def sanList (req : GenerateServerRequest) : Option (List String) :=
  match req.sanDns ++ req.sanIps with
  | [] => none
  | names => some names

def generateServer (actor : Actor) (req : GenerateServerRequest) : UseCase Certificate := do
  match ← lookupActiveCa actor.tenantId with
  | none => .raise (validationError noActiveCa)
  | some ca =>
    let (certPem, keyPem, metadata) ← makeServerCert req ca
    let row ← insertCert actor "server" req.name certPem (some keyPem) none metadata
      (sanList req) false
    issue (.logAudit "create" row.id)
    return row

/-- `if req.key_pem:`. -/
def validateKey : Option String → UseCase Unit
  | none => return ()
  | some keyPem => if keyPem = "" then return () else issue (.validatePrivateKeyPem keyPem)

def importCert (actor : Actor) (req : ImportCertRequest) : UseCase Certificate := do
  let metadata ← issue (.parseCertMetadata req.certPem)
  validateKey req.keyPem
  let row ← insertCert actor req.certType req.name req.certPem req.keyPem req.chainPem metadata
    none true
  issue (.logAudit "create" row.id)
  return row

def activateCert (actor : Actor) (certId : String) : UseCase Certificate := do
  match ← issue (.lookupCertSummary actor.tenantId certId) with
  | none => .raise (notFoundError "Certificate" certId)
  | some summary =>
    issue (.deactivateCertsOfType actor.tenantId summary.certType)
    match ← issue (.setCertActive actor.tenantId certId) with
    | none => .raise (notFoundError "Certificate" certId)
    | some row =>
      issue (.logAudit "update" certId)
      issue (.publishFreeradiusApplyForCert certId summary.certType)
      return row

def deleteActive : String :=
  "Cannot delete an active certificate. " ++
    "Deactivate it first by activating another certificate."

def deleteCert (actor : Actor) (certId : String) : UseCase Unit := do
  match ← issue (.lookupCertSummary actor.tenantId certId) with
  | none => .raise (notFoundError "Certificate" certId)
  | some summary =>
    if summary.isActive then .raise (validationError deleteActive)
    else
      issue (.deleteCert actor.tenantId certId)
      issue (.logAudit "delete" certId)

/-! ## Automatic renewal -/

/-- The old names as GenerateServerRequest expects them: addresses apart from host names. -/
def splitSanDnsIps (lib : Libraries) : Option (List String) → List String × List String
  | none => ([], [])
  | some names =>
    (names.filter fun name => !lib.isIpAddress name, names.filter lib.isIpAddress)

/-- `<old_name>-renewed-YYYYMMDD`, cut to the width of the column. -/
def renewalName (lib : Libraries) (oldName : String) (now : Timestamp) : String :=
  let suffix := "-renewed-" ++ lib.dateStamp now
  String.ofList (oldName.toList.take (255 - suffix.length)) ++ suffix

def validityDays (old : Certificate) : Int :=
  match old.notBefore, old.notAfter with
  | some notBefore, some notAfter => max 1 (days (notAfter - notBefore))
  | _, _ => 730

/-- `x or default`. -/
def orDefault (x : Option String) (default : String) : String :=
  match x with
  | none => default
  | some text => if text = "" then default else text

def renewalRequest (lib : Libraries) (now : Timestamp) (old : Certificate) :
    GenerateServerRequest where
  name := renewalName lib old.name now
  commonName := orDefault old.commonName old.name
  sanDns := (splitSanDnsIps lib old.subjectAltNames).1
  sanIps := (splitSanDnsIps lib old.subjectAltNames).2
  validityDays := validityDays old
  keySize := match old.keySize with
    | none => 2048
    | some size => if size = 0 then 2048 else size

/-- The body of the loop, up to the entry in the summary. -/
def renewCert (lib : Libraries) (actor : Actor) (now : Timestamp) (old : Certificate) :
    UseCase String := do
  let req := renewalRequest lib now old
  if req.accepts then
    let row ← generateServer actor req
    let _ ← activateCert actor row.id
    return req.name
  else .raise (validationError (lib.validationText req))

structure RenewalSummary where
  checked : Nat
  renewed : List String
  errors : List String
  deriving DecidableEq

def renewalError (old : Certificate) (e : PyException) : String :=
  old.name ++ ": " ++ e.typeName ++ ": " ++ e.text

/-- The loop from the given turn on. -/
def renewCerts (lib : Libraries) (actor : Actor) (now : Timestamp) :
    Nat → List Certificate → RenewalSummary → Operation RenewalSummary
  | _, [], summary => return summary
  | turn, old :: rest, summary => do
    let outcome ← attempt (do
        let name ← (renewCert lib actor now old).tag turn
        return Except.ok name)
      fun e => return Except.error e
    match outcome with
    | .ok name =>
      renewCerts lib actor now (turn + 1) rest
        { summary with renewed := summary.renewed ++ [name] }
    | .error e =>
      renewCerts lib actor now (turn + 1) rest
        { summary with errors := summary.errors ++ [renewalError old e] }

/-- `sqlNow` is `NOW()`, read before the loop's own clock. -/
def autoRenewExpiringServerCerts (lib : Libraries) (actor : Actor) (sqlNow now : Timestamp)
    (thresholdDays : Int) : Operation RenewalSummary := do
  let candidates ← (issue (.listRenewableServerCertsWithin actor.tenantId
    (sqlNow + thresholdDays * (86400 * 1000000)))).tag 0
  renewCerts lib actor now 1 candidates ⟨candidates.length, [], []⟩

end OpenRadiusWeb.Certificates
