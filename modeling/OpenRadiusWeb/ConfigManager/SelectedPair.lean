import OpenRadiusWeb.ConfigManager.StoredHash

/-! # The certificate the server is told to use

`generate_eap_config` takes the first active server certificate and the first active CA.
`write_cert_files` writes all of them to the same three files, so that the last one stays,
and a certificate without a key leaves the key of another one in place.
-/

namespace OpenRadiusWeb.ConfigManager

open Effects Paths
open Transcript (Entry transcript)

/-- One call of `write_cert_files`. -/
structure CertCall where
  reads : Reads
  makedirsFails : Option Exc
  outcomes : Nat → WriteOutcome

namespace Reads

variable (r : Reads)

/-- The server certificate of `generate_eap_config`. -/
def selectedServer : Option Certificate :=
  r.activeCertificates.find? fun c => c.certType = "server"

def selectedCa : Option Certificate := r.activeCertificates.find? fun c => c.certType = "ca"

/-- What the last row that writes a file puts into it. -/
def lastContent (content : Certificate → Option String) : Option ByteArray :=
  ((r.activeCertificates.filterMap content).getLast?).map String.toUTF8

end Reads

/-- The text, unless it is empty. -/
def nonEmpty (text : String) : Option String := if text = "" then none else some text

namespace Manager

variable (m : Manager)

def caPem : Path := resolve (join m.certDir "ca.pem")
def serverPem : Path := resolve (join m.certDir "server.pem")
def serverKey : Path := resolve (join m.certDir "server.key")

def keyText (cert : Certificate) : Option String :=
  match m.decryptSecret cert.keyPemEncrypted with
  | .error _ => none
  | .ok keyPem => nonEmpty (orEmpty keyPem)

def caContent (cert : Certificate) : Option String :=
  if cert.certType = "ca" then nonEmpty cert.pemData else none

def serverContent (cert : Certificate) : Option String :=
  if cert.certType = "server" then nonEmpty cert.pemData else none

def keyContent (cert : Certificate) : Option String :=
  if cert.certType = "server" ∧ cert.pemData ≠ "" then m.keyText cert else none

/-- The three files hold the certificates that `generate_eap_config` selects. -/
structure ServesSelected (r : Reads) (d : Disk) : Prop where
  ca : ∀ cert, r.selectedCa = some cert → d m.caPem = some cert.pemData.toUTF8
  server : ∀ cert, r.selectedServer = some cert →
    d m.serverPem = some cert.pemData.toUTF8 ∧
      d m.serverKey = (m.keyText cert).map String.toUTF8

/-- Where rows write one of the files, the last of them agrees with the selected one; where
none does, the file on disk is right. -/
structure LastIsSelected (r : Reads) (d : Disk) : Prop where
  ca : ∀ cert, r.selectedCa = some cert →
    (r.lastContent caContent).or (d m.caPem) = some cert.pemData.toUTF8
  server : ∀ cert, r.selectedServer = some cert →
    (r.lastContent serverContent).or (d m.serverPem) = some cert.pemData.toUTF8 ∧
      (r.lastContent m.keyContent).or (d m.serverKey) = (m.keyText cert).map String.toUTF8

/-- No name of a CA or an LDAP server leads out of its directory to one of the files. -/
def NamesStay (r : Reads) : Prop :=
  ∀ p ∈ [m.caPem, m.serverPem, m.serverKey],
    (∀ cert ∈ r.activeCertificates, cert.certType = "ca" →
      p ≠ resolve (join m.trustedCasDir (m.trustedName cert.name ++ ".pem")) ∧
        p ≠ resolve (join m.trustedCasDir (m.trustedName cert.name ++ "_chain.pem"))) ∧
    ∀ server ∈ r.enabledLdapServers, p ≠ resolve (m.ldapCaPath server)

def certCall (c : CertCall) (w : World) : Except Exc Unit × World :=
  m.writeCertFiles c.reads c.makedirsFails c.outcomes w

end Manager

/-! ## The last write of a file -/

theorem lastWrite_flatMap {α : Type} {steps : α → List CertStep} {p : Path}
    {write : α → Option ByteArray} {xs : List α}
    (h : ∀ x ∈ xs, lastWrite (steps x) p = write x) :
    lastWrite (xs.flatMap steps) p = (xs.filterMap write).getLast? := by
  induction xs with
  | nil => rfl
  | cons x xs ih =>
    rw [List.forall_mem_cons] at h
    rw [List.flatMap_cons, lastWrite_append, h.1, ih h.2]
    cases hWrite : write x with
    | none => simp [hWrite]
    | some content =>
      cases hRest : (xs.filterMap write).getLast? <;> simp [hWrite, List.getLast?_cons, hRest]

theorem lastWrite_writeIf (path : String) (content : Option String) (p : Path) :
    lastWrite (Manager.writeIf path content) p =
      if p = resolve path then (nonEmpty (orEmpty content)).map String.toUTF8 else none := by
  unfold Manager.writeIf nonEmpty
  by_cases hEmpty : orEmpty content = ""
  · simp [hEmpty, lastWrite]
  · by_cases hPath : p = resolve path <;> simp [hEmpty, lastWrite, hPath]

theorem resolve_join_ne {dir a b : String}
    (ha : (Text.split '/' a).getLast? = some a ∧ Ordinary a)
    (hb : (Text.split '/' b).getLast? = some b ∧ Ordinary b) (hNe : a ≠ b) :
    resolve (join dir a) ≠ resolve (join dir b) := by
  intro hEq
  have hLastA := getLast?_resolve ((getLast?_split_join dir a).trans ha.1) ha.2
  have hLastB := getLast?_resolve ((getLast?_split_join dir b).trans hb.1) hb.2
  rw [hEq, hLastB] at hLastA
  exact hNe (Option.some.inj hLastA).symm

/-- A name that is one ordinary component. -/
def Plain (name : String) : Prop := (Text.split '/' name).getLast? = some name ∧ Ordinary name

instance (name : String) : Decidable (Plain name) :=
  inferInstanceAs (Decidable (_ ∧ _ ≠ _ ∧ _ ≠ _ ∧ _ ≠ _))

namespace Manager

variable {m : Manager} {r : Reads}

theorem certDir_ne {a b : String} (ha : Plain a) (hb : Plain b) (hNe : a ≠ b) :
    resolve (join m.certDir a) ≠ resolve (join m.certDir b) :=
  resolve_join_ne ha hb hNe

theorem lastWrite_keySteps (keyPemEncrypted : Option String) (p : Path) :
    lastWrite (m.keySteps keyPemEncrypted) p =
      if p = m.serverKey then
        (match m.decryptSecret keyPemEncrypted with
          | .error _ => none
          | .ok keyPem => nonEmpty (orEmpty keyPem)).map String.toUTF8
      else none := by
  unfold keySteps
  cases m.decryptSecret keyPemEncrypted with
  | error e => simp [lastWrite]
  | ok keyPem => exact lastWrite_writeIf _ _ _

/-- What a certificate puts into one of the three files. -/
theorem lastWrite_certificateSteps (hNames : m.NamesStay r) {cert : Certificate}
    (hCert : cert ∈ r.activeCertificates) :
    lastWrite (m.certificateSteps cert) m.caPem = (caContent cert).map String.toUTF8 ∧
      lastWrite (m.certificateSteps cert) m.serverPem = (serverContent cert).map String.toUTF8 ∧
      lastWrite (m.certificateSteps cert) m.serverKey = (m.keyContent cert).map String.toUTF8 := by
  have hCaServer : m.caPem ≠ resolve (join m.certDir "server.pem") :=
    certDir_ne (by decide) (by decide) (by decide)
  have hServerCa : m.serverPem ≠ resolve (join m.certDir "ca.pem") :=
    certDir_ne (by decide) (by decide) (by decide)
  have hKeyCa : m.serverKey ≠ resolve (join m.certDir "ca.pem") :=
    certDir_ne (by decide) (by decide) (by decide)
  have hKeyServer : m.serverKey ≠ resolve (join m.certDir "server.pem") :=
    certDir_ne (by decide) (by decide) (by decide)
  have hCaKey : m.caPem ≠ m.serverKey := certDir_ne (by decide) (by decide) (by decide)
  have hServerKey : m.serverPem ≠ m.serverKey := certDir_ne (by decide) (by decide) (by decide)
  have hDh : ∀ p ∈ [m.caPem, m.serverPem, m.serverKey], p ≠ resolve (join m.certDir "dh.pem") := by
    simp only [List.forall_mem_cons, List.not_mem_nil, false_imp_iff, implies_true, and_true]
    exact ⟨certDir_ne (by decide) (by decide) (by decide),
      certDir_ne (by decide) (by decide) (by decide), certDir_ne (by decide) (by decide) (by decide)⟩
  simp only [List.forall_mem_cons, List.not_mem_nil, false_imp_iff, implies_true, and_true] at hDh
  obtain ⟨hDhCa, hDhServer, hDhKey⟩ := hDh
  unfold certificateSteps caContent serverContent keyContent nonEmpty
  by_cases hPem : cert.pemData = ""
  · simp [hPem, lastWrite]
  · rw [if_neg hPem]
    by_cases hTypeCa : cert.certType = "ca"
    · have hTrusted := fun p hp => (hNames p hp).1 cert hCert hTypeCa
      simp only [List.forall_mem_cons, List.not_mem_nil, false_imp_iff, implies_true, and_true]
        at hTrusted
      obtain ⟨⟨hCa, hCaChain⟩, ⟨hServer, hServerChain⟩, hKey, hKeyChain⟩ := hTrusted
      rw [if_pos hTypeCa]
      simp [lastWrite_writeIf, lastWrite, hPem, hTypeCa, hCa, hCaChain, hServer, hServerChain,
        hKey, hKeyChain, hServerCa, hKeyCa]
      rfl
    · rw [if_neg hTypeCa]
      by_cases hTypeServer : cert.certType = "server"
      · rw [if_pos hTypeServer]
        simp [lastWrite_append, lastWrite_writeIf, lastWrite_keySteps, lastWrite, hPem, hTypeServer,
          hDhCa, hDhServer, hDhKey, hCaKey, hServerKey, hCaServer, hKeyServer, keyText]
        rfl
      · simp [hTypeCa, hTypeServer, lastWrite]

/-- What a call puts into the three files. -/
theorem lastWrite_certSteps_selected (hNames : m.NamesStay r) :
    lastWrite (m.certSteps r) m.caPem = r.lastContent caContent ∧
      lastWrite (m.certSteps r) m.serverPem = r.lastContent serverContent ∧
      lastWrite (m.certSteps r) m.serverKey = r.lastContent m.keyContent := by
  have hLdap : ∀ p ∈ [m.caPem, m.serverPem, m.serverKey],
      lastWrite (r.enabledLdapServers.flatMap m.ldapSteps) p = none := by
    intro p hp
    have hServers : ∀ server ∈ r.enabledLdapServers, lastWrite (m.ldapSteps server) p = none := by
      intro server hServer
      rw [ldapSteps, lastWrite_writeIf, if_neg ((hNames p hp).2 server hServer)]
    rw [lastWrite_flatMap hServers]
    simp
  have hCerts : ∀ (p : Path) (content : Certificate → Option String), p ∈ [m.caPem, m.serverPem, m.serverKey] →
      (∀ cert ∈ r.activeCertificates,
        lastWrite (m.certificateSteps cert) p = (content cert).map String.toUTF8) →
      lastWrite (m.certSteps r) p = r.lastContent content := by
    intro p content hp hWrite
    rw [certSteps, lastWrite_append, hLdap p hp, Option.none_or, lastWrite_flatMap hWrite,
      Reads.lastContent, ← List.map_filterMap, List.getLast?_map]
  refine ⟨hCerts _ _ (by simp) fun cert hCert => (lastWrite_certificateSteps hNames hCert).1,
    hCerts _ _ (by simp) fun cert hCert => (lastWrite_certificateSteps hNames hCert).2.1,
    hCerts _ _ (by simp) fun cert hCert => (lastWrite_certificateSteps hNames hCert).2.2⟩

theorem disk_certCall {c : CertCall} {w : World} (h : (m.certCall c w).1 = .ok ()) (p : Path) :
    (m.certCall c w).2.disk p = (lastWrite (m.certSteps c.reads) p).or (w.disk p) := by
  unfold certCall at h ⊢
  by_cases hReady : c.reads.queryFails .fileCertificates = none ∧
      c.reads.queryFails .fileLdapServers = none ∧ c.makedirsFails = none
  · obtain ⟨hCerts, hLdap, hDirs⟩ := hReady
    rw [writeCertFiles_of_reads hCerts hLdap hDirs] at h ⊢
    rw [runSteps_world]
    exact stepsLeave_of_complete ((runSteps_ok _ _ _ _).mp h) w.disk p
  · obtain ⟨e, hFails⟩ := writeCertFiles_of_fails hReady c.outcomes w
    rw [hFails] at h
    cases h

theorem servesSelected_iff {c : CertCall} {w : World} (hNames : m.NamesStay c.reads)
    (h : (m.certCall c w).1 = .ok ()) :
    m.ServesSelected c.reads (m.certCall c w).2.disk ↔ m.LastIsSelected c.reads w.disk := by
  obtain ⟨hCa, hServer, hKey⟩ := lastWrite_certSteps_selected hNames
  have hDisk := disk_certCall h
  constructor
  · rintro ⟨hServesCa, hServesServer⟩
    rw [hDisk, hCa] at hServesCa
    rw [hDisk, hServer, hDisk, hKey] at hServesServer
    exact ⟨hServesCa, hServesServer⟩
  · rintro ⟨hLastCa, hLastServer⟩
    constructor
    · rw [hDisk, hCa]
      exact hLastCa
    · rw [hDisk, hServer, hDisk, hKey]
      exact hLastServer

end Manager

/-! ## Two tenants -/

def tenantCertificate (name pem : String) (key : Option String) : Certificate where
  certType := "server"
  name := name
  pemData := pem
  keyPemEncrypted := key
  chainPem := none
  dhParamsPem := none
  isActive := some true
  enabled := some true

def tenantCall (certificates : List Certificate) : CertCall where
  reads := { plainCall.toReads with db := ⟨certificates, [], [], [], []⟩ }
  makedirsFails := none
  outcomes _ := .completes

/-- A manager that reads legacy rows, whose keys are stored as they are. -/
def legacyManager : Manager := { plainManager with decrypt := fun key => .ok key, lower := id }

def emptyWorld : World := ⟨fun _ => none, fun _ => none⟩

end OpenRadiusWeb.ConfigManager
