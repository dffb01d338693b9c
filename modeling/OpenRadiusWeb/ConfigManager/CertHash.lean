import OpenRadiusWeb.ConfigManager.CertFiles

/-! # The hash of the certificate files

`_compute_cert_files_hash` joins the columns that drive `write_cert_files` with
separator lines. On inputs that hold no separator line, no colon inside a certificate
type and no two LDAP servers with one CA file, equal joined texts mean equal files.
-/

namespace OpenRadiusWeb.ConfigManager

open Sorting Paths

def certParts (cert : Certificate) : List String :=
  ["cert:" ++ cert.certType ++ ":" ++ cert.name, cert.pemData, orEmpty cert.chainPem,
    orEmpty cert.keyPemEncrypted, orEmpty cert.dhParamsPem]

def ldapParts (server : LdapServer) : List String :=
  ["ldap_ca:" ++ server.name, orEmpty server.tlsCaCert]

/-- The hashed parts in order. -/
def blobParts (certs : List Certificate) (ldapServers : List LdapServer) : List String :=
  (sortBy (fun c => toLex (c.certType, c.name)) certs).flatMap certParts ++
    (sortBy LdapServer.name ldapServers).flatMap ldapParts

def certBlob (certs : List Certificate) (ldapServers : List LdapServer) : String :=
  "\n---\n".intercalate (blobParts certs ldapServers)

namespace Manager

variable (m : Manager)

/-- `_compute_hash`. -/
def computeHash (content : String) : String := m.sha256 content.toUTF8

theorem computeHash_injective : Function.Injective m.computeHash := by
  intro s t h
  exact String.toByteArray_inj.mp (m.sha256.injective h)

/-- `_compute_cert_files_hash`. -/
def computeCertFilesHash (r : Reads) : Except Exc String := do
  let certs ← r.loadActiveCertificates .hashCertificates
  let ldapServers ← r.loadLdapServers .hashLdapServers
  return m.computeHash (certBlob certs ldapServers)

/-- The hash of a database state, no query failing. -/
def certFilesHash (r : Reads) : String :=
  m.computeHash (certBlob r.activeCertificates r.enabledLdapServers)

theorem computeCertFilesHash_of_reads {r : Reads} (hCerts : r.queryFails .hashCertificates = none)
    (hLdap : r.queryFails .hashLdapServers = none) :
    m.computeCertFilesHash r = .ok (m.certFilesHash r) := by
  rw [computeCertFilesHash, Reads.loadActiveCertificates, Reads.fetchAll, Reads.loadLdapServers,
    Reads.fetchAll, hCerts, hLdap]
  rfl

theorem computeCertFilesHash_ok {r : Reads} {h : String} (hr : m.computeCertFilesHash r = .ok h) :
    r.queryFails .hashCertificates = none ∧ r.queryFails .hashLdapServers = none ∧
      h = m.certFilesHash r := by
  rw [computeCertFilesHash, Reads.loadActiveCertificates, Reads.fetchAll, Reads.loadLdapServers,
    Reads.fetchAll] at hr
  cases hCerts : r.queryFails .hashCertificates with
  | some e => rw [hCerts] at hr; cases hr
  | none =>
    cases hLdap : r.queryFails .hashLdapServers with
    | some e => rw [hCerts, hLdap] at hr; cases hr
    | none =>
      rw [hCerts, hLdap] at hr
      cases hr
      exact ⟨rfl, rfl, rfl⟩

end Manager

/-! ## Reading the parts back -/

theorem certType_name_of_header {t t' n n' : String} (ht : ':' ∉ t.toList)
    (ht' : ':' ∉ t'.toList) (h : "cert:" ++ t ++ ":" ++ n = "cert:" ++ t' ++ ":" ++ n') :
    t = t' ∧ n = n' := by
  have hList : t.toList ++ ':' :: n.toList = t'.toList ++ ':' :: n'.toList := by
    have := congrArg String.toList h
    simpa using this
  obtain ⟨h1, h2⟩ := Text.append_cons_inj_of_not_mem ht ht' hList
  exact ⟨String.toList_inj.mp h1, String.toList_inj.mp h2⟩

private theorem ldap_flatMap_inj {ss ss' : List LdapServer}
    (h : ss.flatMap ldapParts = ss'.flatMap ldapParts) : ss.map ldapParts = ss'.map ldapParts := by
  induction ss generalizing ss' with
  | nil =>
    cases ss' with
    | nil => rfl
    | cons s' ss' => simp [ldapParts] at h
  | cons s ss ih =>
    cases ss' with
    | nil => simp [ldapParts] at h
    | cons s' ss' =>
      simp only [List.flatMap_cons] at h
      obtain ⟨hHead, hTail⟩ := List.append_inj h rfl
      rw [List.map_cons, List.map_cons, hHead, ih hTail]

private theorem certParts_ne_ldap {c : Certificate} {rest : List String} {ss : List LdapServer}
    (h : certParts c ++ rest = ss.flatMap ldapParts) : False := by
  cases ss with
  | nil => simp [certParts] at h
  | cons s ss =>
    simp only [certParts, ldapParts, List.flatMap_cons, List.cons_append, List.cons.injEq] at h
    have hHead := congrArg (fun t => t.toList.head?) h.1
    simp at hHead

theorem parts_inj {cs cs' : List Certificate} {ss ss' : List LdapServer}
    (h : cs.flatMap certParts ++ ss.flatMap ldapParts =
      cs'.flatMap certParts ++ ss'.flatMap ldapParts) :
    cs.map certParts = cs'.map certParts ∧ ss.map ldapParts = ss'.map ldapParts := by
  induction cs generalizing cs' with
  | nil =>
    cases cs' with
    | nil => exact ⟨rfl, ldap_flatMap_inj h⟩
    | cons c' cs' =>
      rw [List.flatMap_cons, List.append_assoc] at h
      exact (certParts_ne_ldap h.symm).elim
  | cons c cs ih =>
    cases cs' with
    | nil =>
      rw [List.flatMap_cons, List.append_assoc] at h
      exact (certParts_ne_ldap h).elim
    | cons c' cs' =>
      rw [List.flatMap_cons, List.flatMap_cons, List.append_assoc, List.append_assoc] at h
      obtain ⟨hHead, hTail⟩ := List.append_inj h rfl
      obtain ⟨hCerts, hLdap⟩ := ih hTail
      exact ⟨by rw [List.map_cons, List.map_cons, hHead, hCerts], hLdap⟩

/-! ## Equal hashes, equal files -/

/-- The certificate inputs of a database state can be read back from the hashed text. -/
structure Readable (m : Manager) (r : Reads) : Prop where
  noSeparator : ∀ part ∈ blobParts r.activeCertificates r.enabledLdapServers,
    "---".toList ∉ Text.lines part
  noColon : ∀ c ∈ r.activeCertificates, ':' ∉ c.certType.toList
  caFiles : (r.enabledLdapServers.flatMap m.ldapSteps).Pairwise fun s t => s.file ≠ t.file

private theorem blobParts_head (cs : List Certificate) (ss : List LdapServer) :
    blobParts cs ss = [] ∨ ∃ p rest, blobParts cs ss = p :: rest ∧ p ≠ "" := by
  rw [blobParts]
  cases sortBy (fun c => toLex (c.certType, c.name)) cs with
  | cons c cs => exact .inr ⟨_, _, rfl, by simp⟩
  | nil =>
    cases sortBy LdapServer.name ss with
    | cons s ss => exact .inr ⟨_, _, rfl, by simp⟩
    | nil => exact .inl rfl

theorem blobParts_of_blob {cs cs' : List Certificate} {ss ss' : List LdapServer}
    (hr : ∀ part ∈ blobParts cs ss, "---".toList ∉ Text.lines part)
    (hr' : ∀ part ∈ blobParts cs' ss', "---".toList ∉ Text.lines part)
    (h : certBlob cs ss = certBlob cs' ss') : blobParts cs ss = blobParts cs' ss' := by
  have hSep : ("\n---\n" : String) = Text.separator "---".toList := rfl
  rw [certBlob, certBlob] at h
  rcases blobParts_head cs ss with hNil | ⟨p, rest, hEq, hp⟩ <;>
    rcases blobParts_head cs' ss' with hNil' | ⟨p', rest', hEq', hp'⟩
  · rw [hNil, hNil']
  · rw [hNil, hEq'] at h
    exact (Text.intercalate_ne_empty hp' rest' h.symm).elim
  · rw [hNil', hEq] at h
    exact (Text.intercalate_ne_empty hp rest h).elim
  · rw [hSep] at h
    exact Text.parts_of_intercalate (by decide) (by simp [hEq]) (by simp [hEq']) hr hr' h

/-! The steps read a certificate and an LDAP server through their parts only. -/

private theorem keySteps_congr (m : Manager) {k k' : Option String} (h : orEmpty k = orEmpty k') :
    m.keySteps k = m.keySteps k' := by
  have hForm : ∀ v : Option String, m.keySteps v = if orEmpty v = "" then [] else
      match m.decrypt (orEmpty v) with
      | .error e => [.raise e]
      | .ok keyPem => Manager.writeIf (join m.certDir "server.key") (some keyPem) := by
    rintro (_ | v)
    · rfl
    · by_cases hv : v = ""
      · subst hv; rfl
      · simp only [Manager.keySteps, Manager.decryptSecret, if_neg hv, orEmpty, Option.getD_some]
        cases m.decrypt v <;> simp [Except.map, hv]
  rw [hForm, hForm, h]

theorem certificateSteps_congr (m : Manager) {c c' : Certificate} (hc : ':' ∉ c.certType.toList)
    (hc' : ':' ∉ c'.certType.toList) (h : certParts c = certParts c') :
    m.certificateSteps c = m.certificateSteps c' := by
  simp only [certParts, List.cons.injEq, and_true] at h
  obtain ⟨hHeader, hPem, hChain, hKey, hDh⟩ := h
  obtain ⟨hType, hName⟩ := certType_name_of_header hc hc' hHeader
  simp only [Manager.certificateSteps, Manager.writeIf, hPem, hType, hName, hChain, hDh,
    keySteps_congr m hKey]

theorem ldapSteps_congr (m : Manager) {s s' : LdapServer} (h : ldapParts s = ldapParts s') :
    m.ldapSteps s = m.ldapSteps s' := by
  simp only [ldapParts, List.cons.injEq, and_true] at h
  obtain ⟨hHeader, hCa⟩ := h
  have hName : s.name = s'.name := by
    have := congrArg String.toList hHeader
    exact String.toList_inj.mp (by simpa using this)
  simp only [Manager.ldapSteps, Manager.writeIf, Manager.ldapCaPath, hName, hCa]

private theorem flatMap_certificateSteps_congr (m : Manager) {cs cs' : List Certificate}
    (hc : ∀ c ∈ cs, ':' ∉ c.certType.toList) (hc' : ∀ c ∈ cs', ':' ∉ c.certType.toList)
    (h : cs.map certParts = cs'.map certParts) :
    cs.flatMap m.certificateSteps = cs'.flatMap m.certificateSteps := by
  induction cs generalizing cs' with
  | nil =>
    cases cs' with
    | nil => rfl
    | cons c' cs' => simp at h
  | cons c cs ih =>
    cases cs' with
    | nil => simp at h
    | cons c' cs' =>
      rw [List.map_cons, List.map_cons, List.cons.injEq] at h
      rw [List.forall_mem_cons] at hc hc'
      rw [List.flatMap_cons, List.flatMap_cons, certificateSteps_congr m hc.1 hc'.1 h.1,
        ih hc.2 hc'.2 h.2]

private theorem mem_ldapSteps_of_parts {m : Manager} {r r' : Reads}
    (h : (sortBy LdapServer.name r.enabledLdapServers).map ldapParts =
      (sortBy LdapServer.name r'.enabledLdapServers).map ldapParts) {step : CertStep}
    (hStep : step ∈ r.enabledLdapServers.flatMap m.ldapSteps) :
    step ∈ r'.enabledLdapServers.flatMap m.ldapSteps := by
  obtain ⟨s, hs, hIn⟩ := List.mem_flatMap.mp hStep
  have hSorted : s ∈ sortBy LdapServer.name r.enabledLdapServers := mem_sortBy.mpr hs
  have hParts := List.mem_map_of_mem (f := ldapParts) hSorted
  rw [h] at hParts
  obtain ⟨s', hs', hEq⟩ := List.mem_map.mp hParts
  rw [← ldapSteps_congr m hEq] at hIn
  exact List.mem_flatMap.mpr ⟨s', mem_sortBy.mp hs', hIn⟩

/-- Database states with one certificate hash have the same certificate files. -/
theorem lastWrite_certSteps {m : Manager} {r r' : Reads} (hr : Readable m r)
    (hr' : Readable m r') (h : m.certFilesHash r = m.certFilesHash r') :
    lastWrite (m.certSteps r) = lastWrite (m.certSteps r') := by
  have hParts := blobParts_of_blob hr.noSeparator hr'.noSeparator (m.computeHash_injective h)
  rw [blobParts, blobParts, Reads.activeCertificates, Reads.activeCertificates, sortBy_sortBy,
    sortBy_sortBy] at hParts
  obtain ⟨hCerts, hLdap⟩ := parts_inj hParts
  have hSteps := flatMap_certificateSteps_congr m hr.noColon hr'.noColon hCerts
  have hServers : ∀ p b, lastWrite (r.enabledLdapServers.flatMap m.ldapSteps) p = some b ↔
      lastWrite (r'.enabledLdapServers.flatMap m.ldapSteps) p = some b := by
    intro p b
    rw [lastWrite_of_distinct hr.caFiles, lastWrite_of_distinct hr'.caFiles]
    constructor
    · rintro ⟨path, content, hMem, hRest⟩
      exact ⟨path, content, mem_ldapSteps_of_parts hLdap hMem, hRest⟩
    · rintro ⟨path, content, hMem, hRest⟩
      exact ⟨path, content, mem_ldapSteps_of_parts hLdap.symm hMem, hRest⟩
  funext p
  rw [Manager.certSteps, Manager.certSteps, lastWrite_append, lastWrite_append, hSteps,
    Option.ext (hServers p)]

end OpenRadiusWeb.ConfigManager
