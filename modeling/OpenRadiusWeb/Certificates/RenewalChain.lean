import OpenRadiusWeb.Certificates.AutoRenewal
import OpenRadiusWeb.Lib.CutSuffix

/-! # A certificate and its renewals

Each renewal reads the row that the one before it stored, and makes a request of it. The key
pairs come from the X.509 library, which stamps a certificate to the second.
-/

namespace OpenRadiusWeb.Certificates

/-! ## Key pairs -/

inductive GeneralName
  | dnsName (value : String)
  | ipAddress (value : String)
  deriving DecidableEq

/-- What `x509.CertificateBuilder` is given. -/
structure CertificateBuilder where
  commonName : String
  notValidBefore : Timestamp
  notValidAfter : Timestamp
  keySize : Int
  subjectAlternativeName : List GeneralName
  deriving DecidableEq

/-- A certificate as loaded, with what `parse_cert_metadata` reads of it. -/
structure X509Certificate where
  commonNames : List String
  notValidBefore : Timestamp
  notValidAfter : Timestamp
  keySize : Option Int
  deriving DecidableEq

/-- The library: nothing where it raises. -/
structure X509 where
  /-- `builder.sign` and `_serialise`. -/
  sign : CaMaterial → CertificateBuilder → Option (String × String)
  /-- `x509.load_pem_x509_certificate`. -/
  load : String → Option X509Certificate

/-- The encoding has no fractions of a second. -/
def wholeSeconds (t : Timestamp) : Timestamp := t / 1000000 * 1000000

def CertificateBuilder.certificate (b : CertificateBuilder) : X509Certificate where
  commonNames := [b.commonName]
  notValidBefore := wholeSeconds b.notValidBefore
  notValidAfter := wholeSeconds b.notValidAfter
  keySize := some b.keySize

/-- What the library has signed it loads. -/
def X509.LoadsSigned (x509 : X509) : Prop :=
  ∀ ca b pems, x509.sign ca b = some pems → x509.load pems.1 = some b.certificate

def serverBuilder (req : GenerateServerRequest) (now : Timestamp) : CertificateBuilder where
  commonName := req.commonName
  notValidBefore := now
  notValidAfter := now + req.validityDays * (86400 * 1000000)
  keySize := req.keySize
  subjectAlternativeName :=
    req.sanDns.map .dnsName ++ req.sanIps.map .ipAddress ++ [.dnsName req.commonName]

section

variable (lib : Libraries) (x509 : X509)

/-- `ip_address` raises where it does not accept a name. -/
def generateServerKeypair (req : GenerateServerRequest) (ca : CaMaterial) (now : Timestamp) :
    Option (String × String) :=
  if req.sanIps.all lib.isIpAddress then x509.sign ca (serverBuilder req now) else none

def parseCertMetadata (certPem : String) : Option CertMetadata :=
  (x509.load certPem).map fun cert =>
    ⟨cert.commonNames.head?, cert.notValidBefore, cert.notValidAfter, cert.keySize⟩

/-- What a command may be answered: the other calls are at liberty. -/
def Answers : (c : Command) → Except PyException c.Answer → Prop
  | .generateServerKeypair req ca, .ok keys =>
    ∃ now, generateServerKeypair lib x509 req ca now = some keys
  | .parseCertMetadata certPem, .ok metadata => parseCertMetadata x509 certPem = some metadata
  | .insertCert new, .ok row => ∃ id, row = new.row id
  | _, _ => True

/-- An accepted request is issued, and this is its row. -/
def Issues (req : GenerateServerRequest) (row : Certificate) : Prop :=
  req.accepts = true ∧ ∃ actor, (generateServer actor req).Returns (Answers lib x509) row

/-- The requests that the renewals make, one at each time. A row is read with the flags it has by
then. -/
inductive Renewals : GenerateServerRequest → List Timestamp → List GenerateServerRequest → Prop
  | none (req : GenerateServerRequest) : Renewals req [] []
  | renew {req : GenerateServerRequest} {row : Certificate} {nows : List Timestamp}
      {reqs : List GenerateServerRequest} (now : Timestamp) (isActive enabled : Bool)
      (issued : Issues lib x509 req row)
      (rest : Renewals
        (renewalRequest lib now { row with isActive := isActive, enabled := enabled }) nows reqs) :
      Renewals req (now :: nows)
        (renewalRequest lib now { row with isActive := isActive, enabled := enabled } :: reqs)

end

/-! ## What the chain is to keep -/

structure Preserved (first : GenerateServerRequest) (reqs : List GenerateServerRequest) : Prop where
  accepted : ∀ req ∈ reqs, req.accepts = true
  commonName : ∀ req ∈ reqs, req.commonName = first.commonName
  sanDns : ∀ req ∈ reqs, req.sanDns = first.sanDns
  sanIps : ∀ req ∈ reqs, req.sanIps = first.sanIps
  keySize : ∀ req ∈ reqs, req.keySize = first.keySize
  validityDays : ∀ req ∈ reqs, req.validityDays = first.validityDays
  short : ∀ req ∈ reqs, req.name.length ≤ 255
  /-- No generation has the name of an earlier one. -/
  apart : ((first :: reqs).map GenerateServerRequest.name).Nodup

def renewalSuffix (lib : Libraries) (now : Timestamp) : String := "-renewed-" ++ lib.dateStamp now

/-- From where the names are cut, no two renewals are of one day; and a name that has the full
width from the start does not end with the suffix of a renewal. -/
def DaysApart (lib : Libraries) (name : String) (nows : List Timestamp) : Prop :=
  ((nows.drop ((254 - name.length) / 17)).map lib.dateStamp).Nodup ∧
    (name.length = 255 → ∀ now ∈ nows, ¬ (renewalSuffix lib now).toList <:+ name.toList)

/-! ## The row of a request -/

variable {lib : Libraries} {x509 : X509} {req first : GenerateServerRequest} {row : Certificate}
  {now : Timestamp} {nows : List Timestamp} {reqs : List GenerateServerRequest}

/-- The validity is whole days, and both its ends are cut to the second alike. -/
theorem days_of_builder (req : GenerateServerRequest) (now : Timestamp) :
    days ((serverBuilder req now).certificate.notValidAfter -
      (serverBuilder req now).certificate.notValidBefore) = req.validityDays := by
  have hSeconds (t v : Int) : (t + v * (86400 * 1000000)) / 1000000 * 1000000 -
      t / 1000000 * 1000000 = v * (86400 * 1000000) := by omega
  have hDays : days (req.validityDays * (86400 * 1000000)) = req.validityDays :=
    Int.mul_fdiv_cancel _ (by decide)
  exact (congrArg days (hSeconds now req.validityDays)).trans hDays

theorem parseCertMetadata_eq {certPem : String} {cert : X509Certificate}
    (hLoad : x509.load certPem = some cert) :
    parseCertMetadata x509 certPem =
      some ⟨cert.commonNames.head?, cert.notValidBefore, cert.notValidAfter, cert.keySize⟩ := by
  rw [parseCertMetadata, hLoad, Option.map_some]

/-- What the row of an issued request tells of it. -/
structure RowOf (lib : Libraries) (req : GenerateServerRequest) (row : Certificate) : Prop where
  name : row.name = req.name
  commonName : row.commonName = some req.commonName
  keySize : row.keySize = some req.keySize
  subjectAltNames : row.subjectAltNames = sanList req
  validity : ∃ notBefore notAfter, row.notBefore = some notBefore ∧ row.notAfter = some notAfter ∧
    days (notAfter - notBefore) = req.validityDays
  sanIps : ∀ ip ∈ req.sanIps, lib.isIpAddress ip = true

theorem Issues.rowOf (hLoads : x509.LoadsSigned) (h : Issues lib x509 req row) :
    RowOf lib req row := by
  obtain ⟨-, actor, hReturns⟩ := h
  obtain ⟨ca, -, hReturns⟩ := Program.returns_bind.mp hReturns
  cases ca with
  | none => cases hReturns
  | some ca =>
    obtain ⟨⟨certPem, keyPem, metadata⟩, hMade, hReturns⟩ := Program.returns_bind.mp hReturns
    obtain ⟨keys, hKeys, hMade⟩ := Program.returns_bind.mp hMade
    obtain ⟨read, hRead, hMade⟩ := Program.returns_bind.mp hMade
    obtain ⟨-, -, hMade⟩ := Program.returns_bind.mp hMade
    cases hMade
    obtain ⟨stored, hStored, hReturns⟩ := Program.returns_bind.mp hReturns
    obtain ⟨cipher, -, hStored⟩ := Program.returns_bind.mp hStored
    obtain ⟨-, -, hReturns⟩ := Program.returns_bind.mp hReturns
    cases hReturns
    obtain ⟨id, rfl⟩ := Program.returns_command.mp hStored
    obtain ⟨now, hKeys⟩ := Program.returns_command.mp hKeys
    have hParsed := Program.returns_command.mp hRead
    rw [generateServerKeypair] at hKeys
    split at hKeys
    · rename_i hIps
      cases (show _ = some metadata from hParsed).symm.trans (parseCertMetadata_eq (hLoads ca _ keys hKeys))
      exact {
        name := rfl
        commonName := rfl
        keySize := rfl
        subjectAltNames := rfl
        validity := ⟨_, _, rfl, rfl, days_of_builder req now⟩
        sanIps := List.all_eq_true.mp hIps }
    · cases hKeys

/-- A renewal without the row in between. -/
def renewed (lib : Libraries) (req : GenerateServerRequest) (now : Timestamp) :
    GenerateServerRequest :=
  { req with
    name := renewalName lib req.name now
    sanDns := (req.sanDns ++ req.sanIps).filter fun name => !lib.isIpAddress name
    sanIps := (req.sanDns ++ req.sanIps).filter lib.isIpAddress }

section

variable (lib : Libraries) (req : GenerateServerRequest) (now : Timestamp)

@[simp] theorem renewed_commonName : (renewed lib req now).commonName = req.commonName := by
  rw [renewed]

@[simp] theorem renewed_keySize : (renewed lib req now).keySize = req.keySize := by
  rw [renewed]

@[simp] theorem renewed_validityDays : (renewed lib req now).validityDays = req.validityDays := by
  rw [renewed]

end

theorem splitSanDnsIps_sanList (lib : Libraries) (req : GenerateServerRequest) :
    splitSanDnsIps lib (sanList req) =
      ((req.sanDns ++ req.sanIps).filter fun name => !lib.isIpAddress name,
        (req.sanDns ++ req.sanIps).filter lib.isIpAddress) := by
  unfold sanList
  split
  · rename_i hNone
    rw [hNone]
    rfl
  · rfl

theorem accepts_iff : req.accepts = true ↔
    (1 ≤ req.name.length ∧ req.name.length ≤ 255) ∧
      (1 ≤ req.commonName.length ∧ req.commonName.length ≤ 255) ∧
      (1 ≤ req.validityDays ∧ req.validityDays ≤ 3650) ∧
      (2048 ≤ req.keySize ∧ req.keySize ≤ 8192) := by
  unfold GenerateServerRequest.accepts
  simp only [Bool.and_eq_true, decide_eq_true_eq]
  tauto

/-- The row tells all of the request but which of its names were given as addresses. -/
theorem RowOf.renewalRequest_eq (h : RowOf lib req row) (hAccepts : req.accepts = true)
    (now : Timestamp) (isActive enabled : Bool) :
    renewalRequest lib now { row with isActive := isActive, enabled := enabled } =
      renewed lib req now := by
  obtain ⟨-, hCommon, hValidity, hKey⟩ := accepts_iff.mp hAccepts
  obtain ⟨notBefore, notAfter, hBefore, hAfter, hDays⟩ := h.validity
  have hNamed : req.commonName ≠ "" := by
    intro hEmpty
    rw [hEmpty] at hCommon
    exact absurd hCommon.1 (by decide)
  have hCommonName : orDefault row.commonName row.name = req.commonName := by
    rw [h.commonName]
    exact if_neg hNamed
  have hValidityDays : validityDays { row with isActive := isActive, enabled := enabled } =
      req.validityDays := by
    simp only [validityDays, hBefore, hAfter]
    rw [hDays]
    exact max_eq_right hValidity.1
  have hSize : ¬ req.keySize = 0 := by omega
  rw [renewalRequest, renewed, hValidityDays, hCommonName, h.name, h.keySize, h.subjectAltNames,
    splitSanDnsIps_sanList]
  simp only [if_neg hSize]

/-- A chain without its rows. -/
inductive Chain (lib : Libraries) :
    GenerateServerRequest → List Timestamp → List GenerateServerRequest → Prop
  | none (req : GenerateServerRequest) : Chain lib req [] []
  | renew {req : GenerateServerRequest} {nows : List Timestamp} {reqs : List GenerateServerRequest}
      (now : Timestamp) (accepted : req.accepts = true)
      (sanIps : ∀ ip ∈ req.sanIps, lib.isIpAddress ip = true)
      (rest : Chain lib (renewed lib req now) nows reqs) :
      Chain lib req (now :: nows) (renewed lib req now :: reqs)

theorem Renewals.chain (hLoads : x509.LoadsSigned) (h : Renewals lib x509 first nows reqs) :
    Chain lib first nows reqs := by
  induction h with
  | none req => exact .none req
  | renew now isActive enabled issued rest ih =>
    have hRow := issued.rowOf hLoads
    rw [hRow.renewalRequest_eq issued.1] at ih ⊢
    exact .renew now issued.1 hRow.sanIps ih

theorem Chain.eq_line (h : Chain lib first nows reqs) :
    first :: reqs = nows.scanl (renewed lib) first := by
  induction h with
  | none req => exact List.scanl_nil.symm
  | renew now hAccepts hIps rest ih => rw [List.scanl_cons, ← ih]

/-! ## Issued certificates -/

/-- An accepted request is issued where the addresses are addresses and the library signs. -/
theorem issues_of_sign (hLoads : x509.LoadsSigned) (actor : Actor) (ca : CaMaterial)
    {pems : String × String} (id : String) (hAccepts : req.accepts = true)
    (hIps : ∀ ip ∈ req.sanIps, lib.isIpAddress ip = true)
    (hSign : x509.sign ca (serverBuilder req now) = some pems) :
    ∃ row, row.id = id ∧ Issues lib x509 req row := by
  have hKeys : generateServerKeypair lib x509 req ca now = some pems := by
    rw [generateServerKeypair, if_pos (List.all_eq_true.mpr hIps), hSign]
  have hMetadata := parseCertMetadata_eq (hLoads ca _ pems hSign)
  have hLookup : (lookupActiveCa actor.tenantId).Returns (Answers lib x509) (some ca) :=
    Program.returns_bind.mpr ⟨some ca, Program.returns_command.mpr True.intro,
      Program.returns_bind.mpr ⟨ca.keyPem, Program.returns_command.mpr True.intro, rfl⟩⟩
  have hMade : (makeServerCert req ca).Returns (Answers lib x509) (pems.1, pems.2, _) :=
    Program.returns_bind.mpr ⟨pems, Program.returns_command.mpr ⟨now, hKeys⟩,
      Program.returns_bind.mpr ⟨_, Program.returns_command.mpr hMetadata,
        Program.returns_bind.mpr ⟨(), Program.returns_command.mpr True.intro, rfl⟩⟩⟩
  refine ⟨_, ?_, hAccepts, actor, Program.returns_bind.mpr ⟨some ca, hLookup,
    Program.returns_bind.mpr ⟨_, hMade, Program.returns_bind.mpr ⟨_,
      Program.returns_bind.mpr ⟨none, Program.returns_command.mpr True.intro,
        Program.returns_command.mpr ⟨id, rfl⟩⟩,
      Program.returns_bind.mpr ⟨(), Program.returns_command.mpr True.intro, rfl⟩⟩⟩⟩⟩
  rfl

namespace PassEnv

variable {env : PassEnv} {turn : Nat}

theorem exec_answers (hExternal : ∀ c, Answers env.lib x509 c (env.external turn c)) (c : Command)
    (s : Session (List Certificate)) : Answers env.lib x509 c (env.exec turn c s).1 := by
  cases c with
  | generateServerKeypair req ca =>
    rw [exec_call rfl]
    exact hExternal _
  | parseCertMetadata certPem =>
    rw [exec_call rfl]
    exact hExternal _
  | insertCert new =>
    rcases hExec : env.exec turn (.insertCert new) s with ⟨e | row, s'⟩
    · exact True.intro
    · cases hFails : env.sqlFails turn (.insertCert new) with
      | some e =>
        simp only [exec, Command.statement, hFails] at hExec
        obtain ⟨-, rows, hStatement, -⟩ := Session.execute_eq_ok hExec
        cases hStatement
      | none =>
        simp only [exec, Command.statement, hFails] at hExec
        obtain ⟨-, rows, hStatement, -⟩ := Session.execute_eq_ok hExec
        rw [SqlAction.perform] at hStatement
        split at hStatement
        · cases hStatement
        · cases hStatement
          exact ⟨env.newId turn, rfl⟩
  | _ =>
    generalize (env.exec turn _ s).1 = r
    exact True.intro

theorem issues_of_run (hExternal : ∀ c, Answers env.lib x509 c (env.external turn c))
    {actor : Actor} {s : Session (List Certificate)} (hAccepts : req.accepts = true)
    (h : ((generateServer actor req).run (env.exec turn) s).1 = .ok row) :
    Issues env.lib x509 req row :=
  ⟨hAccepts, actor, Program.returns_of_run (exec_answers hExternal) h⟩

end PassEnv

/-! ## Names -/

theorem toList_renewalName (lib : Libraries) (name : String) (now : Timestamp) :
    (renewalName lib name now).toList =
      CutSuffix.append 255 name.toList (renewalSuffix lib now).toList := by
  rw [CutSuffix.append, String.length_toList, renewalSuffix]
  simp only [renewalName, String.toList_append, String.toList_ofList]

theorem length_renewalSuffix (hStamp : (lib.dateStamp now).length = 8) :
    (renewalSuffix lib now).toList.length = 17 := by
  rw [String.length_toList, renewalSuffix, String.length_append, hStamp]
  decide

theorem length_renewalName (hStamp : (lib.dateStamp now).length = 8) (name : String) :
    (renewalName lib name now).length = min 255 (name.length + 17) := by
  have hSuffix := length_renewalSuffix hStamp
  rw [← String.length_toList, toList_renewalName, CutSuffix.length_append (by omega), hSuffix,
    String.length_toList]

theorem names_line (lib : Libraries) (first : GenerateServerRequest) (nows : List Timestamp) :
    (nows.scanl (renewed lib) first).map (fun req => req.name.toList) =
      CutSuffix.line 255 first.name.toList (nows.map fun now => (renewalSuffix lib now).toList) := by
  induction nows generalizing first with
  | nil => rw [List.scanl_nil, List.map_nil, CutSuffix.line_nil, List.map_singleton]
  | cons now nows ih =>
    rw [List.scanl_cons, List.map_cons, ih, List.map_cons, CutSuffix.line_cons, ← toList_renewalName]
    rfl

theorem toList_renewalSuffix_inj {a b : Timestamp} :
    (renewalSuffix lib a).toList = (renewalSuffix lib b).toList ↔
      lib.dateStamp a = lib.dateStamp b := by
  rw [String.toList_inj, renewalSuffix, renewalSuffix]
  constructor
  · intro h
    rw [← String.toList_inj, String.toList_append, String.toList_append] at h
    exact String.toList_inj.mp (List.append_cancel_left h)
  · intro h
    rw [h]

theorem nodup_suffixes (lib : Libraries) (nows : List Timestamp) :
    (nows.map fun now => (renewalSuffix lib now).toList).Nodup ↔ (nows.map lib.dateStamp).Nodup := by
  rw [List.nodup_iff_pairwise_ne, List.nodup_iff_pairwise_ne, List.pairwise_map, List.pairwise_map]
  simp only [ne_eq, toList_renewalSuffix_inj]

/-- The names of a chain that starts with an accepted one. -/
theorem names_apart_iff (hName : first.name.length ≤ 255)
    (hStamp : ∀ now ∈ nows, (lib.dateStamp now).length = 8) :
    ((nows.scanl (renewed lib) first).map GenerateServerRequest.name).Nodup ↔
      DaysApart lib first.name nows := by
  have hSuffixes : ∀ s ∈ nows.map fun now => (renewalSuffix lib now).toList, s.length = 17 := by
    intro s hs
    obtain ⟨now, hNow, rfl⟩ := List.mem_map.mp hs
    exact length_renewalSuffix (hStamp now hNow)
  have hTexts : ((nows.scanl (renewed lib) first).map GenerateServerRequest.name).Nodup ↔
      ((nows.scanl (renewed lib) first).map fun req => req.name.toList).Nodup := by
    rw [← List.nodup_map_iff (f := String.toList) fun a b => String.toList_inj.mp, List.map_map]
    rfl
  rw [hTexts, names_line, CutSuffix.nodup_line_iff (m := 17) (by decide) (by decide) hSuffixes
    (by rw [String.length_toList]; exact hName), String.length_toList, ← List.map_drop,
    nodup_suffixes, DaysApart]
  simp only [List.forall_mem_map]

/-! ## What a renewal keeps -/

theorem accepts_renewed (hAccepts : req.accepts = true) (hStamp : (lib.dateStamp now).length = 8) :
    (renewed lib req now).accepts = true := by
  obtain ⟨-, hOthers⟩ := accepts_iff.mp hAccepts
  have hLength : (renewed lib req now).name.length = min 255 (req.name.length + 17) :=
    length_renewalName hStamp req.name
  rw [accepts_iff, hLength, renewed_commonName, renewed_validityDays, renewed_keySize]
  exact ⟨by omega, hOthers⟩

theorem filter_sans_iff (hIps : ∀ ip ∈ req.sanIps, lib.isIpAddress ip = true) (now : Timestamp) :
    ((renewed lib req now).sanDns = req.sanDns ∧ (renewed lib req now).sanIps = req.sanIps) ↔
      ∀ name ∈ req.sanDns, lib.isIpAddress name = false := by
  have hNone : req.sanIps.filter (fun name => !lib.isIpAddress name) = [] := by
    rw [List.filter_eq_nil_iff]
    intro ip hIp
    rw [hIps ip hIp]
    decide
  have hAll : req.sanIps.filter lib.isIpAddress = req.sanIps := List.filter_eq_self.mpr hIps
  have hDns : (renewed lib req now).sanDns = req.sanDns.filter fun name => !lib.isIpAddress name := by
    simp only [renewed, List.filter_append, hNone, List.append_nil]
  have hMoved : (renewed lib req now).sanIps = req.sanDns.filter lib.isIpAddress ++ req.sanIps := by
    simp only [renewed, List.filter_append, hAll]
  rw [hDns, hMoved]
  constructor
  · rintro ⟨hKept, -⟩ name hName
    have := List.filter_eq_self.mp hKept name hName
    rwa [Bool.not_eq_true'] at this
  · intro h
    refine ⟨List.filter_eq_self.mpr fun name hName => ?_, ?_⟩
    · rw [h name hName, Bool.not_false]
    · rw [List.filter_eq_nil_iff.mpr fun name hName => by simp [h name hName], List.nil_append]

theorem Chain.kept (h : Chain lib first nows reqs)
    (hStamp : ∀ now ∈ nows, (lib.dateStamp now).length = 8) :
    ∀ req ∈ reqs, req.accepts = true ∧ req.commonName = first.commonName ∧
      req.keySize = first.keySize ∧ req.validityDays = first.validityDays := by
  induction h with
  | none first => exact fun _ h => absurd h List.not_mem_nil
  | renew now hAccepts hIps rest ih =>
    intro req hReq
    rcases List.mem_cons.mp hReq with rfl | hReq
    · exact ⟨accepts_renewed hAccepts (hStamp now List.mem_cons_self), renewed_commonName _ _ _,
        renewed_keySize _ _ _, renewed_validityDays _ _ _⟩
    · have hLater := ih (fun t ht => hStamp t (List.mem_cons_of_mem now ht)) req hReq
      rwa [renewed_commonName, renewed_keySize, renewed_validityDays] at hLater

theorem Chain.sans_iff (h : Chain lib first nows reqs) :
    (∀ req ∈ reqs, req.sanDns = first.sanDns ∧ req.sanIps = first.sanIps) ↔
      (nows ≠ [] → ∀ name ∈ first.sanDns, lib.isIpAddress name = false) := by
  induction h with
  | none first => simp
  | renew now hAccepts hIps rest ih =>
    have hFirst := filter_sans_iff hIps now
    constructor
    · intro h _
      exact hFirst.mp (h _ List.mem_cons_self)
    · intro h req hReq
      have hSame := hFirst.mpr (h (List.cons_ne_nil _ _))
      rcases List.mem_cons.mp hReq with rfl | hReq
      · exact hSame
      · have hLater := ih.mpr (fun _ => by
          rw [hSame.1]
          exact h (List.cons_ne_nil _ _)) req hReq
        exact ⟨hLater.1.trans hSame.1, hLater.2.trans hSame.2⟩

theorem Chain.names_iff (h : Chain lib first nows reqs)
    (hStamp : ∀ now ∈ nows, (lib.dateStamp now).length = 8) :
    ((first :: reqs).map GenerateServerRequest.name).Nodup ↔ DaysApart lib first.name nows := by
  have hLine := h.eq_line
  cases h with
  | none => simp [DaysApart]
  | renew now hAccepts hIps rest =>
    obtain ⟨hName, -⟩ := accepts_iff.mp hAccepts
    rw [hLine, names_apart_iff hName.2 hStamp]

/-- A chain of renewals keeps what it is to keep exactly when no host name passes for an address
and the days are apart from where the names are cut. -/
theorem renewals_preserved_iff (hLoads : x509.LoadsSigned)
    (h : Renewals lib x509 first nows reqs)
    (hStamp : ∀ now ∈ nows, (lib.dateStamp now).length = 8) :
    Preserved first reqs ↔
      (nows ≠ [] → ∀ name ∈ first.sanDns, lib.isIpAddress name = false) ∧
        DaysApart lib first.name nows := by
  have hChain := h.chain hLoads
  have hKept := hChain.kept hStamp
  rw [← hChain.sans_iff, ← hChain.names_iff hStamp]
  constructor
  · intro hPreserved
    exact ⟨fun req hReq => ⟨hPreserved.sanDns req hReq, hPreserved.sanIps req hReq⟩,
      hPreserved.apart⟩
  · rintro ⟨hSans, hApart⟩
    exact {
      accepted := fun req hReq => (hKept req hReq).1
      commonName := fun req hReq => (hKept req hReq).2.1
      sanDns := fun req hReq => (hSans req hReq).1
      sanIps := fun req hReq => (hSans req hReq).2
      keySize := fun req hReq => (hKept req hReq).2.2.1
      validityDays := fun req hReq => (hKept req hReq).2.2.2
      short := fun req hReq => (accepts_iff.mp (hKept req hReq).1).1.2
      apart := hApart }

/-! ## Two certificates -/

/-- Two days of June 2026, and an address. -/
def juneLib : Libraries where
  isIpAddress name := name == "10.0.0.5"
  dateStamp t := if t < 1780531200000000 then "20260603" else "20260604"
  validationText _ := ""

/-- A library that has one certificate to sign. -/
def signsOne (b : CertificateBuilder) : X509 where
  sign _ made := if made = b then some ("CERTIFICATE", "RSA PRIVATE KEY") else none
  load certPem := if certPem = "CERTIFICATE" then some b.certificate else none

theorem signsOne_loads (b : CertificateBuilder) : (signsOne b).LoadsSigned := by
  intro ca made pems hSign
  have hMade : (if made = b then some ("CERTIFICATE", "RSA PRIVATE KEY") else none) = some pems :=
    hSign
  split at hMade
  · rename_i hSame
    cases hMade
    rw [hSame]
    rfl
  · cases hMade

theorem renewals_once (hAccepts : req.accepts = true)
    (hIps : ∀ ip ∈ req.sanIps, lib.isIpAddress ip = true) (made now : Timestamp) :
    Renewals lib (signsOne (serverBuilder req made)) req [now] [renewed lib req now] := by
  have hLoads := signsOne_loads (serverBuilder req made)
  obtain ⟨row, -, hIssues⟩ := issues_of_sign hLoads ⟨"admin", "default"⟩ ⟨"CA", some "CA KEY"⟩
    "1" hAccepts hIps (if_pos rfl)
  rw [← (hIssues.rowOf hLoads).renewalRequest_eq hAccepts now true true]
  exact .renew now true true hIssues (.none _)

def radiusServer : GenerateServerRequest where
  name := "radius"
  commonName := "radius.example"
  sanDns := ["radius.example"]
  sanIps := ["10.0.0.5"]
  validityDays := 20
  keySize := 2048

theorem radiusServer_preserved :
    Preserved radiusServer [renewed juneLib radiusServer 1780488000000000] :=
  (renewals_preserved_iff (signsOne_loads _)
    (renewals_once (accepts_iff.mpr (by decide)) (by decide) 1780444800000000 1780488000000000)
    (by decide)).mpr ⟨fun _ => by decide, by decide, fun h => absurd h (by decide)⟩

/-- The same certificate with the address among the host names. -/
def addressAsHost : GenerateServerRequest :=
  { radiusServer with
    sanDns := ["radius.example", "10.0.0.5"]
    sanIps := [] }

theorem addressAsHost_moves :
    Renewals juneLib (signsOne (serverBuilder addressAsHost 1780444800000000)) addressAsHost
        [1780488000000000] [renewed juneLib addressAsHost 1780488000000000] ∧
      ¬ Preserved addressAsHost [renewed juneLib addressAsHost 1780488000000000] := by
  refine ⟨renewals_once (accepts_iff.mpr (by decide)) (by decide) _ _, fun h => ?_⟩
  have hSame := h.sanIps _ (List.mem_singleton.mpr rfl)
  exact absurd hSame (by decide)

end OpenRadiusWeb.Certificates
