import OpenRadiusWeb.ConfigManager.CertPaths
import OpenRadiusWeb.ConfigManager.SiteLinks

/-! # The files that `eap` names

`generate_eap_config` names the certificate files before there are certificates, and the DH parameters
when the CA has them. `write_cert_files` writes what the rows have: the parameters of a server certificate,
never those of a CA.
-/

namespace OpenRadiusWeb.BareTexts

open ConfigManager Statements Effects Transcript Paths

/-! ## The files that the text names -/

def fileKeys : List Word :=
  ["private_key_file", "certificate_file", "ca_file", "dh_file"].map String.toList

/-- The value of a statement that names a file. -/
def namedFile (_ : List Heading) : Statement → List Word
  | .item [key, sign, value] => if key ∈ fileKeys ∧ sign = ['='] then [value] else []
  | _ => []

section Text

variable {vars : EapVars} {stack : List Heading}

theorem scan_namedFile_sets (n : Nat) (key value : String) : (sets n key value).scan namedFile stack =
    if key ∈ ["private_key_file", "certificate_file", "ca_file", "dh_file"] then [value.toList] else [] := by
  simp [sets, namedFile, fileKeys, String.toList_inj, -String.reduceToList]

@[simp] theorem namedFile_opens (ws : List Word) : namedFile stack (.opens ws) = [] := rfl

@[simp] theorem namedFile_closes : namedFile stack .closes = [] := rfl

@[simp] theorem namedFile_two (a b : Word) : namedFile stack (.item [a, b]) = [] := rfl

@[simp] theorem namedFile_more (a b c d : Word) (ws : List Word) :
    namedFile stack (.item (a :: b :: c :: d :: ws)) = [] := rfl

theorem scan_eapLines : (eapLines vars).scan namedFile [] =
    ([vars.serverKeyPath, vars.serverCertPath, vars.caCertPath] ++
      (vars.dhFile.filter fun path => path ≠ "").toList).map String.toList := by
  simp [-String.reduceToList, eapLines, tlsConfigLines, tunnelLines, scan_namedFile_sets]
  exact List.map_eq_flatMap.symm

/-- The values that the template prints are words. -/
structure EapVarsSpelled (l : Lexis) (vars : EapVars) : Prop where
  plain : ∀ text ∈ [vars.caCertPath, vars.caPath, vars.serverCertPath, vars.serverKeyPath,
    strOrNone vars.defaultEapType] ++ vars.dhFile.toList, IsWord l text.toList ∧ text.toList ≠ brace
  quoted : ∀ text ∈ [strOrNone vars.tlsMinVersion, strOrNone vars.tlsMaxVersion, vars.cipherList],
    IsWord l (betweenQuotes text).toList

theorem isPlain_toString (n : Nat) : IsPlain (toString n).toList := by
  have hText : (toString n).toList = Nat.toDigits 10 n := Nat.toList_repr
  rw [hText]
  refine ⟨Nat.toDigits_ne_nil, fun c hc => ?_⟩
  have hDigit := Nat.isDigit_of_mem_toDigits (by decide) (by decide) hc
  rw [plainChar, Char.isAlphanum, hDigit, Bool.or_true, Bool.true_or]

theorem isWord_toString {l : Lexis} (n : Nat) : IsWord l (toString n).toList := (isPlain_toString n).isWord

theorem toString_ne_brace (n : Nat) : (toString n).toList ≠ brace := by
  intro hEq
  have hPlain := isPlain_toString n
  rw [hEq] at hPlain
  exact absurd (hPlain.2 _ List.mem_cons_self) (by decide)

theorem betweenQuotes_ne (text : String) : (betweenQuotes text).toList ≠ brace := by
  rw [betweenQuotes, String.toList_append, String.toList_append]
  exact fun h => absurd (List.cons.inj h).1 (by decide)

theorem legible_eapLines {l : SiteLexis} (h : EapVarsSpelled l.toLexis vars) :
    (eapLines vars).Legible l.toLexis := by
  obtain ⟨hPlain, hQuoted⟩ := h
  simp only [List.forall_mem_append, List.forall_mem_cons, List.not_mem_nil, false_implies, implies_true,
    and_true] at hPlain hQuoted
  simp (disch := first | (apply wording_lit; decide) | (apply oneLine_lit; decide)) only
    [eapLines, page, tlsConfigLines, tunnelLines, legible_encl, legible_boxed, legible_note, legible_sets,
    legible_forEach, Passage.legible_all, Passage.legible_empty, Passage.legible_item, List.forall_mem_cons,
    List.forall_mem_append, List.forall_mem_map, List.not_mem_nil, false_implies, implies_true,
    Wording.isWord, Wording.ne_brace, OneLine.notMem, ne_eq, not_false_eq_true,
    and_true, true_and, hPlain, hQuoted, isWord_toString,
    toString_ne_brace, betweenQuotes_ne]
  have hSign : IsWord l.toLexis ['='] := ⟨by decide, by decide, by decide, rfl⟩
  have hFiltered : ∀ path ∈ (vars.dhFile.filter fun path => path ≠ "").toList,
      IsWord l.toLexis path.toList ∧ path.toList ≠ brace := fun path hPath =>
    hPlain.2 path (Option.mem_toList.mpr (Option.mem_filter_iff.mp (Option.mem_toList.mp hPath)).1)
  exact ⟨⟨hSign, List.cons_ne_nil _ _, by simp, by decide⟩, hFiltered, hSign, List.cons_ne_nil _ _, by simp,
    by decide⟩

end Text

/-! ## The files that the rows supply -/

def certNames : List String := ["ca.pem", "server.pem", "server.key", "dh.pem"]

section Supply

variable {m : Manager} {r : Reads} {cert : Certificate} {name : String}

/-- No name of a CA or an LDAP server leads to one of the files. -/
def NamesApart (m : Manager) (r : Reads) : Prop :=
  ∀ name ∈ certNames,
    (∀ cert ∈ r.activeCertificates, cert.certType = "ca" → ∀ mark ∈ ["", "_chain"],
      resolve (join m.certDir name) ≠
        resolve (join m.trustedCasDir (m.trustedName cert.name ++ (mark ++ ".pem")))) ∧
    ∀ server ∈ r.enabledLdapServers, resolve (join m.certDir name) ≠ resolve (m.ldapCaPath server)

/-- What a certificate is written to. -/
def Supplies (m : Manager) (cert : Certificate) (name : String) : Prop :=
  cert.pemData ≠ "" ∧ (cert.certType = "ca" ∧ name = "ca.pem" ∨
    cert.certType = "server" ∧ (name = "server.pem" ∨ name = "server.key" ∧ (m.keyText cert).isSome ∨
      name = "dh.pem" ∧ orEmpty cert.dhParamsPem ≠ ""))

instance : Decidable (NamesApart m r) := inferInstanceAs (Decidable (∀ name ∈ _, _))

instance : Decidable (Supplies m cert name) := inferInstanceAs (Decidable (_ ∧ _))

theorem lastWrite_isSome {steps : List CertStep} {p : Path} :
    (lastWrite steps p).isSome ↔ ∃ path ∈ pathsOf steps, p = resolve path := by
  induction steps with
  | nil => simp [lastWrite, pathsOf]
  | cons step steps ih =>
    cases step with
    | raise e => exact ih
    | write path content =>
      have hPaths : pathsOf (.write path content :: steps) = path :: pathsOf steps := rfl
      rw [lastWrite, hPaths, Option.isSome_or, Bool.or_eq_true, ih, List.exists_mem_cons_iff, or_comm]
      refine or_congr_left ?_
      split
      · exact iff_of_true rfl ‹_›
      · exact iff_of_false Bool.false_ne_true ‹_›

theorem file_eq_iff {a b : String} (ha : a ∈ certNames) (hb : b ∈ certNames) :
    resolve (join m.certDir a) = resolve (join m.certDir b) ↔ a = b := by
  have hPlain : ∀ name ∈ certNames, Plain name := by decide
  constructor
  · intro h
    by_contra hNe
    exact Manager.certDir_ne (hPlain a ha) (hPlain b hb) hNe h
  · rintro rfl
    rfl

theorem pathsOf_append (xs ys : List CertStep) : pathsOf (xs ++ ys) = pathsOf xs ++ pathsOf ys :=
  List.filterMap_append

theorem pathsOf_keySteps (keyPemEncrypted : Option String) :
    pathsOf (m.keySteps keyPemEncrypted) =
      if (match m.decryptSecret keyPemEncrypted with
        | .error _ => none
        | .ok keyPem => nonEmpty (orEmpty keyPem)).isSome then [join m.certDir "server.key"] else [] := by
  unfold Manager.keySteps
  cases m.decryptSecret keyPemEncrypted with
  | error e => rfl
  | ok keyPem =>
    simp only [pathsOf_writeIf, nonEmpty]
    split <;> rfl

theorem written_by_ca (hNames : NamesApart m r) (hCert : cert ∈ r.activeCertificates) (hName : name ∈ certNames)
    (hPem : cert.pemData ≠ "") (hType : cert.certType = "ca") :
    (∃ path ∈ pathsOf (m.certificateSteps cert), resolve (join m.certDir name) = resolve path) ↔
      name = "ca.pem" := by
  have hFiled : cert ∈ r.filedCas := List.mem_filter.mpr ⟨hCert, decide_eq_true ⟨hType, hPem⟩⟩
  rw [pathsOf_certificateSteps hFiled, List.exists_mem_cons_iff, file_eq_iff hName (by decide)]
  refine or_iff_left ?_
  rintro ⟨path, hPath, hSame⟩
  obtain ⟨mark, hMark, rfl⟩ := List.mem_map.mp hPath
  refine (hNames name hName).1 cert hCert hType mark ?_ hSame
  rcases List.mem_cons.mp hMark with rfl | hMark
  · exact List.mem_cons_self
  · split at hMark
    · cases hMark
    · exact List.mem_cons_of_mem _ hMark

theorem written_by_server (hName : name ∈ certNames) (hPem : cert.pemData ≠ "")
    (hType : cert.certType = "server") :
    (∃ path ∈ pathsOf (m.certificateSteps cert), resolve (join m.certDir name) = resolve path) ↔
      name = "server.pem" ∨ name = "server.key" ∧ (m.keyText cert).isSome ∨
        name = "dh.pem" ∧ orEmpty cert.dhParamsPem ≠ "" := by
  have hNotCa : cert.certType ≠ "ca" := hType ▸ (by decide : "server" ≠ "ca")
  have hPaths : pathsOf (m.certificateSteps cert) = join m.certDir "server.pem" ::
      ((if (m.keyText cert).isSome then [join m.certDir "server.key"] else []) ++
        if orEmpty cert.dhParamsPem = "" then [] else [join m.certDir "dh.pem"]) := by
    rw [Manager.certificateSteps, if_neg hPem, if_neg hNotCa, if_pos hType, pathsOf_append, pathsOf_append,
      pathsOf_keySteps, pathsOf_writeIf]
    rfl
  rw [hPaths, List.exists_mem_cons_iff, file_eq_iff hName (by decide)]
  refine or_congr_right ?_
  have hKey := file_eq_iff (m := m) hName (by decide : "server.key" ∈ certNames)
  have hDh := file_eq_iff (m := m) hName (by decide : "dh.pem" ∈ certNames)
  split
  · split <;> simp_all
  · split <;> simp_all

theorem written_by_certificate (hNames : NamesApart m r) (hCert : cert ∈ r.activeCertificates)
    (hName : name ∈ certNames) :
    (∃ path ∈ pathsOf (m.certificateSteps cert), resolve (join m.certDir name) = resolve path) ↔
      Supplies m cert name := by
  unfold Supplies
  rcases Classical.em (cert.pemData = "") with hPem | hPem
  · simp [Manager.certificateSteps, hPem, pathsOf]
  · rcases Classical.em (cert.certType = "ca") with hCa | hCa
    · simp [written_by_ca hNames hCert hName hPem hCa, hPem, hCa]
    · rcases Classical.em (cert.certType = "server") with hServer | hServer
      · simp [written_by_server hName hPem hServer, hPem, hServer]
      · simp [Manager.certificateSteps, hPem, hCa, hServer, pathsOf]

theorem named_supplied (hNames : NamesApart m r) (hName : name ∈ certNames) {configs : Dict String}
    (h : m.generateAllConfigs r = .ok configs) :
    (m.named r (resolve (join m.certDir name))).isSome ↔
      ∃ cert ∈ r.activeCertificates, Supplies m cert name := by
  have hCertFile : CertFile (resolve (join m.certDir name)) := by
    have hEnds : ∀ name ∈ certNames,
        name = "server.key" ∨ ∃ stem ∈ ["ca", "server", "dh"], name = stem ++ ".pem" := by
      decide
    rcases hEnds name hName with rfl | ⟨stem, -, rfl⟩
    · exact certFile_of_key _
    · exact certFile_of_pem _ _
  have hManaged := Manager.generateAllConfigs_managed h
  have hNone : m.generatedAt configs (resolve (join m.certDir name)) = none := by
    rw [Manager.generatedAt, Option.map_eq_none_iff, List.find?_eq_none]
    intro config hConfig hSame
    refine Manager.not_certFile_outputPath (m := m) (hManaged.subset config.1 (List.mem_map_of_mem hConfig)) ?_
    rw [of_decide_eq_true hSame]
    exact hCertFile
  have hLdap : ¬∃ path ∈ pathsOf (r.enabledLdapServers.flatMap m.ldapSteps),
      resolve (join m.certDir name) = resolve path := by
    rintro ⟨path, hPath, hSame⟩
    rw [pathsOf, List.filterMap_flatMap] at hPath
    obtain ⟨server, hServer, hPath⟩ := List.mem_flatMap.mp hPath
    change path ∈ pathsOf (m.ldapSteps server) at hPath
    rw [Manager.ldapSteps, pathsOf_writeIf] at hPath
    split at hPath
    · cases hPath
    · rw [List.mem_singleton.mp hPath] at hSame
      exact (hNames name hName).2 server hServer hSame
  rw [Manager.named, h]
  change ((m.generatedAt configs _).or (lastWrite (m.certSteps r) _)).isSome = true ↔ _
  rw [hNone, Option.none_or, lastWrite_isSome, Manager.certSteps, pathsOf_append]
  constructor
  · rintro ⟨path, hPath, hSame⟩
    rcases List.mem_append.mp hPath with hPath | hPath
    · rw [pathsOf, List.filterMap_flatMap] at hPath
      obtain ⟨cert, hCert, hPath⟩ := List.mem_flatMap.mp hPath
      exact ⟨cert, hCert, (written_by_certificate hNames hCert hName).mp ⟨path, hPath, hSame⟩⟩
    · exact absurd ⟨path, hPath, hSame⟩ hLdap
  · rintro ⟨cert, hCert, hSupplies⟩
    obtain ⟨path, hPath, hSame⟩ := (written_by_certificate hNames hCert hName).mpr hSupplies
    refine ⟨path, List.mem_append_left _ ?_, hSame⟩
    rw [pathsOf, List.filterMap_flatMap]
    exact List.mem_flatMap.mpr ⟨cert, hCert, hPath⟩

end Supply

/-! ## Histories -/

section Histories

variable {m : Manager} {calls : List Call} {last : Call}

theorem suffix_join (a b : String) : b.toList <:+ (join a b).toList := by
  unfold join
  split
  · exact List.suffix_refl _
  · split
    · rw [String.toList_append]
      exact List.suffix_append _ _
    · rw [String.toList_append]
      exact List.suffix_append _ _

theorem join_ne {a b w : String} (h : w.toList.length < b.toList.length) : join a b ≠ w := by
  rintro rfl
  exact absurd (suffix_join a b).length_le (Nat.not_le.mpr h)

theorem EapVarsOf.spelled {l : SiteLexis} {r : Reads} {vars : EapVars} (h : EapVarsOf m r vars)
    (hPaths : ∀ name ∈ certNames ++ ["trusted-cas/"], IsWord l.toLexis (join m.certDir name).toList)
    (hSettings : EapSettings (fun text => IsWord l.toLexis text.toList ∧ text.toList ≠ brace ∧
      IsWord l.toLexis (betweenQuotes text).toList) r) : EapVarsSpelled l.toLexis vars := by
  have hWord : ∀ {text : String}, Spelled text.toList = true → Spelled (betweenQuotes text).toList = true →
      text.toList ≠ brace → IsWord l.toLexis text.toList ∧ text.toList ≠ brace ∧
        IsWord l.toLexis (betweenQuotes text).toList :=
    fun hText hQuoted hNot => ⟨isWord_of_spelled hText, hNot, isWord_of_spelled hQuoted⟩
  have hTexts := h.settings _ (hWord (by decide) (by decide) (by decide))
    (hWord (by decide) (by decide) (by decide)) (hWord (by decide) (by decide) (by decide)) hSettings
  have hPath : ∀ name ∈ certNames ++ ["trusted-cas/"],
      IsWord l.toLexis (join m.certDir name).toList ∧ (join m.certDir name).toList ≠ brace := by
    intro name hName
    refine ⟨hPaths name hName, fun hEq => ?_⟩
    have hLong : ∀ name ∈ certNames ++ ["trusted-cas/"], "\x7b".toList.length < name.toList.length := by decide
    exact join_ne (hLong name hName) (String.toList_inj.mp hEq)
  simp only [List.forall_mem_cons, List.not_mem_nil, false_implies, implies_true, and_true] at hTexts
  constructor
  · rw [h.caCertPath, h.caPath, h.serverCertPath, h.serverKeyPath, h.dhFile]
    simp only [List.forall_mem_append, List.forall_mem_cons, List.not_mem_nil, false_implies, implies_true,
      and_true]
    refine ⟨⟨hPath _ (by decide), hPath _ (by decide), hPath _ (by decide), hPath _ (by decide),
      hTexts.1.1, hTexts.1.2.1⟩, fun path hMem => ?_⟩
    split at hMem
    · rcases List.mem_singleton.mp hMem with rfl
      exact hPath _ (by decide)
    · cases hMem
  · rw [h.cipherList]
    simp only [List.forall_mem_cons, List.not_mem_nil, false_implies, implies_true, and_true]
    exact ⟨hTexts.2.1.2.2, hTexts.2.2.2.2, isWord_of_spelled (by decide)⟩

theorem scan_eapLines_of {r : Reads} {vars : EapVars} (h : EapVarsOf m r vars) :
    (eapLines vars).scan namedFile [] =
      (["server.key", "server.pem", "ca.pem"] ++ (if namesDh r then ["dh.pem"] else [])).map
        fun name => (join m.certDir name).toList := by
  have hDh : (vars.dhFile.filter fun path => path ≠ "").toList =
      (if namesDh r then ["dh.pem"] else []).map (join m.certDir) := by
    have hNe : join m.certDir "dh.pem" ≠ "" := join_ne (by decide)
    rw [h.dhFile]
    split
    · simp [hNe]
    · rfl
  rw [scan_eapLines, hDh, h.serverKeyPath, h.serverCertPath, h.caCertPath]
  simp

/-- After a history without errors the files that `eap` names are on disk exactly if the rows of some
call supplied each of them: a CA, a server certificate and its key, and the parameters of a server
certificate if the last rows have parameters for the server or the CA. -/
theorem eap_files_iff (l : SiteLexis) (hTemplates : m.templates = repositoryTemplates)
    (hClean : CleanRun m (unrecorded fun _ => none) (calls ++ [last]))
    (hOk : NoErrorRun m (unrecorded fun _ => none) (calls ++ [last]))
    (hNames : ∀ c ∈ calls ++ [last], NamesApart m c.toReads)
    (hPaths : ∀ name ∈ certNames ++ ["trusted-cas/"], IsWord l.toLexis (join m.certDir name).toList)
    (hSettings : EapSettings (fun text => IsWord l.toLexis text.toList ∧ text.toList ≠ brace ∧
      IsWord l.toLexis (betweenQuotes text).toList) last.toReads) :
    ∃ content statements, let disk := (final m.applyConfigs (unrecorded fun _ => none) (calls ++ [last])).disk
      disk (resolve (m.outputPath "mods-available/eap")) = some (String.toUTF8 content) ∧
        l.readText content.toList = some statements ∧
        ((∀ path ∈ scan namedFile [] statements, (disk (resolve (String.ofList path))).isSome) ↔
          ∀ name ∈ ["server.key", "server.pem", "ca.pem"] ++ (if namesDh last.toReads then ["dh.pem"] else []),
            ∃ c ∈ calls ++ [last], ∃ cert ∈ c.activeCertificates, Supplies m cert name) := by
  obtain ⟨configs, hConfigs⟩ := generated_of_noError hOk last
    (List.mem_append_right _ (List.mem_singleton.mpr rfl))
  obtain ⟨k, hk⟩ := exists_capabilities hConfigs
  obtain ⟨vars, hContent, hVars⟩ := eapContent_eq hTemplates hk
  have hDisk : ∀ p, (final m.applyConfigs (unrecorded fun _ => none) (calls ++ [last])).disk p =
      m.lastNamed (calls ++ [last]) p := fun p =>
    (disk_of_history (unrecorded_faithful m _) hClean hOk p).trans Option.or_none
  have hHeld : ∀ name ∈ certNames, ((final m.applyConfigs (unrecorded fun _ => none) (calls ++ [last])).disk
      (resolve (join m.certDir name))).isSome ↔
        ∃ c ∈ calls ++ [last], ∃ cert ∈ c.activeCertificates, Supplies m cert name := by
    intro name hName
    have hNamed : ∀ c ∈ calls ++ [last], (m.named c.toReads (resolve (join m.certDir name))).isSome ↔
        ∃ cert ∈ c.activeCertificates, Supplies m cert name := by
      intro c hc
      obtain ⟨configs', hConfigs'⟩ := generated_of_noError hOk c hc
      exact named_supplied (hNames c hc) hName hConfigs'
    rw [hDisk]
    constructor
    · intro h
      obtain ⟨b, hb⟩ := Option.isSome_iff_exists.mp h
      obtain ⟨c, hc, hSome⟩ := exists_of_lastNamed hb
      exact ⟨c, hc, (hNamed c hc).mp hSome⟩
    · rintro ⟨c, hc, hCert⟩
      exact lastNamed_isSome hc ((hNamed c hc).mpr hCert)
  refine ⟨textOf (eapLines vars), _, ?_, readText_textOf (legible_eapLines (hVars.spelled hPaths hSettings)), ?_⟩
  · rw [hDisk]
    exact lastNamed_last calls hConfigs (by decide) ((eap_generated hTemplates hk).trans (congrArg some hContent))
  · have hScan : scan namedFile [] (eapLines vars).statements = _ := scan_eapLines_of hVars
    rw [hScan, List.forall_mem_map]
    have hSubset : ∀ name ∈ ["server.key", "server.pem", "ca.pem"] ++
        (if namesDh last.toReads then ["dh.pem"] else []), name ∈ certNames := by
      split <;> decide
    simp only [String.ofList_toList]
    exact forall₂_congr fun name hName => hHeld name (hSubset name hName)

end Histories

/-- A CA with parameters and a server certificate with a key. -/
def pairCall (dhParamsPem : Option String) : Call :=
  { plainCall with
    db := ⟨[⟨"ca", "Root", "PEM1", none, none, some "DH1", some true, some true⟩,
      ⟨"server", "radius", "PEM2", some "KEY", none, dhParamsPem, some true, some true⟩], [], [], [], []⟩ }

theorem pairCall_applies (dhParamsPem : Option String) (h : dhParamsPem ∈ [none, some "DH2"]) :
    Applies siteManager (pairCall dhParamsPem) where
  faultFree := ⟨fun _ => rfl, rfl, fun _ => rfl, fun _ => rfl, fun _ => rfl, fun _ _ => rfl⟩
  readable := by
    rcases List.mem_cons.mp h with rfl | h
    · exact ⟨by decide +kernel, by decide +kernel, by decide +kernel⟩
    · rcases List.mem_singleton.mp h with rfl
      exact ⟨by decide +kernel, by decide +kernel, by decide +kernel⟩
  decrypts := by
    refine ⟨fun c hc hServer => ?_, fun _ h => (by cases h), fun _ h => (by cases h), fun _ h => (by cases h)⟩
    unfold Manager.decryptSecret
    split
    · exact ⟨_, rfl⟩
    · split
      · exact ⟨_, rfl⟩
      · exact ⟨_, rfl⟩

/-- The parameters of a CA are named and not written. -/
theorem eap_files_pair :
    (∃ content statements,
      (final siteManager.applyConfigs (unrecorded fun _ => none) ([] ++ [pairCall none])).disk
          (resolve (siteManager.outputPath "mods-available/eap")) = some (String.toUTF8 content) ∧
        wideLexis.readText content.toList = some statements ∧
        ¬∀ path ∈ scan namedFile [] statements,
          ((final siteManager.applyConfigs (unrecorded fun _ => none) ([] ++ [pairCall none])).disk
            (resolve (String.ofList path))).isSome) ∧
    ∃ content statements,
      (final siteManager.applyConfigs (unrecorded fun _ => none) ([] ++ [pairCall (some "DH2")])).disk
          (resolve (siteManager.outputPath "mods-available/eap")) = some (String.toUTF8 content) ∧
        wideLexis.readText content.toList = some statements ∧
        ∀ path ∈ scan namedFile [] statements,
          ((final siteManager.applyConfigs (unrecorded fun _ => none) ([] ++ [pairCall (some "DH2")])).disk
            (resolve (String.ofList path))).isSome := by
  have hPaths : ∀ name ∈ certNames ++ ["trusted-cas/"],
      IsWord wideSiteLexis.toLexis (join siteManager.certDir name).toList := by decide
  have hSettings : ∀ P dh, EapSettings P (pairCall dh).toReads := fun _ _ _ h => absurd h List.not_mem_nil
  have hApplies : ∀ dh ∈ [none, some "DH2"], ∀ c ∈ [] ++ [pairCall dh], Applies siteManager c :=
    fun dh hDh => List.forall_mem_singleton.mpr (pairCall_applies dh hDh)
  have hNames : ∀ dh ∈ [none, some "DH2"], ∀ c ∈ [] ++ [pairCall dh], NamesApart siteManager c.toReads := by
    decide +kernel
  constructor
  · obtain ⟨content, statements, hDisk, hRead, hIff⟩ := eap_files_iff wideSiteLexis rfl
      (cleanRun_of_applies (hApplies none List.mem_cons_self) _)
      (noErrorRun_of_applies (hApplies none List.mem_cons_self) _) (hNames none List.mem_cons_self) hPaths
      (hSettings _ none)
    refine ⟨content, statements, hDisk, hRead, fun hAll => ?_⟩
    have hSupplied := hIff.mp hAll "dh.pem" (by decide +kernel)
    revert hSupplied
    decide +kernel
  · have hMem : some "DH2" ∈ [none, some "DH2"] := List.mem_cons_of_mem _ List.mem_cons_self
    obtain ⟨content, statements, hDisk, hRead, hIff⟩ := eap_files_iff wideSiteLexis rfl
      (cleanRun_of_applies (hApplies _ hMem) _) (noErrorRun_of_applies (hApplies _ hMem) _) (hNames _ hMem)
      hPaths (hSettings _ _)
    exact ⟨content, statements, hDisk, hRead, hIff.mpr (by decide +kernel)⟩

end OpenRadiusWeb.BareTexts
