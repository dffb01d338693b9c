import OpenRadiusWeb.ConfigManager.Idempotence

/-! # Calls that bring the configuration out

A call whose operations succeed, on rows whose secrets decrypt and whose certificate inputs
can be read back from the hash, leaves the configuration of these rows on disk.
-/

theorem Except.mapM_succeeds {ε α β : Type} {f : α → Except ε β} {xs : List α}
    (h : ∀ x ∈ xs, ∃ y, f x = .ok y) : ∃ ys, xs.mapM f = .ok ys := by
  induction xs with
  | nil => exact ⟨[], rfl⟩
  | cons x xs ih =>
    rw [List.forall_mem_cons] at h
    rw [List.mapM_cons]
    exact Except.bind_succeeds h.1 fun y => Except.bind_succeeds (ih h.2) fun ys => ⟨y :: ys, rfl⟩

namespace OpenRadiusWeb.ConfigManager

open Effects Paths Sorting

/-- The secrets that a call decrypts. -/
structure Decrypts (m : Manager) (r : Reads) : Prop where
  keys : ∀ c ∈ r.activeCertificates, c.certType = "server" →
    ∃ key, m.decryptSecret c.keyPemEncrypted = .ok key
  bindPasswords : ∀ s ∈ r.enabledLdapServers,
    ∃ password, m.decryptSecret (some s.bindPasswordEncrypted) = .ok password
  proxySecrets : ∀ realm ∈ r.db.radiusRealms, realm.enabled = some true →
    realm.realmType = "proxy" → ∃ secret, m.decryptSecret realm.proxySecretEncrypted = .ok secret
  clientSecrets : ∀ client ∈ r.db.radiusNasClients, client.enabled = some true →
    ∃ secret, m.decryptSecret (some client.secretEncrypted) = .ok secret

/-- What a call that succeeds needs of its operations and of the rows it reads. -/
structure Applies (m : Manager) (c : Call) : Prop where
  faultFree : FaultFree c
  readable : Readable m c.toReads
  decrypts : Decrypts m c.toReads

/-- The files on disk are the configuration generated from the database. -/
def UpToDate (m : Manager) (db : Database) (w : World) : Prop :=
  ∃ r : Reads, r.db = db ∧ (∀ q, r.queryFails q = none) ∧ Holds w.disk (m.certSteps r) ∧
    ∃ configs, m.generateAllConfigs r = .ok configs ∧
      ∀ config ∈ configs, w.disk (resolve (m.outputPath config.1)) = some config.2.toUTF8

namespace Manager

variable {m : Manager} {r : Reads} {c : Call} {w : World}

/-! ## Nothing raises -/

theorem fetchAll_ok {α : Type} (hQueries : ∀ q, r.queryFails q = none) (q : Query) (rows : List α) :
    r.fetchAll q rows = .ok rows := by
  rw [Reads.fetchAll, hQueries]

theorem generateEapConfig_succeeds (hQueries : ∀ q, r.queryFails q = none) :
    ∃ content, m.generateEapConfig r = .ok content := by
  rw [generateEapConfig, Reads.loadActiveCertificates, Reads.loadSystemSettings,
    fetchAll_ok hQueries, fetchAll_ok hQueries]
  exact ⟨_, rfl⟩

theorem renderedServer_succeeds {server : LdapServer}
    (h : ∃ password, m.decryptSecret (some server.bindPasswordEncrypted) = .ok password) :
    ∃ rendered, m.renderedServer server = .ok rendered :=
  Except.bind_succeeds h fun _ => ⟨_, rfl⟩

theorem generateLdapConfigs_succeeds (hQueries : ∀ q, r.queryFails q = none)
    (hDecrypts : Decrypts m r) : ∃ files, m.generateLdapConfigs r = .ok files := by
  rw [generateLdapConfigs]
  refine Except.exists_ok_bind.mpr ⟨_, fetchAll_ok hQueries _ _, ?_⟩
  refine Except.bind_succeeds ?_ fun rendered => ?_
  · exact Except.mapM_succeeds fun server hServer =>
      renderedServer_succeeds (hDecrypts.bindPasswords server hServer)
  · split
    · exact ⟨_, rfl⟩
    · exact ⟨_, rfl⟩
    · exact ⟨_, rfl⟩

theorem generateProxyConfig_succeeds (hQueries : ∀ q, r.queryFails q = none)
    (hDecrypts : Decrypts m r) : ∃ content, m.generateProxyConfig r = .ok content := by
  rw [generateProxyConfig]
  refine Except.exists_ok_bind.mpr ⟨_, fetchAll_ok hQueries _ _, ?_⟩
  refine Except.bind_succeeds (Except.mapM_succeeds fun realm hRealm => ?_) fun _ => ⟨_, rfl⟩
  obtain ⟨hMem, hProxy⟩ := List.mem_filter.mp hRealm
  obtain ⟨hStored, hEnabled⟩ := List.mem_filter.mp (mem_sortBy.mp hMem)
  exact Except.bind_succeeds
    (hDecrypts.proxySecrets realm hStored (of_decide_eq_true hEnabled) (of_decide_eq_true hProxy))
    fun _ => ⟨_, rfl⟩

theorem generateClientsConfig_succeeds (hQueries : ∀ q, r.queryFails q = none)
    (hDecrypts : Decrypts m r) : ∃ content, m.generateClientsConfig r = .ok content := by
  rw [generateClientsConfig]
  refine Except.exists_ok_bind.mpr ⟨_, fetchAll_ok hQueries _ _, ?_⟩
  refine Except.bind_succeeds (Except.mapM_succeeds fun client hClient => ?_) fun _ => ⟨_, rfl⟩
  obtain ⟨hStored, hEnabled⟩ := List.mem_filter.mp (mem_sortBy.mp hClient)
  exact Except.bind_succeeds
    (hDecrypts.clientSecrets client hStored (of_decide_eq_true hEnabled)) fun _ => ⟨_, rfl⟩

theorem generateAllConfigs_succeeds (hQueries : ∀ q, r.queryFails q = none)
    (hDecrypts : Decrypts m r) : ∃ configs, m.generateAllConfigs r = .ok configs := by
  rw [generateAllConfigs]
  refine Except.bind_succeeds (generateEapConfig_succeeds hQueries) fun eapContent => ?_
  refine Except.bind_succeeds (generateLdapConfigs_succeeds hQueries hDecrypts) fun files => ?_
  refine Except.bind_succeeds ⟨_, fetchAll_ok hQueries _ _⟩ fun realms => ?_
  refine Except.bind_succeeds (generateProxyConfig_succeeds hQueries hDecrypts) fun proxy => ?_
  exact Except.bind_succeeds (generateClientsConfig_succeeds hQueries hDecrypts)
    fun clients => ⟨_, rfl⟩

theorem stepsComplete_of_writes {outcomes : Nat → WriteOutcome}
    (hWrites : ∀ k, outcomes k = .completes) {steps : List CertStep}
    (hSteps : ∀ e, CertStep.raise e ∉ steps) (k : Nat) : stepsComplete outcomes steps k := by
  induction steps generalizing k with
  | nil => trivial
  | cons step rest ih =>
    have hRest := ih (fun e he => hSteps e (List.mem_cons_of_mem _ he)) (k + 1)
    cases step with
    | raise e => exact (hSteps e List.mem_cons_self).elim
    | write path content =>
      refine ⟨?_, hRest⟩
      rw [hWrites]
      rfl

theorem raise_not_mem_writeIf {path : String} {content : Option String} {e : Exc} :
    CertStep.raise e ∉ writeIf path content := by
  unfold writeIf
  split <;> simp

theorem raise_not_mem_certSteps (hDecrypts : Decrypts m r) (e : Exc) :
    CertStep.raise e ∉ m.certSteps r := by
  intro hMem
  rcases List.mem_append.mp hMem with hMem | hMem
  · obtain ⟨cert, hCert, hMem⟩ := List.mem_flatMap.mp hMem
    unfold certificateSteps at hMem
    split_ifs at hMem with hEmpty hCa hServer
    · cases hMem
    · simp [raise_not_mem_writeIf] at hMem
    · obtain ⟨key, hKey⟩ := hDecrypts.keys cert hCert hServer
      simp [raise_not_mem_writeIf, keySteps, hKey] at hMem
    · cases hMem
  · obtain ⟨server, -, hMem⟩ := List.mem_flatMap.mp hMem
    exact raise_not_mem_writeIf hMem

theorem stepsComplete_of_applies (h : Applies m c) :
    stepsComplete c.certWrite (m.certSteps c.toReads) 0 :=
  stepsComplete_of_writes h.faultFree.certWrites (raise_not_mem_certSteps h.decrypts) 0

/-! ## What the call leaves -/

/-- The call returns and records the hash of all that it generates. -/
theorem applyConfigs_records (h : Applies m c) (hFaithful : Faithful m w) {configs : Dict String}
    (hConfigs : m.generateAllConfigs c.toReads = .ok configs) :
    ∃ results w', m.applyConfigs c w = (.ok results, w') ∧
      w'.lastAppliedHash certificatesKey = some (m.certFilesHash c.toReads) ∧
      ∀ config ∈ configs, w'.lastAppliedHash (configKey config.1) =
        some (m.computeHash config.2) := by
  have hManaged := generateAllConfigs_managed hConfigs
  have hKeys := stepsComplete_of_applies h
  obtain ⟨certificates, w₁, hRun, hStep⟩ := m.applyCertificates_step c w
  have hFaithful₁ := hStep.faithful hFaithful (h.faultFree.clean w h.readable hKeys)
  obtain ⟨results, w', hFiles, hRecorded⟩ := applyFiles_recorded h.faultFree hManaged
    [("certificates", certificates)] hFaithful₁
  have hFrame := (applyFiles_run hManaged [("certificates", certificates)] hFaithful₁
    (h.faultFree.filesClean w₁ configs)).sameCertificates
  rw [hFiles] at hFrame
  refine ⟨results, w', ?_, hFrame.2.trans (hStep.recorded h.faultFree hKeys), hRecorded⟩
  rw [applyConfigs, Eff.bind_of_ok hRun, hConfigs]
  exact hFiles

theorem applyConfigs_upToDate (h : Applies m c) (hFaithful : Faithful m w) :
    Faithful m (m.applyConfigs c w).2 ∧ UpToDate m c.db (m.applyConfigs c w).2 := by
  obtain ⟨configs, hConfigs⟩ := generateAllConfigs_succeeds h.faultFree.queries h.decrypts
  have hKept := (applyConfigs_faithful hFaithful
    (h.faultFree.clean w h.readable (stepsComplete_of_applies h))).1
  obtain ⟨results, w', hRun, hCertificates, hFiles⟩ := applyConfigs_records h hFaithful hConfigs
  rw [hRun] at hKept ⊢
  refine ⟨hKept, c.toReads, rfl, h.faultFree.queries,
    hKept.certificates _ h.readable hCertificates, configs, hConfigs, ?_⟩
  intro config hMem
  have hFile := (generateAllConfigs_managed hConfigs).subset _ (List.mem_map_of_mem hMem)
  exact hKept.files config.1 hFile config.2 (hFiles config hMem)

/-- A call without certificates to write leaves the certificate files alone. -/
theorem applyConfigs_certFile (h : Applies m c) (hFaithful : Faithful m w)
    (hNone : m.certSteps c.toReads = []) {p : Path} (hp : CertFile p) :
    (m.applyConfigs c w).2.disk p = w.disk p := by
  obtain ⟨configs, hConfigs⟩ := generateAllConfigs_succeeds h.faultFree.queries h.decrypts
  have hManaged := generateAllConfigs_managed hConfigs
  obtain ⟨certificates, w₁, hRun, hStep⟩ := m.applyCertificates_step c w
  have hFaithful₁ := hStep.faithful hFaithful
    (h.faultFree.clean w h.readable (stepsComplete_of_applies h))
  have hFrame := (applyFiles_run hManaged [("certificates", certificates)] hFaithful₁
    (h.faultFree.filesClean w₁ configs)).sameCertificates
  have hAll : m.applyConfigs c w = m.applyFiles c configs [("certificates", certificates)] w₁ := by
    rw [applyConfigs, Eff.bind_of_ok hRun, hConfigs]
    rfl
  rw [hAll, hFrame.1 p hp]
  cases hStep with
  | failed => rfl
  | unchanged => rfl
  | written =>
    rw [hNone]
    rfl

end Manager

end OpenRadiusWeb.ConfigManager
