import OpenRadiusWeb.ConfigManager.StoredHash

/-! # Calls with nothing to write

A call that reports no error either finds every stored hash current and touches
nothing, or applies something. A call without failures leaves every hash recorded,
so the same call again is of the first kind.
-/

namespace OpenRadiusWeb.ConfigManager

open Effects Paths

namespace Manager

/-- The stored hash of a file is not that of its new content. -/
def FileChanges (c : Call) (m : Manager) (w : World) (config : String × String) : Prop :=
  storedHash c w (configKey config.1) ≠ some (m.computeHash config.2)

/-- Some stored hash is not that of what the call generates. -/
def Changes (m : Manager) (c : Call) (w : World) : Prop :=
  storedHash c w certificatesKey ≠ some (m.certFilesHash c.toReads) ∨
    ∃ configs, m.generateAllConfigs c.toReads = .ok configs ∧
      ∃ config ∈ configs, FileChanges c m w config

end Manager

def NoError (results : Dict ConfigResult) : Prop := ∀ entry ∈ results, entry.2.status ≠ .error

def AllUnchanged (results : Dict ConfigResult) : Prop :=
  ∀ entry ∈ results, entry.2.status = .unchanged

def SomeApplied (results : Dict ConfigResult) : Prop :=
  ∃ entry ∈ results, entry.2.status = .applied

namespace Manager

variable {m : Manager} {c : Call}

theorem ConfigStep.entry {results results' : Dict ConfigResult} {filename content : String}
    {w w' : World} (h : m.ConfigStep c results filename content w (.ok results') w') :
    ∃ entry, results' = results.set (configTypeOf filename) entry ∧
      (entry.status = .unchanged ∧ w' = w ∧ ¬FileChanges c m w (filename, content) ∨
        entry.status = .applied ∧ FileChanges c m w (filename, content) ∨
        entry.status = .error) := by
  cases h with
  | unchanged _ hStored => exact ⟨_, rfl, .inl ⟨rfl, rfl, fun h => h hStored⟩⟩
  | written _ row _ hStored _ hResult =>
    cases hResult with
    | applied => exact ⟨_, rfl, .inr (.inl ⟨rfl, hStored⟩)⟩
    | error => exact ⟨_, rfl, .inr (.inr rfl)⟩

/-- The entries a list of files adds to the results. -/
theorem applyFiles_entries {configs : List (String × String)} (hManaged : Managed configs)
    {results results' : Dict ConfigResult} {w w' : World}
    (hNew : ∀ f ∈ Dict.keys configs, configTypeOf f ∉ Dict.keys results)
    (h : m.applyFiles c configs results w = (.ok results', w')) :
    ∃ entries, results' = results ++ entries ∧
      Dict.keys entries = (Dict.keys configs).map configTypeOf ∧
      (NoError entries →
        (w' = w ∧ AllUnchanged entries ∧ ∀ config ∈ configs, ¬FileChanges c m w config) ∨
        SomeApplied entries ∧ ∃ config ∈ configs, FileChanges c m w config) := by
  induction configs generalizing results w with
  | nil =>
    cases h
    exact ⟨[], by simp, rfl, fun _ => .inl ⟨rfl, by simp [AllUnchanged], by simp⟩⟩
  | cons config rest ih =>
    obtain ⟨filename, content⟩ := config
    have hFile := hManaged.subset filename List.mem_cons_self
    have hNotRest : filename ∉ Dict.keys rest := (List.nodup_cons.mp hManaged.nodup).1
    have hManagedRest : Managed rest := ⟨(List.nodup_cons.mp hManaged.nodup).2,
      fun f hf => hManaged.subset f (List.mem_cons_of_mem _ hf)⟩
    obtain ⟨results₁, w₁, hOne, hRest⟩ := Eff.ok_of_bind (by
      rwa [applyFiles, List.foldlM_cons] at h)
    have hStep := m.applyConfig_step c results filename content w
    rw [hOne] at hStep
    obtain ⟨entry, hSet, hKind⟩ := hStep.entry
    rw [Dict.set_of_notMem (hNew filename List.mem_cons_self)] at hSet
    have hNewRest : ∀ f ∈ Dict.keys rest, configTypeOf f ∉ Dict.keys results₁ := by
      intro f hf hMem
      rw [hSet, Dict.keys, List.map_append, List.mem_append] at hMem
      rcases hMem with hMem | hMem
      · exact hNew f (List.mem_cons_of_mem _ hf) hMem
      · refine configTypeOf_ne (hManagedRest.subset f hf) hFile ?_ (List.mem_singleton.mp hMem)
        rintro rfl
        exact hNotRest hf
    obtain ⟨entries, hEntries, hKeys, hOutcome⟩ := ih hManagedRest hNewRest hRest
    refine ⟨(configTypeOf filename, entry) :: entries, by simp [hEntries, hSet], ?_, ?_⟩
    · simpa [Dict.keys] using hKeys
    · intro hNoError
      have hNoErrorRest : NoError entries := fun e he => hNoError e (List.mem_cons_of_mem _ he)
      rcases hKind with ⟨hUnchanged, rfl, hSame⟩ | ⟨hApplied, hChanges⟩ | hError
      · rcases hOutcome hNoErrorRest with ⟨hw, hAll, hNone⟩ | ⟨⟨e, he, hApplied⟩, config, hMem, hCh⟩
        · exact .inl ⟨hw, List.forall_mem_cons.mpr ⟨hUnchanged, hAll⟩,
            List.forall_mem_cons.mpr ⟨hSame, hNone⟩⟩
        · exact .inr ⟨⟨e, List.mem_cons_of_mem _ he, hApplied⟩, config,
            List.mem_cons_of_mem _ hMem, hCh⟩
      · exact .inr ⟨⟨_, List.mem_cons_self, hApplied⟩, _, List.mem_cons_self, hChanges⟩
      · exact (hNoError _ List.mem_cons_self hError).elim

/-- A call that reports no error touches nothing and changes nothing, or applies a change. -/
theorem applyConfigs_noError {results : Dict ConfigResult} {w w' : World}
    (h : m.applyConfigs c w = (.ok results, w')) :
    "_reload" ∉ Dict.keys results ∧ (NoError results →
      w' = w ∧ AllUnchanged results ∧ ¬Changes m c w ∨ SomeApplied results ∧ Changes m c w) := by
  obtain ⟨certificates, w₁, hRun, hStep⟩ := m.applyCertificates_step c w
  rw [applyConfigs, Eff.bind_of_ok hRun] at h
  cases hConfigs : m.generateAllConfigs c.toReads with
  | error e =>
    rw [hConfigs] at h
    cases h
    exact ⟨by simp [Dict.keys], fun hNoError => (hNoError _ List.mem_cons_self rfl).elim⟩
  | ok configs =>
    rw [hConfigs] at h
    have hManaged := generateAllConfigs_managed hConfigs
    obtain ⟨entries, rfl, hKeys, hOutcome⟩ := applyFiles_entries hManaged (by
      intro f hf hMem
      exact configTypeOf_ne_certificates (hManaged.subset f hf) (List.mem_singleton.mp hMem)) h
    constructor
    · intro hMem
      rw [Dict.keys, List.map_append, List.mem_append] at hMem
      rcases hMem with hMem | hMem
      · simp at hMem
      · rw [← Dict.keys, hKeys] at hMem
        obtain ⟨f, hf, hEq⟩ := List.mem_map.mp hMem
        have hType := configTypeOf_mem (hManaged.subset f hf)
        rw [hEq] at hType
        revert hType
        decide
    · intro hNoError
      have hNoErrorFiles : NoError entries := fun e he =>
        hNoError e (List.mem_append_right _ he)
      have hCertificates := hNoError _ (List.mem_append_left _ List.mem_cons_self)
      cases hStep with
      | failed => exact (hCertificates rfl).elim
      | unchanged _ hStored =>
        rcases hOutcome hNoErrorFiles with ⟨hw, hAll, hNone⟩ | ⟨⟨e, he, hApplied⟩, hChanges⟩
        · refine .inl ⟨hw, List.forall_mem_cons.mpr ⟨rfl, hAll⟩, ?_⟩
          rintro (hNot | ⟨configs', hConfigs', config, hMem, hChanges⟩)
          · exact hNot hStored
          · rw [hConfigs] at hConfigs'
            cases hConfigs'
            exact hNone config hMem hChanges
        · exact .inr ⟨⟨e, List.mem_append_right _ he, hApplied⟩, .inr ⟨configs, hConfigs, hChanges⟩⟩
      | written _ _ _ hWrites _ _ _ hResult =>
        rcases hResult with ⟨rfl, -⟩ | ⟨e, rfl⟩
        · exact .inr ⟨⟨_, List.mem_append_left _ List.mem_cons_self, rfl⟩, .inl hWrites.2⟩
        · exact (hCertificates rfl).elim

end Manager

/-! ## The same call again -/

namespace Manager

variable {m : Manager} {c : Call}

theorem ConfigStep.recorded (hFaults : FaultFree c) {results : Dict ConfigResult}
    {filename content : String} {w w' : World} {r : Except Exc (Dict ConfigResult)}
    (h : m.ConfigStep c results filename content w r w') :
    w'.lastAppliedHash (configKey filename) = some (m.computeHash content) := by
  cases h with
  | aborted e hRaises =>
    rw [hFaults.reads] at hRaises
    cases hRaises
  | unchanged _ hStored => exact ReadOutcome.stored_of_answer hStored
  | written _ row _ _ hRow _ =>
    have hRecords : records c filename := by
      simp [records, hFaults.configWrites, hFaults.saves, WriteOutcome.raised]
    rw [World.lastAppliedHash, recordRow, if_pos hRecords]
    simp [hRow]

/-- After a list of files was applied without failures, their new hashes are recorded. -/
theorem applyFiles_recorded (hFaults : FaultFree c) {configs : List (String × String)}
    (hManaged : Managed configs) (results : Dict ConfigResult) {w : World}
    (hFaithful : Faithful m w) : ∃ results' w', m.applyFiles c configs results w = (.ok results', w') ∧
      ∀ config ∈ configs, w'.lastAppliedHash (configKey config.1) =
        some (m.computeHash config.2) := by
  induction configs generalizing results w with
  | nil => exact ⟨results, w, rfl, by simp⟩
  | cons config rest ih =>
    obtain ⟨filename, content⟩ := config
    have hFile := hManaged.subset filename List.mem_cons_self
    have hNotRest : filename ∉ Dict.keys rest := (List.nodup_cons.mp hManaged.nodup).1
    have hManagedRest : Managed rest := ⟨(List.nodup_cons.mp hManaged.nodup).2,
      fun f hf => hManaged.subset f (List.mem_cons_of_mem _ hf)⟩
    have hStep := m.applyConfig_step c results filename content w
    obtain ⟨results₁, hOk⟩ := hStep.returns (by rw [hFaults.reads]; rfl) (by rw [hFaults.saves])
    rcases hOne : m.applyConfig c results filename content w with ⟨r, w₁⟩
    rw [hOne] at hStep hOk
    subst hOk
    have hFaithful₁ := hStep.faithful hFile hFaithful (hFaults.filesClean w [(filename, content)]).1
    obtain ⟨results', w', hRest, hRecorded⟩ := ih hManagedRest results₁ hFaithful₁
    have hFrame := (applyFiles_run hManagedRest results₁ hFaithful₁
      (hFaults.filesClean w₁ rest)).sameFile filename hFile hNotRest
    rw [hRest] at hFrame
    refine ⟨results', w', ?_, List.forall_mem_cons.mpr ⟨?_, hRecorded⟩⟩
    · rw [applyFiles, List.foldlM_cons]
      exact (Eff.bind_of_ok hOne).trans hRest
    · rw [hFrame.2]
      exact hStep.recorded hFaults

/-- A list of files whose hashes are recorded is reported unchanged and left alone. -/
theorem applyFiles_current (hFaults : FaultFree c) {configs : List (String × String)}
    {results : Dict ConfigResult} (hResults : AllUnchanged results) {w : World}
    (hRecorded : ∀ config ∈ configs, w.lastAppliedHash (configKey config.1) =
      some (m.computeHash config.2)) :
    ∃ results', m.applyFiles c configs results w = (.ok results', w) ∧ AllUnchanged results' := by
  induction configs generalizing results with
  | nil => exact ⟨results, rfl, hResults⟩
  | cons config rest ih =>
    obtain ⟨filename, content⟩ := config
    rw [List.forall_mem_cons] at hRecorded
    have hStored : storedHash c w (configKey filename) = some (m.computeHash content) := by
      rw [storedHash, hFaults.reads]
      exact hRecorded.1
    have hStep := m.applyConfig_step c results filename content w
    rcases hOne : m.applyConfig c results filename content w with ⟨r, w₁⟩
    rw [hOne] at hStep
    cases hStep with
    | aborted e hRaises =>
      rw [hFaults.reads] at hRaises
      cases hRaises
    | unchanged =>
      have hSet := Dict.forall_mem_set (p := fun e : ConfigResult => e.status = .unchanged) hResults
        (configTypeOf filename) (v := ⟨.unchanged, m.computeHash content, none⟩) rfl
      obtain ⟨results', hRest, hAll⟩ := ih hSet hRecorded.2
      refine ⟨results', ?_, hAll⟩
      rw [applyFiles, List.foldlM_cons]
      exact (Eff.bind_of_ok hOne).trans hRest
    | written _ _ _ hNot => exact (hNot hStored).elim

theorem certificatesReady_of_faultFree (hFaults : FaultFree c) : certificatesReady c :=
  ⟨fun q _ => hFaults.queries q, hFaults.makedirs, by rw [hFaults.reads]; rfl⟩

theorem CertificatesStep.recorded (hFaults : FaultFree c)
    (hKeys : stepsComplete c.certWrite (m.certSteps c.toReads) 0) {w w' : World}
    {result : ConfigResult} (h : m.CertificatesStep c w result w') :
    w'.lastAppliedHash certificatesKey = some (m.certFilesHash c.toReads) := by
  cases h with
  | failed _ hFails => exact (hFails (certificatesReady_of_faultFree hFaults)).elim
  | unchanged _ hStored => exact ReadOutcome.stored_of_answer hStored
  | written _ rows row _ hRow hRecorded =>
    rw [hRecorded ⟨hKeys, by rw [hFaults.saves]⟩, World.lastAppliedHash]
    simp [hRow]

theorem applyCertificates_current (hFaults : FaultFree c) {w : World}
    (hRecorded : w.lastAppliedHash certificatesKey = some (m.certFilesHash c.toReads)) :
    ∃ result, m.applyCertificates c w = (.ok result, w) ∧ result.status = .unchanged := by
  have hStored : storedHash c w certificatesKey = some (m.certFilesHash c.toReads) := by
    rw [storedHash, hFaults.reads]
    exact hRecorded
  obtain ⟨result, w', hRun, hStep⟩ := m.applyCertificates_step c w
  cases hStep with
  | failed _ hFails => exact (hFails (certificatesReady_of_faultFree hFaults)).elim
  | unchanged => exact ⟨_, hRun, rfl⟩
  | written _ rows row hWrites => exact (hWrites.2 hStored).elim

/-- A call without failures records what it generates, and the same call again reports
everything unchanged and touches nothing. -/
theorem applyConfigs_idempotent (hFaults : FaultFree c) {w : World} (hFaithful : Faithful m w)
    (hReadable : Readable m c.toReads)
    (hKeys : stepsComplete c.certWrite (m.certSteps c.toReads) 0) {configs : Dict String}
    (hConfigs : m.generateAllConfigs c.toReads = .ok configs) :
    ∃ results w' results', m.applyConfigs c w = (.ok results, w') ∧
      m.applyConfigs c w' = (.ok results', w') ∧ AllUnchanged results' ∧
      ∀ config ∈ configs, w'.lastAppliedHash (configKey config.1) =
        some (m.computeHash config.2) := by
  have hManaged := generateAllConfigs_managed hConfigs
  obtain ⟨certificates, w₁, hRun, hStep⟩ := m.applyCertificates_step c w
  have hFaithful₁ := hStep.faithful hFaithful (hFaults.clean w hReadable hKeys)
  obtain ⟨results, w', hFiles, hRecorded⟩ := applyFiles_recorded hFaults hManaged
    [("certificates", certificates)] hFaithful₁
  have hFrame := (applyFiles_run hManaged [("certificates", certificates)] hFaithful₁
    (hFaults.filesClean w₁ configs)).sameCertificates
  rw [hFiles] at hFrame
  obtain ⟨result, hCurrent, hStatus⟩ := applyCertificates_current hFaults
    (hFrame.2.trans (hStep.recorded hFaults hKeys))
  have hStart : AllUnchanged [("certificates", result)] := by simpa [AllUnchanged] using hStatus
  obtain ⟨results', hAgain, hAll⟩ := applyFiles_current hFaults hStart hRecorded
  refine ⟨results, w', results', ?_, ?_, hAll, hRecorded⟩
  · rw [applyConfigs, Eff.bind_of_ok hRun, hConfigs]
    exact hFiles
  · rw [applyConfigs, Eff.bind_of_ok hCurrent, hConfigs]
    exact hAgain

end Manager

end OpenRadiusWeb.ConfigManager
