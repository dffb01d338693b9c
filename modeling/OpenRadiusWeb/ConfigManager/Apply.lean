import OpenRadiusWeb.ConfigManager.CertHash

/-! # Applying the configuration

`apply_configs` over the two stores: certificates first, then every generated file in
order, each skipped when the recorded hash is that of the new content. The last
part says what one file's step can do, and derives it once for every later proof.
-/

namespace OpenRadiusWeb.ConfigManager

open Effects Paths

/-- The input of one call: what it reads and how each of its operations turns out. -/
structure Call extends Reads where
  makedirsFails : Option Exc
  certWrite : Nat → WriteOutcome
  configWrite : String → WriteOutcome
  read : String → ReadOutcome
  save : String → Status → SaveOutcome

/-- An entry of the result dictionary. -/
structure ConfigResult where
  status : Status
  hash : String
  error : Option String

/-- The type a file is recorded under. -/
def configTypeOf (filename : String) : String :=
  if Text.contains "eap" filename then "eap"
  else if Text.contains "ldap" filename then "ldap"
  else if Text.contains "proxy" filename then "proxy"
  else if Text.contains "clients" filename then "clients"
  else if Text.contains "inner-tunnel" filename then "inner-tunnel"
  else if Text.contains "default" filename then "site-default"
  else if Text.contains "python" filename then "python"
  else Text.replaceChar '.' "_" (Text.replaceChar '/' "_" filename)

/-- The row of the certificate files. -/
def certificatesKey : String × String := ("certificates", "_cert_files")

/-- The row of a configuration file. -/
def configKey (filename : String) : String × String := (configTypeOf filename, filename)

namespace Manager

variable (m : Manager) (c : Call)

def outputPath (filename : String) : String := join m.outputDir filename

def writeCertificates (certHash : String) : Eff World Exc ConfigResult := do
  m.writeCertFiles c.toReads c.makedirsFails c.certWrite
  saveConfigState (c.save "_cert_files" .applied) "certificates" "_cert_files" "" certHash
    .applied none
  return ⟨.applied, certHash, none⟩

/-- The body of the first `try` statement of `apply_configs`. -/
def refreshCertificates : Eff World Exc ConfigResult := do
  let certHash ← Eff.lift (m.computeCertFilesHash c.toReads)
  let storedCertHash ← getStoredHash (c.read "_cert_files") "certificates" "_cert_files"
  if storedCertHash = some certHash then
    return ⟨.unchanged, certHash, none⟩
  else
    m.writeCertificates c certHash

/-- The certificate step of `apply_configs`. -/
def applyCertificates : Eff World Exc ConfigResult :=
  Eff.attempt (m.refreshCertificates c) fun e => return ⟨.error, "", some e⟩

/-- The `try` statement of `apply_configs` for one generated file. -/
def writeConfig (results : Dict ConfigResult) (filename content : String) :
    Eff World Exc (Dict ConfigResult) :=
  Eff.attempt
    (do
      writeFile (c.configWrite filename) (m.outputPath filename) content
      saveConfigState (c.save filename .applied) (configTypeOf filename) filename content
        (m.computeHash content) .applied none
      return results.set (configTypeOf filename) ⟨.applied, m.computeHash content, none⟩)
    fun e => do
      saveConfigState (c.save filename .error) (configTypeOf filename) filename content
        (m.computeHash content) .error (some e)
      return results.set (configTypeOf filename) ⟨.error, m.computeHash content, some e⟩

/-- The step of `apply_configs` for one generated file. -/
def applyConfig (results : Dict ConfigResult) (filename content : String) :
    Eff World Exc (Dict ConfigResult) := do
  let storedHash ← getStoredHash (c.read filename) (configTypeOf filename) filename
  if storedHash = some (m.computeHash content) then
    return results.set (configTypeOf filename) ⟨.unchanged, m.computeHash content, none⟩
  else
    m.writeConfig c results filename content

/-- `apply_configs`. -/
def applyConfigs : Eff World Exc (Dict ConfigResult) := do
  let certificates ← m.applyCertificates c
  match m.generateAllConfigs c.toReads with
  | .error e => return [("_generate_error", ⟨.error, "", some e⟩)]
  | .ok configs =>
    configs.foldlM (fun results config => m.applyConfig c results config.1 config.2)
      [("certificates", certificates)]

/-! ## What the step of one file can do -/

/-- Whether the new hash ends up recorded when the file is written. -/
def records (filename : String) : Prop :=
  if (c.configWrite filename).raised = none then
    (c.save filename .applied).commits ∨
      ((c.save filename .applied).raises ≠ none ∧ (c.save filename .error).commits)
  else (c.save filename .error).commits

instance (filename : String) : Decidable (records c filename) := by
  unfold records
  infer_instance

/-- The rows after a file was written. -/
def recordRow (rows : String × String → Option ConfigRow) (filename : String) (row : ConfigRow) :
    String × String → Option ConfigRow :=
  if records c filename then Function.update rows (configKey filename) (some row) else rows

/-- The stored hash a step works with. -/
def storedHash (w : World) (key : String × String) : Option String :=
  (c.read key.2).answer (w.lastAppliedHash key)

/-- Whether nothing fails before the first write of the certificate step. -/
def certificatesReady : Prop :=
  (∀ q ∈ [Query.hashCertificates, .hashLdapServers, .fileCertificates, .fileLdapServers],
      c.queryFails q = none) ∧
    c.makedirsFails = none ∧ (c.read "_cert_files").raised = none

/-- Whether the certificate step gets to the first of its writes. -/
def writesCertificates (w : World) : Prop :=
  certificatesReady c ∧ storedHash c w certificatesKey ≠ some (m.certFilesHash c.toReads)

/-- Whether the certificate step records the new hash once it writes. -/
def recordsCertificates : Prop :=
  stepsComplete c.certWrite (m.certSteps c.toReads) 0 ∧ (c.save "_cert_files" .applied).commits

/-- The certificate step: it fails before a write, the files are current, or it writes. -/
inductive CertificatesStep (w : World) : ConfigResult → World → Prop
  | failed (e : Exc) (hFails : ¬certificatesReady c) : CertificatesStep w ⟨.error, "", some e⟩ w
  | unchanged (hRead : (c.read "_cert_files").raised = none)
      (hStored : storedHash c w certificatesKey = some (m.certFilesHash c.toReads)) :
    CertificatesStep w ⟨.unchanged, m.certFilesHash c.toReads, none⟩ w
  | written (result : ConfigResult) (rows : String × String → Option ConfigRow) (row : ConfigRow)
      (hWrites : m.writesCertificates c w)
      (hRow : row.lastAppliedHash = some (m.certFilesHash c.toReads))
      (hRecorded : m.recordsCertificates c →
        rows = Function.update w.freeradiusConfig certificatesKey (some row))
      (hNotRecorded : ¬m.recordsCertificates c → rows = w.freeradiusConfig)
      (hResult : result = ⟨.applied, m.certFilesHash c.toReads, none⟩ ∧
          stepsComplete c.certWrite (m.certSteps c.toReads) 0 ∨
        ∃ e, result = ⟨.error, "", some e⟩) :
    CertificatesStep w result
      { disk := stepsLeave c.certWrite (m.certSteps c.toReads) 0 w.disk
        freeradiusConfig := rows }

/-- What a written file's step returns: the result with the new status, or an exception
out of `apply_configs`. -/
inductive WrittenResult (results : Dict ConfigResult) (filename configHash : String) :
    Except Exc (Dict ConfigResult) → Prop
  | applied (hWrite : (c.configWrite filename).raised = none)
      (hSave : (c.save filename .applied).raises = none) :
    WrittenResult results filename configHash
      (.ok (results.set (configTypeOf filename) ⟨.applied, configHash, none⟩))
  | error (e : Exc) (hSave : (c.save filename .error).raises = none) :
    WrittenResult results filename configHash
      (.ok (results.set (configTypeOf filename) ⟨.error, configHash, some e⟩))
  | raised (e : Exc) (hSave : (c.save filename .error).raises = some e) :
    WrittenResult results filename configHash (.error e)

/-- One file's step: the lookup raises, the content is current, or the file is written. -/
inductive ConfigStep (results : Dict ConfigResult) (filename content : String) (w : World) :
    Except Exc (Dict ConfigResult) → World → Prop
  | aborted (e : Exc) (hRead : (c.read filename).raised = some e) :
    ConfigStep results filename content w (.error e) w
  | unchanged (hRead : (c.read filename).raised = none)
      (hStored : storedHash c w (configKey filename) = some (m.computeHash content)) :
    ConfigStep results filename content w
      (.ok (results.set (configTypeOf filename) ⟨.unchanged, m.computeHash content, none⟩)) w
  | written (result : Except Exc (Dict ConfigResult)) (row : ConfigRow)
      (hRead : (c.read filename).raised = none)
      (hStored : storedHash c w (configKey filename) ≠ some (m.computeHash content))
      (hRow : row.lastAppliedHash = some (m.computeHash content))
      (hResult : WrittenResult c results filename (m.computeHash content) result) :
    ConfigStep results filename content w result
      { disk := w.disk.written (m.outputPath filename) (c.configWrite filename) content
        freeradiusConfig := recordRow c w.freeradiusConfig filename row }

end Manager

theorem getStoredHash_of_raised {o : ReadOutcome} {e : Exc} (h : o.raised = some e)
    (configType configName : String) (w : World) :
    getStoredHash o configType configName w = (.error e, w) := by
  rw [getStoredHash, Eff.bind_of_error (by rw [raiseIf, Eff.lift_apply, h]; rfl)]

theorem getStoredHash_of_read {o : ReadOutcome} (h : o.raised = none)
    (configType configName : String) (w : World) :
    getStoredHash o configType configName w =
      (.ok (o.answer (w.lastAppliedHash (configType, configName))), w) := by
  rw [getStoredHash, Eff.bind_of_ok (by rw [raiseIf, Eff.lift_apply, h]; rfl)]
  rfl

/-- The rows an upsert leaves. -/
def savedRows (o : SaveOutcome) (rows : String × String → Option ConfigRow) (key : String × String)
    (row : ConfigRow) : String × String → Option ConfigRow :=
  if o.commits then Function.update rows key (some row) else rows

theorem saveConfigState_apply (o : SaveOutcome) (configType configName content configHash : String)
    (status : Status) (error : Option String) (w : World) :
    saveConfigState o configType configName content configHash status error w =
      (outcomeOf o.raises, { w with
        freeradiusConfig := savedRows o w.freeradiusConfig (configType, configName)
          (appliedRow content configHash status error) }) := by
  obtain ⟨commits, raises⟩ := o
  cases commits <;> rfl

namespace Manager

theorem writeConfig_step (m : Manager) (c : Call) (results : Dict ConfigResult)
    (filename content : String) (w : World) : ∃ result row,
    m.writeConfig c results filename content w = (result,
      { disk := w.disk.written (m.outputPath filename) (c.configWrite filename) content
        freeradiusConfig := recordRow c w.freeradiusConfig filename row }) ∧
    row.lastAppliedHash = some (m.computeHash content) ∧
    WrittenResult c results filename (m.computeHash content) result := by
  cases hWrite : (c.configWrite filename).raised with
  | some e =>
    cases hError : (c.save filename .error).raises with
    | none =>
      refine ⟨_, appliedRow content (m.computeHash content) .error (some e), ?_, rfl,
        .error e hError⟩
      simp [writeConfig, Eff.attempt, Eff.bind_apply, writeFile_apply, saveConfigState_apply,
        outcomeOf, hWrite, hError, recordRow, records, savedRows, configKey]
    | some e' =>
      refine ⟨_, appliedRow content (m.computeHash content) .error (some e), ?_, rfl, .raised e' hError⟩
      simp [writeConfig, Eff.attempt, Eff.bind_apply, writeFile_apply, saveConfigState_apply,
        outcomeOf, hWrite, hError, recordRow, records, savedRows, configKey]
  | none =>
    cases hSave : (c.save filename .applied).raises with
    | none =>
      refine ⟨_, appliedRow content (m.computeHash content) .applied none, ?_, rfl,
        .applied hWrite hSave⟩
      simp [writeConfig, Eff.attempt, Eff.bind_apply, writeFile_apply, saveConfigState_apply,
        outcomeOf, hWrite, hSave, recordRow, records, savedRows, configKey]
    | some e =>
      -- both upserts run, and the last one that commits leaves the row
      have hRows : ∀ rows : String × String → Option ConfigRow, ∃ row : ConfigRow,
          row.lastAppliedHash = some (m.computeHash content) ∧
          savedRows (c.save filename .error)
            (savedRows (c.save filename .applied) rows (configKey filename)
              (appliedRow content (m.computeHash content) .applied none)) (configKey filename)
            (appliedRow content (m.computeHash content) .error (some e)) =
          recordRow c rows filename row := by
        intro rows
        cases hCommits : (c.save filename .error).commits with
        | true =>
          refine ⟨appliedRow content (m.computeHash content) .error (some e), rfl, ?_⟩
          by_cases hApplied : (c.save filename .applied).commits <;>
            simp [savedRows, recordRow, records, hWrite, hSave, hCommits, hApplied]
        | false =>
          refine ⟨appliedRow content (m.computeHash content) .applied none, rfl, ?_⟩
          simp [savedRows, recordRow, records, hWrite, hCommits]
      obtain ⟨row, hRow, hEq⟩ := hRows w.freeradiusConfig
      rw [configKey] at hEq
      cases hError : (c.save filename .error).raises with
      | none =>
        refine ⟨_, row, ?_, hRow, .error e hError⟩
        simp [writeConfig, Eff.attempt, Eff.bind_apply, writeFile_apply, saveConfigState_apply,
          outcomeOf, hWrite, hSave, hError, hEq]
      | some e' =>
        refine ⟨_, row, ?_, hRow, .raised e' hError⟩
        simp [writeConfig, Eff.attempt, Eff.bind_apply, writeFile_apply, saveConfigState_apply,
          outcomeOf, hWrite, hSave, hError, hEq]

/-- The step of one file, as the code computes it. -/
theorem applyConfig_step (m : Manager) (c : Call) (results : Dict ConfigResult)
    (filename content : String) (w : World) :
    m.ConfigStep c results filename content w
      (m.applyConfig c results filename content w).1
      (m.applyConfig c results filename content w).2 := by
  rw [applyConfig]
  cases hRead : (c.read filename).raised with
  | some e =>
    rw [Eff.bind_of_error (getStoredHash_of_raised hRead _ _ w)]
    exact .aborted e hRead
  | none =>
    have hGet : getStoredHash (c.read filename) (configTypeOf filename) filename w =
        (.ok (storedHash c w (configKey filename)), w) := getStoredHash_of_read hRead _ _ w
    rw [Eff.bind_of_ok hGet]
    by_cases hStored : storedHash c w (configKey filename) = some (m.computeHash content)
    · rw [if_pos hStored]
      exact .unchanged hRead hStored
    · rw [if_neg hStored]
      obtain ⟨result, row, hEq, hRow, hResult⟩ := m.writeConfig_step c results filename content w
      rw [hEq]
      exact .written result row hRead hStored hRow hResult

/-- The writes of the certificate step, once it gets to them. -/
private theorem writeCertificates_step {m : Manager} {c : Call} {w : World}
    (hWrites : m.writesCertificates c w) : ∃ result w',
    Eff.attempt (m.writeCertificates c (m.certFilesHash c.toReads))
      (fun e => pure ⟨.error, "", some e⟩) w = (.ok result, w') ∧
    m.CertificatesStep c w result w' := by
  have hWritten := writeCertFiles_of_reads (m := m) (r := c.toReads) (hWrites.1.1 _ (by simp))
    (hWrites.1.1 _ (by simp)) hWrites.1.2.1 c.certWrite w
  have hDisk := runSteps_world c.certWrite (m.certSteps c.toReads) 0 w
  have hOk := runSteps_ok c.certWrite (m.certSteps c.toReads) 0 w
  rw [← hWritten] at hDisk hOk
  rcases hRun : m.writeCertFiles c.toReads c.makedirsFails c.certWrite w with ⟨e | u, w'⟩
  · have hNot : ¬stepsComplete c.certWrite (m.certSteps c.toReads) 0 := by
      rw [← hOk, hRun]
      simp
    rw [hRun] at hDisk
    refine ⟨_, w', Eff.attempt_of_error (Eff.bind_of_error hRun), ?_⟩
    subst hDisk
    exact .written _ _ (appliedRow "" (m.certFilesHash c.toReads) .applied none) hWrites rfl
      (fun h => (hNot h.1).elim) (fun _ => rfl) (.inr ⟨e, rfl⟩)
  · have hComplete : stepsComplete c.certWrite (m.certSteps c.toReads) 0 := by
      rw [← hOk, hRun]
    rw [hRun] at hDisk
    subst hDisk
    have hRows : ∀ result, (result = ⟨.applied, m.certFilesHash c.toReads, none⟩ ∨
        ∃ e, result = ⟨.error, "", some e⟩) → m.CertificatesStep c w result
          ⟨stepsLeave c.certWrite (m.certSteps c.toReads) 0 w.disk,
            savedRows (c.save "_cert_files" .applied) w.freeradiusConfig certificatesKey
              (appliedRow "" (m.certFilesHash c.toReads) .applied none)⟩ := by
      intro result hResult
      refine .written result _ (appliedRow "" (m.certFilesHash c.toReads) .applied none) hWrites
        rfl (fun h => ?_) (fun h => ?_) (hResult.imp (fun h => ⟨h, hComplete⟩) id)
      · rw [savedRows, if_pos h.2]
      · rw [savedRows, if_neg fun hCommits => h ⟨hComplete, hCommits⟩]
    have hSave := saveConfigState_apply (c.save "_cert_files" .applied) "certificates"
      "_cert_files" "" (m.certFilesHash c.toReads) .applied none
      ⟨stepsLeave c.certWrite (m.certSteps c.toReads) 0 w.disk, w.freeradiusConfig⟩
    cases hRaises : (c.save "_cert_files" .applied).raises with
    | none =>
      rw [hRaises] at hSave
      exact ⟨_, _, Eff.attempt_of_ok ((Eff.bind_of_ok hRun).trans (Eff.bind_of_ok hSave)),
        hRows _ (.inl rfl)⟩
    | some e =>
      rw [hRaises] at hSave
      exact ⟨_, _, Eff.attempt_of_error ((Eff.bind_of_ok hRun).trans (Eff.bind_of_error hSave)),
        hRows _ (.inr ⟨e, rfl⟩)⟩

/-- The certificate step, as the code computes it; it never raises. -/
theorem applyCertificates_step (m : Manager) (c : Call) (w : World) : ∃ result w',
    m.applyCertificates c w = (.ok result, w') ∧ m.CertificatesStep c w result w' := by
  cases hHash : m.computeCertFilesHash c.toReads with
  | error e =>
    refine ⟨_, w, Eff.attempt_of_error (Eff.bind_of_error (by rw [Eff.lift_apply, hHash])),
      .failed e fun hReady => ?_⟩
    rw [m.computeCertFilesHash_of_reads (hReady.1 _ (by simp)) (hReady.1 _ (by simp))] at hHash
    cases hHash
  | ok certHash =>
    obtain ⟨hQuery, hQuery', rfl⟩ := m.computeCertFilesHash_ok hHash
    have hLift : (Eff.lift (m.computeCertFilesHash c.toReads) : Eff World Exc String) w =
        (.ok (m.certFilesHash c.toReads), w) := by rw [Eff.lift_apply, hHash]
    cases hRead : (c.read "_cert_files").raised with
    | some e =>
      refine ⟨_, w, Eff.attempt_of_error ((Eff.bind_of_ok hLift).trans
        (Eff.bind_of_error (getStoredHash_of_raised hRead _ _ w))), .failed e fun hReady => ?_⟩
      rw [hReady.2.2] at hRead
      cases hRead
    | none =>
      have hGet : getStoredHash (c.read "_cert_files") "certificates" "_cert_files" w =
        (.ok (storedHash c w certificatesKey), w) := getStoredHash_of_read hRead _ _ w
      have hBody : m.refreshCertificates c w =
          (if storedHash c w certificatesKey = some (m.certFilesHash c.toReads) then
            pure ⟨.unchanged, m.certFilesHash c.toReads, none⟩
          else m.writeCertificates c (m.certFilesHash c.toReads)) w := by
        rw [refreshCertificates, Eff.bind_of_ok hLift, Eff.bind_of_ok hGet]
      by_cases hStored : storedHash c w certificatesKey = some (m.certFilesHash c.toReads)
      · rw [if_pos hStored] at hBody
        exact ⟨_, w, Eff.attempt_of_ok hBody, .unchanged hRead hStored⟩
      · rw [if_neg hStored] at hBody
        have hAttempt : m.applyCertificates c w =
            Eff.attempt (m.writeCertificates c (m.certFilesHash c.toReads))
              (fun e => pure ⟨.error, "", some e⟩) w := by
          rw [applyCertificates, Eff.attempt, Eff.attempt, hBody]
        rw [hAttempt]
        by_cases hReads : c.queryFails .fileCertificates = none ∧
            c.queryFails .fileLdapServers = none ∧ c.makedirsFails = none
        · exact writeCertificates_step ⟨⟨by simp [hQuery, hQuery', hReads.1, hReads.2.1],
            hReads.2.2, hRead⟩, hStored⟩
        · obtain ⟨e, hFails⟩ := writeCertFiles_of_fails (m := m) hReads c.certWrite w
          refine ⟨_, w, Eff.attempt_of_error (Eff.bind_of_error hFails), .failed e fun hReady => ?_⟩
          exact hReads ⟨hReady.1 _ (by simp), hReady.1 _ (by simp), hReady.2.1⟩

end Manager

end OpenRadiusWeb.ConfigManager
