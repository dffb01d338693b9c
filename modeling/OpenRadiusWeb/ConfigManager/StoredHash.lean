import OpenRadiusWeb.Lib.Transcript
import OpenRadiusWeb.ConfigManager.ManagedFiles

/-! # The recorded hash and the file on disk

A file is skipped when the recorded hash is that of its new content, so the record has
to follow the disk through every failure. `Faithful` says that it does. A step keeps
it exactly when what it records was written whole and what it wrote without
recording contradicts no older record; `Clean` states this on the inputs of a call.
-/

namespace OpenRadiusWeb.ConfigManager

open Effects Paths Transcript

/-- A recorded hash is the hash of what is on disk. -/
structure Faithful (m : Manager) (w : World) : Prop where
  files : ∀ f ∈ managedFiles, ∀ content,
    w.lastAppliedHash (configKey f) = some (m.computeHash content) →
    w.disk (resolve (m.outputPath f)) = some content.toUTF8
  certificates : ∀ r, Readable m r →
    w.lastAppliedHash certificatesKey = some (m.certFilesHash r) → Holds w.disk (m.certSteps r)

/-- The statuses that tell the caller that the file is in place. -/
def InPlace (s : Status) : Prop := s = .unchanged ∨ s = .applied

/-- What a call reports to be in place is on disk as the call generated it. -/
structure Honest (m : Manager) (c : Call) (results : Dict ConfigResult) (d : Disk) : Prop where
  certificates : ∀ entry, results.get? "certificates" = some entry → InPlace entry.status →
    Holds d (m.certSteps c.toReads)
  files : ∀ configs, m.generateAllConfigs c.toReads = .ok configs → ∀ config ∈ configs,
    ∀ entry, results.get? (configTypeOf config.1) = some entry → InPlace entry.status →
    d (resolve (m.outputPath config.1)) = some config.2.toUTF8

/-! ## The condition on a call -/

/-- What a file's step records was written whole, and what it leaves on disk without
recording it contradicts no record. -/
def FileClean (m : Manager) (c : Call) (w : World) (filename content : String) : Prop :=
  (c.read filename).raised = none →
  Manager.storedHash c w (configKey filename) ≠ some (m.computeHash content) →
  (Manager.records c filename →
    (c.configWrite filename).leaves (w.disk (resolve (m.outputPath filename))) content.toUTF8 =
      some content.toUTF8) ∧
  (¬Manager.records c filename →
    (c.configWrite filename).leaves (w.disk (resolve (m.outputPath filename))) content.toUTF8 =
        w.disk (resolve (m.outputPath filename)) ∨
      w.lastAppliedHash (configKey filename) = none)

/-- Whether a file's step raises out of the call. -/
def Aborts (m : Manager) (c : Call) (w : World) (filename content : String) : Prop :=
  (c.read filename).raised ≠ none ∨
    (Manager.storedHash c w (configKey filename) ≠ some (m.computeHash content) ∧
      ((c.configWrite filename).raised ≠ none ∨ (c.save filename .applied).raises ≠ none) ∧
      (c.save filename .error).raises ≠ none)

/-- The condition on the files in order, up to the one that aborts the call. -/
def FilesClean (m : Manager) (c : Call) (w : World) : List (String × String) → Prop
  | [] => True
  | config :: rest => FileClean m c w config.1 config.2 ∧
      (¬Aborts m c w config.1 config.2 → FilesClean m c w rest)

structure Clean (m : Manager) (w : World) (c : Call) : Prop where
  readable : Readable m c.toReads
  certificates : m.writesCertificates c w → ¬m.recordsCertificates c →
    stepsLeave c.certWrite (m.certSteps c.toReads) 0 w.disk = w.disk ∨
      w.lastAppliedHash certificatesKey = none
  files : ∀ configs, m.generateAllConfigs c.toReads = .ok configs → FilesClean m c w configs

/-! ## What a step leaves alone -/

/-- Two states with the same record of a file and the same file. -/
def SameFile (m : Manager) (f : String) (w w' : World) : Prop :=
  w'.disk (resolve (m.outputPath f)) = w.disk (resolve (m.outputPath f)) ∧
    w'.lastAppliedHash (configKey f) = w.lastAppliedHash (configKey f)

/-- Two states with the same record of the certificates and the same certificate files. -/
def SameCertificates (w w' : World) : Prop :=
  (∀ p, CertFile p → w'.disk p = w.disk p) ∧
    w'.lastAppliedHash certificatesKey = w.lastAppliedHash certificatesKey

theorem configKey_ne {f g : String} (h : f ≠ g) : configKey f ≠ configKey g := fun hEq =>
  h (congrArg Prod.snd hEq)

theorem configKey_ne_certificates {f : String} (hf : f ∈ managedFiles) :
    configKey f ≠ certificatesKey := fun hEq =>
  Manager.configTypeOf_ne_certificates hf (congrArg Prod.fst hEq)

theorem lastAppliedHash_recordRow {c : Call} {d : Disk} {w : World} {f : String} {row : ConfigRow}
    {key : String × String} (h : configKey f ≠ key) :
    World.lastAppliedHash ⟨d, Manager.recordRow c w.freeradiusConfig f row⟩ key =
      w.lastAppliedHash key := by
  rw [World.lastAppliedHash, World.lastAppliedHash, Manager.recordRow]
  split
  · simp [Function.update_of_ne h.symm]
  · rfl

/-! ## The step of one file -/

namespace Manager.ConfigStep

variable {m : Manager} {c : Call} {results : Dict ConfigResult} {filename content : String}
  {w w' : World} {r : Except Exc (Dict ConfigResult)}

theorem sameFile (h : m.ConfigStep c results filename content w r w')
    (hFile : filename ∈ managedFiles) {g : String} (hg : g ∈ managedFiles) (hne : g ≠ filename) :
    SameFile m g w w' := by
  cases h with
  | aborted => exact ⟨rfl, rfl⟩
  | unchanged => exact ⟨rfl, rfl⟩
  | written =>
    exact ⟨Function.update_of_ne (Manager.outputPath_ne hg hFile hne) _ _,
      lastAppliedHash_recordRow (configKey_ne hne.symm)⟩

theorem sameCertificates (h : m.ConfigStep c results filename content w r w')
    (hFile : filename ∈ managedFiles) : SameCertificates w w' := by
  cases h with
  | aborted => exact ⟨fun _ _ => rfl, rfl⟩
  | unchanged => exact ⟨fun _ _ => rfl, rfl⟩
  | written =>
    refine ⟨fun p hp => Function.update_of_ne ?_ _ _,
      lastAppliedHash_recordRow (configKey_ne_certificates hFile)⟩
    rintro rfl
    exact Manager.not_certFile_outputPath hFile hp

/-- The record of the file the step is about still describes the file. -/
theorem tracks (h : m.ConfigStep c results filename content w r w')
    (hTracks : ∀ text, w.lastAppliedHash (configKey filename) = some (m.computeHash text) →
      w.disk (resolve (m.outputPath filename)) = some text.toUTF8)
    (hClean : FileClean m c w filename content) :
    ∀ text, w'.lastAppliedHash (configKey filename) = some (m.computeHash text) →
      w'.disk (resolve (m.outputPath filename)) = some text.toUTF8 := by
  cases h with
  | aborted => exact hTracks
  | unchanged => exact hTracks
  | written _ row hRead hStored hRow hResult =>
    obtain ⟨hRecorded, hNot⟩ := hClean hRead hStored
    intro text hText
    have hDisk : w.disk.written (m.outputPath filename) (c.configWrite filename) content
        (resolve (m.outputPath filename)) = (c.configWrite filename).leaves
          (w.disk (resolve (m.outputPath filename))) content.toUTF8 := Function.update_self _ _ _
    refine hDisk.trans ?_
    by_cases hRecords : Manager.records c filename
    · have hHash : some (m.computeHash content) = some (m.computeHash text) := by
        rw [← hText, World.lastAppliedHash, Manager.recordRow, if_pos hRecords]
        simp [hRow]
      rw [← m.computeHash_injective (Option.some_inj.mp hHash)]
      exact hRecorded hRecords
    · have hOld : w.lastAppliedHash (configKey filename) = some (m.computeHash text) := by
        rw [← hText, World.lastAppliedHash, World.lastAppliedHash, Manager.recordRow,
          if_neg hRecords]
      rcases hNot hRecords with hSame | hNone
      · rw [hSame]
        exact hTracks text hOld
      · rw [hNone] at hOld
        cases hOld

/-- The condition is exact: a step from a record of some content keeps the record
faithful only if it is clean. -/
theorem clean_of_tracks (h : m.ConfigStep c results filename content w r w')
    (hOld : ∀ hash, w.lastAppliedHash (configKey filename) = some hash → ∃ text,
      hash = m.computeHash text ∧ w.disk (resolve (m.outputPath filename)) = some text.toUTF8)
    (hTracks : ∀ text, w'.lastAppliedHash (configKey filename) = some (m.computeHash text) →
      w'.disk (resolve (m.outputPath filename)) = some text.toUTF8) :
    FileClean m c w filename content := by
  intro hRead hStored
  cases h with
  | aborted e hRaises =>
    rw [hRead] at hRaises
    cases hRaises
  | unchanged _ hCurrent => exact (hStored hCurrent).elim
  | written _ row _ _ hRow _ =>
    have hDisk : w.disk.written (m.outputPath filename) (c.configWrite filename) content
        (resolve (m.outputPath filename)) = (c.configWrite filename).leaves
          (w.disk (resolve (m.outputPath filename))) content.toUTF8 := Function.update_self _ _ _
    refine ⟨fun hRecords => ?_, fun hNot => ?_⟩
    · refine hDisk.symm.trans (hTracks content ?_)
      rw [World.lastAppliedHash, Manager.recordRow, if_pos hRecords]
      simp [hRow]
    · cases hHash : w.lastAppliedHash (configKey filename) with
      | none => exact .inr rfl
      | some hash =>
        obtain ⟨text, rfl, hText⟩ := hOld hash hHash
        rw [hText]
        refine .inl ((hText ▸ hDisk.symm).trans (hTracks text ?_))
        rw [← hHash, World.lastAppliedHash, World.lastAppliedHash, Manager.recordRow, if_neg hNot]

/-- A file reported in place holds the generated content. -/
theorem inPlace {results' : Dict ConfigResult} {entry : ConfigResult}
    (h : m.ConfigStep c results filename content w (.ok results') w')
    (hTracks : ∀ text, w.lastAppliedHash (configKey filename) = some (m.computeHash text) →
      w.disk (resolve (m.outputPath filename)) = some text.toUTF8)
    (hEntry : results'.get? (configTypeOf filename) = some entry) (hIn : InPlace entry.status) :
    w'.disk (resolve (m.outputPath filename)) = some content.toUTF8 := by
  cases h with
  | unchanged hRead hStored =>
    exact hTracks content (ReadOutcome.stored_of_answer hStored)
  | written _ row hRead hStored hRow hResult =>
    have hDisk : w.disk.written (m.outputPath filename) (c.configWrite filename) content
        (resolve (m.outputPath filename)) = (c.configWrite filename).leaves
          (w.disk (resolve (m.outputPath filename))) content.toUTF8 := Function.update_self _ _ _
    cases hResult with
    | applied hWrite hSave =>
      exact hDisk.trans (WriteOutcome.leaves_of_raised_none hWrite _ _)
    | error e hSave =>
      rw [Dict.get?_set_self] at hEntry
      cases hEntry
      rcases hIn with hIn | hIn <;> cases hIn

theorem not_aborts {results' : Dict ConfigResult}
    (h : m.ConfigStep c results filename content w (.ok results') w') :
    ¬Aborts m c w filename content := by
  cases h with
  | unchanged hRead hStored =>
    rintro (hRaises | ⟨hNot, -⟩)
    · exact hRaises hRead
    · exact hNot hStored
  | written _ row hRead hStored hRow hResult =>
    rintro (hRaises | ⟨-, hFails, hError⟩)
    · exact hRaises hRead
    · cases hResult with
      | applied hWrite hSave => exact hFails.elim (fun h => h hWrite) fun h => h hSave
      | error e hSave => exact hError hSave

theorem returns (h : m.ConfigStep c results filename content w r w')
    (hRead : (c.read filename).raised = none) (hSave : (c.save filename .error).raises = none) :
    ∃ results', r = .ok results' := by
  cases h with
  | aborted e hRaises =>
    rw [hRead] at hRaises
    cases hRaises
  | unchanged => exact ⟨_, rfl⟩
  | written _ row _ _ _ hResult =>
    cases hResult with
    | applied => exact ⟨_, rfl⟩
    | error => exact ⟨_, rfl⟩
    | raised e hRaises =>
      rw [hSave] at hRaises
      cases hRaises

theorem get?_of_ne {results' : Dict ConfigResult}
    (h : m.ConfigStep c results filename content w (.ok results') w') {k : String}
    (hk : k ≠ configTypeOf filename) : results'.get? k = results.get? k := by
  cases h with
  | unchanged => exact Dict.get?_set_of_ne _ _ hk
  | written _ row hRead hStored hRow hResult =>
    cases hResult with
    | applied => exact Dict.get?_set_of_ne _ _ hk
    | error => exact Dict.get?_set_of_ne _ _ hk

end Manager.ConfigStep

/-! ## The files in order -/

theorem SameFile.filesClean {m : Manager} {c : Call} {w w' : World}
    {configs : List (String × String)} (h : ∀ config ∈ configs, SameFile m config.1 w w')
    (hClean : FilesClean m c w configs) : FilesClean m c w' configs := by
  induction configs with
  | nil => trivial
  | cons config rest ih =>
    obtain ⟨hDisk, hHash⟩ := h config List.mem_cons_self
    have hRest := ih fun config hc => h config (List.mem_cons_of_mem _ hc)
    rw [FilesClean, FileClean, Aborts, Manager.storedHash] at hClean ⊢
    rw [hDisk, hHash]
    exact ⟨hClean.1, fun hContinues => hRest (hClean.2 hContinues)⟩

theorem SameFile.trans {m : Manager} {f : String} {w w' w'' : World} (h : SameFile m f w w')
    (h' : SameFile m f w' w'') : SameFile m f w w'' :=
  ⟨h'.1.trans h.1, h'.2.trans h.2⟩

theorem SameCertificates.trans {w w' w'' : World} (h : SameCertificates w w')
    (h' : SameCertificates w' w'') : SameCertificates w w'' :=
  ⟨fun p hp => (h'.1 p hp).trans (h.1 p hp), h'.2.trans h.2⟩

theorem SameCertificates.holds {m : Manager} {r : Reads} {w w' : World}
    (h : SameCertificates w w') (hHolds : Holds w.disk (m.certSteps r)) :
    Holds w'.disk (m.certSteps r) := by
  intro p b hb
  by_cases hp : CertFile p
  · rw [h.1 p hp]
    exact hHolds p b hb
  · rw [lastWrite_of_not (Manager.writesWithin_certSteps r) hp] at hb
    cases hb

theorem Manager.ConfigStep.faithful {m : Manager} {c : Call} {results : Dict ConfigResult}
    {filename content : String} {w w' : World} {r : Except Exc (Dict ConfigResult)}
    (h : m.ConfigStep c results filename content w r w') (hFile : filename ∈ managedFiles)
    (hFaithful : Faithful m w) (hClean : FileClean m c w filename content) : Faithful m w' where
  files f hf text hText := by
    by_cases hEq : f = filename
    · subst hEq
      exact h.tracks (hFaithful.files f hf) hClean text hText
    · obtain ⟨hDisk, hHash⟩ := h.sameFile hFile hf hEq
      rw [hDisk]
      exact hFaithful.files f hf text (hHash ▸ hText)
  certificates r hr hHash := by
    have hSame := h.sameCertificates hFile
    exact hSame.holds (hFaithful.certificates r hr (hSame.2 ▸ hHash))

/-- The steps of a list of files. -/
def Manager.applyFiles (m : Manager) (c : Call) (configs : List (String × String))
    (results : Dict ConfigResult) : Eff World Exc (Dict ConfigResult) :=
  configs.foldlM (fun results config => m.applyConfig c results config.1 config.2) results

/-- What the steps of a list of files keep and report. -/
structure FilesRun (m : Manager) (c : Call) (configs : List (String × String))
    (results : Dict ConfigResult) (w : World) (out : Except Exc (Dict ConfigResult) × World) :
    Prop where
  faithful : Faithful m out.2
  sameFile : ∀ f ∈ managedFiles, f ∉ Dict.keys configs → SameFile m f w out.2
  sameCertificates : SameCertificates w out.2
  otherResults : ∀ results', out.1 = .ok results' →
    ∀ k, k ∉ (Dict.keys configs).map configTypeOf → results'.get? k = results.get? k
  inPlace : ∀ results', out.1 = .ok results' → ∀ config ∈ configs, ∀ entry,
    results'.get? (configTypeOf config.1) = some entry → InPlace entry.status →
    out.2.disk (resolve (m.outputPath config.1)) = some config.2.toUTF8

theorem Manager.applyFiles_run {m : Manager} {c : Call} {configs : List (String × String)}
    (hManaged : Managed configs) (results : Dict ConfigResult) {w : World} (hFaithful : Faithful m w)
    (hClean : FilesClean m c w configs) :
    FilesRun m c configs results w (m.applyFiles c configs results w) := by
  induction configs generalizing results w with
  | nil =>
    exact ⟨hFaithful, fun _ _ _ => ⟨rfl, rfl⟩, ⟨fun _ _ => rfl, rfl⟩,
      fun _ h _ _ => by cases h; rfl, fun _ _ _ h => by cases h⟩
  | cons config rest ih =>
    obtain ⟨filename, content⟩ := config
    have hFile := hManaged.subset filename List.mem_cons_self
    have hNotRest : filename ∉ Dict.keys rest := (List.nodup_cons.mp hManaged.nodup).1
    have hManagedRest : Managed rest := ⟨(List.nodup_cons.mp hManaged.nodup).2,
      fun f hf => hManaged.subset f (List.mem_cons_of_mem _ hf)⟩
    have hStep := m.applyConfig_step c results filename content w
    have hFaithful' := hStep.faithful hFile hFaithful hClean.1
    have hOther : ∀ f ∈ managedFiles, f ∉ Dict.keys ((filename, content) :: rest) →
        f ≠ filename ∧ f ∉ Dict.keys rest := fun f _ hf => by
      simpa [Dict.keys] using hf
    rw [applyFiles, List.foldlM_cons]
    rcases hRun : m.applyConfig c results filename content w with ⟨e | results₁, w₁⟩
    · rw [Eff.bind_of_error hRun]
      rw [hRun] at hStep hFaithful'
      exact ⟨hFaithful', fun f hf hNot => hStep.sameFile hFile hf (hOther f hf hNot).1,
        hStep.sameCertificates hFile, fun _ h => (by cases h), fun _ h => by cases h⟩
    · rw [Eff.bind_of_ok hRun]
      rw [hRun] at hStep hFaithful'
      have hRestSame : ∀ other ∈ rest, SameFile m other.1 w w₁ := fun other hMem =>
        hStep.sameFile hFile (hManagedRest.subset _ (List.mem_map_of_mem hMem)) fun hEq =>
          hNotRest (hEq ▸ List.mem_map_of_mem hMem)
      have hIh := ih hManagedRest results₁ hFaithful'
        (SameFile.filesClean hRestSame (hClean.2 hStep.not_aborts))
      refine ⟨hIh.faithful, ?_, (hStep.sameCertificates hFile).trans hIh.sameCertificates, ?_, ?_⟩
      · intro f hf hNot
        obtain ⟨hne, hRest⟩ := hOther f hf hNot
        exact (hStep.sameFile hFile hf hne).trans (hIh.sameFile f hf hRest)
      · intro results' hOk k hk
        rw [Dict.keys, List.map_cons, List.map_cons, List.mem_cons, not_or] at hk
        rw [hIh.otherResults results' hOk k hk.2, hStep.get?_of_ne hk.1]
      · intro results' hOk other hMem entry hEntry hIn
        rcases List.mem_cons.mp hMem with rfl | hMem
        · have hType : configTypeOf filename ∉ (Dict.keys rest).map configTypeOf := by
            intro hType
            obtain ⟨f, hf, hEq⟩ := List.mem_map.mp hType
            refine Manager.configTypeOf_ne (hManagedRest.subset f hf) hFile ?_ hEq
            rintro rfl
            exact hNotRest hf
          rw [hIh.otherResults results' hOk _ hType] at hEntry
          exact (hIh.sameFile filename hFile hNotRest).1.trans
            (hStep.inPlace (hFaithful.files filename hFile) hEntry hIn)
        · exact hIh.inPlace results' hOk other hMem entry hEntry hIn

/-! ## The certificates and the whole call -/

theorem holds_congr {m : Manager} {r r' : Reads} {d : Disk} (hr : Readable m r)
    (hr' : Readable m r') (hHash : m.certFilesHash r = m.certFilesHash r')
    (h : Holds d (m.certSteps r)) : Holds d (m.certSteps r') := by
  intro p b hb
  rw [← lastWrite_certSteps hr hr' hHash] at hb
  exact h p b hb

namespace Manager.CertificatesStep

variable {m : Manager} {c : Call} {w w' : World} {result : ConfigResult}

theorem sameFile (h : m.CertificatesStep c w result w') {f : String} (hf : f ∈ managedFiles) :
    SameFile m f w w' := by
  cases h with
  | failed => exact ⟨rfl, rfl⟩
  | unchanged => exact ⟨rfl, rfl⟩
  | written _ rows row hWrites hRow hRecorded hNotRecorded hResult =>
    refine ⟨stepsLeave_of_not (writesWithin_certSteps _) _ _ (not_certFile_outputPath hf), ?_⟩
    by_cases hRecords : m.recordsCertificates c
    · rw [hRecorded hRecords, World.lastAppliedHash, World.lastAppliedHash]
      simp [Function.update_of_ne (configKey_ne_certificates hf)]
    · rw [hNotRecorded hRecords, World.lastAppliedHash, World.lastAppliedHash]

theorem faithful (h : m.CertificatesStep c w result w') (hFaithful : Faithful m w)
    (hClean : Clean m w c) : Faithful m w' where
  files f hf text hText := by
    obtain ⟨hDisk, hHash⟩ := h.sameFile hf
    rw [hDisk]
    exact hFaithful.files f hf text (hHash ▸ hText)
  certificates r hr hHash := by
    cases h with
    | failed => exact hFaithful.certificates r hr hHash
    | unchanged => exact hFaithful.certificates r hr hHash
    | written _ rows row hWrites hRow hRecorded hNotRecorded hResult =>
      by_cases hRecords : m.recordsCertificates c
      · rw [hRecorded hRecords, World.lastAppliedHash] at hHash
        simp only [Function.update_self, Option.bind_some, hRow, Option.some_inj] at hHash
        exact holds_congr hClean.readable hr hHash (holds_of_complete hRecords.1 w.disk)
      · rw [hNotRecorded hRecords] at hHash
        rcases hClean.certificates hWrites hRecords with hSame | hNone
        · rw [hSame]
          exact hFaithful.certificates r hr hHash
        · rw [World.lastAppliedHash] at hHash hNone
          rw [hNone] at hHash
          cases hHash

theorem inPlace (h : m.CertificatesStep c w result w') (hFaithful : Faithful m w)
    (hClean : Clean m w c) (hIn : InPlace result.status) :
    Holds w'.disk (m.certSteps c.toReads) := by
  cases h with
  | failed => rcases hIn with hIn | hIn <;> cases hIn
  | unchanged hRead hStored =>
    exact hFaithful.certificates _ hClean.readable (ReadOutcome.stored_of_answer hStored)
  | written _ rows row hWrites hRow hRecorded hNotRecorded hResult =>
    rcases hResult with ⟨-, hComplete⟩ | ⟨e, rfl⟩
    · exact holds_of_complete hComplete w.disk
    · rcases hIn with hIn | hIn <;> cases hIn

end Manager.CertificatesStep

/-- One call keeps the records faithful and reports honestly. -/
theorem Manager.applyConfigs_faithful {m : Manager} {c : Call} {w : World}
    (hFaithful : Faithful m w) (hClean : Clean m w c) :
    Faithful m (m.applyConfigs c w).2 ∧
      ∀ results, (m.applyConfigs c w).1 = .ok results →
        Honest m c results (m.applyConfigs c w).2.disk := by
  obtain ⟨certificates, w₁, hRun, hStep⟩ := m.applyCertificates_step c w
  have hFaithful₁ := hStep.faithful hFaithful hClean
  cases hConfigs : m.generateAllConfigs c.toReads with
  | error e =>
    have hAll : m.applyConfigs c w = (.ok [("_generate_error", ⟨.error, "", some e⟩)], w₁) := by
      rw [applyConfigs, Eff.bind_of_ok hRun, hConfigs]
      rfl
    rw [hAll]
    refine ⟨hFaithful₁, fun results hOk => ⟨fun entry hEntry => ?_, fun configs h => ?_⟩⟩
    · cases hOk
      simp [Dict.get?] at hEntry
    · rw [hConfigs] at h
      cases h
  | ok configs =>
    have hAll : m.applyConfigs c w =
        m.applyFiles c configs [("certificates", certificates)] w₁ := by
      rw [applyConfigs, Eff.bind_of_ok hRun, hConfigs]
      rfl
    have hManaged := generateAllConfigs_managed hConfigs
    have hFiles := applyFiles_run hManaged [("certificates", certificates)] hFaithful₁
      (SameFile.filesClean (fun config hMem => hStep.sameFile
        (hManaged.subset _ (List.mem_map_of_mem hMem))) (hClean.files configs hConfigs))
    rw [hAll]
    refine ⟨hFiles.faithful, fun results hOk => ⟨fun entry hEntry hIn => ?_, ?_⟩⟩
    · have hType : "certificates" ∉ (Dict.keys configs).map configTypeOf := by
        intro hType
        obtain ⟨f, hf, hEq⟩ := List.mem_map.mp hType
        exact configTypeOf_ne_certificates (hManaged.subset f hf) hEq
      rw [hFiles.otherResults results hOk _ hType, Dict.get?_cons, if_pos rfl,
        Option.some_inj] at hEntry
      subst hEntry
      exact hFiles.sameCertificates.holds (hStep.inPlace hFaithful hClean hIn)
    · intro configs' hConfigs' config hMem entry hEntry hIn
      rw [hConfigs] at hConfigs'
      cases hConfigs'
      exact hFiles.inPlace results hOk config hMem entry hEntry hIn

/-- A state in which nothing was recorded yet. -/
def unrecorded (d : Disk) : World := ⟨d, fun _ => none⟩

theorem unrecorded_faithful (m : Manager) (d : Disk) : Faithful m (unrecorded d) where
  files _ _ _ h := by cases h
  certificates _ _ h := by cases h

/-- Over every run of clean calls, the records follow the disk and no call reports a
file in place that is not there. -/
theorem applyConfigs_honest (m : Manager) (d : Disk) (calls : List Call)
    (hClean : ∀ e ∈ transcript m.applyConfigs (unrecorded d) calls, Clean m e.pre e.input) :
    ∀ e ∈ transcript m.applyConfigs (unrecorded d) calls, Faithful m e.post ∧
      ∀ results, e.output = .ok results → Honest m e.input results e.post.disk := by
  intro e he
  have hInv := Transcript.invariant (Faithful m) (Clean m)
    (fun w c hFaithful hClean => (Manager.applyConfigs_faithful hFaithful hClean).1)
    (unrecorded_faithful m d) hClean e he
  have hStep := mem_transcript_step he
  have hHonest := (Manager.applyConfigs_faithful hInv.1 (hClean e he)).2
  rw [hStep] at hHonest
  exact ⟨hInv.2, hHonest⟩

/-! ## Calls without failures -/

/-- Every operation of the call succeeds. -/
structure FaultFree (c : Call) : Prop where
  queries : ∀ q, c.queryFails q = none
  makedirs : c.makedirsFails = none
  certWrites : ∀ k, c.certWrite k = .completes
  configWrites : ∀ f, c.configWrite f = .completes
  reads : ∀ f, c.read f = .answers
  saves : ∀ f s, c.save f s = ⟨true, none⟩

theorem FaultFree.filesClean {m : Manager} {c : Call} (h : FaultFree c) (w : World)
    (configs : List (String × String)) : FilesClean m c w configs := by
  induction configs with
  | nil => trivial
  | cons config rest ih =>
    refine ⟨fun _ _ => ⟨fun _ => ?_, fun hNot => ?_⟩, fun _ => ih⟩
    · rw [h.configWrites]
      rfl
    · exact (hNot (by simp [Manager.records, h.configWrites, h.saves, WriteOutcome.raised])).elim

theorem FaultFree.clean {m : Manager} {c : Call} (h : FaultFree c) (w : World)
    (hReadable : Readable m c.toReads)
    (hKeys : stepsComplete c.certWrite (m.certSteps c.toReads) 0) : Clean m w c where
  readable := hReadable
  certificates _ hNot := (hNot ⟨hKeys, by rw [h.saves]⟩).elim
  files configs _ := h.filesClean w configs

/-! ## A run on the empty database -/

/-- An injective stand-in for the digest. -/
def plainDigest : ByteArray ↪ String where
  toFun b := String.ofList (b.data.toList.map Char.ofUInt8)
  inj' := by
    intro a b h
    have hInj : Function.Injective Char.ofUInt8 := by
      intro x y hxy
      have hNat : x.toUInt32.toNat = y.toUInt32.toNat := congrArg (fun c : Char => c.val.toNat) hxy
      rwa [UInt8.toNat_toUInt32, UInt8.toNat_toUInt32, UInt8.toNat_inj] at hNat
    exact ByteArray.ext (Array.toList_inj.mp
      (List.map_injective_iff.mpr hInj (String.ofList_injective h)))

def plainManager : Manager where
  outputDir := "/etc/freeradius/orw-managed"
  certDir := "/etc/freeradius/certs"
  templates :=
    { eap := fun _ => none
      ldap := fun _ _ => none
      siteDefault := fun _ _ => none
      siteInnerTunnel := fun _ => none
      python := fun _ _ => none }
  rlmPython3Available := false
  decrypt := fun _ => .error "InvalidTag"
  lower := String.toLower
  sha256 := plainDigest

/-- A call on the empty database whose operations all succeed. -/
def plainCall : Call where
  db := ⟨[], [], [], [], []⟩
  queryFails := fun _ => none
  now := "2026-05-03T00:00:00+00:00"
  makedirsFails := none
  certWrite := fun _ => .completes
  configWrite := fun _ => .completes
  read := fun _ => .answers
  save := fun _ _ => ⟨true, none⟩

theorem plainCall_faultFree : FaultFree plainCall :=
  ⟨fun _ => rfl, rfl, fun _ => rfl, fun _ => rfl, fun _ => rfl, fun _ _ => rfl⟩

theorem plainCall_clean (w : World) : Clean plainManager w plainCall :=
  plainCall_faultFree.clean w ⟨by decide, by decide, by decide⟩ trivial

theorem applyConfigs_honest_plain :
    (transcript plainManager.applyConfigs (unrecorded fun _ => none)
      [plainCall, plainCall]).length = 2 ∧
    ∀ e ∈ transcript plainManager.applyConfigs (unrecorded fun _ => none) [plainCall, plainCall],
      Faithful plainManager e.post ∧ ∀ results, e.output = .ok results →
        Honest plainManager e.input results e.post.disk := by
  refine ⟨rfl, applyConfigs_honest plainManager (fun _ => none) [plainCall, plainCall] ?_⟩
  intro e he
  rcases List.mem_cons.mp he with rfl | he
  · exact plainCall_clean _
  · rcases List.mem_singleton.mp he with rfl
    exact plainCall_clean _

/-- The call of an operator who lost the right to write `clients.conf`. -/
def deniedCall : Call :=
  { plainCall with
    configWrite := fun f =>
      if f = "clients.conf" then .openFails "[Errno 13] Permission denied" else .completes }

def plainProxy : String := "\n".intercalate (Manager.proxyHeader ++ Manager.defaultRealmLines)

def plainClients : String := "\n".intercalate Manager.clientsHeader

theorem plain_generateAllConfigs : plainManager.generateAllConfigs plainCall.toReads =
    .ok [("proxy.conf", plainProxy), ("clients.conf", plainClients)] := by
  have hProxy : plainProxy ≠ "" := Text.intercalate_ne_empty (by decide) _
  have hClients : plainClients ≠ "" := Text.intercalate_ne_empty (by decide) _
  have hEap : plainManager.generateEapConfig plainCall.toReads = .ok "" := rfl
  have hLdap : plainManager.generateLdapConfigs plainCall.toReads = .ok ([], []) := rfl
  have hProxyRun : plainManager.generateProxyConfig plainCall.toReads = .ok plainProxy := rfl
  have hClientsRun : plainManager.generateClientsConfig plainCall.toReads = .ok plainClients := rfl
  rw [Manager.generateAllConfigs, hEap, hLdap, hProxyRun, hClientsRun]
  simp [Manager.addConfig, hClients, plainManager, Dict.set, Reads.loadRealms, Reads.fetchAll,
    plainCall]
  rfl

/-- The last step of a call on the empty database is that of `clients.conf`. -/
private theorem plain_last_step (c : Call) (hReads : c.toReads = plainCall.toReads)
    (hRead : ∀ f, c.read f = .answers) (hSave : ∀ f s, c.save f s = ⟨true, none⟩) (w : World) :
    ∃ results₁ w₁ results w', plainManager.applyConfigs c w = (.ok results, w') ∧
      SameFile plainManager "clients.conf" w w₁ ∧
      plainManager.ConfigStep c results₁ "clients.conf" plainClients w₁ (.ok results) w' := by
  obtain ⟨certificates, w₁, hRun, hStep⟩ := plainManager.applyCertificates_step c w
  have hReturns : ∀ results f content w, ∃ results' w',
      plainManager.applyConfig c results f content w = (.ok results', w') ∧
      plainManager.ConfigStep c results f content w (.ok results') w' := by
    intro results f content w
    have hOne := plainManager.applyConfig_step c results f content w
    obtain ⟨results', hOk⟩ := hOne.returns (by rw [hRead]; rfl) (by rw [hSave])
    rw [hOk] at hOne
    exact ⟨results', _, by rw [← hOk], hOne⟩
  obtain ⟨results₂, w₂, hProxy, hProxyStep⟩ := hReturns [("certificates", certificates)]
    "proxy.conf" plainProxy w₁
  obtain ⟨results, w', hClients, hClientsStep⟩ := hReturns results₂ "clients.conf" plainClients w₂
  refine ⟨results₂, w₂, results, w', ?_, ?_, hClientsStep⟩
  · rw [Manager.applyConfigs, Eff.bind_of_ok hRun, hReads, plain_generateAllConfigs]
    exact (Eff.bind_of_ok hProxy).trans (Eff.bind_of_ok hClients)
  · exact (hStep.sameFile (by decide)).trans
      (hProxyStep.sameFile (by decide) (by decide) (by decide))

/-- The open fails, the error is recorded with the new hash, and the next call reports the
missing file as unchanged. -/
theorem unchanged_after_failed_open : ¬∀ (m : Manager) (d : Disk) (calls : List Call),
    ∀ e ∈ transcript m.applyConfigs (unrecorded d) calls, ∀ results, e.output = .ok results →
      Honest m e.input results e.post.disk := by
  intro hAll
  obtain ⟨_, w₁, results, w, hRun, hSame, hStep⟩ := plain_last_step deniedCall rfl (fun _ => rfl)
    (fun _ _ => rfl) (unrecorded fun _ => none)
  obtain ⟨_, w₂, results', w', hRun', hSame', hStep'⟩ := plain_last_step plainCall rfl (fun _ => rfl)
    (fun _ _ => rfl) w
  -- the first call records the hash of a file it could not open
  have hRecorded : w.lastAppliedHash (configKey "clients.conf") =
      some (plainManager.computeHash plainClients) ∧
      w.disk (resolve (plainManager.outputPath "clients.conf")) = none := by
    cases hStep with
    | unchanged _ hStored =>
      have hNone := hSame.2.symm.trans (ReadOutcome.stored_of_answer hStored)
      cases hNone
    | written _ row _ _ hRow _ =>
      refine ⟨?_, ?_⟩
      · simp [World.lastAppliedHash, Manager.recordRow, Manager.records, deniedCall, plainCall,
          WriteOutcome.raised, hRow]
      · have hDisk : w₁.disk.written (plainManager.outputPath "clients.conf")
            (deniedCall.configWrite "clients.conf") plainClients
            (resolve (plainManager.outputPath "clients.conf")) =
            w₁.disk (resolve (plainManager.outputPath "clients.conf")) := Function.update_self _ _ _
        exact hDisk.trans hSame.1
  -- the second call finds the hash and skips the file
  have hUnchanged : results'.get? (configTypeOf "clients.conf") =
      some ⟨.unchanged, plainManager.computeHash plainClients, none⟩ ∧ w' = w₂ := by
    cases hStep' with
    | unchanged => exact ⟨Dict.get?_set_self _ _ _, rfl⟩
    | written _ row _ hStored _ _ => exact (hStored (hSame'.2.trans hRecorded.1)).elim
  have hTranscript : (⟨w, plainCall, .ok results', w'⟩ : Entry World Call _) ∈
      transcript plainManager.applyConfigs (unrecorded fun _ => none) [deniedCall, plainCall] := by
    simp [transcript, hRun, hRun']
  have hHonest := (hAll _ _ _ _ hTranscript results' rfl).files _ plain_generateAllConfigs
    ("clients.conf", plainClients) (by simp) _ hUnchanged.1 (.inl rfl)
  rw [hUnchanged.2, hSame'.1, hRecorded.2] at hHonest
  cases hHonest

end OpenRadiusWeb.ConfigManager
