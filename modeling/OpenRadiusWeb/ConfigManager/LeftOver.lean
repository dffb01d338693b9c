import OpenRadiusWeb.ConfigManager.Success
import OpenRadiusWeb.ConfigManager.SelectedPair

/-! # What stays in the managed directories

`apply_configs` adds and overwrites files and removes none. After a call that reports no error each
file that the rows name holds what the rows say, and each other file is as it was before: a file
that is no longer named stays as the last call that named it left it.
-/

namespace OpenRadiusWeb.ConfigManager

open Effects Paths Transcript

/-! ## The files that the rows name -/

namespace Manager

variable (m : Manager)

/-- What the generated files have at a path. -/
def generatedAt (configs : Dict String) (p : Path) : Option ByteArray :=
  (configs.find? fun config => resolve (m.outputPath config.1) = p).map fun config => config.2.toUTF8

/-- What the rows say a file is to hold. -/
def named (r : Reads) (p : Path) : Option ByteArray :=
  match m.generateAllConfigs r with
  | .ok configs => (m.generatedAt configs p).or (lastWrite (m.certSteps r) p)
  | .error _ => none

end Manager

/-! ## One call -/

section Call

variable {m : Manager} {c : Call} {w w' : World} {p : Path}

theorem disk_of_holds {steps : List CertStep} {d : Disk} (h : Holds d steps) (p : Path) :
    d p = (lastWrite steps p).or (d p) := by
  cases hLast : lastWrite steps p with
  | none => rw [Option.none_or]
  | some b => rw [h p b hLast, Option.some_or]

/-- A certificate step without an error leaves what its writes say and the rest as it was. -/
theorem Manager.CertificatesStep.disk {result : ConfigResult}
    (h : m.CertificatesStep c w result w') (hFaithful : Faithful m w) (hReadable : Readable m c.toReads)
    (hOk : result.status ≠ .error) : w'.disk p = (lastWrite (m.certSteps c.toReads) p).or (w.disk p) := by
  cases h with
  | failed => exact (hOk rfl).elim
  | unchanged _ hStored =>
    exact disk_of_holds (hFaithful.certificates _ hReadable (ReadOutcome.stored_of_answer hStored)) p
  | written _ rows row hWrites hRow hRecorded hNotRecorded hResult =>
    rcases hResult with ⟨-, hComplete⟩ | ⟨e, rfl⟩
    · exact stepsLeave_of_complete hComplete w.disk p
    · exact (hOk rfl).elim

theorem Manager.ConfigStep.otherFile {results : Dict ConfigResult} {filename content : String}
    {result : Except Exc (Dict ConfigResult)} (h : m.ConfigStep c results filename content w result w')
    (hp : p ≠ resolve (m.outputPath filename)) : w'.disk p = w.disk p := by
  cases h with
  | aborted => rfl
  | unchanged => rfl
  | written => exact Function.update_of_ne hp _ _

theorem Manager.ConfigStep.entryOf {results results' : Dict ConfigResult} {filename content : String}
    (h : m.ConfigStep c results filename content w (.ok results') w') :
    ∃ entry, results'.get? (configTypeOf filename) = some entry ∧
      (InPlace entry.status ∨ entry.status = .error) := by
  obtain ⟨entry, rfl, hKind⟩ := h.entry
  refine ⟨entry, Dict.get?_set_self _ _ _, ?_⟩
  rcases hKind with ⟨hUnchanged, -⟩ | ⟨hApplied, -⟩ | hError
  · exact .inl (.inl hUnchanged)
  · exact .inl (.inr hApplied)
  · exact .inr hError

/-- Files applied without an error hold their contents, and the rest is as it was. -/
theorem Manager.applyFiles_disk {configs : List (String × String)} (hManaged : Managed configs)
    {results results' : Dict ConfigResult} (hFaithful : Faithful m w) (hClean : FilesClean m c w configs)
    (h : m.applyFiles c configs results w = (.ok results', w')) (hOk : NoError results') :
    w'.disk p = (m.generatedAt configs p).or (w.disk p) := by
  induction configs generalizing results w with
  | nil =>
    cases h
    rfl
  | cons config rest ih =>
    obtain ⟨filename, content⟩ := config
    have hFile := hManaged.subset filename List.mem_cons_self
    have hNotRest : filename ∉ Dict.keys rest := (List.nodup_cons.mp hManaged.nodup).1
    have hManagedRest : Managed rest := ⟨(List.nodup_cons.mp hManaged.nodup).2,
      fun f hf => hManaged.subset f (List.mem_cons_of_mem _ hf)⟩
    obtain ⟨results₁, w₁, hOne, hRest⟩ := Eff.ok_of_bind (by
      rwa [applyFiles, List.foldlM_cons] at h)
    have hStep := m.applyConfig_step c results filename content w
    rw [hOne] at hStep
    have hFaithful₁ := hStep.faithful hFile hFaithful hClean.1
    have hSame : ∀ other ∈ rest, SameFile m other.1 w w₁ := by
      intro other hMem
      refine hStep.sameFile hFile (hManagedRest.subset _ (List.mem_map_of_mem hMem)) ?_
      rintro rfl
      exact hNotRest (List.mem_map_of_mem hMem)
    have hClean₁ := SameFile.filesClean hSame (hClean.2 hStep.not_aborts)
    have hIh := ih hManagedRest hFaithful₁ hClean₁ hRest
    rw [hIh, generatedAt, generatedAt, List.find?_cons]
    by_cases hp : resolve (m.outputPath filename) = p
    · -- the file of this step: the later steps leave it alone
      have hRun := applyFiles_run hManagedRest results₁ hFaithful₁ hClean₁
      have hEnd : m.applyFiles c rest results₁ w₁ = (.ok results', w') := hRest
      rw [hEnd] at hRun
      have hType : configTypeOf filename ∉ (Dict.keys rest).map configTypeOf := by
        intro hType
        obtain ⟨f, hf, hEq⟩ := List.mem_map.mp hType
        refine configTypeOf_ne (hManagedRest.subset f hf) hFile ?_ hEq
        rintro rfl
        exact hNotRest hf
      obtain ⟨entry, hEntry, hKind⟩ := hStep.entryOf
      have hFinal := hRun.otherResults results' rfl _ hType
      have hIn : InPlace entry.status := by
        rcases hKind with hIn | hError
        · exact hIn
        · exact absurd hError (hOk _ (Dict.mem_of_get? (hFinal.trans hEntry)))
      have hHere := hStep.inPlace (hFaithful.files filename hFile) hEntry hIn
      have hNone : (rest.find? fun config => resolve (m.outputPath config.1) = p) = none := by
        rw [List.find?_eq_none]
        intro other hMem
        rw [decide_eq_true_eq, ← hp]
        refine outputPath_ne (hManagedRest.subset _ (List.mem_map_of_mem hMem)) hFile ?_
        rintro rfl
        exact hNotRest (List.mem_map_of_mem hMem)
      rw [hNone, decide_eq_true hp, ← hp, hHere]
      rfl
    · rw [decide_eq_false hp, hStep.otherFile fun hEq => hp hEq.symm]

theorem Manager.configs_of_noError {results : Dict ConfigResult}
    (h : (m.applyConfigs c w).1 = .ok results) (hOk : NoError results) :
    ∃ configs, m.generateAllConfigs c.toReads = .ok configs := by
  obtain ⟨certificates, w₁, hRun, -⟩ := m.applyCertificates_step c w
  rw [applyConfigs, Eff.bind_of_ok hRun] at h
  cases hConfigs : m.generateAllConfigs c.toReads with
  | ok configs => exact ⟨configs, rfl⟩
  | error e =>
    rw [hConfigs] at h
    cases h
    exact (hOk _ List.mem_cons_self rfl).elim

/-- After a call that reports no error, each file holds what the rows say, if they name it, and what
it held before. -/
theorem Manager.applyConfigs_disk {results : Dict ConfigResult} (hFaithful : Faithful m w)
    (hClean : Clean m w c) (h : m.applyConfigs c w = (.ok results, w')) (hOk : NoError results)
    (p : Path) : w'.disk p = (m.named c.toReads p).or (w.disk p) := by
  obtain ⟨certificates, w₁, hRun, hStep⟩ := m.applyCertificates_step c w
  have hFaithful₁ := hStep.faithful hFaithful hClean
  rw [applyConfigs, Eff.bind_of_ok hRun] at h
  cases hConfigs : m.generateAllConfigs c.toReads with
  | error e =>
    rw [hConfigs] at h
    cases h
    exact (hOk _ List.mem_cons_self rfl).elim
  | ok configs =>
    rw [hConfigs] at h
    have hManaged := generateAllConfigs_managed hConfigs
    have hClean₁ := SameFile.filesClean (fun config hMem => hStep.sameFile
      (hManaged.subset _ (List.mem_map_of_mem hMem))) (hClean.files configs hConfigs)
    have hFiles := applyFiles_run hManaged [("certificates", certificates)] hFaithful₁ hClean₁
    have hType : "certificates" ∉ (Dict.keys configs).map configTypeOf := by
      intro hType
      obtain ⟨f, hf, hEq⟩ := List.mem_map.mp hType
      exact configTypeOf_ne_certificates (hManaged.subset f hf) hEq
    have hEntry : results.get? "certificates" = some certificates :=
      hFiles.otherResults results (congrArg Prod.fst h) _ hType
    rw [applyFiles_disk hManaged hFaithful₁ hClean₁ h hOk,
      hStep.disk hFaithful hClean.readable (hOk _ (Dict.mem_of_get? hEntry)), named, hConfigs,
      Option.or_assoc]

end Call

/-! ## The same rows at another time -/

/-- Rendering does not depend on when it happens. -/
structure Templates.Timeless (t : Templates) : Prop where
  eap : ∀ vars vars', { vars with generatedAt := "" } = { vars' with generatedAt := "" } →
    t.eap vars = t.eap vars'
  ldap : ∀ now now' servers, t.ldap now servers = t.ldap now' servers
  siteDefault : ∀ hasEap vars vars',
    { vars with generatedAt := "" } = { vars' with generatedAt := "" } →
      t.siteDefault hasEap vars = t.siteDefault hasEap vars'
  siteInnerTunnel : ∀ vars vars',
    { vars with generatedAt := "" } = { vars' with generatedAt := "" } →
      t.siteInnerTunnel vars = t.siteInnerTunnel vars'
  python : ∀ now now' path, t.python now path = t.python now' path

/-- The reads of the same rows when no query fails. -/
def Reads.settled (r : Reads) : Reads := { r with queryFails := fun _ => none, now := "" }

/-- What the first returns, the second returns too. -/
def Settles {α : Type} (x y : Except Exc α) : Prop := ∀ a, x = .ok a → y = .ok a

theorem settles_of_eq {α : Type} {x y : Except Exc α} (h : y = x) : Settles x y := by
  intro a ha
  rw [h, ha]

theorem settles_bind {α β : Type} {x y : Except Exc α} {f g : α → Except Exc β}
    (hx : Settles x y) (hf : ∀ a, Settles (f a) (g a)) : Settles (x >>= f) (y >>= g) := by
  intro b hb
  obtain ⟨a, ha, hb⟩ := Except.ok_of_bind hb
  rw [hx a ha]
  exact hf a b hb

theorem settles_fetchAll {α : Type} (r : Reads) (q : Query) (rows : List α) :
    Settles (r.fetchAll q rows) (r.settled.fetchAll q rows) := by
  intro rows' h
  unfold Reads.fetchAll at h
  cases hFails : r.queryFails q with
  | none => rwa [hFails] at h
  | some e =>
    rw [hFails] at h
    cases h

namespace Manager

variable {m : Manager} (r : Reads)

section Settled

variable (hTemplates : m.templates.Timeless)
include hTemplates

theorem generateEapConfig_settles :
    Settles (m.generateEapConfig r) (m.generateEapConfig r.settled) := by
  apply settles_bind (settles_fetchAll r _ _)
  intro certs
  apply settles_bind
  · exact settles_bind (settles_fetchAll r _ _) fun _ => settles_of_eq rfl
  · intro settings
    exact settles_of_eq (congrArg (fun text => Except.ok (Option.getD text ""))
      (hTemplates.eap _ _ rfl))

theorem generateLdapConfigs_settles :
    Settles (m.generateLdapConfigs r) (m.generateLdapConfigs r.settled) := by
  apply settles_bind (settles_fetchAll r _ _)
  intro servers
  apply settles_bind (settles_of_eq rfl)
  intro rendered
  rw [hTemplates.ldap r.settled.now r.now]
  exact settles_of_eq rfl

omit hTemplates in
theorem generateProxyConfig_settles :
    Settles (m.generateProxyConfig r) (m.generateProxyConfig r.settled) :=
  settles_bind (settles_fetchAll r _ _) fun _ => settles_of_eq rfl

omit hTemplates in
theorem generateClientsConfig_settles :
    Settles (m.generateClientsConfig r) (m.generateClientsConfig r.settled) :=
  settles_bind (settles_fetchAll r _ _) fun _ => settles_of_eq rfl

theorem generateAllConfigs_settles :
    Settles (m.generateAllConfigs r) (m.generateAllConfigs r.settled) := by
  have hPython : m.generatePythonConfig r.settled = m.generatePythonConfig r := by
    rw [generatePythonConfig, generatePythonConfig, hTemplates.python _ r.now]
  have hDefault : ∀ hasEap hasPython modules realms,
      m.templates.siteDefault hasEap (siteVars r.settled hasPython modules realms) =
        m.templates.siteDefault hasEap (siteVars r hasPython modules realms) :=
    fun _ _ _ _ => hTemplates.siteDefault _ _ _ rfl
  have hInner : ∀ hasPython modules realms,
      m.templates.siteInnerTunnel (siteVars r.settled hasPython modules realms) =
        m.templates.siteInnerTunnel (siteVars r hasPython modules realms) :=
    fun _ _ _ => hTemplates.siteInnerTunnel _ _ rfl
  apply settles_bind (generateEapConfig_settles r hTemplates)
  intro eapContent
  apply settles_bind (generateLdapConfigs_settles r hTemplates)
  rintro ⟨files, names⟩
  apply settles_bind (settles_fetchAll r _ _)
  intro realms
  apply settles_bind (generateProxyConfig_settles r)
  intro proxyContent
  apply settles_bind (generateClientsConfig_settles r)
  intro clientsContent
  apply settles_of_eq
  simp only [hPython, hDefault, hInner]

/-- The generated files follow from the rows. -/
theorem configs_of_rows {r r' : Reads} (hRows : r.db = r'.db) {configs configs' : Dict String}
    (h : m.generateAllConfigs r = .ok configs) (h' : m.generateAllConfigs r' = .ok configs') :
    configs = configs' := by
  have hSettled : r.settled = r'.settled := by
    unfold Reads.settled
    rw [hRows]
  have hFirst := generateAllConfigs_settles r hTemplates _ h
  rw [hSettled, generateAllConfigs_settles r' hTemplates _ h'] at hFirst
  exact (Except.ok.inj hFirst).symm

end Settled

theorem certSteps_of_rows {r r' : Reads} (hRows : r.db = r'.db) : m.certSteps r = m.certSteps r' := by
  unfold certSteps Reads.activeCertificates Reads.enabledLdapServers
  rw [hRows]

/-- The files that the rows name follow from the rows. -/
theorem named_of_rows (hTemplates : m.templates.Timeless) {r r' : Reads} (hRows : r.db = r'.db)
    {configs configs' : Dict String} (h : m.generateAllConfigs r = .ok configs)
    (h' : m.generateAllConfigs r' = .ok configs') (p : Path) : m.named r p = m.named r' p := by
  rw [named, named, h, h', configs_of_rows hTemplates hRows h h', certSteps_of_rows hRows]

end Manager

/-! ## Histories of calls -/

section Histories

variable {m : Manager} {calls calls' : List Call} {c c' : Call} {w w' : World}

/-- What the last of the calls that name a file puts into it. -/
def Manager.lastNamed (m : Manager) : List Call → Path → Option ByteArray
  | [], _ => none
  | c :: calls, p => (m.lastNamed calls p).or (m.named c.toReads p)

/-- Every call of the history is clean. -/
def CleanRun (m : Manager) (w : World) (calls : List Call) : Prop :=
  ∀ e ∈ transcript m.applyConfigs w calls, Clean m e.pre e.input

/-- No call of the history reports an error. -/
def NoErrorRun (m : Manager) (w : World) (calls : List Call) : Prop :=
  ∀ e ∈ transcript m.applyConfigs w calls, ∃ results, e.output = .ok results ∧ NoError results

theorem final_faithful (hFaithful : Faithful m w) (hClean : CleanRun m w calls) :
    Faithful m (final m.applyConfigs w calls) := by
  refine final_invariant (Faithful m) (fun e => Clean m e.pre e.input) ?_ hFaithful hClean
  exact fun w c hFaithful hClean => (Manager.applyConfigs_faithful hFaithful hClean).1

/-- A history without errors leaves each file as the last call that named it says, and a file that
none named as it was. -/
theorem disk_of_history (hFaithful : Faithful m w) (hClean : CleanRun m w calls)
    (hOk : NoErrorRun m w calls) (p : Path) :
    (final m.applyConfigs w calls).disk p = (m.lastNamed calls p).or (w.disk p) := by
  induction calls generalizing w with
  | nil => rfl
  | cons c calls ih =>
    have hHere := hClean _ List.mem_cons_self
    obtain ⟨results, hResults, hNoError⟩ := hOk _ List.mem_cons_self
    have hStep := Manager.applyConfigs_disk hFaithful hHere (Prod.ext hResults rfl) hNoError p
    have hRest := ih (Manager.applyConfigs_faithful hFaithful hHere).1
      (fun e he => hClean e (List.mem_cons_of_mem _ he)) fun e he => hOk e (List.mem_cons_of_mem _ he)
    change (final m.applyConfigs (m.applyConfigs c w).2 calls).disk p = _
    rw [hRest, hStep, Manager.lastNamed, Option.or_assoc]

theorem lastNamed_append (calls calls' : List Call) (p : Path) :
    m.lastNamed (calls ++ calls') p = (m.lastNamed calls' p).or (m.lastNamed calls p) := by
  induction calls with
  | nil => rw [List.nil_append, Manager.lastNamed, Option.or_none]
  | cons c calls ih => rw [List.cons_append, Manager.lastNamed, ih, Manager.lastNamed, Option.or_assoc]

theorem lastNamed_isSome {p : Path} (h : c ∈ calls) (hNamed : (m.named c.toReads p).isSome) :
    (m.lastNamed calls p).isSome := by
  induction calls with
  | nil => cases h
  | cons first calls ih =>
    rw [Manager.lastNamed, Option.isSome_or, Bool.or_eq_true]
    rcases List.mem_cons.mp h with rfl | h
    · exact .inr hNamed
    · exact .inl (ih h)

theorem exists_of_lastNamed {p : Path} {b : ByteArray} (h : m.lastNamed calls p = some b) :
    ∃ c ∈ calls, (m.named c.toReads p).isSome := by
  induction calls with
  | nil => cases h
  | cons first calls ih =>
    rw [Manager.lastNamed, Option.or_eq_some_iff] at h
    rcases h with h | ⟨-, h⟩
    · obtain ⟨c, hMem, hNamed⟩ := ih h
      exact ⟨c, List.mem_cons_of_mem _ hMem, hNamed⟩
    · exact ⟨first, List.mem_cons_self, Option.isSome_iff_exists.mpr ⟨b, h⟩⟩

/-- On directories that were empty at first, the files after a history without errors are those that
the last rows name exactly if no earlier call named another. -/
theorem directories_of_rows_iff (hClean : CleanRun m (unrecorded fun _ => none) (calls ++ [c]))
    (hOk : NoErrorRun m (unrecorded fun _ => none) (calls ++ [c])) :
    (final m.applyConfigs (unrecorded fun _ => none) (calls ++ [c])).disk = m.named c.toReads ↔
      ∀ before ∈ calls, ∀ p, (m.named before.toReads p).isSome → (m.named c.toReads p).isSome := by
  have hDisk : ∀ p, (final m.applyConfigs (unrecorded fun _ => none) (calls ++ [c])).disk p =
      (m.named c.toReads p).or (m.lastNamed calls p) := by
    intro p
    rw [disk_of_history (unrecorded_faithful m _) hClean hOk p, lastNamed_append]
    exact Option.or_none
  constructor
  · intro hSame before hMem p hNamed
    have hHere := hDisk p
    rw [hSame] at hHere
    cases hLast : m.named c.toReads p with
    | some b => rfl
    | none =>
      rw [hLast, Option.none_or] at hHere
      have hSome := lastNamed_isSome hMem hNamed
      rw [← hHere] at hSome
      cases hSome
  · intro h
    funext p
    rw [hDisk p]
    cases hLast : m.named c.toReads p with
    | some b => rfl
    | none =>
      rw [Option.none_or]
      cases hBefore : m.lastNamed calls p with
      | none => rfl
      | some b =>
        obtain ⟨before, hMem, hNamed⟩ := exists_of_lastNamed hBefore
        have hSome := h before hMem p hNamed
        rw [hLast] at hSome
        cases hSome

theorem CleanRun.last (h : CleanRun m w (calls ++ [c])) :
    CleanRun m w calls ∧ Clean m (final m.applyConfigs w calls) c := by
  refine ⟨fun e he => h e ?_, h _ (last_mem_transcript w calls c)⟩
  exact (transcript_append w calls [c]).symm ▸ List.mem_append_left _ he

/-- The files after a history whose last call reports no error. -/
theorem disk_of_last {d : Disk} (hClean : CleanRun m (unrecorded d) (calls ++ [c]))
    {results : Dict ConfigResult}
    (hOk : (m.applyConfigs c (final m.applyConfigs (unrecorded d) calls)).1 = .ok results)
    (hNoError : NoError results) (p : Path) :
    (final m.applyConfigs (unrecorded d) (calls ++ [c])).disk p =
      (m.named c.toReads p).or ((final m.applyConfigs (unrecorded d) calls).disk p) := by
  obtain ⟨hBefore, hLast⟩ := hClean.last
  have hFinal : final m.applyConfigs (unrecorded d) (calls ++ [c]) =
      (m.applyConfigs c (final m.applyConfigs (unrecorded d) calls)).2 := final_append _ _ _
  rw [hFinal]
  exact Manager.applyConfigs_disk (final_faithful (unrecorded_faithful m d) hBefore) hLast
    (Prod.ext hOk rfl) hNoError p

end Histories

/-! ## Calls that succeed -/

namespace Manager

variable {m : Manager} {c : Call}

theorem applyCertificates_applies (h : Applies m c) (w : World) :
    ∃ result w', m.applyCertificates c w = (.ok result, w') ∧ result.status ≠ .error := by
  have hHash : (Eff.lift (m.computeCertFilesHash c.toReads) : Eff World Exc String) w =
      (.ok (m.certFilesHash c.toReads), w) := by
    rw [m.computeCertFilesHash_of_reads (h.faultFree.queries _) (h.faultFree.queries _)]
    rfl
  have hGet : getStoredHash (c.read "_cert_files") "certificates" "_cert_files" w =
      (.ok (storedHash c w certificatesKey), w) :=
    getStoredHash_of_read (by rw [h.faultFree.reads]; rfl) _ _ w
  have hBody : m.refreshCertificates c w =
      (if storedHash c w certificatesKey = some (m.certFilesHash c.toReads) then
        pure ⟨.unchanged, m.certFilesHash c.toReads, none⟩
      else m.writeCertificates c (m.certFilesHash c.toReads)) w := by
    rw [refreshCertificates, Eff.bind_of_ok hHash, Eff.bind_of_ok hGet]
  split at hBody
  · exact ⟨⟨.unchanged, m.certFilesHash c.toReads, none⟩, w, Eff.attempt_of_ok hBody, by simp⟩
  · have hSteps := (runSteps_ok c.certWrite (m.certSteps c.toReads) 0 w).mpr (stepsComplete_of_applies h)
    have hWritten : m.writeCertFiles c.toReads c.makedirsFails c.certWrite w =
        (.ok (), (runSteps c.certWrite (m.certSteps c.toReads) 0 w).2) := by
      rw [writeCertFiles_of_reads (h.faultFree.queries _) (h.faultFree.queries _) h.faultFree.makedirs]
      exact Prod.ext hSteps rfl
    have hSave : ∀ w, ∃ w', saveConfigState (c.save "_cert_files" .applied) "certificates" "_cert_files" ""
        (m.certFilesHash c.toReads) .applied none w = (.ok (), w') := by
      intro w
      rw [saveConfigState_apply, h.faultFree.saves]
      exact ⟨_, rfl⟩
    obtain ⟨w', hSaved⟩ := hSave (runSteps c.certWrite (m.certSteps c.toReads) 0 w).2
    refine ⟨⟨.applied, m.certFilesHash c.toReads, none⟩, w', Eff.attempt_of_ok (hBody.trans ?_), by simp⟩
    exact (Eff.bind_of_ok hWritten).trans (Eff.bind_of_ok hSaved)

theorem applyConfig_applies (h : FaultFree c) (results : Dict ConfigResult)
    (filename content : String) (w : World) : ∃ status error w', status ≠ .error ∧
      m.applyConfig c results filename content w =
        (.ok (results.set (configTypeOf filename) ⟨status, m.computeHash content, error⟩), w') := by
  have hGet : getStoredHash (c.read filename) (configTypeOf filename) filename w =
      (.ok (storedHash c w (configKey filename)), w) :=
    getStoredHash_of_read (by rw [h.reads]; rfl) _ _ w
  rw [applyConfig, Eff.bind_of_ok hGet]
  split
  · exact ⟨.unchanged, none, w, by simp, rfl⟩
  · refine ⟨.applied, none, (m.writeConfig c results filename content w).2, by simp, ?_⟩
    refine Prod.ext ?_ rfl
    simp [writeConfig, Eff.attempt, Eff.bind_apply, writeFile_apply, saveConfigState_apply,
      outcomeOf, h.configWrites, h.saves, WriteOutcome.raised]

theorem applyFiles_applies (h : FaultFree c) (configs : List (String × String))
    {results : Dict ConfigResult} (hOk : NoError results) (w : World) :
    ∃ results' w', m.applyFiles c configs results w = (.ok results', w') ∧ NoError results' := by
  induction configs generalizing results w with
  | nil => exact ⟨results, w, rfl, hOk⟩
  | cons config rest ih =>
    obtain ⟨status, error, w₁, hStatus, hOne⟩ := applyConfig_applies h results config.1 config.2 w
    have hSet := Dict.forall_mem_set (p := fun e : ConfigResult => e.status ≠ .error) hOk
      (configTypeOf config.1) (v := ⟨status, m.computeHash config.2, error⟩) hStatus
    obtain ⟨results', w', hRest, hAll⟩ := ih hSet w₁
    refine ⟨results', w', ?_, hAll⟩
    rw [applyFiles, List.foldlM_cons]
    exact (Eff.bind_of_ok hOne).trans hRest

theorem applyConfigs_applies (h : Applies m c) (w : World) :
    ∃ results, (m.applyConfigs c w).1 = .ok results ∧ NoError results := by
  obtain ⟨configs, hConfigs⟩ := generateAllConfigs_succeeds h.faultFree.queries h.decrypts
  obtain ⟨certificates, w₁, hRun, hStatus⟩ := applyCertificates_applies h w
  have hStart : NoError [("certificates", certificates)] := by simpa [NoError] using hStatus
  obtain ⟨results, w', hFiles, hOk⟩ := applyFiles_applies (m := m) h.faultFree configs hStart w₁
  refine ⟨results, ?_, hOk⟩
  rw [applyConfigs, Eff.bind_of_ok hRun, hConfigs]
  exact congrArg Prod.fst hFiles

end Manager

theorem cleanRun_of_applies {m : Manager} {calls : List Call} (h : ∀ c ∈ calls, Applies m c)
    (w : World) : CleanRun m w calls := by
  intro e he
  have hApplies := h _ (mem_transcript_input he)
  exact hApplies.faultFree.clean _ hApplies.readable (Manager.stepsComplete_of_applies hApplies)

theorem noErrorRun_of_applies {m : Manager} {calls : List Call} (h : ∀ c ∈ calls, Applies m c)
    (w : World) : NoErrorRun m w calls := by
  intro e he
  obtain ⟨results, hOk, hNoError⟩ := Manager.applyConfigs_applies (h _ (mem_transcript_input he)) e.pre
  have hStep := mem_transcript_step he
  rw [hStep] at hOk
  exact ⟨results, hOk, hNoError⟩

/-! ## A certificate that was retired -/

def rootCa : Certificate where
  certType := "ca"
  name := "Root"
  pemData := "PEM"
  keyPemEncrypted := none
  chainPem := none
  dhParamsPem := none
  isActive := some true
  enabled := some true

/-- The call while `Root` was the active certificate authority. -/
def rootedCall : Call := { plainCall with db := ⟨[rootCa], [], [], [], []⟩ }

theorem rootedCall_applies : Applies plainManager rootedCall where
  faultFree := ⟨fun _ => rfl, rfl, fun _ => rfl, fun _ => rfl, fun _ => rfl, fun _ _ => rfl⟩
  readable := ⟨by decide +kernel, by decide +kernel, by decide +kernel⟩
  decrypts := by
    have hType : ∀ c ∈ rootedCall.activeCertificates, c.certType ≠ "server" := by decide +kernel
    exact ⟨fun c hc hServer => (hType c hc hServer).elim, fun _ h => (by cases h),
      fun _ h => (by cases h), fun _ h => (by cases h)⟩

theorem plainCall_applies : Applies plainManager plainCall where
  faultFree := plainCall_faultFree
  readable := ⟨by decide, by decide, by decide⟩
  decrypts := ⟨fun _ h => (by cases h), fun _ h => (by cases h), fun _ h => (by cases h),
    fun _ h => (by cases h)⟩

theorem plain_timeless : plainManager.templates.Timeless :=
  ⟨fun _ _ _ => rfl, fun _ _ _ => rfl, fun _ _ _ _ => rfl, fun _ _ _ => rfl, fun _ _ _ => rfl⟩

theorem caPem_left_over : (plainManager.named rootedCall.toReads plainManager.caPem).isSome ∧
    plainManager.named plainCall.toReads plainManager.caPem = none := by
  obtain ⟨configs, hConfigs⟩ := Manager.generateAllConfigs_succeeds
    rootedCall_applies.faultFree.queries rootedCall_applies.decrypts
  constructor
  · have hWritten : (lastWrite (plainManager.certSteps rootedCall.toReads) plainManager.caPem).isSome := by
      decide +kernel
    rw [Manager.named, hConfigs, Option.isSome_or, hWritten, Bool.or_true]
  · rw [Manager.named, plain_generateAllConfigs]
    decide +kernel

theorem rooted_applies : ∀ c ∈ [rootedCall] ++ [plainCall], Applies plainManager c :=
  List.forall_mem_cons.mpr ⟨rootedCall_applies, List.forall_mem_singleton.mpr plainCall_applies⟩

/-- The file of a retired authority stays. -/
theorem retired_root_stays :
    (final plainManager.applyConfigs (unrecorded fun _ => none) ([rootedCall] ++ [plainCall])).disk ≠
      plainManager.named plainCall.toReads := by
  intro hSame
  have hNamed := (directories_of_rows_iff (cleanRun_of_applies rooted_applies _)
    (noErrorRun_of_applies rooted_applies _)).mp hSame rootedCall List.mem_cons_self _ caPem_left_over.1
  rw [caPem_left_over.2] at hNamed
  cases hNamed

end OpenRadiusWeb.ConfigManager
