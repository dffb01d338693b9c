import OpenRadiusWeb.ConfigManager.Generate
import OpenRadiusWeb.ConfigManager.Store

/-! # The certificate files

`write_cert_files` as the list of its writes in order. A later write to the same file
wins, and the whole list depends on the rows only through the columns the
certificate hash reads.
-/

namespace OpenRadiusWeb.ConfigManager

open Effects Paths

/-- One step of `write_cert_files`; a key that does not decrypt raises between the writes. -/
inductive CertStep
  | write (path content : String)
  | raise (e : Exc)

namespace Manager

variable (m : Manager)

def trustedCasDir : String := join m.certDir "trusted-cas"

def ldapCertsDir : String := join m.certDir "ldap"

/-- The file name of a CA below `trusted-cas`. -/
def trustedName (name : String) : String := m.lower (Text.replaceChar ' ' "_" name)

/-- `if content: self._write_file(path, content)`. -/
def writeIf (path : String) (content : Option String) : List CertStep :=
  if orEmpty content = "" then [] else [.write path (orEmpty content)]

def keySteps (keyPemEncrypted : Option String) : List CertStep :=
  match m.decryptSecret keyPemEncrypted with
  | .error e => [.raise e]
  | .ok keyPem => writeIf (join m.certDir "server.key") keyPem

def certificateSteps (cert : Certificate) : List CertStep :=
  if cert.pemData = "" then []
  else if cert.certType = "ca" then
    [.write (join m.certDir "ca.pem") cert.pemData,
      .write (join m.trustedCasDir (m.trustedName cert.name ++ ".pem")) cert.pemData] ++
      writeIf (join m.trustedCasDir (m.trustedName cert.name ++ "_chain.pem")) cert.chainPem
  else if cert.certType = "server" then
    [.write (join m.certDir "server.pem") cert.pemData] ++ m.keySteps cert.keyPemEncrypted ++
      writeIf (join m.certDir "dh.pem") cert.dhParamsPem
  else []

/-- The file of an LDAP server's CA. -/
def ldapCaPath (server : LdapServer) : String :=
  join m.ldapCertsDir (m.safeName server.name ++ "_ca.pem")

def ldapSteps (server : LdapServer) : List CertStep :=
  writeIf (m.ldapCaPath server) server.tlsCaCert

/-- The steps of `write_cert_files` on one database state. -/
def certSteps (r : Reads) : List CertStep :=
  r.activeCertificates.flatMap m.certificateSteps ++ r.enabledLdapServers.flatMap m.ldapSteps

end Manager

/-- The steps in order, the `k`-th write turning out as `outcomes k`. -/
def runSteps (outcomes : Nat → WriteOutcome) : List CertStep → Nat → Eff World Exc Unit
  | [], _ => pure ()
  | .write path content :: rest, k => do
    writeFile (outcomes k) path content
    runSteps outcomes rest (k + 1)
  | .raise e :: _, _ => Eff.raise e

/-- `write_cert_files`. -/
def Manager.writeCertFiles (m : Manager) (r : Reads) (makedirsFails : Option Exc)
    (outcomes : Nat → WriteOutcome) : Eff World Exc Unit := do
  let certs ← Eff.lift (r.loadActiveCertificates .fileCertificates)
  let ldapServers ← Eff.lift (r.loadLdapServers .fileLdapServers)
  raiseIf makedirsFails
  runSteps outcomes (certs.flatMap m.certificateSteps ++ ldapServers.flatMap m.ldapSteps) 0

/-! ## What the steps leave on disk -/

/-- Whether every step returns. -/
def stepsComplete (outcomes : Nat → WriteOutcome) : List CertStep → Nat → Prop
  | [], _ => True
  | .write _ _ :: rest, k => (outcomes k).raised = none ∧ stepsComplete outcomes rest (k + 1)
  | .raise _ :: _, _ => False

/-- The disk after the steps up to the first that raises. -/
def stepsLeave (outcomes : Nat → WriteOutcome) : List CertStep → Nat → Disk → Disk
  | [], _, d => d
  | .write path content :: rest, k, d =>
    if (outcomes k).raised = none then
      stepsLeave outcomes rest (k + 1) (d.written path (outcomes k) content)
    else d.written path (outcomes k) content
  | .raise _ :: _, _, d => d

theorem runSteps_world (outcomes : Nat → WriteOutcome) (steps : List CertStep) (k : Nat)
    (w : World) :
    (runSteps outcomes steps k w).2 = { w with disk := stepsLeave outcomes steps k w.disk } := by
  induction steps generalizing k w with
  | nil => rfl
  | cons step rest ih =>
    cases step with
    | raise e => rfl
    | write path content =>
      rw [runSteps, stepsLeave]
      cases h : (outcomes k).raised with
      | none => rw [Eff.bind_of_ok (by rw [writeFile_apply, h, outcomeOf]), ih, if_pos rfl]
      | some e => rw [Eff.bind_of_error (by rw [writeFile_apply, h, outcomeOf]), if_neg (by simp)]

theorem runSteps_ok (outcomes : Nat → WriteOutcome) (steps : List CertStep) (k : Nat) (w : World) :
    (runSteps outcomes steps k w).1 = .ok () ↔ stepsComplete outcomes steps k := by
  induction steps generalizing k w with
  | nil => simp [runSteps, stepsComplete]
  | cons step rest ih =>
    cases step with
    | raise e => simp [runSteps, stepsComplete]
    | write path content =>
      rw [runSteps, stepsComplete]
      cases h : (outcomes k).raised with
      | none => rw [Eff.bind_of_ok (by rw [writeFile_apply, h, outcomeOf]), ih]; simp
      | some e => rw [Eff.bind_of_error (by rw [writeFile_apply, h, outcomeOf])]; simp

theorem Manager.writeCertFiles_of_reads {m : Manager} {r : Reads} {makedirsFails : Option Exc}
    (hCerts : r.queryFails .fileCertificates = none) (hLdap : r.queryFails .fileLdapServers = none)
    (hDirs : makedirsFails = none) (outcomes : Nat → WriteOutcome) (w : World) :
    m.writeCertFiles r makedirsFails outcomes w = runSteps outcomes (m.certSteps r) 0 w := by
  simp [writeCertFiles, Eff.bind_apply, Reads.loadActiveCertificates, Reads.loadLdapServers,
    Reads.fetchAll, raiseIf, outcomeOf, hCerts, hLdap, hDirs, certSteps]

theorem Manager.writeCertFiles_of_fails {m : Manager} {r : Reads} {makedirsFails : Option Exc}
    (h : ¬(r.queryFails .fileCertificates = none ∧ r.queryFails .fileLdapServers = none ∧
      makedirsFails = none)) (outcomes : Nat → WriteOutcome) (w : World) :
    ∃ e, m.writeCertFiles r makedirsFails outcomes w = (.error e, w) := by
  rw [writeCertFiles, Reads.loadActiveCertificates, Reads.loadLdapServers, Reads.fetchAll,
    Reads.fetchAll]
  cases hCerts : r.queryFails .fileCertificates with
  | some e => exact ⟨e, rfl⟩
  | none =>
    cases hLdap : r.queryFails .fileLdapServers with
    | some e => exact ⟨e, rfl⟩
    | none =>
      cases hDirs : makedirsFails with
      | some e => exact ⟨e, rfl⟩
      | none => exact (h ⟨hCerts, hLdap, hDirs⟩).elim

/-- What the last write of a file puts into it. -/
def lastWrite : List CertStep → Path → Option ByteArray
  | [], _ => none
  | .write path content :: rest, p =>
    (lastWrite rest p).or (if p = resolve path then some content.toUTF8 else none)
  | .raise _ :: rest, p => lastWrite rest p

/-- The disk holds what the steps write. -/
def Holds (d : Disk) (steps : List CertStep) : Prop :=
  ∀ p b, lastWrite steps p = some b → d p = some b

def CertStep.file : CertStep → Option Path
  | .write path _ => some (resolve path)
  | .raise _ => none

theorem lastWrite_eq_none {steps : List CertStep} {p : Path}
    (h : ∀ step ∈ steps, step.file ≠ some p) : lastWrite steps p = none := by
  induction steps with
  | nil => rfl
  | cons step rest ih =>
    rw [List.forall_mem_cons] at h
    cases step with
    | raise e => exact ih h.2
    | write path content =>
      have hPath : p ≠ resolve path := fun hp => h.1 (congrArg some hp.symm)
      simp [lastWrite, ih h.2, hPath]

/-- When no two writes name one file, a file gets what its only write says. -/
theorem lastWrite_of_distinct {steps : List CertStep}
    (h : steps.Pairwise fun s t => s.file ≠ t.file) (p : Path) (b : ByteArray) :
    lastWrite steps p = some b ↔
      ∃ path content, .write path content ∈ steps ∧ p = resolve path ∧ b = content.toUTF8 := by
  induction steps with
  | nil => simp [lastWrite]
  | cons step rest ih =>
    rw [List.pairwise_cons] at h
    cases step with
    | raise e => simp [lastWrite, ih h.2]
    | write path content =>
      by_cases hp : p = resolve path
      · have hOther : ∀ step ∈ rest, step.file ≠ some p := fun step hs hEq =>
          h.1 step hs (by rw [hEq, hp]; rfl)
        rw [lastWrite, lastWrite_eq_none hOther, Option.none_or, if_pos hp, Option.some_inj]
        constructor
        · intro hb
          exact ⟨path, content, List.mem_cons_self, hp, hb.symm⟩
        · rintro ⟨path', content', hMem, hp', hb⟩
          rcases List.mem_cons.mp hMem with hEq | hMem
          · cases hEq
            exact hb.symm
          · exact (hOther _ hMem (congrArg some hp'.symm)).elim
      · rw [lastWrite, if_neg hp, Option.or_none, ih h.2]
        constructor
        · rintro ⟨path', content', hMem, hRest⟩
          exact ⟨path', content', List.mem_cons_of_mem _ hMem, hRest⟩
        · rintro ⟨path', content', hMem, hp', hb⟩
          rcases List.mem_cons.mp hMem with hEq | hMem
          · cases hEq
            exact (hp hp').elim
          · exact ⟨path', content', hMem, hp', hb⟩

theorem stepsLeave_of_complete {outcomes : Nat → WriteOutcome} {steps : List CertStep} {k : Nat}
    (h : stepsComplete outcomes steps k) (d : Disk) (p : Path) :
    stepsLeave outcomes steps k d p = (lastWrite steps p).or (d p) := by
  induction steps generalizing k d with
  | nil => rfl
  | cons step rest ih =>
    cases step with
    | raise e => exact h.elim
    | write path content =>
      have hHere : d.written path (outcomes k) content p =
          (if p = resolve path then some content.toUTF8 else none).or (d p) := by
        rw [Disk.written, WriteOutcome.leaves_of_raised_none h.1]
        by_cases hp : p = resolve path <;> simp [hp]
      rw [stepsLeave, if_pos h.1, ih h.2, lastWrite, hHere, Option.or_assoc]

theorem holds_of_complete {outcomes : Nat → WriteOutcome} {steps : List CertStep} {k : Nat}
    (h : stepsComplete outcomes steps k) (d : Disk) :
    Holds (stepsLeave outcomes steps k d) steps := by
  intro p b hb
  rw [stepsLeave_of_complete h, hb, Option.some_or]

theorem lastWrite_append (xs ys : List CertStep) (p : Path) :
    lastWrite (xs ++ ys) p = (lastWrite ys p).or (lastWrite xs p) := by
  induction xs with
  | nil => simp [lastWrite]
  | cons step rest ih =>
    cases step with
    | raise e => simpa [lastWrite] using ih
    | write path content => simp [lastWrite, ih, Option.or_assoc]

/-! ## The files the steps touch -/

/-- A property of every file the steps write. -/
def WritesWithin (P : Path → Prop) (steps : List CertStep) : Prop :=
  ∀ path content, CertStep.write path content ∈ steps → P (resolve path)

theorem stepsLeave_of_not {P : Path → Prop} {outcomes : Nat → WriteOutcome}
    {steps : List CertStep} (h : WritesWithin P steps) (k : Nat) (d : Disk) {p : Path} (hp : ¬P p) :
    stepsLeave outcomes steps k d p = d p := by
  induction steps generalizing k d with
  | nil => rfl
  | cons step rest ih =>
    have hRest : WritesWithin P rest := fun path content hm =>
      h path content (List.mem_cons_of_mem _ hm)
    cases step with
    | raise e => rfl
    | write path content =>
      have hPath : p ≠ resolve path := by
        rintro rfl
        exact hp (h path content List.mem_cons_self)
      have hHere : d.written path (outcomes k) content p = d p :=
        Function.update_of_ne hPath _ _
      rw [stepsLeave]
      split_ifs
      · rw [ih hRest, hHere]
      · exact hHere

theorem lastWrite_of_not {P : Path → Prop} {steps : List CertStep} (h : WritesWithin P steps)
    {p : Path} (hp : ¬P p) : lastWrite steps p = none := by
  induction steps with
  | nil => rfl
  | cons step rest ih =>
    have hRest := ih fun path content hm => h path content (List.mem_cons_of_mem _ hm)
    cases step with
    | raise e => exact hRest
    | write path content =>
      have hPath : p ≠ resolve path := by
        rintro rfl
        exact hp (h path content List.mem_cons_self)
      simp [lastWrite, hRest, hPath]

end OpenRadiusWeb.ConfigManager
