import OpenRadiusWeb.Certificates.Service
import OpenRadiusWeb.ConfigManager.Store
import OpenRadiusWeb.Lib.Transcript
import OpenRadiusWeb.Secrets.Vault

/-! # The files of generated certificates

`generate_ca` and `generate_server` write the key pair to disk before they insert the row, at
a path made of the lowered name. A request that fails later has written all the same, and two
names may share their path: a run keeps the files of the stored certificates as long as no
request writes where one of them lies.
-/

namespace OpenRadiusWeb.Certificates

open Effects (Eff)
open Paths (Path join resolve)
open ConfigManager (Disk WriteOutcome)
open Transcript (transcript final)

/-- `CERT_BASE_DIR`. -/
def certBaseDir : String := "/opt/orw/certs"

/-- What the requests share: `str.lower`, the vault and the exceptions of the database. -/
structure Issuer (Key : Type) where
  lower : String → String
  cipher : Secrets.Cipher Key
  key : Key
  uniqueViolation : PyException
  failedTransaction : PyException

inductive Generation
  | ca (req : GenerateCARequest)
  | server (req : GenerateServerRequest)

/-- A request, with how everything outside turns out for it. -/
structure GenerationAttempt where
  actor : Actor
  generation : Generation
  external : (c : Command) → Except PyException c.Answer
  nonce : Secrets.Nonce
  makedirsFails : Option PyException
  certOutcome : WriteOutcome
  keyOutcome : WriteOutcome
  sqlFails : Command → Option PyException
  newId : String
  commitFails : Option PyException

/-- What a run changes. -/
structure Host where
  disk : Disk
  certificates : List Certificate

/-- The host during a request. -/
structure Serving where
  disk : Disk
  session : Session (List Certificate)

def osError (text : String) : PyException := ⟨"OSError", text⟩

/-- `_write`. -/
def writeText (o : WriteOutcome) (path data : String) : Eff Disk PyException Unit := do
  Eff.modify fun disk => disk.written path o data
  Eff.lift (match o.raised with
    | some e => .error (osError e)
    | none => .ok ())

/-- `os.makedirs(directory, exist_ok=True)`. -/
def makedirs (fails : Option PyException) : Eff Disk PyException Unit :=
  Eff.lift (match fails with
    | some e => .error e
    | none => .ok ())

variable {Key : Type}

namespace Issuer

variable (issuer : Issuer Key)

def safeName (name : String) : String := issuer.lower (Text.replaceChar ' ' "_" name)

def certPath (subdir name : String) : String :=
  join (join certBaseDir subdir) (issuer.safeName name ++ ".pem")

def keyPath (subdir name : String) : String :=
  join (join certBaseDir subdir) (issuer.safeName name ++ ".key")

/-- `write_cert_files`. -/
def writeCertFiles (a : GenerationAttempt) (subdir name certPem keyPem : String) :
    Eff Disk PyException Unit := do
  makedirs a.makedirsFails
  writeText a.certOutcome (issuer.certPath subdir name) certPem
  writeText a.keyOutcome (issuer.keyPath subdir name) keyPem

/-- What the database makes of a statement. -/
def perform {α : Type} (a : GenerationAttempt) (c : Command) (action : SqlAction Certificate α)
    (rows : List Certificate) : Except PyException (α × List Certificate) :=
  match a.sqlFails c with
  | some e => .error e
  | none => action.perform clashes issuer.uniqueViolation a.newId rows

/-- A statement in the session of the request. -/
def execute {α : Type} (a : GenerationAttempt) (c : Command) (action : SqlAction Certificate α) :
    Eff Serving PyException α := fun s =>
  let (r, session) := Session.execute issuer.failedTransaction (issuer.perform a c action) s.session
  (r, { s with session := session })

def exec (a : GenerationAttempt) : (c : Command) → Eff Serving PyException c.Answer
  | .writeCertFiles subdir name certPem keyPem => fun s =>
    let (r, disk) := issuer.writeCertFiles a subdir name certPem keyPem s.disk
    (r, { s with disk := disk })
  | .encryptSecret plaintext => fun s =>
    (.ok (issuer.cipher.encrypt issuer.key a.nonce plaintext), s)
  | c =>
    match c.statement with
    | none => fun s => (a.external c, s)
    | some action => issuer.execute a c action

end Issuer

namespace GenerationAttempt

def program (a : GenerationAttempt) : UseCase Certificate :=
  match a.generation with
  | .ca req => generateCa a.actor req
  | .server req => generateServer a.actor req

def subdir (a : GenerationAttempt) : String :=
  match a.generation with
  | .ca _ => "ca"
  | .server _ => "server"

def name (a : GenerationAttempt) : String :=
  match a.generation with
  | .ca req => req.name
  | .server req => req.name

/-- What is made before the files are written. -/
def material (a : GenerationAttempt) (rows : List Certificate) :
    Except PyException (String × String × CertMetadata) :=
  match a.generation with
  | .ca req => do
    let keys ← a.external (.generateCaKeypair req)
    let metadata ← a.external (.parseCertMetadata keys.1)
    return (keys.1, keys.2, metadata)
  | .server req =>
    match a.sqlFails (.selectActiveCa a.actor.tenantId),
      (rows.filter fun c => c.ofType a.actor.tenantId "ca" && c.isActive).head? with
    | some e, _ => .error e
    | none, none => .error (validationError noActiveCa)
    | none, some ca => do
      let caKey ← a.external (.decryptSecret ca.keyPemEncrypted)
      let keys ← a.external (.generateServerKeypair req ⟨ca.pemData, caKey⟩)
      let metadata ← a.external (.parseCertMetadata keys.1)
      return (keys.1, keys.2, metadata)

end GenerationAttempt

namespace Issuer

variable (issuer : Issuer Key)

/-- A request from start to commit. -/
def step (a : GenerationAttempt) (host : Host) : Except PyException Certificate × Host :=
  match a.program.run (issuer.exec a) ⟨host.disk, Session.start host.certificates⟩ with
  | (.error e, s) => (.error e, ⟨s.disk, host.certificates⟩)
  | (.ok row, s) =>
    match a.commitFails with
    | some e => (.error e, ⟨s.disk, host.certificates⟩)
    | none => (.ok row, ⟨s.disk, s.session.result⟩)

/-- The files at the path of a row hold its certificate and its private key. -/
structure Filed (disk : Disk) (c : Certificate) : Prop where
  cert : disk (resolve (issuer.certPath c.certType c.name)) = some c.pemData.toUTF8
  key : ∃ keyPem, issuer.cipher.decrypt issuer.key c.keyPemEncrypted = .ok (some keyPem) ∧
    disk (resolve (issuer.keyPath c.certType c.name)) = some keyPem.toUTF8

/-- The rows that generation made have their files. -/
def FilesHold (host : Host) : Prop :=
  ∀ c ∈ host.certificates, c.imported = false → issuer.Filed host.disk c

/-- Does a request write to the files of a row? -/
def Overwrites (a : GenerationAttempt) (c : Certificate) : Prop :=
  resolve (issuer.certPath a.subdir a.name) = resolve (issuer.certPath c.certType c.name) ∨
    resolve (issuer.keyPath a.subdir a.name) = resolve (issuer.keyPath c.certType c.name)

/-- A request that gets as far as its files writes to none of a generated row. -/
def Spares (host : Host) (a : GenerationAttempt) : Prop :=
  (∃ made, a.material host.certificates = .ok made) → a.makedirsFails = none →
    ∀ c ∈ host.certificates, c.imported = false → ¬ issuer.Overwrites a c

end Issuer

/-! ## The two files of a name -/

section Writes

variable {issuer : Issuer Key} {a : GenerationAttempt}

theorem certPath_ne_keyPath (subdir name subdir' name' : String) :
    resolve (issuer.certPath subdir name) ≠ resolve (issuer.keyPath subdir' name') := by
  intro hSame
  obtain ⟨u, hCert⟩ := @Paths.getLast?_resolve_join ".pem" (by decide) (by decide)
    (join certBaseDir subdir) (issuer.safeName name)
  obtain ⟨v, hKey⟩ := @Paths.getLast?_resolve_join ".key" (by decide) (by decide)
    (join certBaseDir subdir') (issuer.safeName name')
  have hLast : u ++ ".pem" = v ++ ".key" := by
    apply Option.some.inj
    rw [← hCert, ← hKey]
    exact congrArg List.getLast? hSame
  have hChars := congrArg (fun s : String => s.toList.getLast?) hLast
  simp at hChars

/-- The disk outside the two files of a request. -/
def Elsewhere (issuer : Issuer Key) (a : GenerationAttempt) (d d' : Disk) : Prop :=
  ∀ p, p ≠ resolve (issuer.certPath a.subdir a.name) → p ≠ resolve (issuer.keyPath a.subdir a.name) →
    d' p = d p

theorem writeText_apply (o : WriteOutcome) (path data : String) (d : Disk) :
    writeText o path data d =
      (match o.raised with
        | some e => .error (osError e)
        | none => .ok (), d.written path o data) := rfl

theorem written_of_ne {d : Disk} {path data : String} {o : WriteOutcome} {p : Path}
    (h : p ≠ resolve path) : d.written path o data p = d p :=
  Function.update_of_ne h _ _

theorem written_self {d : Disk} {path data : String} {o : WriteOutcome} (h : o.raised = none) :
    d.written path o data (resolve path) = some data.toUTF8 := by
  rw [Disk.written, Function.update_self, WriteOutcome.leaves_of_raised_none h]

/-- What `write_cert_files` does to the disk. -/
theorem writeCertFiles_cases (issuer : Issuer Key) (a : GenerationAttempt) (certPem keyPem : String)
    (d : Disk) :
    ∃ r d', issuer.writeCertFiles a a.subdir a.name certPem keyPem d = (r, d') ∧
      Elsewhere issuer a d d' ∧ (a.makedirsFails ≠ none → d' = d ∧ ∃ e, r = .error e) ∧
      (r = .ok () → d' (resolve (issuer.certPath a.subdir a.name)) = some certPem.toUTF8 ∧
        d' (resolve (issuer.keyPath a.subdir a.name)) = some keyPem.toUTF8) := by
  unfold Issuer.writeCertFiles makedirs
  cases hDirs : a.makedirsFails with
  | some e => exact ⟨.error e, d, rfl, fun _ _ _ => rfl, fun _ => ⟨rfl, e, rfl⟩, nofun⟩
  | none =>
    rw [Eff.bind_of_ok (Eff.lift_apply _ d)]
    cases hCert : a.certOutcome.raised with
    | some e =>
      rw [Eff.bind_of_error (by rw [writeText_apply, hCert])]
      exact ⟨_, _, rfl, fun p hp _ => written_of_ne hp, fun h => absurd rfl h, nofun⟩
    | none =>
      rw [Eff.bind_of_ok (by rw [writeText_apply, hCert]), writeText_apply]
      refine ⟨_, _, rfl, ?_, fun h => absurd rfl h, fun hOk => ⟨?_, ?_⟩⟩
      · intro p hp hp'
        rw [written_of_ne hp', written_of_ne hp]
      · rw [written_of_ne (certPath_ne_keyPath _ _ _ _), written_self hCert]
      · cases hKey : a.keyOutcome.raised with
        | some e =>
          rw [hKey] at hOk
          cases hOk
        | none => exact written_self hKey

end Writes

/-! ## A request -/

namespace GenerationAttempt

def record (a : GenerationAttempt) (made : String × String × CertMetadata) : UseCase Certificate := do
  issue (.writeCertFiles a.subdir a.name made.1 made.2.1)
  let row ← insertCert a.actor a.subdir a.name made.1 (some made.2.1) none made.2.2
    (match a.generation with
      | .ca _ => none
      | .server req => sanList req) false
  issue (.logAudit "create" row.id)
  return row

end GenerationAttempt

section Requests

variable {issuer : Issuer Key} {a : GenerationAttempt} {s : Serving}

theorem issue_ok {α : Type} {c : Command} {x : c.Answer} {s' : Serving} {next : c.Answer → UseCase α}
    (h : issuer.exec a c s = (.ok x, s')) :
    (issue c >>= next).run (issuer.exec a) s = (next x).run (issuer.exec a) s' := by
  rw [Program.run_bind, issue, Program.run_command, h]

theorem issue_error {α : Type} {c : Command} {e : PyException} {s' : Serving}
    {next : c.Answer → UseCase α} (h : issuer.exec a c s = (.error e, s')) :
    (issue c >>= next).run (issuer.exec a) s = (.error e, s') := by
  rw [Program.run_bind, issue, Program.run_command, h]

/-- A statement of a transaction in order fails, or is performed. -/
theorem execute_cases {α : Type} {c : Command} {action : SqlAction Certificate α}
    (hs : s.session.aborted = false) :
    (∃ e session, issuer.execute a c action s = (.error e, ⟨s.disk, session⟩)) ∨
      ∃ x rows, a.sqlFails c = none ∧
        action.perform clashes issuer.uniqueViolation a.newId s.session.working = .ok (x, rows) ∧
        issuer.execute a c action s =
          (.ok x, ⟨s.disk, { s.session with working := rows }⟩) := by
  unfold Issuer.execute
  cases hPerform : issuer.perform a c action s.session.working with
  | error e =>
    rw [Session.execute_error hs hPerform]
    exact .inl ⟨_, _, rfl⟩
  | ok r =>
    rw [Session.execute_ok hs hPerform]
    cases hFails : a.sqlFails c with
    | some e => simp [Issuer.perform, hFails] at hPerform
    | none =>
      refine .inr ⟨r.1, r.2, rfl, ?_, rfl⟩
      simpa [Issuer.perform, hFails] using hPerform

theorem external_run {α : Type} {c : Command} {next : c.Answer → UseCase α}
    (h : issuer.exec a c = fun s => (a.external c, s)) :
    (issue c >>= next).run (issuer.exec a) s =
      match a.external c with
      | .error e => (.error e, s)
      | .ok x => (next x).run (issuer.exec a) s := by
  cases hAnswer : a.external c with
  | error e => exact issue_error (by rw [h, hAnswer])
  | ok x => exact issue_ok (by rw [h, hAnswer])

/-- What precedes the files leaves the disk alone. -/
theorem program_run (hs : s.session.aborted = false) :
    (∃ e s', a.program.run (issuer.exec a) s = (.error e, s') ∧ s'.disk = s.disk) ∨
      ∃ made, a.material s.session.working = .ok made ∧
        a.program.run (issuer.exec a) s = (a.record made).run (issuer.exec a) s := by
  unfold GenerationAttempt.program GenerationAttempt.material GenerationAttempt.record
    GenerationAttempt.subdir GenerationAttempt.name
  cases a.generation with
  | ca req =>
    simp only
    unfold generateCa
    rw [external_run rfl]
    cases hKeys : a.external (.generateCaKeypair req) with
    | error e => exact .inl ⟨e, s, rfl, rfl⟩
    | ok keys =>
      simp only
      rw [external_run rfl]
      cases hMetadata : a.external (.parseCertMetadata keys.1) with
      | error e => exact .inl ⟨e, s, rfl, rfl⟩
      | ok metadata =>
        exact .inr ⟨(keys.1, keys.2, metadata), by
          simp [hMetadata, bind, Except.bind, pure, Except.pure], rfl⟩
  | server req =>
    simp only
    unfold generateServer lookupActiveCa
    rw [Program.bind_assoc]
    have hSelect := @execute_cases _ issuer a s _ (.selectActiveCa a.actor.tenantId)
      (.select (fun c => c.ofType a.actor.tenantId "ca" && c.isActive) fun rows =>
        rows.head?.map fun c => (⟨c.pemData, c.keyPemEncrypted⟩ : CaMaterial)) hs
    rcases hSelect with ⟨e, session, hFails⟩ | ⟨x, rows, hFails, hPerform, hSelected⟩
    · exact .inl ⟨e, _, issue_error hFails, rfl⟩
    · rw [SqlAction.perform] at hPerform
      cases hPerform
      rw [issue_ok (c := .selectActiveCa a.actor.tenantId) hSelected, hFails]
      cases (s.session.working.filter fun c => c.ofType a.actor.tenantId "ca" && c.isActive).head? with
      | none => exact .inl ⟨_, _, rfl, rfl⟩
      | some ca =>
        simp only [Option.map_some, Program.bind_assoc]
        rw [external_run rfl]
        cases hCaKey : a.external (.decryptSecret ca.keyPemEncrypted) with
        | error e => exact .inl ⟨e, _, rfl, rfl⟩
        | ok caKey =>
          simp only [Program.pure_eq, Program.ret_bind, makeServerCert, Program.bind_assoc]
          rw [external_run rfl]
          cases hKeys : a.external (.generateServerKeypair req ⟨ca.pemData, caKey⟩) with
          | error e => exact .inl ⟨e, _, rfl, rfl⟩
          | ok keys =>
            simp only
            rw [external_run rfl]
            cases hMetadata : a.external (.parseCertMetadata keys.1) with
            | error e => exact .inl ⟨e, _, rfl, rfl⟩
            | ok metadata =>
              exact .inr ⟨(keys.1, keys.2, metadata), by
                simp [hKeys, hMetadata, bind, Except.bind, pure, Except.pure], rfl⟩

/-- How a request ends that comes to its files. -/
inductive Recorded (issuer : Issuer Key) (a : GenerationAttempt) (s : Serving) :
    Except PyException Certificate × Serving → Prop
  | failed (e : PyException) (s' : Serving) (hElsewhere : Elsewhere issuer a s.disk s'.disk)
      (hDirs : a.makedirsFails ≠ none → s'.disk = s.disk) : Recorded issuer a s (.error e, s')
  | made (row : Certificate) (disk : Disk) (hElsewhere : Elsewhere issuer a s.disk disk)
      (hDirs : a.makedirsFails = none) (hFiled : issuer.Filed disk row) :
      Recorded issuer a s (.ok row,
        ⟨disk, { s.session with working := s.session.working ++ [row] }⟩)

theorem insert_ok {new : NewCert} {newId : String} {clash : PyException} {row : Certificate}
    {table rows : List Certificate}
    (h : (SqlAction.insert new.row id).perform clashes clash newId table = .ok (row, rows)) :
    new.row newId = row ∧ table ++ [new.row newId] = rows := by
  rw [SqlAction.perform] at h
  split at h
  · cases h
  · cases h
    exact ⟨rfl, rfl⟩

theorem decrypt_encrypt (key : Key) (nonce : Secrets.Nonce) (text : String) :
    issuer.cipher.decrypt key (issuer.cipher.encrypt key nonce (some text)) = .ok (some text) := by
  rw [Secrets.Cipher.encrypt, Option.map_some, Secrets.Cipher.decrypt]
  simp only [if_neg (Secrets.sealed_ne_empty key nonce text)]
  rw [Secrets.opened_sealed]
  rfl

theorem exec_writeCertFiles (subdir name certPem keyPem : String) :
    issuer.exec a (.writeCertFiles subdir name certPem keyPem) s =
      ((issuer.writeCertFiles a subdir name certPem keyPem s.disk).1,
        ⟨(issuer.writeCertFiles a subdir name certPem keyPem s.disk).2, s.session⟩) := rfl

theorem record_run (made : String × String × CertMetadata) (hs : s.session.aborted = false) :
    Recorded issuer a s ((a.record made).run (issuer.exec a) s) := by
  obtain ⟨r, disk, hWrite, hElsewhere, hDirs, hFiles⟩ :=
    writeCertFiles_cases issuer a made.1 made.2.1 s.disk
  have hWritten : issuer.exec a (.writeCertFiles a.subdir a.name made.1 made.2.1) s =
      (r, ⟨disk, s.session⟩) := by
    rw [exec_writeCertFiles, hWrite]
  unfold GenerationAttempt.record
  cases r with
  | error e =>
    rw [issue_error hWritten]
    exact .failed e _ hElsewhere fun hFails => (hDirs hFails).1
  | ok _ =>
    have hNone : a.makedirsFails = none := by
      by_contra hFails
      obtain ⟨-, e, hError⟩ := hDirs hFails
      cases hError
    obtain ⟨hCert, hKey⟩ := hFiles rfl
    rw [issue_ok hWritten, insertCert, Program.bind_assoc, @issue_ok _ issuer a _ _ _
      (issuer.cipher.encrypt issuer.key a.nonce (some made.2.1)) ⟨disk, s.session⟩ _ rfl]
    generalize hNew : (NewCert.mk a.subdir a.name made.2.2 made.1
      (issuer.cipher.encrypt issuer.key a.nonce (some made.2.1)) none _ false
      a.actor.tenantId) = new
    have hInsert := @execute_cases _ issuer a ⟨disk, s.session⟩ _ (.insertCert new)
      (.insert new.row id) hs
    rcases hInsert with ⟨e, session, hFails⟩ | ⟨row, rows, -, hPerform, hInserted⟩
    · rw [issue_error (c := .insertCert new) hFails]
      exact .failed e _ hElsewhere fun hFails => absurd hNone hFails
    · obtain ⟨rfl, rfl⟩ := insert_ok hPerform
      rw [issue_ok (c := .insertCert new) hInserted]
      have hAudit := @execute_cases _ issuer a
        ⟨disk, { s.session with working := s.session.working ++ [new.row a.newId] }⟩ _
        (.logAudit "create" (new.row a.newId).id) (.append ()) hs
      rcases hAudit with ⟨e, session, hFails⟩ | ⟨_, rows, -, hPerform, hAudited⟩
      · rw [issue_error (c := .logAudit "create" (new.row a.newId).id) hFails]
        exact .failed e _ hElsewhere fun hFails => absurd hNone hFails
      · cases hPerform
        rw [issue_ok (c := .logAudit "create" (new.row a.newId).id) hAudited]
        subst hNew
        refine .made _ disk hElsewhere hNone ⟨hCert, made.2.1, ?_, hKey⟩
        exact decrypt_encrypt _ _ _

/-- A request leaves the certificates and all but its own files, or adds a row with its files. -/
inductive Turned (issuer : Issuer Key) (a : GenerationAttempt) (host : Host) :
    Except PyException Certificate × Host → Prop
  | early (e : PyException) : Turned issuer a host (.error e, host)
  | failed (e : PyException) (disk : Disk) (hReached : ∃ made, a.material host.certificates = .ok made)
      (hDirs : a.makedirsFails = none) (hElsewhere : Elsewhere issuer a host.disk disk) :
      Turned issuer a host (.error e, ⟨disk, host.certificates⟩)
  | made (row : Certificate) (disk : Disk) (hReached : ∃ made, a.material host.certificates = .ok made)
      (hDirs : a.makedirsFails = none) (hElsewhere : Elsewhere issuer a host.disk disk)
      (hFiled : issuer.Filed disk row) :
      Turned issuer a host (.ok row, ⟨disk, host.certificates ++ [row]⟩)

theorem step_turned (issuer : Issuer Key) (a : GenerationAttempt) (host : Host) :
    Turned issuer a host (issuer.step a host) := by
  have hProgram := @program_run _ issuer a ⟨host.disk, Session.start host.certificates⟩ rfl
  unfold Issuer.step
  rcases hProgram with ⟨e, s', hRun, hDisk⟩ | ⟨made, hMade, hRun⟩
  · rw [hRun]
    obtain ⟨disk, session⟩ := s'
    obtain rfl : disk = host.disk := hDisk
    exact .early e
  · rw [hRun]
    have hRecorded := @record_run _ issuer a ⟨host.disk, Session.start host.certificates⟩ made rfl
    generalize (a.record made).run (issuer.exec a) ⟨host.disk, Session.start host.certificates⟩ =
      out at hRecorded ⊢
    cases hRecorded with
    | failed e s' hElsewhere hDirs =>
      cases hFails : a.makedirsFails with
      | none => exact .failed e _ ⟨made, hMade⟩ hFails hElsewhere
      | some _ =>
        obtain ⟨disk, session⟩ := s'
        obtain rfl : disk = host.disk := hDirs (by simp [hFails])
        exact .early e
    | made row disk hElsewhere hDirs hFiled =>
      cases hCommit : a.commitFails with
      | some e => exact .failed e disk ⟨made, hMade⟩ hDirs hElsewhere
      | none => exact .made row disk ⟨made, hMade⟩ hDirs hElsewhere hFiled

theorem Elsewhere.files {d d' : Disk} {c : Certificate} (h : Elsewhere issuer a d d')
    (hSpared : ¬ issuer.Overwrites a c) :
    d' (resolve (issuer.certPath c.certType c.name)) = d (resolve (issuer.certPath c.certType c.name)) ∧
      d' (resolve (issuer.keyPath c.certType c.name)) = d (resolve (issuer.keyPath c.certType c.name)) := by
  rw [Issuer.Overwrites, not_or] at hSpared
  constructor
  · exact h _ (Ne.symm hSpared.1) (certPath_ne_keyPath _ _ _ _)
  · exact h _ (Ne.symm (certPath_ne_keyPath _ _ _ _)) (Ne.symm hSpared.2)

end Requests

/-! ## Runs -/

/-- The files of the stored generated rows are the same before and after. -/
def Issuer.KeepsFiles (issuer : Issuer Key) (host host' : Host) : Prop :=
  ∀ c ∈ host.certificates, c.imported = false →
    host'.disk (resolve (issuer.certPath c.certType c.name)) =
        host.disk (resolve (issuer.certPath c.certType c.name)) ∧
      host'.disk (resolve (issuer.keyPath c.certType c.name)) =
        host.disk (resolve (issuer.keyPath c.certType c.name))

section Runs

variable {issuer : Issuer Key} {a : GenerationAttempt} {host : Host}

theorem keepsFiles_step (hSpares : issuer.Spares host a) :
    issuer.KeepsFiles host (issuer.step a host).2 := by
  intro c hc hGenerated
  have hTurned := step_turned issuer a host
  generalize issuer.step a host = out at hTurned ⊢
  cases hTurned with
  | early e => exact ⟨rfl, rfl⟩
  | failed e disk hReached hDirs hElsewhere =>
    exact hElsewhere.files (hSpares hReached hDirs c hc hGenerated)
  | made row disk hReached hDirs hElsewhere hFiled =>
    exact hElsewhere.files (hSpares hReached hDirs c hc hGenerated)

theorem filesHold_step (hHold : issuer.FilesHold host) (hSpares : issuer.Spares host a) :
    issuer.FilesHold (issuer.step a host).2 := by
  have hKeeps := keepsFiles_step hSpares
  have hTurned := step_turned issuer a host
  generalize issuer.step a host = out at hTurned hKeeps ⊢
  have hOld : ∀ c ∈ host.certificates, c.imported = false → issuer.Filed out.2.disk c := by
    intro c hc hGenerated
    obtain ⟨hCert, keyPem, hOpens, hKey⟩ := hHold c hc hGenerated
    obtain ⟨hSameCert, hSameKey⟩ := hKeeps c hc hGenerated
    exact ⟨hSameCert.trans hCert, keyPem, hOpens, hSameKey.trans hKey⟩
  cases hTurned with
  | early e => exact hOld
  | failed e disk hReached hDirs hElsewhere => exact hOld
  | made row disk hReached hDirs hElsewhere hFiled =>
    intro c hc hGenerated
    rcases List.mem_append.mp hc with hc | hc
    · exact hOld c hc hGenerated
    · rw [List.mem_singleton.mp hc]
      exact hFiled

/-- In every run whose requests write to no file of a stored generated certificate, these
certificates have their files throughout, and no request, failed or not, changes them. -/
theorem generated_files_hold (issuer : Issuer Key) (host : Host) (attempts : List GenerationAttempt)
    (hHold : issuer.FilesHold host)
    (hSpares : ∀ e ∈ transcript issuer.step host attempts, issuer.Spares e.pre e.input) :
    issuer.FilesHold (final issuer.step host attempts) ∧
      ∀ e ∈ transcript issuer.step host attempts,
        issuer.FilesHold e.pre ∧ issuer.FilesHold e.post ∧ issuer.KeepsFiles e.pre e.post := by
  refine ⟨?_, fun e he => ?_⟩
  · exact Transcript.final_invariant issuer.FilesHold (fun e => issuer.Spares e.pre e.input)
      (fun _ _ hHold hSpares => filesHold_step hHold hSpares) hHold hSpares
  · obtain ⟨hPre, hPost⟩ := Transcript.invariant issuer.FilesHold issuer.Spares
      (fun _ _ hHold hSpares => filesHold_step hHold hSpares) hHold hSpares e he
    refine ⟨hPre, hPost, ?_⟩
    have hKeeps := keepsFiles_step (hSpares e he)
    rwa [Transcript.mem_transcript_step he] at hKeeps

end Runs

/-! ## One name, twice -/

def plainIssuer : Issuer UInt8 where
  lower name := String.ofList (name.toList.map Char.toLower)
  cipher := Secrets.tagCipher
  key := 7
  uniqueViolation := ⟨"IntegrityError", ""⟩
  failedTransaction := ⟨"InternalError", ""⟩

/-- Nothing outside fails; the key pair is named after the id of the row. -/
def caAttempt (id name : String) : GenerationAttempt where
  actor := ⟨"admin", "T1"⟩
  generation := .ca ⟨name, name, 3650, 4096, none, none⟩
  external c := match c with
    | .generateCaKeypair _ => .ok ("CERT " ++ id, "KEY " ++ id)
    | .parseCertMetadata _ => .ok ⟨none, 0, 0, none⟩
    | _ => .error ⟨"RuntimeError", ""⟩
  nonce := Secrets.zeroNonce
  makedirsFails := none
  certOutcome := .completes
  keyOutcome := .completes
  sqlFails _ := none
  newId := id
  commitFails := none

def emptyHost : Host := ⟨fun _ => none, []⟩

theorem filesHold_empty : plainIssuer.FilesHold emptyHost := by
  intro c hc
  exact absurd hc List.not_mem_nil

theorem two_names_filed :
    plainIssuer.FilesHold
      (final plainIssuer.step emptyHost [caAttempt "a" "Root CA", caAttempt "b" "Edge CA"]) := by
  refine (generated_files_hold plainIssuer emptyHost _ filesHold_empty ?_).1
  intro e he
  simp only [transcript, List.mem_cons, List.not_mem_nil, or_false] at he
  rcases he with rfl | rfl
  · rintro - - c hc
    cases hc
  · rintro - - c hc -
    have hRows : (plainIssuer.step (caAttempt "a" "Root CA") emptyHost).2.certificates.map
        (fun c => (c.certType, c.name)) = [("ca", "Root CA")] := by decide +kernel
    generalize plainIssuer.step (caAttempt "a" "Root CA") emptyHost = out at hc hRows
    have hRow := List.mem_map_of_mem (f := fun c : Certificate => (c.certType, c.name)) hc
    rw [hRows, List.mem_singleton, Prod.mk.injEq] at hRow
    unfold Issuer.Overwrites
    rw [hRow.1, hRow.2]
    change ¬ (resolve (plainIssuer.certPath "ca" "Edge CA") = _ ∨ resolve (plainIssuer.keyPath "ca" "Edge CA") = _)
    decide +kernel

/-- The second request fails at the INSERT, and has replaced the files of the first. -/
theorem failed_request_overwrites :
    plainIssuer.FilesHold emptyHost ∧
      ¬ plainIssuer.FilesHold
        (final plainIssuer.step emptyHost [caAttempt "a" "Root CA", caAttempt "b" "Root CA"]) := by
  refine ⟨filesHold_empty, fun hHold => ?_⟩
  have hRow : (final plainIssuer.step emptyHost
      [caAttempt "a" "Root CA", caAttempt "b" "Root CA"]).certificates.head?.map
        (fun c => (c.certType, c.name, c.pemData, c.imported)) =
      some ("ca", "Root CA", "CERT a", false) := by decide +kernel
  have hFile : (final plainIssuer.step emptyHost
      [caAttempt "a" "Root CA", caAttempt "b" "Root CA"]).disk
        (resolve (plainIssuer.certPath "ca" "Root CA")) = some "CERT b".toUTF8 := by decide +kernel
  generalize final plainIssuer.step emptyHost [caAttempt "a" "Root CA", caAttempt "b" "Root CA"] =
    host at hHold hRow hFile
  obtain ⟨c, hHead, hColumns⟩ := Option.map_eq_some_iff.mp hRow
  simp only [Prod.mk.injEq] at hColumns
  obtain ⟨hType, hName, hPem, hImported⟩ := hColumns
  have hFiled := (hHold c (List.mem_of_mem_head? hHead) hImported).cert
  rw [hType, hName, hPem, hFile] at hFiled
  revert hFiled
  decide

end OpenRadiusWeb.Certificates
