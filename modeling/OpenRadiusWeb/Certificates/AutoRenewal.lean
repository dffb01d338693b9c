import OpenRadiusWeb.Certificates.Service

/-! # One pass of the renewal loop

All candidates of a pass share one session, and each has a `try` of its own. A statement
that fails for one of them aborts the transaction of all.
-/

namespace OpenRadiusWeb.Certificates

open Effects (Eff)

/-- What surrounds a pass: the answers of the outside, and the statements that fail. -/
structure PassEnv where
  lib : Libraries
  sqlNow : Timestamp
  now : Timestamp
  thresholdDays : Int
  /-- `_resolve_system_actor`. -/
  actor : Except PyException (Option Actor)
  external : Nat → (c : Command) → Except PyException c.Answer
  sqlFails : Nat → Command → Option PyException
  newId : Nat → String
  uniqueViolation : PyException
  failedTransaction : PyException

def actorUnresolved : String :=
  "auto-renewal actor unresolved: no `admin` user under " ++
    "the `default` tenant. Check migrations/seed.sql."

namespace PassEnv

variable (env : PassEnv)

/-- A command within the session of the pass. -/
def exec (turn : Nat) (c : Command) : Eff (Session (List Certificate)) PyException c.Answer :=
  match c.statement with
  | none => fun s => (env.external turn c, s)
  | some action =>
    Session.execute env.failedTransaction fun rows =>
      match env.sqlFails turn c with
      | some e => .error e
      | none => action.perform clashes env.uniqueViolation (env.newId turn) rows

def runAutoRenewalOnce : Eff (Session (List Certificate)) PyException RenewalSummary :=
  match env.actor with
  | .error e => Eff.raise e
  | .ok none => pure ⟨0, [], [actorUnresolved]⟩
  | .ok (some actor) =>
    (autoRenewExpiringServerCerts env.lib actor env.sqlNow env.now env.thresholdDays).run
      fun (c : Nat × Command) => env.exec c.1 c.2

/-- A turn of `_cert_renewal_loop`: one session around the pass. -/
def certRenewalPass (rows : List Certificate) : Except PyException RenewalSummary × List Certificate :=
  Session.transact env.runAutoRenewalOnce rows

/-- The names in the summary; a pass that raises has none. -/
def summaryNames (rows : List Certificate) : List String :=
  match (env.certRenewalPass rows).1 with
  | .ok summary => summary.renewed
  | .error _ => []

def refuses (turn : Nat) (c : Command) : Bool := (env.sqlFails turn c).isSome

/-- The statement that lists the candidates. -/
def listing (actor : Actor) : Command :=
  .listRenewableServerCertsWithin actor.tenantId
    (env.sqlNow + env.thresholdDays * (86400 * 1000000))

/-- The candidates of a pass: none if the listing fails. -/
def candidates (actor : Actor) (rows : List Certificate) : List Certificate :=
  if env.refuses 0 (env.listing actor) then []
  else
    byExpiry (rows.filter (Certificate.renewable actor.tenantId
      (env.sqlNow + env.thresholdDays * (86400 * 1000000))))

end PassEnv

/-! ## What a pass promises -/

/-- A row of this name is in the database that was not there before. -/
def NewRow (before after : List Certificate) (name : String) : Prop :=
  ∃ row ∈ after, row.name = name ∧ row.id ∉ before.map Certificate.id

def HasActiveServer (tenantId : String) (rows : List Certificate) : Prop :=
  ∃ row ∈ rows, row.ofType tenantId "server" = true ∧ row.isActive = true

namespace PassEnv

variable (env : PassEnv)

/-- The names renewed when every candidate has a transaction of its own, so that none can
harm another. -/
def renewedApart (actor : Actor) : Nat → List Certificate → List Certificate → List String
  | _, [], _ => []
  | turn, old :: rest, rows =>
    match Session.transact ((renewCert env.lib actor env.now old).run (env.exec turn)) rows with
    | (.ok name, rows) => name :: renewedApart actor (turn + 1) rest rows
    | (.error _, rows) => renewedApart actor (turn + 1) rest rows

structure Sound (rows : List Certificate) : Prop where
  /-- The summary names the rows that were made. -/
  summarised : ∀ name, NewRow rows (env.certRenewalPass rows).2 name ↔ name ∈ env.summaryNames rows
  /-- No candidate undoes or prevents the renewal of another. -/
  independent : ∀ actor, env.actor = .ok (some actor) →
    ∀ name ∈ env.renewedApart actor 1 (env.candidates actor rows) rows,
      NewRow rows (env.certRenewalPass rows).2 name
  /-- Server certificates stay active. -/
  keepsActive : ∀ tenantId, HasActiveServer tenantId rows →
    HasActiveServer tenantId (env.certRenewalPass rows).2

/-! ## What becomes of a candidate -/

/-- The calls between the selection of the CA and the INSERT. -/
def prepare (actor : Actor) (turn : Nat) (req : GenerateServerRequest) (ca : CaMaterial) :
    Except PyException NewCert := do
  let caKey ← env.external turn (.decryptSecret ca.keyPem)
  let keys ← env.external turn (.generateServerKeypair req ⟨ca.pemData, caKey⟩)
  let metadata ← env.external turn (.parseCertMetadata keys.1)
  let _ ← env.external turn (.writeCertFiles "server" req.name keys.1 keys.2)
  let cipher ← env.external turn (.encryptSecret (some keys.2))
  return ⟨"server", req.name, metadata, keys.1, cipher, none, sanList req, false, actor.tenantId⟩

def statementsFor (actor : Actor) (new : NewCert) (id : String) : List Command :=
  [.insertCert new, .logAudit "create" id, .lookupCertSummary actor.tenantId id,
    .deactivateCertsOfType actor.tenantId "server", .setCertActive actor.tenantId id,
    .logAudit "update" id]

end PassEnv

/-- How a candidate fares in a transaction that no other has aborted. -/
inductive Fate
  /-- Something fails that is neither a statement nor comes after one that writes. -/
  | failed
  /-- A statement fails. -/
  | aborted
  /-- The row is made and activated, and the publish fails. -/
  | unannounced (row : Certificate)
  | renewed (row : Certificate)
  deriving DecidableEq

namespace Fate

/-- With the row made, the rest is up to the publish. -/
def ofPublish (row : Certificate) : Except PyException Unit → Fate
  | .ok _ => .renewed row
  | .error _ => .unannounced row

def row? : Fate → Option Certificate
  | failed => none
  | aborted => none
  | unannounced row => some row
  | renewed row => some row

def name? : Fate → Option String
  | renewed row => some row.name
  | _ => none

end Fate

namespace PassEnv

variable (env : PassEnv)

def activeCa (tenantId : String) (rows : List Certificate) : Option CaMaterial :=
  (rows.filter fun c => c.ofType tenantId "ca" && c.isActive).head?.map fun c =>
    ⟨c.pemData, c.keyPemEncrypted⟩

/-- The fate of the candidate of a turn, with the given rows in the table. -/
def fate (actor : Actor) (turn : Nat) (old : Certificate) (table : List Certificate) : Fate :=
  let req := renewalRequest env.lib env.now old
  if req.accepts then
    if env.refuses turn (.selectActiveCa actor.tenantId) then .aborted
    else
      match activeCa actor.tenantId table with
      | none => .failed
      | some ca =>
        match env.prepare actor turn req ca with
        | .error _ => .failed
        | .ok new =>
          let row := new.row (env.newId turn)
          if (statementsFor actor new row.id).any (env.refuses turn) || table.any (clashes row) then
            .aborted
          else
            .ofPublish row (env.external turn (.publishFreeradiusApplyForCert row.id "server"))
  else .failed

/-- The fates of the candidates in turn, each with the rows of those before it. -/
def fates (actor : Actor) : Nat → List Certificate → List Certificate → List Fate
  | _, [], _ => []
  | turn, old :: rest, table =>
    let f := env.fate actor turn old table
    f :: fates actor (turn + 1) rest (table ++ f.row?.toList)

/-- No statement and no publish fails; or a statement fails and there is no candidate that
would be renewed. -/
def Harmless (actor : Actor) (rows : List Certificate) : Prop :=
  (∀ f ∈ env.fates actor 1 (env.candidates actor rows) rows,
      f ≠ .aborted ∧ ∀ row, f ≠ .unannounced row) ∨
  (.aborted ∈ env.fates actor 1 (env.candidates actor rows) rows ∧
    ∀ c ∈ (env.candidates actor rows).zipIdx 1, ∀ row, env.fate actor c.2 c.1 rows ≠ .renewed row)

end PassEnv

/-! ## One candidate -/

/-- The effect of `deactivate_certs_of_type`. -/
def deactivated (tenantId certType : String) (rows : List Certificate) : List Certificate :=
  rows.map fun c => if c.ofType tenantId certType then { c with isActive := false } else c

/-- The effect of `set_cert_active`. -/
def activated (tenantId certId : String) (rows : List Certificate) : List Certificate :=
  rows.map fun c => if c.isRow tenantId certId then { c with isActive := true } else c

/-- The table after a renewal. -/
def withRenewed (tenantId : String) (row : Certificate) (rows : List Certificate) :
    List Certificate :=
  activated tenantId row.id (deactivated tenantId "server" (rows ++ [row]))

theorem filterMap_update {α : Type} (p : α → Bool) (f : α → α) (xs : List α) :
    (xs.filterMap fun x => if p x then some (f x) else some x) =
      xs.map fun x => if p x then f x else x := by
  rw [← List.filterMap_eq_map]
  congr 1
  funext x
  cases h : p x <;> simp [h]

theorem filter_isRow_append {tenantId : String} {rows : List Certificate} {row : Certificate}
    (hTenant : row.tenantId = tenantId) (hClash : rows.any (clashes row) = false) :
    (rows ++ [row]).filter (Certificate.isRow tenantId row.id) = [row] := by
  have hOthers : rows.filter (Certificate.isRow tenantId row.id) = [] := by
    rw [List.filter_eq_nil_iff]
    intro c hc hRow
    rw [List.any_eq_false] at hClash
    apply hClash c hc
    have hId : c.id = row.id := by
      simp only [Certificate.isRow, Bool.and_eq_true, beq_iff_eq] at hRow
      exact hRow.1
    simp [clashes, hId]
  rw [List.filter_append, hOthers]
  simp [Certificate.isRow, hTenant]

theorem filter_isRow_deactivated (tenantId certType certId : String) (rows : List Certificate) :
    (deactivated tenantId certType rows).filter (Certificate.isRow tenantId certId) =
      deactivated tenantId certType (rows.filter (Certificate.isRow tenantId certId)) := by
  rw [deactivated, List.filter_map, deactivated]
  congr 2
  funext c
  by_cases h : c.ofType tenantId certType = true <;> simp [h, Certificate.isRow]

namespace PassEnv

variable {env : PassEnv} {actor : Actor} {turn : Nat} {old : Certificate}
  {s : Session (List Certificate)}

theorem exec_call {c : Command} (h : c.statement = none) :
    env.exec turn c s = (env.external turn c, s) := by
  unfold exec
  rw [h]

theorem exec_aborted {c : Command} {action : SqlAction Certificate c.Answer}
    (h : c.statement = some action) (hs : s.aborted = true) :
    env.exec turn c s = (.error env.failedTransaction, s) := by
  unfold exec
  rw [h]
  exact Session.execute_aborted hs

theorem exec_refused {c : Command} {action : SqlAction Certificate c.Answer}
    (h : c.statement = some action) (hs : s.aborted = false) (hRefused : env.refuses turn c = true) :
    ∃ e, env.exec turn c s = (.error e, { s with aborted := true }) := by
  obtain ⟨e, he⟩ := Option.isSome_iff_exists.mp hRefused
  unfold exec
  rw [h]
  exact ⟨e, Session.execute_error hs (by simp [he])⟩

theorem exec_performed {c : Command} {action : SqlAction Certificate c.Answer}
    (h : c.statement = some action) (hs : s.aborted = false) (hRefused : env.refuses turn c = false)
    {answer : c.Answer} {rows : List Certificate}
    (hOk : action.perform clashes env.uniqueViolation (env.newId turn) s.working =
      .ok (answer, rows)) :
    env.exec turn c s = (.ok answer, { s with working := rows }) := by
  unfold exec
  rw [h]
  have hNone : env.sqlFails turn c = none := by simpa [refuses] using hRefused
  exact Session.execute_ok hs (by simp [hNone, hOk])

/-- How a candidate ends that starts in a transaction under way. -/
inductive Ends (actor : Actor) (s : Session (List Certificate)) :
    Except PyException String × Session (List Certificate) → Fate → Prop
  | failed (e : PyException) : Ends actor s (.error e, s) .failed
  | aborted (e : PyException) (s' : Session (List Certificate)) (hAborted : s'.aborted = true)
      (hCommitted : s'.committed = s.committed) : Ends actor s (.error e, s') .aborted
  | unannounced (e : PyException) (row : Certificate) :
      Ends actor s (.error e, { s with working := withRenewed actor.tenantId row s.working })
        (.unannounced row)
  | renewed (row : Certificate) :
      Ends actor s (.ok row.name, { s with working := withRenewed actor.tenantId row s.working })
        (.renewed row)

theorem issue_refused {α : Type} {c : Command} {action : SqlAction Certificate c.Answer}
    (h : c.statement = some action) (hs : s.aborted = false) (hRefused : env.refuses turn c = true)
    (next : c.Answer → UseCase α) :
    ∃ e s', (issue c >>= next).run (env.exec turn) s = (.error e, s') ∧
      s'.aborted = true ∧ s'.committed = s.committed := by
  obtain ⟨e, he⟩ := exec_refused h hs hRefused
  refine ⟨e, { s with aborted := true }, ?_, rfl, rfl⟩
  rw [Program.run_bind, issue, Program.run_command, he]

theorem issue_performed {α : Type} {c : Command} {action : SqlAction Certificate c.Answer}
    (h : c.statement = some action) (hs : s.aborted = false) (hRefused : env.refuses turn c = false)
    {answer : c.Answer} {rows : List Certificate}
    (hOk : action.perform clashes env.uniqueViolation (env.newId turn) s.working =
      .ok (answer, rows)) (next : c.Answer → UseCase α) :
    (issue c >>= next).run (env.exec turn) s =
      (next answer).run (env.exec turn) { s with working := rows } := by
  rw [Program.run_bind, issue, Program.run_command, exec_performed h hs hRefused hOk]

theorem issue_call {α : Type} {c : Command} (h : c.statement = none) (next : c.Answer → UseCase α) :
    (issue c >>= next).run (env.exec turn) s =
      match env.external turn c with
      | .ok answer => (next answer).run (env.exec turn) s
      | .error e => (.error e, s) := by
  rw [Program.run_bind, issue, Program.run_command, exec_call h]
  cases env.external turn c <;> rfl

/-- With a CA selected, a candidate has its material or ends without a trace. -/
theorem generateServer_run {req : GenerateServerRequest} {ca : CaMaterial} (hs : s.aborted = false)
    (hSelect : env.refuses turn (.selectActiveCa actor.tenantId) = false)
    (hCa : activeCa actor.tenantId s.working = some ca) :
    (generateServer actor req).run (env.exec turn) s =
      match env.prepare actor turn req ca with
      | .error e => (.error e, s)
      | .ok new =>
        (do
          let row ← issue (.insertCert new)
          issue (.logAudit "create" row.id)
          return row : UseCase Certificate).run (env.exec turn) s := by
  have hLookup : (lookupActiveCa actor.tenantId).run (env.exec turn) s =
      (match env.external turn (.decryptSecret ca.keyPem) with
      | .ok keyPem => (.ok (some ⟨ca.pemData, keyPem⟩), s)
      | .error e => (.error e, s)) := by
    rw [lookupActiveCa, issue_performed rfl hs hSelect (by rw [SqlAction.perform])]
    rw [activeCa] at hCa
    simp only [hCa]
    rw [issue_call rfl]
    cases env.external turn (.decryptSecret ca.keyPem) <;> rfl
  rw [generateServer, Program.run_bind, hLookup, prepare]
  cases env.external turn (.decryptSecret ca.keyPem) with
  | error e => rfl
  | ok caKey =>
    simp only [Program.run_bind (makeServerCert _ _)]
    rw [makeServerCert, issue_call rfl]
    cases hKeys : env.external turn (.generateServerKeypair req ⟨ca.pemData, caKey⟩) with
    | error e => simp [hKeys, bind, Except.bind]
    | ok keys =>
      obtain ⟨certPem, keyPem⟩ := keys
      simp only [issue_call (c := .parseCertMetadata certPem) rfl]
      cases hMetadata : env.external turn (.parseCertMetadata certPem) with
      | error e => simp [hKeys, hMetadata, bind, Except.bind]
      | ok metadata =>
        simp only [issue_call (c := .writeCertFiles "server" req.name certPem keyPem) rfl]
        cases hWrite : env.external turn (.writeCertFiles "server" req.name certPem keyPem) with
        | error e => simp [hKeys, hMetadata, hWrite, bind, Except.bind]
        | ok _ =>
          simp only [Program.pure_eq, Program.run_ret, Program.run_bind (insertCert _ _ _ _ _ _ _ _ _)]
          rw [insertCert, issue_call rfl]
          cases hCipher : env.external turn (.encryptSecret (some keyPem)) with
          | error e => simp [hKeys, hMetadata, hWrite, hCipher, bind, Except.bind]
          | ok cipher =>
            simp only [hKeys, hMetadata, hWrite, hCipher, bind, Except.bind]
            exact (Program.run_bind _ _ _).symm

theorem prepare_ok {req : GenerateServerRequest} {ca : CaMaterial} {new : NewCert}
    (h : env.prepare actor turn req ca = .ok new) :
    new.tenantId = actor.tenantId ∧ new.certType = "server" ∧ new.name = req.name := by
  obtain ⟨caKey, -, h⟩ := Except.ok_of_bind h
  obtain ⟨keys, -, h⟩ := Except.ok_of_bind h
  obtain ⟨metadata, -, h⟩ := Except.ok_of_bind h
  obtain ⟨_, -, h⟩ := Except.ok_of_bind h
  obtain ⟨cipher, -, h⟩ := Except.ok_of_bind h
  cases h
  exact ⟨rfl, rfl, rfl⟩

def record (actor : Actor) (new : NewCert) : UseCase String := do
  let row ← issue (.insertCert new)
  issue (.logAudit "create" row.id)
  let _ ← activateCert actor row.id
  return new.name

theorem Ends.of_aborted {out : Except PyException String × Session (List Certificate)}
    (h : ∃ e s', out = (.error e, s') ∧ s'.aborted = true ∧ s'.committed = s.committed) :
    Ends actor s out .aborted := by
  obtain ⟨e, s', rfl, hAborted, hCommitted⟩ := h
  exact .aborted e s' hAborted hCommitted

theorem if_or {α : Type} (a b : Bool) (x y : α) :
    (if (a || b) = true then x else y) = if a = true then x else if b = true then x else y := by
  cases a <;> simp

/-- After the request is accepted. -/
theorem renewAccepted_run {req : GenerateServerRequest} {ca : CaMaterial} (hs : s.aborted = false)
    (hSelect : env.refuses turn (.selectActiveCa actor.tenantId) = false)
    (hCa : activeCa actor.tenantId s.working = some ca) :
    (generateServer actor req >>= fun row =>
        activateCert actor row.id >>= fun _ => return req.name).run (env.exec turn) s =
      match env.prepare actor turn req ca with
      | .error e => (.error e, s)
      | .ok new => (record actor new).run (env.exec turn) s := by
  rw [Program.run_bind, generateServer_run hs hSelect hCa]
  cases hPrepare : env.prepare actor turn req ca with
  | error e => rfl
  | ok new =>
    obtain ⟨-, -, hName⟩ := prepare_ok hPrepare
    simp only
    rw [← Program.run_bind, Program.bind_assoc, record, hName]
    simp only [Program.bind_assoc]
    rfl

/-- A statement either aborts the transaction or is performed. -/
theorem ends_issue {t : Session (List Certificate)} {c : Command}
    {action : SqlAction Certificate c.Answer} (h : c.statement = some action) (ht : t.aborted = false)
    (hCommitted : t.committed = s.committed) {next : c.Answer → UseCase String} {f : Fate}
    (answer : c.Answer) (rows : List Certificate)
    (hOk : action.perform clashes env.uniqueViolation (env.newId turn) t.working =
      .ok (answer, rows))
    (hNext : Ends actor s ((next answer).run (env.exec turn) { t with working := rows }) f) :
    Ends actor s ((issue c >>= next).run (env.exec turn) t)
      (if env.refuses turn c then .aborted else f) := by
  cases hRefused : env.refuses turn c with
  | true =>
    obtain ⟨e, s', hRun, hAborted, hSame⟩ := issue_refused h ht hRefused next
    exact .of_aborted ⟨e, s', hRun, hAborted, hSame.trans hCommitted⟩
  | false =>
    rw [issue_performed h ht hRefused hOk]
    exact hNext

theorem activateCert_ends {t : Session (List Certificate)} {row : Certificate} {id : String}
    (hs : s.aborted = false) (ht : t.aborted = false) (hCommitted : t.committed = s.committed)
    (hId : row.id = id) (hTenant : row.tenantId = actor.tenantId) (hType : row.certType = "server")
    (hClash : s.working.any (clashes row) = false) (hWorking : t.working = s.working ++ [row]) :
    Ends actor s
      ((activateCert actor id >>= fun _ => return row.name).run (env.exec turn) t)
      (if env.refuses turn (.lookupCertSummary actor.tenantId id) then .aborted
        else if env.refuses turn (.deactivateCertsOfType actor.tenantId "server") then .aborted
        else if env.refuses turn (.setCertActive actor.tenantId id) then .aborted
        else if env.refuses turn (.logAudit "update" id) then .aborted
        else
          Fate.ofPublish row (env.external turn (.publishFreeradiusApplyForCert id "server"))) := by
  subst hId
  have hFound := filter_isRow_append hTenant hClash
  have hSummary : row.summary.certType = "server" := hType
  rw [activateCert, Program.bind_assoc]
  refine ends_issue rfl ht hCommitted (some row.summary) t.working ?_ ?_
  · rw [SqlAction.perform, hWorking, hFound]
    rfl
  simp only [Program.bind_assoc]
  rw [hSummary]
  refine ends_issue (c := .deactivateCertsOfType actor.tenantId "server") rfl ht hCommitted
    () (deactivated actor.tenantId "server" t.working) ?_ ?_
  · rw [SqlAction.perform, filterMap_update]
    rfl
  refine ends_issue (t := { t with working := deactivated actor.tenantId "server" t.working })
    (c := .setCertActive actor.tenantId row.id) rfl ht hCommitted
    (some { row with isActive := true }) (withRenewed actor.tenantId row s.working) ?_ ?_
  · simp only [SqlAction.perform, filterMap_update, withRenewed, ← hWorking]
    rw [filter_isRow_deactivated, hWorking, hFound]
    simp [deactivated, Certificate.ofType, hType, hTenant, activated]
  simp only [Program.bind_assoc]
  refine ends_issue (t := { t with working := withRenewed actor.tenantId row s.working })
    (c := .logAudit "update" row.id) rfl ht hCommitted ()
    (withRenewed actor.tenantId row s.working) rfl ?_
  rw [issue_call (c := .publishFreeradiusApplyForCert row.id "server") rfl]
  have hEnd : ({ t with working := withRenewed actor.tenantId row s.working } : Session _) =
      { s with working := withRenewed actor.tenantId row s.working } := by
    rw [hCommitted, ht, hs]
  simp only at hEnd ⊢
  rw [hEnd]
  cases env.external turn (.publishFreeradiusApplyForCert row.id "server") with
  | error e => exact .unannounced e row
  | ok _ => exact .renewed row

theorem record_ends {new : NewCert} {row : Certificate} (hRow : row = new.row (env.newId turn))
    (hs : s.aborted = false) (hTenant : new.tenantId = actor.tenantId)
    (hType : new.certType = "server") :
    Ends actor s ((record actor new).run (env.exec turn) s)
      (if (statementsFor actor new row.id).any (env.refuses turn) ||
          s.working.any (clashes row) then .aborted
        else
          .ofPublish row (env.external turn (.publishFreeradiusApplyForCert row.id "server"))) := by
  have hName : row.name = new.name := congrArg Certificate.name hRow
  cases hClash : s.working.any (clashes row) with
  | true =>
    have hRun : ∃ e s', (record actor new).run (env.exec turn) s = (.error e, s') ∧
        s'.aborted = true ∧ s'.committed = s.committed := by
      cases hInsert : env.refuses turn (.insertCert new) with
      | true => exact issue_refused rfl hs hInsert _
      | false =>
        refine ⟨env.uniqueViolation, { s with aborted := true }, ?_, rfl, rfl⟩
        have hNone : env.sqlFails turn (.insertCert new) = none := by simpa [refuses] using hInsert
        rw [record, Program.run_bind, issue, Program.run_command, exec]
        simp only [Command.statement]
        rw [Session.execute_error hs]
        simp [hNone, SqlAction.perform, ← hRow, hClash]
    rw [Bool.or_true, if_pos rfl]
    exact .of_aborted hRun
  | false =>
    have hStatements : (statementsFor actor new row.id).any (env.refuses turn) =
        (env.refuses turn (.insertCert new) || (env.refuses turn (.logAudit "create" row.id) ||
        (env.refuses turn (.lookupCertSummary actor.tenantId row.id) ||
        (env.refuses turn (.deactivateCertsOfType actor.tenantId "server") ||
        (env.refuses turn (.setCertActive actor.tenantId row.id) ||
        env.refuses turn (.logAudit "update" row.id)))))) := by
      simp [statementsFor]
    rw [Bool.or_false, hStatements]
    simp only [if_or]
    rw [record]
    refine ends_issue (c := .insertCert new) rfl hs rfl row (s.working ++ [row]) ?_ ?_
    · rw [SqlAction.perform, ← hRow, hClash]
      rfl
    refine ends_issue (s := s) (t := { s with working := s.working ++ [row] })
      (c := .logAudit "create" row.id) rfl hs rfl () (s.working ++ [row]) rfl ?_
    rw [← hName]
    have hRowTenant : row.tenantId = actor.tenantId := by rw [hRow]; exact hTenant
    have hRowType : row.certType = "server" := by rw [hRow]; exact hType
    exact activateCert_ends (s := s) (t := { s with working := s.working ++ [row] })
      hs hs rfl rfl hRowTenant hRowType hClash rfl

theorem renewCert_ends (hs : s.aborted = false) :
    Ends actor s ((renewCert env.lib actor env.now old).run (env.exec turn) s)
      (env.fate actor turn old s.working) := by
  unfold renewCert fate
  by_cases hAccepts : (renewalRequest env.lib env.now old).accepts = true
  · simp only [if_pos hAccepts]
    by_cases hSelect : env.refuses turn (.selectActiveCa actor.tenantId) = true
    · rw [if_pos hSelect, generateServer, Program.bind_assoc, lookupActiveCa, Program.bind_assoc]
      exact .of_aborted (issue_refused rfl hs hSelect _)
    · rw [if_neg hSelect]
      rw [Bool.not_eq_true] at hSelect
      cases hCa : activeCa actor.tenantId s.working with
      | none =>
        rw [generateServer, Program.bind_assoc, lookupActiveCa, Program.bind_assoc,
          issue_performed rfl hs hSelect (by rw [SqlAction.perform])]
        rw [activeCa] at hCa
        simp only [hCa]
        exact .failed _
      | some ca =>
        rw [renewAccepted_run hs hSelect hCa]
        simp only
        cases hPrepare : env.prepare actor turn (renewalRequest env.lib env.now old) ca with
        | error e => exact .failed e
        | ok new =>
          obtain ⟨hTenant, hType, -⟩ := prepare_ok hPrepare
          dsimp only
          exact record_ends rfl hs hTenant hType
  · simp only [if_neg hAccepts]
    exact .failed _

end PassEnv

end OpenRadiusWeb.Certificates
