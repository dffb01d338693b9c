import OpenRadiusWeb.Certificates.Runs
import OpenRadiusWeb.Lib.Isolation

/-! # Tenants beside each other

Every statement of an operation is about rows of the actor's tenant. Under any interleaving
the requests of a tenant and its certificates are therefore what they would be whatever rows
and requests the other tenants have.
-/

namespace OpenRadiusWeb.Certificates

open ReadCommitted (Ours SharedEnv Apart Agree InOrder Parted SameOurs SameShare)
open Program (Every every_command)

def Request.actor : Request → Actor
  | .generateCa actor _ => actor
  | .generateServer actor _ => actor
  | .importCert actor _ => actor
  | .activateCert actor _ => actor
  | .deleteCert actor _ => actor
  | .autoRenew actor _ _ _ => actor

/-! ## Operations keep to the tenant of their actor -/

/-- The statement of the command, if it has one, is about this tenant. -/
def Command.About (tenantId : String) : Command → Prop
  | .listRenewableServerCertsWithin tenant _ => tenant = tenantId
  | .selectActiveCa tenant => tenant = tenantId
  | .lookupCertSummary tenant _ => tenant = tenantId
  | .insertCert new => new.tenantId = tenantId
  | .deactivateCertsOfType tenant _ => tenant = tenantId
  | .setCertActive tenant _ => tenant = tenantId
  | .deleteCert tenant _ => tenant = tenantId
  | _ => True

section Operations

variable {lib : Libraries} {actor : Actor} {now : Timestamp}

abbrev KeepsTo (actor : Actor) {α : Type} (p : UseCase α) : Prop :=
  p.Every (Command.About actor.tenantId)

theorem keepsTo_issue {c : Command} (h : c.About actor.tenantId) : KeepsTo actor (issue c) :=
  every_command h

theorem keepsTo_lookupActiveCa : KeepsTo actor (lookupActiveCa actor.tenantId) := by
  refine (keepsTo_issue (by exact rfl)).bind fun row => ?_
  cases row with
  | none => trivial
  | some row => exact (keepsTo_issue (by exact trivial)).bind fun _ => trivial

theorem keepsTo_insertCert {certType name certPem : String} {keyPem chainPem : Option String}
    {metadata : CertMetadata} {subjectAltNames : Option (List String)} {imported : Bool} :
    KeepsTo actor (insertCert actor certType name certPem keyPem chainPem metadata subjectAltNames
      imported) :=
  (keepsTo_issue (by exact trivial)).bind fun _ => keepsTo_issue (by exact rfl)

theorem keepsTo_generateCa {req : GenerateCARequest} : KeepsTo actor (generateCa actor req) :=
  (keepsTo_issue (by exact trivial)).bind fun _ => (keepsTo_issue (by exact trivial)).bind fun _ =>
    (keepsTo_issue (by exact trivial)).bind fun _ => keepsTo_insertCert.bind fun _ =>
      (keepsTo_issue (by exact trivial)).bind fun _ => trivial

theorem keepsTo_generateServer {req : GenerateServerRequest} :
    KeepsTo actor (generateServer actor req) := by
  refine keepsTo_lookupActiveCa.bind fun ca => ?_
  cases ca with
  | none => trivial
  | some ca =>
    have hMake : KeepsTo actor (makeServerCert req ca) :=
      (keepsTo_issue (by exact trivial)).bind fun _ => (keepsTo_issue (by exact trivial)).bind fun _ =>
        (keepsTo_issue (by exact trivial)).bind fun _ => trivial
    exact hMake.bind fun _ => keepsTo_insertCert.bind fun _ =>
      (keepsTo_issue (by exact trivial)).bind fun _ => trivial

theorem keepsTo_validateKey {keyPem : Option String} : KeepsTo actor (validateKey keyPem) := by
  unfold validateKey
  split
  · trivial
  · split
    · trivial
    · exact keepsTo_issue (by exact trivial)

theorem keepsTo_importCert {req : ImportCertRequest} : KeepsTo actor (importCert actor req) :=
  (keepsTo_issue (by exact trivial)).bind fun _ => keepsTo_validateKey.bind fun _ =>
    keepsTo_insertCert.bind fun _ => (keepsTo_issue (by exact trivial)).bind fun _ => trivial

theorem keepsTo_activateCert {certId : String} : KeepsTo actor (activateCert actor certId) := by
  refine (keepsTo_issue (by exact rfl)).bind fun summary => ?_
  cases summary with
  | none => trivial
  | some summary =>
    refine (keepsTo_issue (by exact rfl)).bind fun _ => (keepsTo_issue (by exact rfl)).bind fun row => ?_
    cases row with
    | none => trivial
    | some row =>
      exact (keepsTo_issue (by exact trivial)).bind fun _ => (keepsTo_issue (by exact trivial)).bind fun _ => trivial

theorem keepsTo_deleteCert {certId : String} : KeepsTo actor (deleteCert actor certId) := by
  refine (keepsTo_issue (by exact rfl)).bind fun summary => ?_
  cases summary with
  | none => trivial
  | some summary =>
    simp only
    split
    · trivial
    · exact (keepsTo_issue (by exact rfl)).bind fun _ => keepsTo_issue (by exact trivial)

theorem keepsTo_renewCert {old : Certificate} : KeepsTo actor (renewCert lib actor now old) := by
  unfold renewCert
  simp only
  split
  · exact keepsTo_generateServer.bind fun _ => keepsTo_activateCert.bind fun _ => trivial
  · trivial

theorem keepsTo_renewCerts (cands : List Certificate) (turn : Nat) (summary : RenewalSummary) :
    (renewCerts lib actor now turn cands summary).Every fun c => c.2.About actor.tenantId := by
  induction cands generalizing turn summary with
  | nil => trivial
  | cons old rest ih =>
    unfold renewCerts
    have hTurn : Every (fun c : Nat × Command => c.2.About actor.tenantId) (do
        let name ← (renewCert lib actor now old).tag turn
        return (Except.ok name : Except PyException String)) :=
      keepsTo_renewCert.tag.bind fun _ => by exact trivial
    have hTried : Every (fun c : Nat × Command => c.2.About actor.tenantId)
        (Program.attempt _ fun e => return Except.error e) := hTurn.attempt fun _ => by exact trivial
    refine hTried.bind fun outcome => ?_
    cases outcome with
    | ok name => exact ih _ _
    | error e => exact ih _ _

theorem keepsTo_program (lib : Libraries) (request : Request) :
    (request.program lib).Every fun c => c.2.About request.actor.tenantId := by
  cases request with
  | generateCa actor req => exact keepsTo_generateCa.tag.bind fun _ => trivial
  | generateServer actor req => exact keepsTo_generateServer.tag.bind fun _ => trivial
  | importCert actor req => exact keepsTo_importCert.tag.bind fun _ => trivial
  | activateCert actor certId => exact keepsTo_activateCert.tag.bind fun _ => trivial
  | deleteCert actor certId => exact keepsTo_deleteCert.tag
  | autoRenew actor sqlNow now thresholdDays =>
    have hList : ((issue (.listRenewableServerCertsWithin actor.tenantId
        (sqlNow + thresholdDays * (86400 * 1000000)))).tag 0).Every
        fun c : Nat × Command => c.2.About actor.tenantId := (keepsTo_issue (by exact rfl)).tag
    exact (hList.bind fun _ => keepsTo_renewCerts _ _ _).bind fun _ => trivial

end Operations

/-! ## What a tenant has -/

namespace GatewayEnv

/-- The certificates and the requests of a tenant. -/
def ours (env : GatewayEnv) (tenantId : String) : Ours Certificate where
  idOf := Certificate.id
  row c := c.tenantId == tenantId
  transaction i := (env.request i).actor.tenantId == tenantId

/-- What the two gateways have in common for a tenant. -/
structure Alike (tenantId : String) (env env' : GatewayEnv) : Prop where
  lib : env'.lib = env.lib
  newId : env'.newId = env.newId
  uniqueViolation : env'.uniqueViolation = env.uniqueViolation
  failedTransaction : env'.failedTransaction = env.failedTransaction
  transactions : ∀ i, (env'.request i).actor.tenantId = tenantId ↔
    (env.request i).actor.tenantId = tenantId
  request : ∀ i, (env.request i).actor.tenantId = tenantId → env'.request i = env.request i
  external : ∀ i, (env.request i).actor.tenantId = tenantId → env'.external i = env.external i

end GatewayEnv

variable {env env' : GatewayEnv} {T : String}

theorem within_of_about {c : Command} {tenantId : String} (h : c.About tenantId)
    {action : SqlAction Certificate c.Answer} (hStatement : c.statement = some action) :
    action.Within (·.tenantId == T) Certificate.id (tenantId == T) := by
  cases c with
  | listRenewableServerCertsWithin tenant horizon =>
    obtain rfl : tenant = tenantId := h
    cases hStatement
    intro row hRow
    simp only [Certificate.renewable, Bool.and_eq_true, beq_iff_eq] at hRow
    simp only [hRow.1.2]
  | selectActiveCa tenant =>
    obtain rfl : tenant = tenantId := h
    cases hStatement
    intro row hRow
    simp only [Certificate.ofType, Bool.and_eq_true, beq_iff_eq] at hRow
    simp only [hRow.1.2]
  | lookupCertSummary tenant certId =>
    obtain rfl : tenant = tenantId := h
    cases hStatement
    intro row hRow
    simp only [Certificate.isRow, Bool.and_eq_true, beq_iff_eq] at hRow
    simp only [hRow.2]
  | insertCert new =>
    obtain rfl : new.tenantId = tenantId := h
    cases hStatement
    exact fun key => ⟨rfl, rfl⟩
  | deactivateCertsOfType tenant certType =>
    obtain rfl : tenant = tenantId := h
    cases hStatement
    intro row hRow
    simp only [Certificate.ofType, Bool.and_eq_true, beq_iff_eq] at hRow
    refine ⟨by simp only [hRow.2], ?_⟩
    rintro _ ⟨⟩
    exact ⟨by simp only [hRow.2], rfl⟩
  | setCertActive tenant certId =>
    obtain rfl : tenant = tenantId := h
    cases hStatement
    intro row hRow
    simp only [Certificate.isRow, Bool.and_eq_true, beq_iff_eq] at hRow
    refine ⟨by simp only [hRow.2], ?_⟩
    rintro _ ⟨⟩
    exact ⟨by simp only [hRow.2], rfl⟩
  | deleteCert tenant certId =>
    obtain rfl : tenant = tenantId := h
    cases hStatement
    intro row hRow
    simp only [Certificate.isRow, Bool.and_eq_true, beq_iff_eq] at hRow
    refine ⟨by simp only [hRow.2], ?_⟩
    rintro _ ⟨⟩
  | logAudit action resourceId =>
    cases hStatement
    trivial
  | _ => cases hStatement

theorem keeps_program (env : GatewayEnv) (T : String) (i : Nat) :
    ((env.request i).program env.lib).Every
      ((env.ours T).Keeps env.readCommitted ((env.ours T).transaction i)) := by
  refine (keepsTo_program env.lib (env.request i)).imp fun c hAbout action hStatement => ?_
  exact within_of_about hAbout hStatement

theorem apart_ours (env : GatewayEnv) (T : String) : Apart (env.ours T) env.readCommitted := by
  intro a b ha hb hId
  simp only [GatewayEnv.ours, beq_iff_eq, beq_eq_false_iff_ne] at ha hb hId
  have hTenant : a.tenantId ≠ b.tenantId := ha ▸ hb.symm
  simp [GatewayEnv.readCommitted, clashes, hId, hTenant]

/-! ## Runs -/

section Start

variable {clock : Nat} {rows rows' : List Certificate}

/-- The keys of the tenant's rows. -/
def ownKeys (T : String) (rows : List Certificate) (k : String) : Bool :=
  (rows.find? fun c => c.id = k).any (·.tenantId == T)

theorem find_row {c : Certificate} (hKeys : (rows.map Certificate.id).Nodup) (hMem : c ∈ rows) :
    rows.find? (fun d => d.id = c.id) = some c := by
  cases hFound : rows.find? (fun d => d.id = c.id) with
  | none => exact absurd (decide_eq_true rfl) (List.find?_eq_none.mp hFound c hMem)
  | some d =>
    have hId : d.id = c.id := by simpa using List.find?_some hFound
    rw [List.inj_on_of_nodup_map hKeys (List.mem_of_find?_eq_some hFound) hMem hId]

theorem inOrder_initial (env : GatewayEnv) (T : String)
    (hFresh : ∀ n, clock ≤ n → env.newId n ∉ rows.map Certificate.id) :
    InOrder (env.ours T) env.readCommitted (ownKeys T rows) (env.initial clock rows) := by
  refine ⟨⟨fun k hk => ⟨?_, rfl⟩, fun k => ⟨fun row hRow => ?_, ?_, ?_⟩, fun i => ?_⟩, hFresh⟩
  · apply List.find?_eq_none.mpr
    intro row hRow hSame
    exact hk (List.mem_map.mpr ⟨row, hRow, of_decide_eq_true hSame⟩)
  · have hFound : rows.find? (fun c => c.id = k) = some row := hRow
    have hId := List.find?_some hFound
    refine ⟨?_, of_decide_eq_true hId⟩
    rw [ownKeys, hFound]
    rfl
  · rintro i version ⟨⟩
  · rintro i row ⟨⟩
  · exact keeps_program env T i

theorem keys_initial (hKeys : (rows.map Certificate.id).Nodup) :
    (rows.map Certificate.id).filter (ownKeys T rows) =
      (rows.filter (·.tenantId == T)).map Certificate.id := by
  rw [List.filter_map]
  congr 1
  refine List.filter_congr fun c hc => ?_
  simp only [Function.comp, ownKeys, find_row hKeys hc, Option.any_some]

theorem agree_initial (hAlike : GatewayEnv.Alike T env env') (hKeys : (rows.map Certificate.id).Nodup)
    (hKeys' : (rows'.map Certificate.id).Nodup)
    (hRows : rows'.filter (·.tenantId == T) = rows.filter (·.tenantId == T)) :
    Agree (env.ours T) (ownKeys T rows) (ownKeys T rows') (env.initial clock rows)
      (env'.initial clock rows') := by
  refine ⟨fun i hi => ?_, ?_, fun k hk => ?_⟩
  · simp only [GatewayEnv.initial, hAlike.request i (beq_iff_eq.mp hi), hAlike.lib]
  · exact (keys_initial hKeys').trans ((congrArg (List.map Certificate.id) hRows).trans
      (keys_initial hKeys).symm)
  · change k ∈ (rows.map Certificate.id).filter (ownKeys T rows) at hk
    rw [keys_initial hKeys] at hk
    obtain ⟨c, hc, rfl⟩ := List.mem_map.mp hk
    have hc' := hc
    rw [← hRows] at hc'
    simp only [GatewayEnv.initial, find_row hKeys (List.mem_filter.mp hc).1,
      find_row hKeys' (List.mem_filter.mp hc').1]

theorem shared_alike (h : GatewayEnv.Alike T env env') :
    SharedEnv (env.ours T) env.readCommitted env'.readCommitted where
  statement := rfl
  clashes := rfl
  newKey := h.newId
  uniqueViolation := h.uniqueViolation
  failedTransaction := h.failedTransaction
  external i hi := by
    funext clock c
    exact congrFun (congrFun (h.external i (beq_iff_eq.mp hi)) clock) c.2

theorem ours_alike (h : GatewayEnv.Alike T env env') : env'.ours T = env.ours T := by
  have hTransaction : (env'.ours T).transaction = (env.ours T).transaction := by
    funext i
    exact Bool.eq_iff_iff.mpr (by simpa [GatewayEnv.ours] using h.transactions i)
  exact congrArg (Ours.mk Certificate.id (·.tenantId == T)) hTransaction

end Start

/-- Two runs in which a tenant has the same certificates, requests and steps, and the others
have whatever they like. -/
theorem runs_isolated (T : String) (env env' : GatewayEnv) (hAlike : GatewayEnv.Alike T env env')
    (hInjective : Function.Injective env.newId) (clock : Nat) (rows rows' : List Certificate)
    (hKeys : (rows.map Certificate.id).Nodup) (hKeys' : (rows'.map Certificate.id).Nodup)
    (hFresh : ∀ n, clock ≤ n → env.newId n ∉ rows.map Certificate.id)
    (hFresh' : ∀ n, clock ≤ n → env.newId n ∉ rows'.map Certificate.id)
    (hRows : rows'.filter (·.tenantId == T) = rows.filter (·.tenantId == T))
    (labels labels' : List Label) (hLabels : List.Forall₂ (SameOurs (env.ours T)) labels labels') :
    SameShare (env.ours T) (Transcript.final env.step (env.initial clock rows) labels)
      (Transcript.final env'.step (env'.initial clock rows') labels') := by
  have hOrder' := inOrder_initial env' T (hAlike.newId ▸ hFresh')
  rw [ours_alike hAlike] at hOrder'
  exact ReadCommitted.sameShare_final (shared_alike hAlike) (apart_ours env T) hInjective hLabels
    (agree_initial hAlike hKeys hKeys' hRows) (inOrder_initial env T hFresh) hOrder' rfl

/-- Request 0 activates a certificate of its tenant, beside requests of another one. -/
def activateBeside (other : Request) : GatewayEnv where
  lib := deleteAndActivate.lib
  request
    | 0 => .activateCert ⟨"admin", "T1"⟩ "b"
    | _ => other
  external := deleteAndActivate.external
  newId clock := String.ofList (List.replicate clock 'n')
  uniqueViolation := deleteAndActivate.uniqueViolation
  failedTransaction := deleteAndActivate.failedTransaction

theorem alike_beside {other other' : Request} (hOther : other.actor.tenantId ≠ "T1")
    (hOther' : other'.actor.tenantId ≠ "T1") :
    GatewayEnv.Alike "T1" (activateBeside other) (activateBeside other') where
  lib := rfl
  newId := rfl
  uniqueViolation := rfl
  failedTransaction := rfl
  transactions i := by
    cases i with
    | zero => exact Iff.rfl
    | succ i => exact iff_of_false hOther' hOther
  request i hi := by
    cases i with
    | zero => rfl
    | succ i => exact absurd hi hOther
  external _ _ := rfl

theorem newId_beside (other : Request) {k : String} (h : ∃ c ∈ k.toList, c ≠ 'n') (n : Nat) :
    (activateBeside other).newId n ≠ k := by
  rintro rfl
  obtain ⟨c, hMem, hc⟩ := h
  rw [activateBeside, String.toList_ofList] at hMem
  exact hc (List.eq_of_mem_replicate hMem)

theorem activation_isolated :
    SameShare ((activateBeside (.deleteCert ⟨"root", "T2"⟩ "x")).ours "T1")
      (Transcript.final (activateBeside (.deleteCert ⟨"root", "T2"⟩ "x")).step
        ((activateBeside (.deleteCert ⟨"root", "T2"⟩ "x")).initial 0
          [storedCert "a" true, { storedCert "x" true with tenantId := "T2" }, storedCert "b" false])
        [.step 0, .step 1, .step 0, .step 1, .step 0])
      (Transcript.final (activateBeside (.activateCert ⟨"guest", "T3"⟩ "b")).step
        ((activateBeside (.activateCert ⟨"guest", "T3"⟩ "b")).initial 0
          [storedCert "a" true, storedCert "b" false])
        [.step 0, .step 7, .step 0, .fail 2 ⟨"OperationalError", ""⟩, .step 0]) := by
  have hFresh : ∀ (other : Request) (n : Nat),
      (activateBeside other).newId n ∉ ["a", "x", "b"] := by
    intro other n hMem
    simp only [List.mem_cons, List.not_mem_nil, or_false] at hMem
    rcases hMem with hSame | hSame | hSame
    · exact newId_beside other ⟨'a', by decide, by decide⟩ n hSame
    · exact newId_beside other ⟨'x', by decide, by decide⟩ n hSame
    · exact newId_beside other ⟨'b', by decide, by decide⟩ n hSame
  apply runs_isolated "T1" _ _ (alike_beside (by decide) (by decide))
  · intro m n hSame
    simpa [activateBeside] using congrArg String.length hSame
  · decide
  · decide
  · exact fun n _ => hFresh _ n
  · intro n _ hMem
    have hSub : ["a", "b"] ⊆ ["a", "x", "b"] := by decide
    exact hFresh _ n (hSub hMem)
  · decide
  · have hOurs : ∀ {l : Label}, l.transaction = 0 →
        SameOurs ((activateBeside (.deleteCert ⟨"root", "T2"⟩ "x")).ours "T1") l l := by
      intro l hl
      refine .inl ⟨?_, rfl⟩
      rw [hl]
      rfl
    have hTheirs : ∀ {i j : Nat} {l : Label}, l.transaction = j + 1 → l.ticks = 1 →
        SameOurs ((activateBeside (.deleteCert ⟨"root", "T2"⟩ "x")).ours "T1") (.step (i + 1)) l := by
      intro i j l hl hTicks
      refine .inr ⟨rfl, ?_, hTicks⟩
      rw [hl]
      rfl
    exact .cons (hOurs rfl) (.cons (hTheirs rfl rfl) (.cons (hOurs rfl) (.cons (hTheirs rfl rfl)
      (.cons (hOurs rfl) .nil))))

end OpenRadiusWeb.Certificates
