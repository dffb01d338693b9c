import OpenRadiusWeb.Certificates.Service
import OpenRadiusWeb.Lib.ReadCommitted

/-! # Requests side by side

The operations of the feature as transactions at READ COMMITTED, one for each request, and
what a transaction knows of the rows as it goes: a discipline that every operation follows.
-/

namespace OpenRadiusWeb.Certificates

open Program (attempt)

inductive Request
  | generateCa (actor : Actor) (req : GenerateCARequest)
  | generateServer (actor : Actor) (req : GenerateServerRequest)
  | importCert (actor : Actor) (req : ImportCertRequest)
  | activateCert (actor : Actor) (certId : String)
  | deleteCert (actor : Actor) (certId : String)
  | autoRenew (actor : Actor) (sqlNow now : Timestamp) (thresholdDays : Int)

def Request.program (lib : Libraries) : Request → Operation Unit
  | .generateCa actor req => do let _ ← (Certificates.generateCa actor req).tag 0
  | .generateServer actor req => do let _ ← (Certificates.generateServer actor req).tag 0
  | .importCert actor req => do let _ ← (Certificates.importCert actor req).tag 0
  | .activateCert actor certId => do let _ ← (Certificates.activateCert actor certId).tag 0
  | .deleteCert actor certId => (Certificates.deleteCert actor certId).tag 0
  | .autoRenew actor sqlNow now thresholdDays => do
    let _ ← autoRenewExpiringServerCerts lib actor sqlNow now thresholdDays

/-- What surrounds the requests: the answers of the outside, to every request at any time. -/
structure GatewayEnv where
  lib : Libraries
  request : Nat → Request
  external : Nat → Nat → (c : Command) → Except PyException c.Answer
  newId : Nat → String
  uniqueViolation : PyException
  failedTransaction : PyException

abbrev Answer (c : Nat × Command) : Type := c.2.Answer

abbrev World := ReadCommitted.State Certificate (Nat × Command) Answer PyException Unit

abbrev Label := ReadCommitted.Label PyException

namespace GatewayEnv

def readCommitted (env : GatewayEnv) :
    ReadCommitted.Env Certificate (Nat × Command) Answer PyException where
  statement c := c.2.statement
  clashes := clashes
  external i clock c := env.external i clock c.2
  newKey := env.newId
  uniqueViolation := env.uniqueViolation
  failedTransaction := env.failedTransaction

def step (env : GatewayEnv) : Label → World → Unit × World := ReadCommitted.step env.readCommitted

/-- Every request is about to start on a table of committed rows. -/
def initial (env : GatewayEnv) (clock : Nat) (rows : List Certificate) : World where
  clock := clock
  keys := rows.map Certificate.id
  slot k := ⟨rows.find? fun c => c.id = k, none⟩
  proc i := ⟨false, .running ((env.request i).program env.lib)⟩

end GatewayEnv

/-! ## What a transaction knows -/

/-- What the statements of a transaction have told it. -/
structure Known where
  /-- Rows it has read or made, with tenant and type. -/
  kinds : List (String × String × String)
  inserted : List String
  /-- Tenants and types that had an active certificate. -/
  active : List (String × String)
  /-- Tenants and types of which it has activated a certificate. -/
  flipped : List (String × String)
  written : Bool
  /-- It has deactivated all of this tenant and type, and activates one next. -/
  armed : Option (String × String)

def Known.nothing : Known := ⟨[], [], [], [], false, none⟩

variable {α β : Type}

/-- The discipline of an operation: an UPDATE that deactivates is followed by one that
activates a row of the same type, and a DELETE is the only write of its transaction. Outside
a `try`, an activation that finds no row may give up. -/
def Disciplined (top : Prop) (post : Known → α → Prop) (epost : Known → PyException → Prop) :
    Known → Operation α → Prop
  | K, .ret a => K.armed = none ∧ post K a
  | K, .raise e => K.armed = none ∧ epost K e
  | K, .call (_, .lookupCertSummary tenantId certId) next =>
    K.armed = none ∧ Disciplined top post epost K (next (.ok none)) ∧
      ∀ summary : CertSummary,
        (∀ certType, (certId, tenantId, certType) ∈ K.kinds → summary.certType = certType) →
        Disciplined top post epost
          { K with kinds := (certId, tenantId, summary.certType) :: K.kinds }
          (next (.ok (some summary)))
  | K, .call (_, .listRenewableServerCertsWithin tenantId _) next =>
    K.armed = none ∧ K.written = false ∧ Disciplined top post epost K (next (.ok [])) ∧
      ∀ c cs, Disciplined top post epost
        { K with active := (tenantId, "server") :: K.active } (next (.ok (c :: cs)))
  | K, .call (_, .selectActiveCa _) next =>
    K.armed = none ∧ ∀ ca, Disciplined top post epost K (next (.ok ca))
  | K, .call (_, .logAudit _ _) next =>
    K.armed = none ∧ Disciplined top post epost K (next (.ok ()))
  | K, .call (_, .insertCert new) next =>
    K.armed = none ∧ ∀ id, Disciplined top post epost
      { K with
        kinds := (id, new.tenantId, new.certType) :: K.kinds
        inserted := id :: K.inserted
        written := true } (next (.ok (new.row id)))
  | K, .call (_, .deactivateCertsOfType tenantId certType) next =>
    K.armed = none ∧ ((tenantId, certType) ∈ K.flipped → (tenantId, certType) ∈ K.active) ∧
      Disciplined top post epost { K with written := true, armed := some (tenantId, certType) }
        (next (.ok ()))
  | K, .call (_, .setCertActive tenantId certId) next =>
    ∃ certType, K.armed = some (tenantId, certType) ∧ (certId, tenantId, certType) ∈ K.kinds ∧
      (certId ∈ K.inserted → (tenantId, certType) ∈ K.active) ∧
      (certId ∈ K.inserted ∨ (top ∧ ∃ e, next (.ok none) = .raise e)) ∧
      ∀ row, Disciplined top post epost
        { K with flipped := (tenantId, certType) :: K.flipped, armed := none }
        (next (.ok (some row)))
  | K, .call (_, .deleteCert _ _) next =>
    K.armed = none ∧ K.written = false ∧
      Disciplined top post epost { K with written := true } (next (.ok ()))
  | K, .call (_, _) next => K.armed = none ∧ ∀ r, Disciplined top post epost K (next r)

namespace Disciplined

variable {top : Prop} {post : Known → α → Prop} {epost : Known → PyException → Prop} {K : Known}

/-- What becomes of a program at its ends only. -/
theorem through {top' : Prop} {post' : Known → β → Prop} {epost' : Known → PyException → Prop}
    {g : Operation α → Operation β}
    (hCall : ∀ c next, g (.call c next) = .call c fun r => g (next r))
    (hRet : ∀ K a, K.armed = none → post K a → Disciplined top' post' epost' K (g (.ret a)))
    (hRaise : ∀ K e, K.armed = none → epost K e → Disciplined top' post' epost' K (g (.raise e)))
    (hTop : top → top' ∧ ∀ e, g (.raise e) = .raise e) {p : Operation α}
    (h : Disciplined top post epost K p) : Disciplined top' post' epost' K (g p) := by
  induction p generalizing K with
  | ret a => exact hRet K a h.1 h.2
  | raise e => exact hRaise K e h.1 h.2
  | call c next ih =>
    obtain ⟨turn, c⟩ := c
    rw [hCall]
    cases c with
    | lookupCertSummary tenantId certId =>
      exact ⟨h.1, ih _ h.2.1, fun summary hKind => ih _ (h.2.2 summary hKind)⟩
    | listRenewableServerCertsWithin tenantId horizon =>
      exact ⟨h.1, h.2.1, ih _ h.2.2.1, fun c cs => ih _ (h.2.2.2 c cs)⟩
    | selectActiveCa tenantId => exact ⟨h.1, fun ca => ih _ (h.2 ca)⟩
    | logAudit action resourceId => exact ⟨h.1, ih _ h.2⟩
    | insertCert new => exact ⟨h.1, fun id => ih _ (h.2 id)⟩
    | deactivateCertsOfType tenantId certType => exact ⟨h.1, h.2.1, ih _ h.2.2⟩
    | setCertActive tenantId certId =>
      obtain ⟨certType, hArmed, hKind, hActive, hFound, hNext⟩ := h
      refine ⟨certType, hArmed, hKind, hActive, ?_, fun row => ih _ (hNext row)⟩
      refine hFound.imp_right fun hGivesUp => ?_
      obtain ⟨hIsTop, e, hRaise⟩ := hGivesUp
      exact ⟨(hTop hIsTop).1, e, (congrArg g hRaise).trans ((hTop hIsTop).2 e)⟩
    | deleteCert tenantId certId => exact ⟨h.1, h.2.1, ih _ h.2.2⟩
    | _ => exact ⟨h.1, fun r => ih _ (h.2 r)⟩

theorem bind {post' : Known → β → Prop} {p : Operation α} {f : α → Operation β}
    (h : Disciplined top post epost K p)
    (hf : ∀ K a, K.armed = none → post K a → Disciplined top post' epost K (f a)) :
    Disciplined top post' epost K (p >>= f) :=
  h.through (g := (· >>= f)) (fun _ _ => rfl) hf (fun _ _ hArmed he => ⟨hArmed, he⟩)
    fun hTop => ⟨hTop, fun _ => rfl⟩

theorem attempt {epost' : Known → PyException → Prop} {p : Operation α}
    {handler : PyException → Operation α} (h : Disciplined False post epost' K p)
    (hh : ∀ K e, K.armed = none → epost' K e → Disciplined top post epost K (handler e)) :
    Disciplined top post epost K (p.attempt handler) :=
  h.through (g := (·.attempt handler)) (fun _ _ => rfl) (fun _ _ hArmed ha => ⟨hArmed, ha⟩) hh
    False.elim

theorem weaken {epost' : Known → PyException → Prop} {p : Operation α}
    (h : Disciplined top post epost' K p) (he : ∀ K e, epost' K e → epost K e) :
    Disciplined top post epost K p :=
  h.through (g := id) (fun _ _ => rfl) (fun _ _ hArmed ha => ⟨hArmed, ha⟩)
    (fun K e hArmed h => ⟨hArmed, he K e h⟩) fun hTop => ⟨hTop, fun _ => rfl⟩

theorem activateCert_plain {turn : Nat} {actor : Actor} {certId : String}
    (hArmed : K.armed = none) (hFlipped : K.flipped = []) (hInserted : K.inserted = []) :
    Disciplined True (fun _ _ => True) (fun _ _ => True) K ((activateCert actor certId).tag turn) := by
  refine ⟨hArmed, ⟨hArmed, trivial⟩, fun summary _ => ⟨hArmed, ?_, ?_⟩⟩
  · rw [hFlipped]
    exact fun h => nomatch h
  · refine ⟨summary.certType, rfl, List.mem_cons_self, ?_, .inr ⟨trivial, _, rfl⟩, fun row => ?_⟩
    · rw [hInserted]
      exact fun h => nomatch h
    · refine ⟨rfl, rfl, fun r => ?_⟩
      cases r <;> exact ⟨rfl, trivial⟩

theorem activateCert_own (turn : Nat) {actor : Actor} {certId : String} (hArmed : K.armed = none)
    (hInserted : certId ∈ K.inserted) (hKind : (certId, actor.tenantId, "server") ∈ K.kinds)
    (hActive : (actor.tenantId, "server") ∈ K.active) :
    Disciplined False (fun K _ => (actor.tenantId, "server") ∈ K.active)
      (fun K _ => (actor.tenantId, "server") ∈ K.active) K ((activateCert actor certId).tag turn) := by
  refine ⟨hArmed, ⟨hArmed, hActive⟩, fun summary hSame => ?_⟩
  have hType : summary.certType = "server" := hSame "server" hKind
  refine ⟨hArmed, fun _ => ?_, ?_⟩
  · rw [hType]
    exact hActive
  · refine ⟨summary.certType, rfl, List.mem_cons_self, fun _ => ?_, .inl hInserted, fun row => ?_⟩
    · rw [hType]
      exact hActive
    · refine ⟨rfl, rfl, fun r => ?_⟩
      cases r <;> exact ⟨rfl, hActive⟩

theorem generateServer {top : Prop} {turn : Nat} {actor : Actor} {req : GenerateServerRequest}
    (hArmed : K.armed = none) :
    Disciplined top
      (fun K' row => row.id ∈ K'.inserted ∧ (row.id, actor.tenantId, "server") ∈ K'.kinds ∧
        K'.active = K.active)
      (fun K' _ => K'.active = K.active) K ((Certificates.generateServer actor req).tag turn) := by
  refine ⟨hArmed, fun ca => ?_⟩
  cases ca with
  | none => exact ⟨hArmed, rfl⟩
  | some ca =>
    refine ⟨hArmed, fun r => ?_⟩
    cases r with
    | error e => exact ⟨hArmed, rfl⟩
    | ok keyPem =>
      refine ⟨hArmed, fun r => ?_⟩
      cases r with
      | error e => exact ⟨hArmed, rfl⟩
      | ok keys =>
        refine ⟨hArmed, fun r => ?_⟩
        cases r with
        | error e => exact ⟨hArmed, rfl⟩
        | ok metadata =>
          refine ⟨hArmed, fun r => ?_⟩
          cases r with
          | error e => exact ⟨hArmed, rfl⟩
          | ok _ =>
            refine ⟨hArmed, fun r => ?_⟩
            cases r with
            | error e => exact ⟨hArmed, rfl⟩
            | ok cipher =>
              refine ⟨hArmed, fun id => ⟨hArmed, hArmed, ?_⟩⟩
              exact ⟨List.mem_cons_self, List.mem_cons_self, rfl⟩

theorem generateCa {turn : Nat} {actor : Actor} {req : GenerateCARequest} (hArmed : K.armed = none) :
    Disciplined True (fun _ _ => True) (fun _ _ => True) K
      ((Certificates.generateCa actor req).tag turn) := by
  refine ⟨hArmed, fun r => ?_⟩
  cases r with
  | error e => exact ⟨hArmed, trivial⟩
  | ok keys =>
    refine ⟨hArmed, fun r => ?_⟩
    cases r with
    | error e => exact ⟨hArmed, trivial⟩
    | ok metadata =>
      refine ⟨hArmed, fun r => ?_⟩
      cases r with
      | error e => exact ⟨hArmed, trivial⟩
      | ok _ =>
        refine ⟨hArmed, fun r => ?_⟩
        cases r with
        | error e => exact ⟨hArmed, trivial⟩
        | ok cipher => exact ⟨hArmed, fun id => ⟨hArmed, hArmed, trivial⟩⟩

theorem importCert {turn : Nat} {actor : Actor} {req : ImportCertRequest} (hArmed : K.armed = none) :
    Disciplined True (fun _ _ => True) (fun _ _ => True) K
      ((Certificates.importCert actor req).tag turn) := by
  have hRest : ∀ metadata, Disciplined True (fun _ _ => True) (fun _ _ => True) K
      ((do
        let row ← insertCert actor req.certType req.name req.certPem req.keyPem req.chainPem
          metadata none true
        issue (.logAudit "create" row.id)
        return row : UseCase Certificate).tag turn) := by
    intro metadata
    refine ⟨hArmed, fun r => ?_⟩
    cases r with
    | error e => exact ⟨hArmed, trivial⟩
    | ok cipher => exact ⟨hArmed, fun id => ⟨hArmed, hArmed, trivial⟩⟩
  refine ⟨hArmed, fun r => ?_⟩
  cases r with
  | error e => exact ⟨hArmed, trivial⟩
  | ok metadata =>
    change Disciplined True _ _ K ((validateKey req.keyPem >>= fun _ => _).tag turn)
    unfold validateKey
    split
    · exact hRest metadata
    · split
      · exact hRest metadata
      · refine ⟨hArmed, fun r => ?_⟩
        cases r with
        | error e => exact ⟨hArmed, trivial⟩
        | ok _ => exact hRest metadata

theorem deleteCert {turn : Nat} {actor : Actor} {certId : String} (hArmed : K.armed = none)
    (hWritten : K.written = false) :
    Disciplined True (fun _ _ => True) (fun _ _ => True) K
      ((Certificates.deleteCert actor certId).tag turn) := by
  refine ⟨hArmed, ⟨hArmed, trivial⟩, fun summary _ => ?_⟩
  change Disciplined True _ _ _ ((if summary.isActive then _ else _ : UseCase Unit).tag turn)
  split
  · exact ⟨hArmed, trivial⟩
  · exact ⟨hArmed, hWritten, hArmed, hArmed, trivial⟩

theorem renewCert {lib : Libraries} {actor : Actor} {now : Timestamp} {old : Certificate}
    {turn : Nat} (hArmed : K.armed = none) (hActive : (actor.tenantId, "server") ∈ K.active) :
    Disciplined False (fun K _ => (actor.tenantId, "server") ∈ K.active)
      (fun K _ => (actor.tenantId, "server") ∈ K.active) K
      ((Certificates.renewCert lib actor now old).tag turn) := by
  unfold Certificates.renewCert
  by_cases hAccepts : (renewalRequest lib now old).accepts = true
  · simp only [if_pos hAccepts]
    rw [Program.tag_bind]
    have hGenerate : Disciplined False _ (fun K _ => (actor.tenantId, "server") ∈ K.active) K
        ((Certificates.generateServer actor (renewalRequest lib now old)).tag turn) :=
      (generateServer hArmed).weaken fun K e hSame => hSame ▸ hActive
    refine hGenerate.bind fun K' row hArmed' hRow => ?_
    obtain ⟨hInserted, hKind, hSame⟩ := hRow
    rw [Program.tag_bind]
    have hActivate := activateCert_own turn hArmed' hInserted hKind (hSame ▸ hActive)
    exact hActivate.bind fun K'' row' hArmed'' hActive'' => ⟨hArmed'', hActive''⟩
  · simp only [if_neg hAccepts]
    exact ⟨hArmed, hActive⟩

/-- The loop keeps to the discipline as long as the type had an active certificate. -/
theorem renewCerts {lib : Libraries} {actor : Actor} {now : Timestamp} (cands : List Certificate) :
    ∀ (turn : Nat) (summary : RenewalSummary) (K : Known), K.armed = none →
      (actor.tenantId, "server") ∈ K.active →
      Disciplined True (fun _ _ => True) (fun _ _ => True) K
        (Certificates.renewCerts lib actor now turn cands summary) := by
  induction cands with
  | nil => exact fun _ _ _ hArmed _ => ⟨hArmed, trivial⟩
  | cons old rest ih =>
    intro turn summary K hArmed hActive
    rw [Certificates.renewCerts]
    have hTurn : Disciplined False (fun K _ => (actor.tenantId, "server") ∈ K.active)
        (fun K _ => (actor.tenantId, "server") ∈ K.active) K
        (do
          let name ← (Certificates.renewCert lib actor now old).tag turn
          return (Except.ok name : Except PyException String)) :=
      (renewCert hArmed hActive).bind fun K name hArmed hActive => ⟨hArmed, hActive⟩
    have hTried : Disciplined True (fun K _ => (actor.tenantId, "server") ∈ K.active)
        (fun _ _ => True) K (Program.attempt _ fun e => return Except.error e) :=
      hTurn.attempt fun K e hArmed hActive => ⟨hArmed, hActive⟩
    refine hTried.bind fun K outcome hArmed hActive => ?_
    cases outcome with
    | ok name => exact ih _ _ K hArmed hActive
    | error e => exact ih _ _ K hArmed hActive

theorem autoRenew {lib : Libraries} {actor : Actor} {sqlNow now : Timestamp} {thresholdDays : Int}
    (hArmed : K.armed = none) (hWritten : K.written = false) :
    Disciplined True (fun _ _ => True) (fun _ _ => True) K
      (autoRenewExpiringServerCerts lib actor sqlNow now thresholdDays) :=
  ⟨hArmed, hWritten, ⟨hArmed, trivial⟩,
    fun _ _ => renewCerts _ _ _ _ hArmed List.mem_cons_self⟩

theorem program (lib : Libraries) (request : Request) :
    Disciplined True (fun _ _ => True) (fun _ _ => True) Known.nothing (request.program lib) := by
  cases request with
  | generateCa actor req => exact (generateCa rfl).bind fun _ _ hArmed _ => ⟨hArmed, trivial⟩
  | generateServer actor req =>
    exact ((generateServer rfl).weaken fun _ _ _ => trivial).bind
      fun _ _ hArmed _ => ⟨hArmed, trivial⟩
  | importCert actor req => exact (importCert rfl).bind fun _ _ hArmed _ => ⟨hArmed, trivial⟩
  | activateCert actor certId =>
    exact (activateCert_plain rfl rfl rfl).bind fun _ _ hArmed _ => ⟨hArmed, trivial⟩
  | deleteCert actor certId => exact deleteCert rfl rfl
  | autoRenew actor sqlNow now thresholdDays =>
    exact (autoRenew rfl rfl).bind fun _ _ hArmed _ => ⟨hArmed, trivial⟩

end Disciplined

end OpenRadiusWeb.Certificates
