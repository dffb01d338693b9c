import OpenRadiusWeb.Coa.Schedule
import OpenRadiusWeb.Lib.Transcript
import Mathlib.Data.List.Nodup

/-! # The session table and the NAS

An acknowledged request changes the NAS. The table follows it only through the status
update of an acknowledged disconnect that goes through `_execute_coa`; the column
`assigned_vlan` is never written and the fallback disconnect of a VLAN assignment is not
logged. The table stays in agreement as long as no other request is acknowledged.
-/

namespace OpenRadiusWeb.Coa

open OpenRadiusWeb.Policy (PyVal)
open Traced (Keeps)

/-- A session as the NAS has it. -/
structure NasSession where
  connected : Bool
  vlan : Option Int

abbrev Nas : Type := String → NasSession

def Nas.set (nas : Nas) (sessionId : String) (f : NasSession → NasSession) : Nas := fun s =>
  if s = sessionId then f (nas s) else nas s

/-- The NAS applies what it acknowledges. -/
def Nas.apply (nas : Nas) : CoaEvent → Nas
  | .acked sessionId .disconnect => nas.set sessionId fun s => { s with connected := false }
  | .acked sessionId (.vlanChange (.int n)) => nas.set sessionId fun s => { s with vlan := some n }
  | _ => nas

structure Agrees (w : World) (nas : Nas) : Prop where
  status : ∀ row ∈ w.sessions.rows,
    row.status = "terminated" ↔ (nas row.sessionId).connected = false
  vlan : ∀ row ∈ w.sessions.rows, row.assignedVlan = (nas row.sessionId).vlan

/-! ## Messages -/

inductive Target
  | sessionId (text : String)
  | macAddress (text : String)
  | username (text : String)

/-- A message with the documented fields of its handler. -/
inductive CoaMessage
  | vlanAssign (mac : String) (vlan : Int)
  | vlanChange (target : Target) (vlan : Int)
  | disconnect (target : Target)

def Target.field : Target → String × PyVal
  | .sessionId text => ("session_id", .str text)
  | .macAddress text => ("mac_address", .str text)
  | .username text => ("username", .str text)

def CoaMessage.data : CoaMessage → Dict PyVal
  | .vlanAssign mac vlan => [("mac_address", .str mac), ("vlan_id", .int vlan)]
  | .vlanChange target vlan => [("action", .str "vlan_change"), target.field, ("vlan_id", .int vlan)]
  | .disconnect target => [("action", .str "disconnect"), target.field]

def handleMessage (env : Env) (w : World) (attempt : CoaAttempt) : CoaMessage → CoaRun Unit
  | .vlanAssign mac vlan =>
    handlePolicyVlanAssign env w attempt (CoaMessage.vlanAssign mac vlan).data
  | message => handleCoaAction env w attempt message.data

/-- One message: the service handles it, the NAS applies what it acknowledged. -/
def messageStep (env : Env) (input : CoaMessage × CoaAttempt) (s : World × Nas) :
    CoaRun Unit × (World × Nas) :=
  let x := handleMessage env s.1 input.2 input.1
  (x, s.1.after x, x.events.foldl Nas.apply s.2)

/-! ## Requests that break the agreement -/

def acknowledgedBy (result : Except Exc CoAResult) : Bool :=
  match result with
  | .ok r => r.success
  | .error _ => false

/-- Marks an acknowledged VLAN change to another VLAN than the recorded one and an
acknowledged disconnect that is not logged. -/
def breaksAgreement : Flag := fun session _ operation result logged =>
  acknowledgedBy result && match operation with
    | .vlanChange (.int n) => !decide (session.row.assignedVlan = some n)
    | .disconnect => !logged
    | _ => false

/-- The step of a request that `handle_policy_vlan_assign` makes; it is marked when it is
acknowledged. -/
def assignStep (request : Except Exc (Bytes × Except Exc CoAResult)) : Step :=
  match request with
  | .error _ => .failing
  | .ok (_, .error _) => ⟨false, true⟩
  | .ok (_, .ok r) => ⟨r.success, false⟩

section Steps

variable (env : Env) (w : World) (attempt : CoaAttempt)

def fallbackSteps (session : FoundSession) (calling : Option String) : List Step :=
  match fetchedSecret env w attempt 1 session.row.nasIp with
  | .error _ => [.failing]
  | .ok secret => [assignStep
      (requestResult env attempt 1 (nextId w.identifier) .disconnect session calling secret)]

def changeSteps (session : FoundSession) (calling : Option String) (vlan : Int) : List Step :=
  match fetchedSecret env w attempt 0 session.row.nasIp with
  | .error _ => [.failing]
  | .ok secret =>
    let request := requestResult env attempt 0 w.identifier (.vlanChange (.int vlan)) session
      calling secret
    [assignStep request] ++
      (if acknowledgedBy (request.bind fun sent => sent.2) then []
        else fallbackSteps env w attempt session calling)

/-- The schedule of `handle_policy_vlan_assign`. -/
def vlanAssignSteps (mac : String) (vlan : Int) : List Step :=
  if mac = "" ∨ vlan = 0 then []
  else Step.ofResult attempt.lookup ++
    match findActiveSession env w .none (.str mac) with
    | .error _ => [.failing]
    | .ok none => []
    | .ok (some session) =>
      if session.row.assignedVlan = some vlan then []
      else changeSteps env w attempt session (some mac) vlan

def messageSteps : CoaMessage → List Step
  | .vlanAssign mac vlan => vlanAssignSteps env w attempt mac vlan
  | message => actionSteps breaksAgreement env w attempt message.data

/-- No request is acknowledged that the table does not follow. -/
def Bookkept (message : CoaMessage) : Prop :=
  Step.anySent (messageSteps env w attempt message) = false

end Steps

/-! ## Events that keep the agreement -/

/-- What no event of the service changes. -/
def vlanColumn (w : World) : List (String × Option Int) :=
  w.sessions.rows.map fun row => (row.sessionId, row.assignedVlan)

theorem vlanColumn_apply (w : World) (e : CoaEvent) : vlanColumn (w.apply e) = vlanColumn w := by
  cases e with
  | terminated sessionId =>
    have hSame : (fun row : SessionRow => (row.sessionId, row.assignedVlan)) ∘
        SessionRow.terminate sessionId = fun row => (row.sessionId, row.assignedVlan) := by
      funext row
      unfold SessionRow.terminate
      simp only [Function.comp]
      split <;> rfl
    unfold vlanColumn World.apply SessionTable.terminate
    rw [List.map_map, hSame]
  | _ => rfl

theorem vlanColumn_foldl (w : World) (events : List CoaEvent) :
    vlanColumn (events.foldl World.apply w) = vlanColumn w := by
  induction events generalizing w with
  | nil => rfl
  | cons e events ih => rw [List.foldl_cons, ih, vlanColumn_apply]

/-- Events after which table and NAS agree if they did before, as long as the VLANs of the
table are those of `w₀`. -/
def Preserves (w₀ : World) (events : List CoaEvent) : Prop :=
  ∀ w nas, vlanColumn w = vlanColumn w₀ → Agrees w nas →
    Agrees (events.foldl World.apply w) (events.foldl Nas.apply nas)

theorem preserves_nil (w₀ : World) : Preserves w₀ [] := fun _ _ _ h => h

theorem preserves_append (w₀ : World) (a b : List CoaEvent) (ha : Preserves w₀ a)
    (hb : Preserves w₀ b) : Preserves w₀ (a ++ b) := by
  intro w nas hColumn hAgrees
  rw [List.foldl_append, List.foldl_append]
  exact hb _ _ ((vlanColumn_foldl w a).trans hColumn) (ha w nas hColumn hAgrees)

theorem preserves_of_neutral (w₀ : World) {events : List CoaEvent}
    (hWorld : ∀ w : World, (events.foldl World.apply w).sessions = w.sessions)
    (hNas : ∀ nas : Nas, events.foldl Nas.apply nas = nas) : Preserves w₀ events := by
  intro w nas _ hAgrees
  rw [hNas]
  exact ⟨fun row hRow => hAgrees.status row (hWorld w ▸ hRow),
    fun row hRow => hAgrees.vlan row (hWorld w ▸ hRow)⟩

/-- An acknowledged change to the VLAN that the row of the session already has. -/
theorem preserves_recorded_vlan {w₀ : World} {row : SessionRow} {n : Int}
    (hRow : row ∈ w₀.sessions.rows) (hVlan : row.assignedVlan = some n) :
    Preserves w₀ [.acked row.sessionId (.vlanChange (.int n))] := by
  intro w nas hColumn hAgrees
  have hRecorded : ∀ row' ∈ w.sessions.rows, row'.sessionId = row.sessionId →
      row'.assignedVlan = some n := by
    intro row' hRow' hSame
    have hMem : (row'.sessionId, row'.assignedVlan) ∈ vlanColumn w₀ :=
      hColumn ▸ List.mem_map_of_mem hRow'
    obtain ⟨old, hOld, hPair⟩ := List.mem_map.mp hMem
    have hId : old.sessionId = row.sessionId := (congrArg Prod.fst hPair).trans hSame
    obtain rfl := List.inj_on_of_nodup_map w₀.sessions.unique hOld hRow hId
    exact (congrArg Prod.snd hPair).symm.trans hVlan
  refine ⟨fun row' hRow' => ?_, fun row' hRow' => ?_⟩
  · refine (hAgrees.status row' hRow').trans ?_
    simp only [List.foldl_cons, List.foldl_nil, Nas.apply, Nas.set]
    split <;> rfl
  · simp only [List.foldl_cons, List.foldl_nil, Nas.apply, Nas.set]
    split
    · rename_i hSame
      exact hRecorded row' hRow' hSame
    · exact hAgrees.vlan row' hRow'

theorem preserves_ended (w₀ : World) (sessionId : String) (row : AuditRow) :
    Preserves w₀ [.acked sessionId .disconnect, .logged row, .terminated sessionId] := by
  intro w nas _ hAgrees
  refine ⟨fun row' hRow' => ?_, fun row' hRow' => ?_⟩ <;>
    obtain ⟨old, hOld, rfl⟩ := List.mem_map.mp hRow' <;>
    simp only [List.foldl_cons, List.foldl_nil, Nas.apply, Nas.set, SessionRow.terminate_sessionId] <;>
    unfold SessionRow.terminate <;>
    by_cases hSame : old.sessionId = sessionId
  · simp [hSame]
  · simpa [hSame] using hAgrees.status old hOld
  · simpa [hSame] using hAgrees.vlan old hOld
  · simpa [hSame] using hAgrees.vlan old hOld

theorem Operation.eq_disconnect {env : Env} {operation : Operation}
    (h : operation.action env = "disconnect") : operation = .disconnect := by
  cases operation with
  | disconnect => rfl
  | reauthenticate =>
    have hClash : "reauthenticate" = "disconnect" := h
    exact absurd hClash (by decide)
  | vlanChange vlan =>
    have hHead := congrArg (fun s => s.toList.head?) h
    simp [Operation.action] at hHead
  | applyAcl acl =>
    have hHead := congrArg (fun s => s.toList.head?) h
    simp [Operation.action] at hHead

section Preserve

variable {env : Env} {w : World} {attempt : CoaAttempt}

theorem preserves_request (attempt : CoaAttempt) (w₀ : World) (i n : Nat) (session : FoundSession)
    (operation : Operation) (wire : Bytes) :
    Preserves w₀ (.identifier n ::
      if (attempt.answer i).reached then [.sent session.row.sessionId operation wire] else []) := by
  cases (attempt.answer i).reached <;>
    exact preserves_of_neutral w₀ (fun _ => rfl) fun _ => rfl

theorem preserves_published (w₀ : World) (published : Bool) (r : CoAResult) :
    Preserves w₀ (if published then [.published r.toDict] else []) := by
  cases published <;> exact preserves_of_neutral w₀ (fun _ => rfl) fun _ => rfl

/-- The acknowledgement and the log transaction of a request that is not marked. -/
theorem preserves_logged (env : Env) {w₀ : World} {session : FoundSession} {operation : Operation}
    {i : Nat} {r : CoAResult} {logged : Bool} (hRow : session.row ∈ w₀.sessions.rows)
    (hAction : r.action = operation.action env)
    (hFlag : breaksAgreement session i operation (.ok r) logged = false) :
    Preserves w₀ ((if r.success then [.acked session.row.sessionId operation] else []) ++
      if logged then .logged (auditRow env session r) ::
        (if endsSession r then [.terminated session.row.sessionId] else []) else []) := by
  unfold breaksAgreement acknowledgedBy at hFlag
  dsimp only at hFlag
  cases hSuccess : r.success with
  | false =>
    have hEnds : endsSession r = false := by rw [endsSession, hSuccess, Bool.false_and]
    rw [hEnds]
    cases logged <;> exact preserves_of_neutral w₀ (fun _ => rfl) fun _ => rfl
  | true =>
    rw [hSuccess, Bool.true_and] at hFlag
    have hOther : operation ≠ .disconnect → endsSession r = false := by
      intro hNot
      rw [endsSession, hSuccess, Bool.true_and, beq_eq_false_iff_ne, hAction]
      exact fun hEq => hNot (Operation.eq_disconnect hEq)
    have hLogged : Preserves w₀ (if logged then [.logged (auditRow env session r)] else []) := by
      cases logged <;> exact preserves_of_neutral w₀ (fun _ => rfl) fun _ => rfl
    cases operation with
    | disconnect =>
      have hYes : logged = true := by simpa using hFlag
      have hEnds : endsSession r = true := by
        rw [endsSession, hSuccess, Bool.true_and, hAction]
        rfl
      rw [hYes, hEnds]
      exact preserves_ended w₀ session.row.sessionId (auditRow env session r)
    | reauthenticate =>
      rw [hOther (by simp)]
      exact preserves_append w₀ _ _ (preserves_of_neutral w₀ (fun _ => rfl) fun _ => rfl) hLogged
    | applyAcl acl =>
      rw [hOther (by simp)]
      exact preserves_append w₀ _ _ (preserves_of_neutral w₀ (fun _ => rfl) fun _ => rfl) hLogged
    | vlanChange vlan =>
      rw [hOther (by simp)]
      refine preserves_append w₀ _ _ ?_ hLogged
      cases vlan with
      | int n => exact preserves_recorded_vlan hRow (by simpa using hFlag)
      | _ => exact preserves_of_neutral w₀ (fun _ => rfl) fun _ => rfl

theorem acceptable_preserves {w₀ : World} {session : FoundSession}
    (hRow : session.row ∈ w₀.sessions.rows) :
    Acceptable breaksAgreement env attempt (Preserves w₀) session where
  identifier n := preserves_of_neutral w₀ (fun _ => rfl) fun _ => rfl
  call i identifier operation wire result logged published hAction hFlag := by
    have hRequest := preserves_request attempt w₀ i (nextId identifier) session
      operation wire
    cases result with
    | error e =>
      simpa [callEvents, requestEvents] using hRequest
    | ok r =>
      have hAll := preserves_append w₀ _ _ (preserves_append w₀ _ _ hRequest
        (preserves_logged env hRow (hAction r rfl) hFlag))
        (preserves_published w₀ published r)
      simpa [callEvents, requestEvents] using hAll

/-- A request of `handle_policy_vlan_assign`, which logs nothing. -/
theorem sendRequest_keeps (env : Env) (attempt : CoaAttempt) (w₀ : World) (i identifier : Nat) (operation : Operation)
    (session : FoundSession) (calling : Option String) (secret : String) :
    Keeps (Preserves w₀) (sendRequest env attempt i identifier operation session calling secret)
      [assignStep (requestResult env attempt i identifier operation session calling secret)] := by
  cases hRequest : requestResult env attempt i identifier operation session calling secret with
  | error e =>
    rw [sendRequest_of_error hRequest]
    exact ⟨rfl, fun _ => preserves_of_neutral w₀ (fun _ => rfl) fun _ => rfl⟩
  | ok sent =>
    obtain ⟨wire, result⟩ := sent
    rw [sendRequest_of_ok hRequest]
    have hSent := preserves_request attempt w₀ i (nextId identifier) session
      operation wire
    cases result with
    | error e =>
      refine ⟨rfl, fun _ => ?_⟩
      simpa [requestEvents] using hSent
    | ok r =>
      refine ⟨rfl, fun hQuiet => ?_⟩
      have hRefused : r.success = false := by simpa [assignStep, Step.anySent] using hQuiet
      simpa [requestEvents, hRefused] using hSent

theorem recorded_eq (assigned : Option Int) (vlan : Int) :
    (optInt assigned).eq (.int vlan) = decide (assigned = some vlan) := by
  cases assigned with
  | none => simp [optInt, PyVal.eq, PyVal.number?]
  | some v => simp [optInt, PyVal.eq, PyVal.number?, Policy.PyFloat.eq]

theorem result_of_sendRequest {i identifier : Nat} {operation : Operation}
    {session : FoundSession} {calling : Option String} {secret : String} {r : CoAResult}
    (h : (sendRequest env attempt i identifier operation session calling secret).result = .ok r) :
    (requestResult env attempt i identifier operation session calling secret).bind
      (fun sent => sent.2) = .ok r := by
  cases hSent : requestResult env attempt i identifier operation session calling secret with
  | error e =>
    rw [sendRequest_of_error hSent] at h
    cases h
  | ok sent =>
    rw [sendRequest_of_ok hSent] at h
    exact h

theorem changeOrDisconnect_keeps (w₀ : World) (session : FoundSession) (calling : Option String)
    (vlan : Int) :
    Keeps (Preserves w₀) (changeOrDisconnect env w attempt session calling (.int vlan))
      (changeSteps env w attempt session calling vlan) := by
  have hNil := preserves_nil w₀
  have hQ := preserves_append w₀
  unfold changeOrDisconnect changeSteps
  rw [fetchSecret_eq]
  cases fetchedSecret env w attempt 0 session.row.nasIp with
  | error e => exact ⟨rfl, fun _ => hNil⟩
  | ok secret =>
    rw [Traced.lift_ok_bind]
    refine (sendRequest_keeps env attempt w₀ 0 w.identifier (.vlanChange (.int vlan)) session calling
      secret).bind hQ fun r hResult => ?_
    rw [result_of_sendRequest hResult]
    cases hSuccess : r.success with
    | true =>
      simp only [acknowledgedBy, hSuccess, if_true]
      exact ⟨rfl, fun _ => hNil⟩
    | false =>
      simp only [acknowledgedBy, hSuccess, Bool.not_false, if_true, Bool.false_eq_true, if_false]
      rw [fetchSecret_eq]
      unfold fallbackSteps
      cases fetchedSecret env w attempt 1 session.row.nasIp with
      | error e => exact ⟨rfl, fun _ => hNil⟩
      | ok secret' =>
        rw [Traced.lift_ok_bind]
        have hFallback := (sendRequest_keeps env attempt w₀ 1
          (nextId w.identifier) .disconnect session calling secret').bind hQ
          (f := fun _ => (pure () : CoaRun Unit)) (t := []) fun _ _ => ⟨rfl, fun _ => hNil⟩
        rwa [List.append_nil] at hFallback

theorem handlePolicyVlanAssign_keeps (w₀ : World) (mac : String) (vlan : Int) :
    Keeps (Preserves w₀)
      (handlePolicyVlanAssign env w attempt (CoaMessage.vlanAssign mac vlan).data)
      (vlanAssignSteps env w attempt mac vlan) := by
  have hNil := preserves_nil w₀
  unfold handlePolicyVlanAssign vlanAssignSteps
  have hMac : Dict.getD (CoaMessage.vlanAssign mac vlan).data "mac_address" .none = .str mac := rfl
  have hVlan : Dict.getD (CoaMessage.vlanAssign mac vlan).data "vlan_id" .none = .int vlan := rfl
  rw [hMac, hVlan]
  dsimp only
  by_cases hDropped : mac = "" ∨ vlan = 0
  · have hFalsy : ((PyVal.str mac).truthy && (PyVal.int vlan).truthy) = false := by
      rcases hDropped with rfl | rfl <;> simp [PyVal.truthy]
    rw [if_pos hDropped, hFalsy]
    exact ⟨rfl, fun _ => hNil⟩
  · have hTruthy : ((PyVal.str mac).truthy && (PyVal.int vlan).truthy) = true := by
      rw [not_or] at hDropped
      simp [PyVal.truthy, hDropped.1, hDropped.2]
    rw [if_neg hDropped, hTruthy, if_pos rfl]
    refine (Traced.keeps_lift hNil attempt.lookup).bind (preserves_append w₀) fun _ _ => ?_
    cases findActiveSession env w .none (.str mac) with
    | error e => exact ⟨rfl, fun _ => hNil⟩
    | ok found =>
      rw [Traced.lift_ok_bind]
      cases found with
      | none => exact ⟨rfl, fun _ => hNil⟩
      | some session =>
        dsimp only
        rw [recorded_eq]
        by_cases hSame : session.row.assignedVlan = some vlan
        · rw [if_pos hSame, decide_eq_true hSame]
          exact ⟨rfl, fun _ => hNil⟩
        · rw [if_neg hSame, decide_eq_false hSame, Bool.not_false, if_pos rfl]
          exact changeOrDisconnect_keeps w₀ session (some mac) vlan

theorem handleMessage_preserves {message : CoaMessage} (h : Bookkept env w attempt message) :
    Preserves w (handleMessage env w attempt message).events := by
  have hFound : ∀ s ∈ matchedSessions env w message.data,
      Acceptable breaksAgreement env attempt (Preserves w) s := fun s hs =>
    acceptable_preserves (matchedSessions_active hs).1
  cases message with
  | vlanAssign mac vlan => exact (handlePolicyVlanAssign_keeps w mac vlan).clean h
  | vlanChange target vlan =>
    exact (handleCoaAction_keeps (preserves_nil w) (preserves_append w) hFound).clean h
  | disconnect target =>
    exact (handleCoaAction_keeps (preserves_nil w) (preserves_append w) hFound).clean h

theorem agrees_step {nas : Nas} {input : CoaMessage × CoaAttempt}
    (hAgrees : Agrees w nas) (h : Bookkept env w input.2 input.1) :
    Agrees (messageStep env input (w, nas)).2.1 (messageStep env input (w, nas)).2.2 :=
  handleMessage_preserves h w nas rfl hAgrees

end Preserve

/-- What `handle_policy_vlan_assign` finds out about the session of a MAC is so: the NAS still
has it, and a VLAN that would be skipped is in force. -/
def SkipsRightly (env : Env) (s : World × Nas) : Prop :=
  ∀ mac vlan session, findActiveSession env s.1 .none (.str mac) = .ok (some session) →
    (s.2 session.row.sessionId).connected = true ∧
      ((optInt session.row.assignedVlan).eq (.int vlan) = true →
        (s.2 session.row.sessionId).vlan = some vlan)

theorem Agrees.skipsRightly {env : Env} {s : World × Nas} (h : Agrees s.1 s.2) :
    SkipsRightly env s := by
  intro mac vlan session hFound
  obtain ⟨hRow, hActive⟩ := findActiveSession_active hFound
  constructor
  · cases hConnected : (s.2 session.row.sessionId).connected with
    | true => rfl
    | false =>
      have hClash := hActive.symm.trans ((h.status _ hRow).mpr hConnected)
      exact absurd hClash (by decide)
  · intro hSame
    rw [recorded_eq, decide_eq_true_eq] at hSame
    rw [← h.vlan _ hRow, hSame]

open Transcript (transcript invariant)

/-- In every run whose requests are all bookkept, the table agrees with the NAS around every
message, and a VLAN assignment is only skipped when its VLAN is in force. -/
theorem messages_agree {env : Env} {w : World} {nas : Nas}
    {inputs : List (CoaMessage × CoaAttempt)} (hAgrees : Agrees w nas)
    (hBook : ∀ e ∈ transcript (messageStep env) (w, nas) inputs,
      Bookkept env e.pre.1 e.input.2 e.input.1) :
    ∀ e ∈ transcript (messageStep env) (w, nas) inputs,
      Agrees e.post.1 e.post.2 ∧ SkipsRightly env e.pre ∧ SkipsRightly env e.post := by
  have hInv := invariant (fun s : World × Nas => Agrees s.1 s.2)
    (fun s (input : CoaMessage × CoaAttempt) => Bookkept env s.1 input.2 input.1)
    (fun s input hs h => agrees_step hs h)
    (s := (w, nas)) hAgrees hBook
  intro e he
  obtain ⟨hPre, hPost⟩ := hInv e he
  exact ⟨hPost, hPre.skipsRightly, hPost.skipsRightly⟩

/-! ## Runs on one session -/

/-- A NAS that has the session of `oneWorld` in VLAN 10. -/
def oneNas : Nas := fun _ => ⟨true, some 10⟩

def twoMessages : List (CoaMessage × CoaAttempt) :=
  [(.disconnect (.sessionId "s1"), acknowledged), (.vlanAssign "00:11:22:33:44:55" 10, acknowledged)]

theorem logged_disconnect_agrees :
    (transcript (messageStep oneEnv) (oneWorld, oneNas) twoMessages).length = 2 ∧
    ∀ e ∈ transcript (messageStep oneEnv) (oneWorld, oneNas) twoMessages,
      Agrees e.post.1 e.post.2 ∧ SkipsRightly oneEnv e.pre ∧ SkipsRightly oneEnv e.post := by
  refine ⟨rfl, messages_agree ⟨?_, ?_⟩ ?_⟩
  · intro row hRow
    obtain rfl := List.mem_singleton.mp hRow
    decide
  · intro row hRow
    obtain rfl := List.mem_singleton.mp hRow
    rfl
  · intro e he
    rcases List.mem_cons.mp he with rfl | he
    · show Step.anySent _ = false
      decide
    · obtain rfl := List.mem_singleton.mp he
      show Step.anySent _ = false
      decide

def ciscoSession : SessionRow := { oneSession with callingStationId := some "00:11:22:33:44:55" }

def ciscoWorld : World := ⟨0, ⟨[ciscoSession], by decide⟩, [⟨"10.0.0.1", some "cisco", none⟩]⟩

def changeAcknowledged : CoaAttempt :=
  { acknowledged with answer := fun _ => .datagram ([44, 1, 0, 20] ++ RadiusPacket.zeroAuthenticator) }

def changeTimesOut : CoaAttempt :=
  { acknowledged with
    answer := fun i => if i = 0 then .timeout else .datagram disconnectAck }

/-- The state after one message. -/
def afterMessage (message : CoaMessage) (attempt : CoaAttempt) : World × Nas :=
  (messageStep oneEnv (message, attempt) (ciscoWorld, oneNas)).2

theorem not_agrees_of_vlan {s : World × Nas} (hRow : ciscoSession ∈ s.1.sessions.rows)
    (hVlan : (s.2 "s1").vlan = some 20) : ¬Agrees s.1 s.2 := by
  intro h
  have hClash : ciscoSession.assignedVlan = some 20 := (h.vlan _ hRow).trans hVlan
  exact absurd hClash (by decide)

theorem not_agrees_of_gone {s : World × Nas} (hRow : ciscoSession ∈ s.1.sessions.rows)
    (hGone : (s.2 "s1").connected = false) : ¬Agrees s.1 s.2 := by
  intro h
  have hClash : ciscoSession.status = "terminated" := (h.status _ hRow).mpr hGone
  exact absurd hClash (by decide)

theorem not_skipsRightly_of_vlan {s : World × Nas}
    (hFound : findByMac oneEnv s.1 "00:11:22:33:44:55" = some ⟨ciscoSession, some "cisco"⟩)
    (hVlan : (s.2 "s1").vlan = some 20) : ¬SkipsRightly oneEnv s := by
  intro h
  have hSkip : (s.2 "s1").vlan = some 10 :=
    (h "00:11:22:33:44:55" 10 _ (congrArg Except.ok hFound)).2 (by decide)
  rw [hVlan] at hSkip
  exact absurd hSkip (by decide)

def changedSession : World × Nas :=
  afterMessage (.vlanChange (.sessionId "s1") 20) changeAcknowledged

def disconnectedSession : World × Nas :=
  afterMessage (.vlanAssign "00:11:22:33:44:55" 20) changeTimesOut

/-- After an acknowledged change the row keeps the old VLAN, so a request to go back to it is
skipped; and the acknowledged fallback disconnect leaves the row active. -/
theorem table_falls_behind :
    (¬Agrees changedSession.1 changedSession.2 ∧ ¬SkipsRightly oneEnv changedSession) ∧
      ¬Agrees disconnectedSession.1 disconnectedSession.2 := by
  have hVlan : (changedSession.2 "s1").vlan = some 20 := by decide +kernel
  have hRow : ciscoSession ∈ changedSession.1.sessions.rows := by decide +kernel
  have hFound : findByMac oneEnv changedSession.1 "00:11:22:33:44:55" =
      some ⟨ciscoSession, some "cisco"⟩ := by decide +kernel
  have hActive : ciscoSession ∈ disconnectedSession.1.sessions.rows := by decide +kernel
  have hGone : (disconnectedSession.2 "s1").connected = false := by decide +kernel
  exact ⟨⟨not_agrees_of_vlan hRow hVlan, not_skipsRightly_of_vlan hFound hVlan⟩,
    not_agrees_of_gone hActive hGone⟩

end OpenRadiusWeb.Coa
