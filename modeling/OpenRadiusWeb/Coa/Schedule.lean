import OpenRadiusWeb.Coa.Manager

/-! # The schedule of a CoA action

Which steps of a call fail follows from the rows, the message and the answers of the
outside. What the packets and the log entries of one session mean for the properties of
whole runs is left open: a flag marks the requests that must not happen, and a predicate
on events must hold of those that are not flagged.
-/

namespace OpenRadiusWeb.Coa

open OpenRadiusWeb.Policy (PyVal)
open Traced (Keeps)

/-- Marks a request from the session, its position, the operation, the result and whether
the audit row was committed. -/
abbrev Flag : Type :=
  FoundSession → Nat → Operation → Except Exc CoAResult → Bool → Bool

section Steps

variable (flag : Flag) (env : Env) (w : World) (attempt : CoaAttempt)

/-- The step of an encoded request. -/
def requestStep (i : Nat) (session : FoundSession) (operation : Operation)
    (result : Except Exc CoAResult) : Step :=
  match result with
  | .error _ => ⟨flag session i operation result false, true⟩
  | .ok r =>
    match logStatements attempt i r with
    | .error _ => ⟨flag session i operation result false, true⟩
    | .ok _ => ⟨flag session i operation result true, Step.anyFails (Step.ofResult (attempt.publish i))⟩

def sessionSteps (action vlanId aclName : PyVal) (i identifier : Nat) (session : FoundSession) :
    List Step :=
  match fetchedSecret env w attempt i session.row.nasIp with
  | .error _ => [.failing]
  | .ok secret =>
    match operationOf action vlanId aclName with
    | none => []
    | some operation =>
      match requestResult env attempt i identifier operation session
          session.row.callingStationId secret with
      | .error _ => [.failing]
      | .ok (_, result) => [requestStep flag attempt i session operation result]

def allSteps (action vlanId aclName : PyVal) : Nat → Nat → List FoundSession → List Step
  | _, _, [] => []
  | i, identifier, session :: rest =>
    sessionSteps flag env w attempt action vlanId aclName i identifier session ++
      allSteps action vlanId aclName (i + 1)
        (if (operationOf action vlanId aclName).isSome then nextId identifier else identifier) rest

/-- Joining the addresses of the results fails on a null address. -/
def joinStep (ss : List FoundSession) : List Step :=
  if ss.all fun s => s.row.nasIp.isSome then [] else [.failing]

def bySessionSteps (sessionId mac action vlanId aclName : PyVal) : List Step :=
  Step.ofResult attempt.lookup ++
    match findActiveSession env w sessionId mac with
    | .error _ => [.failing]
    | .ok none => []
    | .ok (some session) =>
      sessionSteps flag env w attempt action vlanId aclName 0 w.identifier session

def byUsernameSteps (username action vlanId aclName : PyVal) : List Step :=
  let ss := findActiveSessionsByUser env w username
  Step.ofResult attempt.lookup ++
    (allSteps flag env w attempt action vlanId aclName 0 w.identifier ss ++ joinStep ss)

/-- The schedule of `handle_coa_action`. -/
def actionSteps (data : Dict PyVal) : List Step :=
  let action := data.getD "action" (.str "reauthenticate")
  let vlanId := data.getD "vlan_id" .none
  let aclName := data.getD "acl_name" .none
  let sessionId := data.getD "session_id" .none
  let mac := data.getD "mac_address" .none
  let username := data.getD "username" .none
  if sessionId.truthy then bySessionSteps flag env w attempt sessionId .none action vlanId aclName
  else if mac.truthy then bySessionSteps flag env w attempt .none mac action vlanId aclName
  else if username.truthy then byUsernameSteps flag env w attempt username action vlanId aclName
  else []

end Steps

/-- The sessions a call acts on, in order. -/
def matchedSessions (env : Env) (w : World) (data : Dict PyVal) : List FoundSession :=
  let one (found : Except Exc (Option FoundSession)) : List FoundSession :=
    match found with
    | .ok (some s) => [s]
    | _ => []
  let sessionId := data.getD "session_id" .none
  let mac := data.getD "mac_address" .none
  let username := data.getD "username" .none
  if sessionId.truthy then one (findActiveSession env w sessionId .none)
  else if mac.truthy then one (findActiveSession env w .none mac)
  else if username.truthy then findActiveSessionsByUser env w username
  else []

theorem matchedSessions_active {env : Env} {w : World} {data : Dict PyVal}
    {s : FoundSession}
    (h : s ∈ matchedSessions env w data) :
    s.row ∈ w.sessions.rows ∧ s.row.status = "active" := by
  have hOne : ∀ {sessionId mac : PyVal}, s ∈ (match findActiveSession env w sessionId mac with
      | .ok (some s) => [s]
      | _ => []) → s.row ∈ w.sessions.rows ∧ s.row.status = "active" := by
    intro sessionId mac hMem
    split at hMem
    · rename_i hFound
      obtain rfl := List.mem_singleton.mp hMem
      exact findActiveSession_active hFound
    · cases hMem
  unfold matchedSessions at h
  dsimp only at h
  split at h
  · exact hOne h
  · split at h
    · exact hOne h
    · split at h
      · exact findActiveSessionsByUser_active h
      · cases h

/-- The events of a request whose packet was encoded: it may end before the audit row is
committed, or before the result is published. -/
def callEvents (env : Env) (attempt : CoaAttempt) (i identifier : Nat) (session : FoundSession)
    (operation : Operation) (wire : Bytes) (result : Except Exc CoAResult)
    (logged published : Bool) : List CoaEvent :=
  .identifier (nextId identifier) ::
    (requestEvents attempt i session.row.sessionId operation wire result ++
      match result with
      | .error _ => []
      | .ok r =>
        (if logged then .logged (auditRow env session r) ::
          (if endsSession r then [.terminated session.row.sessionId] else []) else []) ++
          if published then [.published r.toDict] else [])

/-- What the events of a call must satisfy, for the requests that are not flagged. -/
structure Acceptable (flag : Flag) (env : Env) (attempt : CoaAttempt)
    (Q : List CoaEvent → Prop) (session : FoundSession) : Prop where
  identifier : ∀ n, Q [.identifier n]
  call : ∀ i identifier operation wire result logged published,
    (∀ r, result = .ok r → r.action = operation.action env) →
    flag session i operation result logged = false →
    Q (callEvents env attempt i identifier session operation wire result logged published)

section Keeps

variable {flag : Flag} {env : Env} {w : World} {attempt : CoaAttempt}
variable {Q : List CoaEvent → Prop}

theorem readResponse_fields {codecs : Codecs} {action now : String} {nasIp : Option String}
    {data : Bytes} {r : CoAResult} (h : readResponse codecs action nasIp now data = .ok r) :
    r.nasIp = nasIp ∧ r.action = action := by
  obtain ⟨response, -, hRest⟩ := Except.ok_of_bind h
  split at hRest
  · cases hRest
    exact ⟨rfl, rfl⟩
  · obtain ⟨_, -, hResult⟩ := Except.ok_of_bind hRest
    cases hResult
    exact ⟨rfl, rfl⟩

/-- A result carries the address of the session and the action of the request. -/
theorem requestResult_fields {i identifier : Nat} {operation : Operation} {session : FoundSession}
    {calling : Option String} {secret : String} {wire : Bytes} {r : CoAResult}
    (h : requestResult env attempt i identifier operation session calling secret =
      .ok (wire, .ok r)) :
    r.nasIp = session.row.nasIp ∧ r.action = operation.action env := by
  obtain ⟨pkt, -, hRest⟩ := Except.ok_of_bind h
  obtain ⟨⟨wire', result⟩, hSend, hPair⟩ := Except.ok_of_bind hRest
  obtain ⟨encoded, -, hSend⟩ := Except.ok_of_bind hSend
  obtain ⟨_, -, hSend⟩ := Except.ok_of_bind hSend
  have hResult := (Prod.mk.inj (Except.ok.inj hSend)).2
  have hMap := (Prod.mk.inj (Except.ok.inj hPair)).2
  cases result with
  | error e => cases hMap
  | ok r' =>
    cases hMap
    change r'.nasIp = session.row.nasIp ∧ r'.action = operation.action env
    cases hAnswer : attempt.answer i with
    | datagram data =>
      rw [hAnswer] at hResult
      exact readResponse_fields hResult
    | timeout =>
      rw [hAnswer] at hResult
      cases hResult
      exact ⟨rfl, rfl⟩
    | osError e =>
      rw [hAnswer] at hResult
      cases hResult
      exact ⟨rfl, rfl⟩
    | unreachable e =>
      rw [hAnswer] at hResult
      cases hResult
      exact ⟨rfl, rfl⟩
    | raises e =>
      rw [hAnswer] at hResult
      cases hResult
    | noEndpoint e =>
      rw [hAnswer] at hResult
      cases hResult

theorem executeCoa_keeps (hNil : Q []) {session : FoundSession}
    (hSession : Acceptable flag env attempt Q session) (action vlanId aclName : PyVal)
    (i identifier : Nat) :
    Keeps Q (executeCoa env w attempt i identifier session action vlanId aclName)
      (sessionSteps flag env w attempt action vlanId aclName i identifier session) := by
  unfold executeCoa sessionSteps
  rw [fetchSecret_eq]
  cases fetchedSecret env w attempt i session.row.nasIp with
  | error e => exact ⟨rfl, fun _ => hNil⟩
  | ok secret =>
    rw [Traced.lift_ok_bind]
    cases operationOf action vlanId aclName with
    | none => exact ⟨rfl, fun _ => hNil⟩
    | some operation =>
      dsimp only
      cases hRequest : requestResult env attempt i identifier operation session
          session.row.callingStationId secret with
      | error e =>
        rw [sendRequest_of_error hRequest]
        exact ⟨rfl, fun _ => hSession.identifier _⟩
      | ok sent =>
        obtain ⟨wire, result⟩ := sent
        rw [sendRequest_of_ok hRequest]
        have hCall := fun logged published => hSession.call i identifier operation wire result
          logged published fun r hr => (requestResult_fields (hr ▸ hRequest)).2
        dsimp only
        unfold requestStep
        cases result with
        | error e =>
          refine ⟨rfl, fun h => ?_⟩
          simpa [callEvents, Traced.bind_of_error] using
            hCall false false (by simpa [Step.anySent] using h)
        | ok r =>
          dsimp only
          rw [Traced.bind_of_ok _ rfl]
          cases hLog : logStatements attempt i r with
          | error e =>
            rw [logCoa_of_error hLog, Traced.bind_of_error _ rfl]
            refine ⟨rfl, fun h => ?_⟩
            simpa [callEvents] using hCall false false (by simpa [Step.anySent] using h)
          | ok u =>
            rw [logCoa_of_ok hLog, Traced.bind_of_ok _ rfl]
            unfold publishResult
            cases attempt.publish i with
            | error e =>
              refine ⟨rfl, fun h => ?_⟩
              simpa [callEvents, Traced.bind_of_error] using
                hCall true false (by simpa [Step.anySent] using h)
            | ok v =>
              refine ⟨rfl, fun h => ?_⟩
              simpa [callEvents, Traced.emit, Traced.lift, Bind.bind, Pure.pure] using
                hCall true true (by simpa [Step.anySent] using h)

/-- The events of an encoded request: it may end before its audit row is committed or its
result is published. -/
theorem executeCoa_events {session : FoundSession} {action vlanId aclName : PyVal}
    {i identifier : Nat} {secret : String} {operation : Operation} {wire : Bytes}
    {result : Except Exc CoAResult}
    (hSecret : fetchedSecret env w attempt i session.row.nasIp = .ok secret)
    (hOperation : operationOf action vlanId aclName = some operation)
    (hRequest : requestResult env attempt i identifier operation session
      session.row.callingStationId secret = .ok (wire, result)) :
    ∃ logged published,
      (executeCoa env w attempt i identifier session action vlanId aclName).events =
        callEvents env attempt i identifier session operation wire result logged published := by
  unfold executeCoa
  rw [fetchSecret_eq, hSecret, Traced.lift_ok_bind, hOperation]
  dsimp only
  rw [sendRequest_of_ok hRequest]
  cases result with
  | error e =>
    rw [Traced.bind_of_error _ rfl]
    exact ⟨false, false, by simp [callEvents]⟩
  | ok r =>
    rw [Traced.bind_of_ok _ rfl]
    cases hLog : logStatements attempt i r with
    | error e =>
      rw [logCoa_of_error hLog, Traced.bind_of_error _ rfl]
      exact ⟨false, false, by simp [callEvents]⟩
    | ok u =>
      rw [logCoa_of_ok hLog, Traced.bind_of_ok _ rfl]
      unfold publishResult
      cases attempt.publish i with
      | error e =>
        rw [Traced.lift_error_bind, Traced.bind_of_error _ rfl]
        exact ⟨true, false, by simp [callEvents, Traced.raise]⟩
      | ok v => exact ⟨true, true, by simp [callEvents, Traced.emit, Traced.lift, Bind.bind, Pure.pure]⟩

theorem sent_mem_callEvents {i identifier : Nat} {session : FoundSession} {operation op : Operation}
    {wire bytes : Bytes} {result : Except Exc CoAResult} {logged published : Bool}
    {sessionId : String} :
    .sent sessionId op bytes ∈
        callEvents env attempt i identifier session operation wire result logged published ↔
      (attempt.answer i).reached = true ∧ sessionId = session.row.sessionId ∧ op = operation ∧
        bytes = wire := by
  unfold callEvents requestEvents
  cases (attempt.answer i).reached <;> cases result with
  | error e => simp
  | ok r =>
    cases hSuccess : r.success <;> cases hEnds : endsSession r <;> cases logged <;>
      cases published <;> simp

/-- The packets of a session: one, once its secret is known and its request encoded. -/
theorem sent_mem_executeCoa {session : FoundSession} {action vlanId aclName : PyVal}
    {i identifier : Nat} {sessionId : String} {op : Operation} {wire : Bytes} :
    .sent sessionId op wire ∈
        (executeCoa env w attempt i identifier session action vlanId aclName).events ↔
      operationOf action vlanId aclName = some op ∧ sessionId = session.row.sessionId ∧
        (attempt.answer i).reached = true ∧ ∃ secret result,
          fetchedSecret env w attempt i session.row.nasIp = .ok secret ∧
          requestResult env attempt i identifier op session session.row.callingStationId secret =
            .ok (wire, result) := by
  cases hSecret : fetchedSecret env w attempt i session.row.nasIp with
  | error e =>
    unfold executeCoa
    rw [fetchSecret_eq, hSecret]
    simp [Traced.raise]
  | ok secret =>
    cases hOperation : operationOf action vlanId aclName with
    | none =>
      unfold executeCoa
      rw [fetchSecret_eq, hSecret, Traced.lift_ok_bind, hOperation]
      simp
    | some operation =>
      cases hRequest : requestResult env attempt i identifier operation session
          session.row.callingStationId secret with
      | error e =>
        unfold executeCoa
        rw [fetchSecret_eq, hSecret, Traced.lift_ok_bind, hOperation]
        dsimp only
        rw [sendRequest_of_error hRequest, Traced.bind_of_error _ rfl]
        constructor
        · intro h
          simp at h
        · rintro ⟨hOp, -, -, secret', result, hSame, hOk⟩
          cases hOp
          cases hSame
          rw [hRequest] at hOk
          cases hOk
      | ok sent =>
        obtain ⟨wire', result⟩ := sent
        obtain ⟨logged, published, hEvents⟩ := executeCoa_events hSecret hOperation hRequest
        rw [hEvents, sent_mem_callEvents]
        constructor
        · rintro ⟨hReached, rfl, rfl, rfl⟩
          exact ⟨rfl, rfl, hReached, secret, result, rfl, hRequest⟩
        · rintro ⟨hOp, rfl, hReached, secret', result', hSame, hOk⟩
          cases hOp
          cases hSame
          rw [hRequest] at hOk
          cases hOk
          exact ⟨hReached, rfl, rfl, rfl⟩

theorem executeCoa_nasIp {session : FoundSession} {action vlanId aclName : PyVal}
    {i identifier : Nat} {r : CoAResult}
    (h : (executeCoa env w attempt i identifier session action vlanId aclName).result = .ok r) :
    r.nasIp = session.row.nasIp := by
  obtain ⟨secret, -, hRest⟩ := Traced.ok_of_bind h
  cases hOperation : operationOf action vlanId aclName with
  | none =>
    rw [hOperation] at hRest
    cases hRest
    rfl
  | some operation =>
    rw [hOperation] at hRest
    obtain ⟨r', hSend, hRest⟩ := Traced.ok_of_bind hRest
    obtain ⟨_, -, hRest⟩ := Traced.ok_of_bind hRest
    obtain ⟨_, -, hRest⟩ := Traced.ok_of_bind hRest
    cases hRest
    cases hRequest : requestResult env attempt i identifier operation session
        session.row.callingStationId secret with
    | error e =>
      rw [sendRequest_of_error hRequest] at hSend
      cases hSend
    | ok sent =>
      obtain ⟨wire, result⟩ := sent
      rw [sendRequest_of_ok hRequest] at hSend
      obtain rfl : result = .ok r := hSend
      exact (requestResult_fields hRequest).1

theorem executeAll_nasIps {action vlanId aclName : PyVal} {i identifier : Nat}
    {ss : List FoundSession} {rs : List CoAResult}
    (h : (executeAll env w attempt action vlanId aclName i identifier ss).result = .ok rs) :
    rs.map CoAResult.nasIp = ss.map fun s => s.row.nasIp := by
  induction ss generalizing i identifier rs with
  | nil =>
    cases h
    rfl
  | cons session rest ih =>
    obtain ⟨r, hHead, hRest⟩ := Traced.ok_of_bind h
    obtain ⟨rs', hTail, hPure⟩ := Traced.ok_of_bind hRest
    cases hPure
    rw [List.map_cons, List.map_cons, executeCoa_nasIp hHead, ih hTail]

theorem mapM_nasIpText (rs : List CoAResult) :
    (∃ ips, rs.mapM nasIpText = .ok ips) ↔ ∀ r ∈ rs, r.nasIp.isSome := by
  induction rs with
  | nil => exact iff_of_true ⟨[], rfl⟩ fun _ h => nomatch h
  | cons r rest ih =>
    rw [List.forall_mem_cons, ← ih, List.mapM_cons]
    cases hIp : r.nasIp with
    | none =>
      have hText : nasIpText r = .error "TypeError" := by rw [nasIpText, hIp]
      rw [hText]
      refine iff_of_false ?_ fun h => nomatch h.1
      rintro ⟨ips, h⟩
      cases h
    | some ip =>
      have hText : nasIpText r = .ok ip := by rw [nasIpText, hIp]
      rw [hText]
      constructor
      · rintro ⟨ips, h⟩
        obtain ⟨_, -, hTail⟩ := Except.ok_of_bind h
        obtain ⟨ips', hRest, -⟩ := Except.ok_of_bind hTail
        exact ⟨rfl, ips', hRest⟩
      · rintro ⟨-, ips, h⟩
        exact ⟨ip :: ips, by rw [h]; rfl⟩

theorem joinNasIps_ok (rs : List CoAResult) :
    (∃ ips, joinNasIps rs = .ok ips) ↔ ∀ r ∈ rs, r.nasIp.isSome := by
  rw [← mapM_nasIpText]
  constructor
  · rintro ⟨ips, h⟩
    obtain ⟨ips', hMapM, -⟩ := Except.ok_of_bind h
    exact ⟨ips', hMapM⟩
  · rintro ⟨ips, h⟩
    exact ⟨", ".intercalate ips, by rw [joinNasIps, h]; rfl⟩

theorem combineResults_keeps (hNil : Q []) {now action : String} {ss : List FoundSession}
    {rs : List CoAResult} (h : rs.map CoAResult.nasIp = ss.map fun s => s.row.nasIp) :
    Keeps Q (Traced.lift (combineResults now action rs) : CoaRun CoAResult) (joinStep ss) := by
  have hSame : (∀ r ∈ rs, r.nasIp.isSome) ↔ (ss.all fun s => s.row.nasIp.isSome) = true := by
    rw [List.all_eq_true, ← List.forall_mem_map (f := CoAResult.nasIp) (P := fun ip => ip.isSome), h,
      List.forall_mem_map]
  unfold joinStep combineResults
  cases hJoin : joinNasIps rs with
  | ok ips =>
    rw [if_pos (hSame.mp ((joinNasIps_ok rs).mp ⟨ips, hJoin⟩))]
    exact ⟨rfl, fun _ => hNil⟩
  | error e =>
    rw [if_neg]
    · exact ⟨rfl, fun _ => hNil⟩
    · intro hAll
      obtain ⟨ips, hOk⟩ := (joinNasIps_ok rs).mpr (hSame.mpr hAll)
      rw [hOk] at hJoin
      cases hJoin

theorem executeAll_keeps (hNil : Q []) (hQ : ∀ a b, Q a → Q b → Q (a ++ b))
    (action vlanId aclName : PyVal) {ss : List FoundSession}
    (hSessions : ∀ s ∈ ss, Acceptable flag env attempt Q s) (i identifier : Nat) :
    Keeps Q (executeAll env w attempt action vlanId aclName i identifier ss)
      (allSteps flag env w attempt action vlanId aclName i identifier ss) := by
  induction ss generalizing i identifier with
  | nil => exact ⟨rfl, fun _ => hNil⟩
  | cons session rest ih =>
    obtain ⟨hSession, hRest⟩ := List.forall_mem_cons.mp hSessions
    refine (executeCoa_keeps hNil hSession action vlanId aclName i identifier).bind hQ fun r _ => ?_
    have hTail := (ih hRest (i + 1)
      (if (operationOf action vlanId aclName).isSome then nextId identifier else identifier)).bind hQ
      (f := fun rs => (pure (r :: rs) : CoaRun (List CoAResult))) (t := [])
      fun _ _ => ⟨rfl, fun _ => hNil⟩
    rwa [List.append_nil] at hTail

theorem coaBySession_keeps (hNil : Q []) (hQ : ∀ a b, Q a → Q b → Q (a ++ b))
    {sessionId mac : PyVal} (action vlanId aclName : PyVal) (notFound : CoAResult)
    (hFound : ∀ s, findActiveSession env w sessionId mac = .ok (some s) →
      Acceptable flag env attempt Q s) :
    Keeps Q (coaBySession env w attempt sessionId mac action vlanId aclName notFound)
      (bySessionSteps flag env w attempt sessionId mac action vlanId aclName) := by
  refine (Traced.keeps_lift hNil attempt.lookup).bind hQ fun _ _ => ?_
  cases hFind : findActiveSession env w sessionId mac with
  | error e => exact ⟨rfl, fun _ => hNil⟩
  | ok found =>
    rw [Traced.lift_ok_bind]
    cases found with
    | none => exact ⟨rfl, fun _ => hNil⟩
    | some s => exact executeCoa_keeps hNil (hFound s hFind) action vlanId aclName 0 w.identifier

theorem coaByUsername_keeps (hNil : Q []) (hQ : ∀ a b, Q a → Q b → Q (a ++ b))
    {username : PyVal} (action vlanId aclName : PyVal)
    (hFound : ∀ s ∈ findActiveSessionsByUser env w username, Acceptable flag env attempt Q s) :
    Keeps Q (coaByUsername env w attempt username action vlanId aclName)
      (byUsernameSteps flag env w attempt username action vlanId aclName) := by
  refine (Traced.keeps_lift hNil attempt.lookup).bind hQ fun _ _ => ?_
  cases hFind : findActiveSessionsByUser env w username with
  | nil => exact ⟨rfl, fun _ => hNil⟩
  | cons s ss =>
    rw [hFind] at hFound
    exact (executeAll_keeps hNil hQ action vlanId aclName hFound 0 w.identifier).bind hQ
      fun rs hResult => combineResults_keeps hNil (executeAll_nasIps hResult)

/-- A call follows its schedule, and if no flagged request is made its events are as `Q`
wants them. -/
theorem handleCoaAction_keeps (hNil : Q []) (hQ : ∀ a b, Q a → Q b → Q (a ++ b))
    {data : Dict PyVal}
    (hFound : ∀ s ∈ matchedSessions env w data, Acceptable flag env attempt Q s) :
    Keeps Q (handleCoaAction env w attempt data) (actionSteps flag env w attempt data) := by
  have hUnit : ∀ {α : Type} {x : CoaRun α} {steps : List Step}, Keeps Q x steps →
      Keeps Q (x >>= fun _ => (pure () : CoaRun Unit)) steps := fun {α x steps} hx => by
    have := hx.bind hQ (f := fun _ => (pure () : CoaRun Unit)) (t := [])
      fun _ _ => ⟨rfl, fun _ => hNil⟩
    rwa [List.append_nil] at this
  unfold matchedSessions at hFound
  unfold handleCoaAction actionSteps
  dsimp only at hFound ⊢
  split
  · rename_i hSid
    rw [if_pos hSid] at hFound
    refine hUnit (coaBySession_keeps hNil hQ _ _ _ _ fun s hs => hFound s ?_)
    rw [hs]
    exact List.mem_singleton_self s
  · rename_i hSid
    rw [if_neg hSid] at hFound
    split
    · rename_i hMac
      rw [if_pos hMac] at hFound
      refine hUnit (coaBySession_keeps hNil hQ _ _ _ _ fun s hs => hFound s ?_)
      rw [hs]
      exact List.mem_singleton_self s
    · rename_i hMac
      rw [if_neg hMac] at hFound
      split
      · rename_i hUser
        rw [if_pos hUser] at hFound
        exact hUnit (coaByUsername_keeps hNil hQ _ _ _ hFound)
      · exact ⟨rfl, fun _ => hNil⟩

end Keeps

/-! ## A table with one session -/

/-- The library functions; the digest is the one of the only packet sent with it. -/
def oneEnv : Env where
  builtins := Policy.plainBuiltins
  codecs := ⟨fun _ => [119, 226, 142, 88, 50, 154, 106, 0, 21, 7, 71, 231, 176, 248, 120, 41], fun _ => ""⟩
  sqlLower := Policy.lowerAscii
  decryptSecret s := .ok (some s)

def oneSession : SessionRow :=
  ⟨"s1", none, some "alice", none, some "10.0.0.1", some 10, "active", 0⟩

def oneWorld : World := ⟨0, ⟨[oneSession], by decide⟩, []⟩

def disconnectAck : Bytes := [41, 1, 0, 20] ++ RadiusPacket.zeroAuthenticator

def acknowledged : CoaAttempt where
  lookup := .ok ()
  secret _ := .ok ()
  answer _ := .datagram disconnectAck
  insertEvent _ := .ok ()
  updateStatus _ := .ok ()
  commit _ := .ok ()
  publish _ := .ok ()
  now := ""

end OpenRadiusWeb.Coa
