import OpenRadiusWeb.Coa.Agreement
import OpenRadiusWeb.Coa.Operations

/-! # The sessions of a user

`coa_by_username` selects sessions by a pattern around the name it is given and joins them with
the devices at their NAS, so it may act on other users, and on one session more than once. Its
loop stops at the first session on which something raises.
-/

namespace OpenRadiusWeb.Coa

open OpenRadiusWeb.Policy (PyVal)

/-- The call by which `_execute_coa` performs an operation on a session. -/
def callOf (operation : Operation) (session : FoundSession) : Call :=
  match operation with
  | .disconnect => .disconnect none none
  | .reauthenticate => .reauthenticate session.vendor
  | .vlanChange vlan => .changeVlan vlan session.vendor
  | .applyAcl acl => .applyAcl acl

def targetOf (session : FoundSession) (secret : String) : CoaTarget :=
  ⟨session.row.nasIp, secret, some session.row.sessionId, session.row.callingStationId⟩

/-- The answers on which `_send_packet` returns. -/
def Answer.Returns : Answer → Prop
  | .datagram data => 20 ≤ data.length ∧ codeOf data ∈ RadiusCode.known
  | .timeout | .osError _ | .unreachable _ => True
  | .raises _ | .noEndpoint _ => False

def Answer.Acknowledges : Answer → Prop
  | .datagram data => 20 ≤ data.length ∧ isAck (codeOf data)
  | _ => False

theorem readAnswer_returns_iff {codecs : Codecs} {action now : String} {nasIp : Option String}
    {answer : Answer} :
    (∃ r, readAnswer codecs action nasIp now answer = .ok r) ↔ answer.Returns := by
  cases answer with
  | datagram data => exact readResponse_iff
  | timeout => exact iff_of_true ⟨_, rfl⟩ trivial
  | osError e => exact iff_of_true ⟨_, rfl⟩ trivial
  | raises e | noEndpoint e =>
    refine iff_of_false ?_ id
    rintro ⟨r, h⟩
    cases h
  | unreachable e => exact iff_of_true ⟨_, rfl⟩ trivial

theorem readAnswer_success_iff {codecs : Codecs} {action now : String} {nasIp : Option String}
    {answer : Answer} {r : CoAResult} (h : readAnswer codecs action nasIp now answer = .ok r) :
    r.success = true ↔ answer.Acknowledges := by
  cases answer with
  | datagram data =>
    constructor
    · exact readResponse_success h
    · rintro ⟨hLength, hAck⟩
      have hOk := @readResponse_of_ack codecs action now nasIp data hLength hAck
      cases hOk.symm.trans h
      rfl
  | raises e => cases h
  | noEndpoint e => cases h
  | _ =>
    cases h
    exact iff_of_false Bool.false_ne_true id

section Request

variable {env : Env} {w : World} {attempt : CoaAttempt} {i identifier : Nat} {operation : Operation}
variable {session : FoundSession} {secret : String}

theorem callOf_request : (callOf operation session).request env identifier (targetOf session secret) =
    buildRequest env (nextId identifier) operation (some session.row.sessionId)
      session.row.callingStationId session.vendor := by
  cases operation <;> rfl

theorem callOf_run : (callOf operation session).run env identifier (targetOf session secret)
    attempt.now (attempt.answer i) =
      operate env (targetOf session secret) attempt.now (attempt.answer i)
        ((callOf operation session).request env identifier (targetOf session secret))
        (operation.action env) := by
  cases operation <;> rfl

/-- The request of the manager is the operation on the session. -/
theorem requestResult_eq_run :
    (requestResult env attempt i identifier operation session session.row.callingStationId secret >>=
      fun sent => sent.2) =
    (callOf operation session).run env identifier (targetOf session secret) attempt.now
      (attempt.answer i) := by
  rw [callOf_run, callOf_request]
  unfold requestResult operate
  cases buildRequest env (nextId identifier) operation (some session.row.sessionId)
      session.row.callingStationId session.vendor with
  | error e => rfl
  | ok pkt =>
    simp only [bind, Except.bind, targetOf]
    cases sendPacket env.codecs pkt secret (operation.action env) session.row.nasIp attempt.now
        (attempt.answer i) with
    | error e => rfl
    | ok sent =>
      obtain ⟨wire, result⟩ := sent
      cases result <;> rfl

/-- A result is an answer that was read, with the session added. -/
theorem answer_of_requestResult {wire : Bytes} {r : CoAResult}
    (h : requestResult env attempt i identifier operation session session.row.callingStationId
      secret = .ok (wire, .ok r)) :
    (callOf operation session).Encodable env (targetOf session secret) ∧
      ∃ action r', readAnswer env.codecs action session.row.nasIp attempt.now (attempt.answer i) = .ok r' ∧
        r'.success = r.success := by
  have hRun := @requestResult_eq_run env attempt i identifier operation session secret
  rw [h] at hRun
  have hEncodable := Call.encodable_of_run hRun.symm
  obtain ⟨action, hAnswer⟩ := Call.run_of_encodable hEncodable identifier attempt.now (attempt.answer i)
  rw [← hRun] at hAnswer
  refine ⟨hEncodable, action, ?_⟩
  cases hRead : readAnswer env.codecs action (targetOf session secret).nasIp attempt.now
      (attempt.answer i) with
  | error e =>
    rw [hRead] at hAnswer
    cases hAnswer
  | ok r' =>
    rw [hRead] at hAnswer
    obtain rfl := Except.ok.inj hAnswer
    exact ⟨r', hRead, rfl⟩

theorem requestResult_ok_iff :
    (∃ wire r, requestResult env attempt i identifier operation session session.row.callingStationId
      secret = .ok (wire, .ok r)) ↔
    (callOf operation session).Encodable env (targetOf session secret) ∧ (attempt.answer i).Returns := by
  constructor
  · rintro ⟨wire, r, h⟩
    obtain ⟨hEncodable, action, r', hRead, -⟩ := answer_of_requestResult h
    exact ⟨hEncodable, readAnswer_returns_iff.mp ⟨r', hRead⟩⟩
  · rintro ⟨hEncodable, hReturns⟩
    obtain ⟨action, hAnswer⟩ := Call.run_of_encodable hEncodable identifier attempt.now (attempt.answer i)
    obtain ⟨r, hRead⟩ := (@readAnswer_returns_iff env.codecs action attempt.now
      (targetOf session secret).nasIp (attempt.answer i)).mpr hReturns
    rw [hRead, ← requestResult_eq_run] at hAnswer
    obtain ⟨⟨wire, result⟩, hRequest, hResult⟩ := Except.ok_of_bind hAnswer
    exact ⟨wire, _, hRequest.trans (congrArg (fun x => Except.ok (wire, x)) hResult)⟩

theorem requestResult_success_iff {wire : Bytes} {r : CoAResult}
    (h : requestResult env attempt i identifier operation session session.row.callingStationId
      secret = .ok (wire, .ok r)) : r.success = true ↔ (attempt.answer i).Acknowledges := by
  obtain ⟨-, action, r', hRead, hSuccess⟩ := answer_of_requestResult h
  rw [← readAnswer_success_iff hRead, hSuccess]

theorem requestResult_session {wire : Bytes} {r : CoAResult}
    (h : requestResult env attempt i identifier operation session session.row.callingStationId
      secret = .ok (wire, .ok r)) : r.sessionId = some session.row.sessionId := by
  obtain ⟨pkt, -, hRest⟩ := Except.ok_of_bind h
  obtain ⟨⟨wire', result⟩, -, hPair⟩ := Except.ok_of_bind hRest
  have hMap := (Prod.mk.inj (Except.ok.inj hPair)).2
  cases result with
  | error e => cases hMap
  | ok r' =>
    cases hMap
    rfl

/-- Nothing raises in the loop's turn for the session at position `i`, and its address can be
joined. -/
structure Completes (env : Env) (w : World) (attempt : CoaAttempt) (operation : Operation) (i : Nat)
    (session : FoundSession) : Prop where
  secret : attempt.secret i = .ok () ∧ ∃ secret, getCoaSecret env w session.row.nasIp = .ok secret
  encodable : (callOf operation session).Encodable env (targetOf session "")
  answered : (attempt.answer i).Returns
  logged : attempt.insertEvent i = .ok () ∧ attempt.commit i = .ok () ∧
    (operation = .disconnect → (attempt.answer i).Acknowledges → attempt.updateStatus i = .ok ())
  published : attempt.publish i = .ok ()

def publishedResult : CoaEvent → Option (Dict PyVal)
  | .published result => some result
  | _ => none

def publishedResults {α : Type} (x : CoaRun α) : List (Dict PyVal) := x.events.filterMap publishedResult

theorem fetchedSecret_ok_iff {nasIp : Option String} :
    (∃ secret, fetchedSecret env w attempt i nasIp = .ok secret) ↔
      attempt.secret i = .ok () ∧ ∃ secret, getCoaSecret env w nasIp = .ok secret := by
  rw [fetchedSecret, Except.exists_ok_bind]
  constructor
  · rintro ⟨_, hQuery, hSecret⟩
    exact ⟨hQuery, hSecret⟩
  · rintro ⟨hQuery, hSecret⟩
    exact ⟨(), hQuery, hSecret⟩

theorem endsSession_iff {r : CoAResult} (hAction : r.action = operation.action env) :
    endsSession r = true ↔ operation = .disconnect ∧ r.success = true := by
  rw [endsSession, Bool.and_eq_true, beq_iff_eq, hAction, and_comm]
  refine and_congr_left fun _ => ⟨Operation.eq_disconnect, ?_⟩
  rintro rfl
  rfl

theorem logStatements_ok_iff {r : CoAResult} (hAction : r.action = operation.action env)
    (hSuccess : r.success = true ↔ (attempt.answer i).Acknowledges) :
    logStatements attempt i r = .ok () ↔ attempt.insertEvent i = .ok () ∧ attempt.commit i = .ok () ∧
      (operation = .disconnect → (attempt.answer i).Acknowledges →
        attempt.updateStatus i = .ok ()) := by
  have hEnds := @endsSession_iff env operation r hAction
  rw [hSuccess] at hEnds
  unfold logStatements
  cases attempt.insertEvent i with
  | error e => exact iff_of_false Except.error_ne_ok fun h => Except.error_ne_ok h.1
  | ok u =>
    by_cases hEnd : endsSession r = true
    · have hBoth := hEnds.mp hEnd
      rw [if_pos hEnd]
      cases attempt.updateStatus i with
      | error e =>
        exact iff_of_false Except.error_ne_ok fun h => Except.error_ne_ok (h.2.2 hBoth.1 hBoth.2)
      | ok v => exact ⟨fun h => ⟨rfl, h, fun _ _ => rfl⟩, fun h => h.2.1⟩
    · have hNot : operation = .disconnect → (attempt.answer i).Acknowledges →
          attempt.updateStatus i = .ok () := fun hDisconnect hAck => absurd (hEnds.mpr ⟨hDisconnect, hAck⟩) hEnd
      rw [if_neg hEnd]
      exact ⟨fun h => ⟨rfl, h, hNot⟩, fun h => h.2.1⟩

theorem executeCoa_of_ok {action vlanId aclName : PyVal} {wire : Bytes} {r : CoAResult}
    (hSecret : fetchedSecret env w attempt i session.row.nasIp = .ok secret)
    (hOperation : operationOf action vlanId aclName = some operation)
    (hRequest : requestResult env attempt i identifier operation session
      session.row.callingStationId secret = .ok (wire, .ok r))
    (hLog : logStatements attempt i r = .ok ()) (hPublish : attempt.publish i = .ok ()) :
    executeCoa env w attempt i identifier session action vlanId aclName =
      ⟨callEvents env attempt i identifier session operation wire (.ok r) true true, .ok r⟩ := by
  unfold executeCoa
  rw [fetchSecret_eq, hSecret, Traced.lift_ok_bind, hOperation]
  dsimp only
  rw [sendRequest_of_ok hRequest, Traced.bind_of_ok _ rfl, logCoa_of_ok hLog, Traced.bind_of_ok _ rfl]
  unfold publishResult
  rw [hPublish]
  simp [callEvents, Traced.emit, Traced.lift, Bind.bind, Pure.pure]

theorem executeCoa_inv {action vlanId aclName : PyVal} {r : CoAResult}
    (hOperation : operationOf action vlanId aclName = some operation)
    (h : (executeCoa env w attempt i identifier session action vlanId aclName).result = .ok r) :
    ∃ secret wire, fetchedSecret env w attempt i session.row.nasIp = .ok secret ∧
      requestResult env attempt i identifier operation session session.row.callingStationId secret =
        .ok (wire, .ok r) ∧
      logStatements attempt i r = .ok () ∧ attempt.publish i = .ok () := by
  unfold executeCoa at h
  rw [fetchSecret_eq] at h
  obtain ⟨secret, hSecret, h⟩ := Traced.ok_of_bind h
  rw [hOperation] at h
  obtain ⟨r', hSend, h⟩ := Traced.ok_of_bind h
  obtain ⟨_, hLog, h⟩ := Traced.ok_of_bind h
  obtain ⟨_, hPublish, h⟩ := Traced.ok_of_bind h
  cases h
  cases hRequest : requestResult env attempt i identifier operation session
      session.row.callingStationId secret with
  | error e =>
    rw [sendRequest_of_error hRequest] at hSend
    cases hSend
  | ok sent =>
    obtain ⟨wire, result⟩ := sent
    rw [sendRequest_of_ok hRequest] at hSend
    obtain rfl : result = .ok r := hSend
    refine ⟨secret, wire, hSecret, hRequest, ?_, ?_⟩
    · cases hStatements : logStatements attempt i r with
      | ok u => rfl
      | error e =>
        rw [logCoa_of_error hStatements] at hLog
        cases hLog
    · cases hAnswer : attempt.publish i with
      | ok u => rfl
      | error e =>
        unfold publishResult at hPublish
        rw [hAnswer] at hPublish
        cases hPublish

/-- The turn of a session returns exactly when nothing in it raises. -/
theorem executeCoa_ok_iff {action vlanId aclName : PyVal}
    (hOperation : operationOf action vlanId aclName = some operation) :
    (∃ r, (executeCoa env w attempt i identifier session action vlanId aclName).result = .ok r) ↔
      Completes env w attempt operation i session := by
  constructor
  · rintro ⟨r, h⟩
    obtain ⟨secret, wire, hSecret, hRequest, hLog, hPublish⟩ := executeCoa_inv hOperation h
    obtain ⟨hEncodable, hReturns⟩ := requestResult_ok_iff.mp ⟨wire, r, hRequest⟩
    exact ⟨fetchedSecret_ok_iff.mp ⟨secret, hSecret⟩, hEncodable, hReturns,
      (logStatements_ok_iff (requestResult_fields hRequest).2
        (requestResult_success_iff hRequest)).mp hLog, hPublish⟩
  · rintro ⟨hSecret, hEncodable, hReturns, hLog, hPublish⟩
    obtain ⟨secret, hFetched⟩ := fetchedSecret_ok_iff.mpr hSecret
    obtain ⟨wire, r, hRequest⟩ := (@requestResult_ok_iff env attempt i identifier operation session
      secret).mpr ⟨hEncodable, hReturns⟩
    have hStatements := (logStatements_ok_iff (requestResult_fields hRequest).2
      (requestResult_success_iff hRequest)).mpr hLog
    rw [executeCoa_of_ok hFetched hOperation hRequest hStatements hPublish]
    exact ⟨r, rfl⟩

theorem executeCoa_published {action vlanId aclName : PyVal} {r : CoAResult}
    (hOperation : operationOf action vlanId aclName = some operation)
    (h : (executeCoa env w attempt i identifier session action vlanId aclName).result = .ok r) :
    publishedResults (executeCoa env w attempt i identifier session action vlanId aclName) =
      [r.toDict] ∧ r.sessionId = some session.row.sessionId := by
  obtain ⟨secret, wire, hSecret, hRequest, hLog, hPublish⟩ := executeCoa_inv hOperation h
  refine ⟨?_, requestResult_session hRequest⟩
  rw [executeCoa_of_ok hSecret hOperation hRequest hLog hPublish]
  unfold publishedResults callEvents requestEvents
  cases (attempt.answer i).reached <;> cases hSuccess : r.success <;>
    cases hEnds : endsSession r <;> simp [List.filterMap_cons, publishedResult, hSuccess, hEnds]

end Request

/-! ## The loop over the sessions -/

section Loop

variable {env : Env} {w : World} {attempt : CoaAttempt} {operation : Operation}
variable {action vlanId aclName : PyVal}

theorem publishedResults_bind {α β : Type} {x : CoaRun α} {f : α → CoaRun β} {a : α}
    (h : x.result = .ok a) : publishedResults (x >>= f) = publishedResults x ++ publishedResults (f a) := by
  unfold publishedResults
  rw [Traced.bind_of_ok f h, List.filterMap_append]

theorem executeAll_ok_iff (hOperation : operationOf action vlanId aclName = some operation)
    {i identifier : Nat} {ss : List FoundSession} :
    (∃ rs, (executeAll env w attempt action vlanId aclName i identifier ss).result = .ok rs) ↔
      ∀ j s, ss[j]? = some s → Completes env w attempt operation (i + j) s := by
  induction ss generalizing i identifier with
  | nil =>
    refine iff_of_true ⟨[], rfl⟩ fun j s hj => ?_
    cases hj
  | cons session rest ih =>
    have hCons : (∀ j s, (session :: rest)[j]? = some s → Completes env w attempt operation (i + j) s) ↔
        Completes env w attempt operation i session ∧
          ∀ j s, rest[j]? = some s → Completes env w attempt operation (i + 1 + j) s := by
      constructor
      · intro h
        refine ⟨h 0 session rfl, fun j s hj => ?_⟩
        have := h (j + 1) s hj
        rwa [← Nat.add_assoc, Nat.add_right_comm] at this
      · rintro ⟨hHead, hRest⟩ j s hj
        cases j with
        | zero =>
          cases hj
          exact hHead
        | succ j =>
          have := hRest j s hj
          rwa [Nat.add_right_comm] at this
    rw [hCons, ← @executeCoa_ok_iff env w attempt i identifier operation session action vlanId aclName
      hOperation]
    constructor
    · rintro ⟨rs, h⟩
      obtain ⟨r, hHead, h⟩ := Traced.ok_of_bind h
      obtain ⟨rs', hTail, -⟩ := Traced.ok_of_bind h
      exact ⟨⟨r, hHead⟩, ih.mp ⟨rs', hTail⟩⟩
    · rintro ⟨⟨r, hHead⟩, hRest⟩
      obtain ⟨rs, hTail⟩ := ih.mpr hRest
      refine ⟨r :: rs, ?_⟩
      rw [executeAll, Traced.bind_of_ok _ hHead]
      dsimp only
      rw [Traced.bind_of_ok _ hTail]
      rfl

/-- The results of the loop are what it publishes, one for each session in turn. -/
theorem executeAll_published (hOperation : operationOf action vlanId aclName = some operation)
    {i identifier : Nat} {ss : List FoundSession} {rs : List CoAResult}
    (h : (executeAll env w attempt action vlanId aclName i identifier ss).result = .ok rs) :
    publishedResults (executeAll env w attempt action vlanId aclName i identifier ss) =
        rs.map CoAResult.toDict ∧
      rs.map CoAResult.sessionId = ss.map fun s => some s.row.sessionId := by
  induction ss generalizing i identifier rs with
  | nil =>
    cases h
    exact ⟨rfl, rfl⟩
  | cons session rest ih =>
    obtain ⟨r, hHead, hRest⟩ := Traced.ok_of_bind h
    obtain ⟨rs', hTail, hPure⟩ := Traced.ok_of_bind hRest
    cases hPure
    obtain ⟨hPublished, hSession⟩ := executeCoa_published hOperation hHead
    obtain ⟨hPublishedRest, hSessions⟩ := ih hTail
    rw [executeAll, publishedResults_bind hHead, publishedResults_bind hTail, hPublished,
      hPublishedRest, List.map_cons, List.map_cons, List.map_cons, hSession, hSessions]
    exact ⟨congrArg (r.toDict :: ·) (List.append_nil _), rfl⟩

theorem sent_mem_executeAll {i identifier : Nat} {ss : List FoundSession} {sessionId : String}
    {op : Operation} {wire : Bytes}
    (h : .sent sessionId op wire ∈
      (executeAll env w attempt action vlanId aclName i identifier ss).events) :
    ∃ s ∈ ss, s.row.sessionId = sessionId := by
  induction ss generalizing i identifier with
  | nil => cases h
  | cons session rest ih =>
    obtain hHead | ⟨r, -, hTail⟩ := Traced.mem_events_bind h
    · obtain ⟨-, hId, -⟩ := sent_mem_executeCoa.mp hHead
      exact ⟨session, List.mem_cons_self, hId.symm⟩
    · obtain hRest | ⟨rs, -, hPure⟩ := Traced.mem_events_bind hTail
      · obtain ⟨s, hs, hId⟩ := ih hRest
        exact ⟨s, List.mem_cons_of_mem session hs, hId⟩
      · cases hPure

end Loop

/-! ## Which sessions are found -/

section Selection

variable (env : Env) (w : World) (username : String)

/-- An active session whose user name is the given one, ignoring case. -/
def SameUser (row : SessionRow) : Prop :=
  row.status = "active" ∧ ∃ name, row.username = some name ∧ env.sqlLower name = env.sqlLower username

/-- An active session whose user name is like the pattern around the given name. -/
def Selected (row : SessionRow) : Prop :=
  row.status = "active" ∧ ∃ name, row.username = some name ∧
    Text.like (env.sqlLower ("%" ++ username ++ "%")).toList (env.sqlLower name).toList = true

def devicesAt (row : SessionRow) : List NetworkDeviceRow :=
  w.devices.filter fun d => row.nasIp = some d.ipAddress

/-- The pattern finds the sessions of the user and no others, and none of them at several
devices. -/
structure ExactSelection : Prop where
  selected : ∀ row ∈ w.sessions.rows, Selected env username row ↔ SameUser env username row
  single : ∀ row ∈ w.sessions.rows, SameUser env username row → (devicesAt w row).length ≤ 1

variable {env w username}

/-- The rows of a session in the join. -/
def copies (w : World) (row : SessionRow) : List FoundSession :=
  match devicesAt w row with
  | [] => [⟨row, none⟩]
  | ds => ds.map fun d => ⟨row, d.vendor⟩

theorem copies_row {row : SessionRow} {s : FoundSession} (h : s ∈ copies w row) : s.row = row := by
  unfold copies at h
  split at h
  · rw [List.mem_singleton.mp h]
  · obtain ⟨d, -, rfl⟩ := List.mem_map.mp h
    rfl

theorem length_copies (row : SessionRow) : (copies w row).length = max 1 (devicesAt w row).length := by
  unfold copies
  split
  · rename_i hNone
    rw [hNone]
    rfl
  · rename_i ds hSome
    rw [List.length_map]
    cases hList : devicesAt w row with
    | nil => exact absurd hList hSome
    | cons d ds => exact (Nat.max_eq_right (Nat.le_add_left 1 ds.length)).symm

theorem isSelected_iff {s : FoundSession} :
    ((match s.row.username with
      | some name => Text.like (env.sqlLower ("%" ++ username ++ "%")).toList (env.sqlLower name).toList
      | none => false) && isActive s) = true ↔ Selected env username s.row := by
  rw [Bool.and_eq_true, isActive, decide_eq_true_eq, and_comm, Selected]
  refine and_congr_right fun _ => ?_
  cases s.row.username with
  | none =>
    refine iff_of_false Bool.false_ne_true ?_
    rintro ⟨name, hName, -⟩
    cases hName
  | some name =>
    constructor
    · exact fun h => ⟨name, rfl, h⟩
    · rintro ⟨name', hName, h⟩
      cases hName
      exact h

/-- A flattened list has as many elements of a block as the block has, if each block has its own
key. -/
theorem count_flatMap_of_nodup {rows : List SessionRow} {g : SessionRow → List String}
    (hNodup : (rows.map SessionRow.sessionId).Nodup)
    (hKey : ∀ row ∈ rows, ∀ id ∈ g row, id = row.sessionId) {row : SessionRow} (h : row ∈ rows) :
    (rows.flatMap g).count row.sessionId = (g row).count row.sessionId := by
  induction rows with
  | nil => cases h
  | cons r rows ih =>
    rw [List.map_cons, List.nodup_cons] at hNodup
    obtain ⟨hHead, hTail⟩ := List.forall_mem_cons.mp hKey
    rw [List.flatMap_cons, List.count_append]
    obtain rfl | hMem := List.mem_cons.mp h
    · have hRest : (rows.flatMap g).count row.sessionId = 0 := by
        refine List.count_eq_zero.mpr fun hIn => hNodup.1 ?_
        obtain ⟨r', hr', hId⟩ := List.mem_flatMap.mp hIn
        rw [hTail r' hr' _ hId]
        exact List.mem_map_of_mem hr'
      rw [hRest, Nat.add_zero]
    · have hNone : (g r).count row.sessionId = 0 := by
        refine List.count_eq_zero.mpr fun hIn => hNodup.1 ?_
        rw [← hHead _ hIn]
        exact List.mem_map_of_mem hMem
      rw [hNone, Nat.zero_add, ih hNodup.2 hTail hMem]

/-- How often a session of the table is found. -/
theorem count_found {row : SessionRow} (h : row ∈ w.sessions.rows) :
    (Selected env username row →
      ((findActiveSessionsByUser env w (.str username)).map fun s => s.row.sessionId).count
        row.sessionId = max 1 (devicesAt w row).length) ∧
    (¬Selected env username row →
      ((findActiveSessionsByUser env w (.str username)).map fun s => s.row.sessionId).count
        row.sessionId = 0) := by
  have hJoined : w.joined = w.sessions.rows.flatMap (copies w) := rfl
  have hFound : (findActiveSessionsByUser env w (.str username)).map (fun s => s.row.sessionId) =
      w.sessions.rows.flatMap fun row =>
        ((copies w row).filter fun s => (match s.row.username with
          | some name => Text.like (env.sqlLower ("%" ++ username ++ "%")).toList
            (env.sqlLower name).toList
          | none => false) && isActive s).map fun s => s.row.sessionId := by
    rw [← List.map_flatMap, ← List.filter_flatMap, ← hJoined]
    rfl
  rw [hFound, count_flatMap_of_nodup w.sessions.unique _ h]
  · constructor
    · intro hSelected
      rw [List.filter_eq_self.mpr, ← length_copies, ← List.length_map (fun s => s.row.sessionId),
        List.count_eq_length]
      · intro id hId
        obtain ⟨s, hs, rfl⟩ := List.mem_map.mp hId
        rw [copies_row hs]
      · intro s hs
        exact isSelected_iff.mpr (by rwa [copies_row hs])
    · intro hNot
      rw [List.filter_eq_nil_iff.mpr]
      · rfl
      · intro s hs hSelected
        exact hNot (copies_row hs ▸ isSelected_iff.mp hSelected)
  · intro row _ id hId
    obtain ⟨s, hs, rfl⟩ := List.mem_map.mp hId
    rw [copies_row (List.mem_filter.mp hs).1]

end Selection

/-! ## Acting on a user -/

def reportedSession (result : Dict PyVal) : Option String :=
  match result.get? "session_id" with
  | some (.str sessionId) => some sessionId
  | _ => none

/-- The sessions whose results a call has published. -/
def reportedSessions {α : Type} (x : CoaRun α) : List String :=
  (publishedResults x).filterMap reportedSession

/-- The call publishes one result for each active session of the user and none for another one,
sends no packet for another one, and returns a result that is a success exactly if all published
ones are. -/
structure ActsOnUser (env : Env) (w : World) (username : String) (run : CoaRun CoAResult) : Prop where
  once : ∀ row ∈ w.sessions.rows,
    (SameUser env username row → (reportedSessions run).count row.sessionId = 1) ∧
    (¬SameUser env username row → (reportedSessions run).count row.sessionId = 0)
  sent : ∀ sessionId operation wire, .sent sessionId operation wire ∈ run.events →
    ∃ row ∈ w.sessions.rows, row.sessionId = sessionId ∧ SameUser env username row
  combined : ∃ r, run.result = .ok r ∧
    (r.success = true ↔ ∀ result ∈ publishedResults run, result.get? "success" = some (.bool true))

section Acts

variable {env : Env} {w : World} {attempt : CoaAttempt} {operation : Operation} {username : String}
variable {action vlanId aclName : PyVal}

theorem combineResults_success {now action : String} {rs : List CoAResult} {r : CoAResult}
    (h : combineResults now action rs = .ok r) : r.success = true ↔ ∀ x ∈ rs, x.success = true := by
  obtain ⟨ips, -, hPure⟩ := Except.ok_of_bind h
  cases hPure
  have hCount : (rs.countP fun r => !r.success) = 0 ↔ ∀ x ∈ rs, x.success = true := by
    rw [List.countP_eq_zero]
    simp
  rw [← hCount]
  exact decide_eq_true_iff

theorem reportedSession_toDict {r : CoAResult} {sessionId : String} (h : r.sessionId = some sessionId) :
    reportedSession r.toDict = some sessionId := by
  have hGet : Dict.get? r.toDict "session_id" = some (optText r.sessionId) := rfl
  rw [reportedSession, hGet, h]
  rfl

theorem success_toDict (r : CoAResult) : Dict.get? r.toDict "success" = some (.bool r.success) := rfl

theorem coaByUsername_of_lookup (hLookup : attempt.lookup = .ok ()) :
    coaByUsername env w attempt (.str username) action vlanId aclName =
      match findActiveSessionsByUser env w (.str username) with
      | [] => pure { CoAResult.basic false (action.toStr env.builtins) (some "") attempt.now with
          errorMessage := some ("No active sessions found for user " ++ username) }
      | s :: ss => executeAll env w attempt action vlanId aclName 0 w.identifier (s :: ss) >>=
          fun rs => Traced.lift (combineResults attempt.now (action.toStr env.builtins) rs) := by
  unfold coaByUsername
  rw [hLookup, Traced.lift_ok_bind]
  rfl

theorem forall_nasIp {ss : List FoundSession} {rs : List CoAResult}
    (h : rs.map CoAResult.nasIp = ss.map fun s => s.row.nasIp) :
    (∀ r ∈ rs, r.nasIp.isSome) ↔ ∀ s ∈ ss, s.row.nasIp.isSome := by
  have hMap := @List.forall_mem_map _ _ CoAResult.nasIp rs (fun ip => ip.isSome)
  rw [← hMap, h, List.forall_mem_map]

theorem combineResults_ok_iff {now action : String} {rs : List CoAResult} :
    (∃ r, combineResults now action rs = .ok r) ↔ ∀ r ∈ rs, r.nasIp.isSome := by
  rw [combineResults, Except.exists_ok_bind_pure, joinNasIps_ok]

theorem sessions_of_results {ss : List FoundSession} {rs : List CoAResult}
    (h : rs.map CoAResult.sessionId = ss.map fun s => some s.row.sessionId) :
    (rs.map CoAResult.toDict).filterMap reportedSession = ss.map fun s => s.row.sessionId := by
  induction ss generalizing rs with
  | nil => rw [List.map_eq_nil_iff.mp h]; rfl
  | cons s ss ih =>
    cases rs with
    | nil => cases h
    | cons r rs =>
      rw [List.map_cons, List.map_cons, List.cons.injEq] at h
      rw [List.map_cons, List.filterMap_cons, reportedSession_toDict h.1, ih h.2, List.map_cons]

/-- A call that returns has completed the turns of all sessions it found and published their
results. -/
theorem coaByUsername_inv (hOperation : operationOf action vlanId aclName = some operation)
    {r : CoAResult}
    (h : (coaByUsername env w attempt (.str username) action vlanId aclName).result = .ok r) :
    attempt.lookup = .ok () ∧
    (∀ j s, (findActiveSessionsByUser env w (.str username))[j]? = some s →
      Completes env w attempt operation j s ∧ s.row.nasIp.isSome) ∧
    reportedSessions (coaByUsername env w attempt (.str username) action vlanId aclName) =
      (findActiveSessionsByUser env w (.str username)).map (fun s => s.row.sessionId) ∧
    (r.success = true ↔ findActiveSessionsByUser env w (.str username) ≠ [] ∧
      ∀ result ∈ publishedResults (coaByUsername env w attempt (.str username) action vlanId aclName),
        result.get? "success" = some (.bool true)) := by
  obtain ⟨_, hLookup, -⟩ := Traced.ok_of_bind h
  refine ⟨hLookup, ?_⟩
  rw [coaByUsername_of_lookup hLookup] at h ⊢
  cases hFind : findActiveSessionsByUser env w (.str username) with
  | nil =>
    rw [hFind] at h
    cases h
    exact ⟨nofun, rfl, iff_of_false nofun fun hSome => hSome.1 rfl⟩
  | cons s ss =>
    rw [hFind] at h
    dsimp only at h ⊢
    obtain ⟨rs, hAll, hCombine⟩ := Traced.ok_of_bind h
    obtain ⟨hPublished, hSessions⟩ := executeAll_published hOperation hAll
    have hTurns := (executeAll_ok_iff hOperation).mp ⟨rs, hAll⟩
    have hIps := (forall_nasIp (executeAll_nasIps hAll)).mp (combineResults_ok_iff.mp ⟨r, hCombine⟩)
    have hEvents : publishedResults (executeAll env w attempt action vlanId aclName 0 w.identifier
        (s :: ss) >>= fun rs => Traced.lift (combineResults attempt.now (action.toStr env.builtins) rs)) =
          rs.map CoAResult.toDict := by
      rw [← hPublished]
      exact congrArg (List.filterMap publishedResult) Traced.lift_bind_events
    refine ⟨fun j s' hj => ⟨?_, hIps s' (List.mem_of_getElem? hj)⟩, ?_, ?_⟩
    · have hTurn := hTurns j s' hj
      rwa [Nat.zero_add] at hTurn
    · rw [reportedSessions, hEvents, sessions_of_results hSessions]
    · rw [hEvents, combineResults_success hCombine, List.forall_mem_map,
        and_iff_right (List.cons_ne_nil s ss)]
      refine forall₂_congr fun r _ => ?_
      rw [success_toDict, Option.some.injEq, PyVal.bool.injEq]

theorem coaByUsername_returns (hOperation : operationOf action vlanId aclName = some operation)
    (hLookup : attempt.lookup = .ok ())
    (hTurns : ∀ j s, (findActiveSessionsByUser env w (.str username))[j]? = some s →
      Completes env w attempt operation j s ∧ s.row.nasIp.isSome) :
    ∃ r, (coaByUsername env w attempt (.str username) action vlanId aclName).result = .ok r := by
  rw [coaByUsername_of_lookup hLookup]
  cases hFind : findActiveSessionsByUser env w (.str username) with
  | nil => exact ⟨_, rfl⟩
  | cons s ss =>
    rw [hFind] at hTurns
    obtain ⟨rs, hAll⟩ := (@executeAll_ok_iff env w attempt operation action vlanId aclName hOperation 0
      w.identifier (s :: ss)).mpr fun j s' hj => by
        rw [Nat.zero_add]
        exact (hTurns j s' hj).1
    have hIps : ∀ s' ∈ s :: ss, s'.row.nasIp.isSome := by
      intro s' hMem
      obtain ⟨j, hj⟩ := List.getElem?_of_mem hMem
      exact (hTurns j s' hj).2
    obtain ⟨r, hCombine⟩ := (@combineResults_ok_iff attempt.now (action.toStr env.builtins) rs).mpr
      ((forall_nasIp (executeAll_nasIps hAll)).mpr hIps)
    refine ⟨r, ?_⟩
    dsimp only
    rw [Traced.bind_of_ok _ hAll, hCombine]
    rfl

theorem sent_mem_coaByUsername {sessionId : String} {op : Operation} {wire : Bytes}
    (h : .sent sessionId op wire ∈
      (coaByUsername env w attempt (.str username) action vlanId aclName).events) :
    ∃ s ∈ findActiveSessionsByUser env w (.str username), s.row.sessionId = sessionId := by
  obtain hNone | ⟨_, hLookup, -⟩ := Traced.mem_events_bind h
  · cases hNone
  · rw [coaByUsername_of_lookup hLookup] at h
    cases hFind : findActiveSessionsByUser env w (.str username) with
    | nil =>
      rw [hFind] at h
      cases h
    | cons s ss =>
      rw [hFind] at h
      obtain hAll | ⟨rs, -, hNone⟩ := Traced.mem_events_bind h
      · exact sent_mem_executeAll hAll
      · cases hNone

theorem found_iff {row : SessionRow} (h : row ∈ w.sessions.rows) :
    row.sessionId ∈ (findActiveSessionsByUser env w (.str username)).map (fun s => s.row.sessionId) ↔
      Selected env username row := by
  rw [← List.count_pos_iff]
  obtain ⟨hSelected, hNot⟩ := @count_found env w username row h
  by_cases hRow : Selected env username row
  · have hCount := hSelected hRow
    exact iff_of_true (by omega) hRow
  · have hCount := hNot hRow
    exact iff_of_false (by omega) hRow

/-- Each session is found once if it is the user's, and else never, exactly when the selection is
exact. -/
theorem exactSelection_iff : ExactSelection env w username ↔ ∀ row ∈ w.sessions.rows,
    (SameUser env username row →
      ((findActiveSessionsByUser env w (.str username)).map fun s => s.row.sessionId).count
        row.sessionId = 1) ∧
    (¬SameUser env username row →
      ((findActiveSessionsByUser env w (.str username)).map fun s => s.row.sessionId).count
        row.sessionId = 0) := by
  constructor
  · rintro ⟨hExact, hSingle⟩ row hRow
    obtain ⟨hSelected, hNot⟩ := @count_found env w username row hRow
    constructor
    · intro hSame
      have hLength := hSingle row hRow hSame
      have hCount := hSelected ((hExact row hRow).mpr hSame)
      omega
    · intro hOther
      exact hNot fun h => hOther ((hExact row hRow).mp h)
  · intro hCounts
    constructor
    · intro row hRow
      obtain ⟨hOne, hZero⟩ := hCounts row hRow
      rw [← found_iff hRow, ← List.count_pos_iff]
      constructor
      · intro hPos
        by_contra hOther
        have hNone := hZero hOther
        omega
      · intro hSame
        have hCount := hOne hSame
        omega
    · intro row hRow hSame
      have hCount := (hCounts row hRow).1 hSame
      have hSelected : Selected env username row := by
        rw [← found_iff hRow, ← List.count_pos_iff]
        omega
      have hMax := (@count_found env w username row hRow).1 hSelected
      omega

theorem row_of_found {s : FoundSession} (h : s ∈ findActiveSessionsByUser env w (.str username)) :
    s.row ∈ w.sessions.rows := by
  obtain ⟨row, hRow, hCopy⟩ := List.mem_flatMap.mp (List.mem_filter.mp h).1
  exact copies_row hCopy ▸ hRow

theorem found_ne_nil_iff (hExact : ExactSelection env w username) :
    findActiveSessionsByUser env w (.str username) ≠ [] ↔
      ∃ row ∈ w.sessions.rows, SameUser env username row := by
  constructor
  · intro hSome
    obtain ⟨s, hs⟩ := List.exists_mem_of_ne_nil _ hSome
    have hRow := row_of_found hs
    exact ⟨s.row, hRow, (hExact.selected _ hRow).mp ((found_iff hRow).mp (List.mem_map_of_mem hs))⟩
  · rintro ⟨row, hRow, hSame⟩ hNone
    have hMem := (found_iff hRow).mpr ((hExact.selected row hRow).mpr hSame)
    rw [hNone] at hMem
    cases hMem

theorem acts_of_operation_iff (hOperation : operationOf action vlanId aclName = some operation) :
    ActsOnUser env w username
        (coaByUsername env w attempt (.str username) action vlanId aclName) ↔
      attempt.lookup = .ok () ∧ ExactSelection env w username ∧
        (∃ row ∈ w.sessions.rows, SameUser env username row) ∧
        ∀ j s, (findActiveSessionsByUser env w (.str username))[j]? = some s →
          Completes env w attempt operation j s ∧ s.row.nasIp.isSome := by
  constructor
  · rintro ⟨hOnce, -, r, hResult, hSuccess⟩
    obtain ⟨hLookup, hTurns, hReported, hCombined⟩ := coaByUsername_inv hOperation hResult
    rw [hReported] at hOnce
    have hExact := exactSelection_iff.mpr hOnce
    refine ⟨hLookup, hExact, ?_, hTurns⟩
    rw [← found_ne_nil_iff hExact]
    rw [hSuccess] at hCombined
    intro hNone
    have hNoResults : publishedResults
        (coaByUsername env w attempt (.str username) action vlanId aclName) = [] := by
      rw [coaByUsername_of_lookup hLookup, hNone]
      rfl
    exact (hCombined.mp (by rw [hNoResults]; nofun)).1 hNone
  · rintro ⟨hLookup, hExact, hSome, hTurns⟩
    obtain ⟨r, hResult⟩ := coaByUsername_returns hOperation hLookup hTurns
    obtain ⟨-, -, hReported, hCombined⟩ := coaByUsername_inv hOperation hResult
    refine ⟨?_, ?_, r, hResult, ?_⟩
    · rw [hReported]
      exact exactSelection_iff.mp hExact
    · intro sessionId op wire hSent
      obtain ⟨s, hs, hId⟩ := sent_mem_coaByUsername hSent
      have hRow := row_of_found hs
      exact ⟨s.row, hRow, hId, (hExact.selected _ hRow).mp ((found_iff hRow).mp (List.mem_map_of_mem hs))⟩
    · rw [hCombined, and_iff_right ((found_ne_nil_iff hExact).mpr hSome)]

/-- An action that names no operation is a failure on every session, and none is acted on. -/
theorem executeAll_of_unknown (hUnknown : operationOf action vlanId aclName = none) {i identifier : Nat}
    {ss : List FoundSession} :
    (executeAll env w attempt action vlanId aclName i identifier ss).events = [] ∧
      ∀ rs, (executeAll env w attempt action vlanId aclName i identifier ss).result = .ok rs →
        rs.length = ss.length ∧ ∀ r ∈ rs, r.success = false := by
  induction ss generalizing i identifier with
  | nil =>
    refine ⟨rfl, fun rs h => ?_⟩
    cases h
    exact ⟨rfl, nofun⟩
  | cons session rest ih =>
    have hTurn : executeCoa env w attempt i identifier session action vlanId aclName =
        Traced.lift (fetchedSecret env w attempt i session.row.nasIp) >>= fun _ =>
          pure { CoAResult.basic false (action.toStr env.builtins) session.row.nasIp attempt.now with
            errorMessage := some ("Unknown action '" ++ action.toStr env.builtins ++
              "' or missing parameters") } := by
      unfold executeCoa
      rw [fetchSecret_eq, hUnknown]
    rw [executeAll, hTurn]
    cases fetchedSecret env w attempt i session.row.nasIp with
    | error e => exact ⟨rfl, nofun⟩
    | ok secret =>
      obtain ⟨hEvents, hResults⟩ := @ih (i + 1) (if (operationOf action vlanId aclName).isSome = true
        then nextId identifier else identifier)
      rw [Traced.lift_ok_bind, Traced.bind_of_ok _ rfl]
      constructor
      · refine (List.nil_append _).trans ?_
        exact (Traced.lift_bind_events (y := fun rs => .ok (_ :: rs))).trans hEvents
      · intro rs h
        obtain ⟨rs', hRest, hPure⟩ := Traced.ok_of_bind h
        cases hPure
        obtain ⟨hLength, hFailed⟩ := hResults rs' hRest
        exact ⟨congrArg Nat.succ hLength, List.forall_mem_cons.mpr ⟨rfl, hFailed⟩⟩

theorem not_acts_of_unknown (hUnknown : operationOf action vlanId aclName = none) :
    ¬ActsOnUser env w username
      (coaByUsername env w attempt (.str username) action vlanId aclName) := by
  rintro ⟨-, -, r, hResult, hSuccess⟩
  obtain ⟨_, hLookup, -⟩ := Traced.ok_of_bind hResult
  rw [coaByUsername_of_lookup hLookup] at hResult hSuccess
  cases hFind : findActiveSessionsByUser env w (.str username) with
  | nil =>
    rw [hFind] at hResult hSuccess
    cases hResult
    exact Bool.false_ne_true (hSuccess.mpr nofun)
  | cons s ss =>
    rw [hFind] at hResult hSuccess
    dsimp only at hResult hSuccess
    obtain ⟨rs, hAll, hCombine⟩ := Traced.ok_of_bind hResult
    obtain ⟨hEvents, hResults⟩ := @executeAll_of_unknown env w attempt action vlanId aclName hUnknown 0
      w.identifier (s :: ss)
    obtain ⟨hLength, hFailed⟩ := hResults rs hAll
    rw [combineResults_success hCombine] at hSuccess
    rw [publishedResults, Traced.lift_bind_events, hEvents] at hSuccess
    obtain ⟨r', hr'⟩ := List.exists_mem_of_length_pos ((Nat.succ_pos ss.length).trans_eq hLength.symm)
    exact Bool.false_ne_true ((hFailed r' hr').symm.trans (hSuccess.mpr nofun r' hr'))

/-- A call acts on the user's sessions exactly when there are some, the pattern selects these, each
once, the action names an operation, and nothing raises on the way through them. -/
theorem coaByUsername_acts_iff (env : Env) (w : World) (attempt : CoaAttempt) (username : String)
    (action vlanId aclName : PyVal) :
    ActsOnUser env w username
        (coaByUsername env w attempt (.str username) action vlanId aclName) ↔
      attempt.lookup = .ok () ∧ ExactSelection env w username ∧
        (∃ row ∈ w.sessions.rows, SameUser env username row) ∧
        ∃ operation, operationOf action vlanId aclName = some operation ∧
          ∀ j s, (findActiveSessionsByUser env w (.str username))[j]? = some s →
            Completes env w attempt operation j s ∧ s.row.nasIp.isSome := by
  cases hOperation : operationOf action vlanId aclName with
  | none => exact iff_of_false (not_acts_of_unknown hOperation) fun ⟨_, _, _, _, h, _⟩ => nomatch h
  | some operation =>
    rw [acts_of_operation_iff hOperation]
    constructor
    · rintro ⟨hLookup, hExact, hSome, hTurns⟩
      exact ⟨hLookup, hExact, hSome, operation, rfl, hTurns⟩
    · rintro ⟨hLookup, hExact, hSome, _, hSame, hTurns⟩
      cases hSame
      exact ⟨hLookup, hExact, hSome, hTurns⟩

/-- The name `ali` is a part of `alice`: the call disconnects her. -/
theorem acts_on_longer_name :
    .sent "s1" .disconnect ([40, 1, 0, 24] ++ oneEnv.codecs.md5 [] ++ [44, 4, 115, 49]) ∈
      (coaByUsername oneEnv oneWorld acknowledged (.str "ali") (.str "disconnect") .none .none).events ∧
    ¬ActsOnUser oneEnv oneWorld "ali"
      (coaByUsername oneEnv oneWorld acknowledged (.str "ali") (.str "disconnect") .none .none) := by
  have hSent : .sent "s1" .disconnect ([40, 1, 0, 24] ++ oneEnv.codecs.md5 [] ++ [44, 4, 115, 49]) ∈
      (coaByUsername oneEnv oneWorld acknowledged (.str "ali") (.str "disconnect") .none .none).events :=
    List.mem_cons_of_mem _ List.mem_cons_self
  refine ⟨hSent, fun hActs => ?_⟩
  obtain ⟨row, hRow, -, -, name, hName, hSame⟩ := hActs.sent _ _ _ hSent
  obtain rfl := List.mem_singleton.mp hRow
  cases hName
  exact absurd hSame (by decide)

end Acts

end OpenRadiusWeb.Coa
