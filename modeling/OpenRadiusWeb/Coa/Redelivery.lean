import OpenRadiusWeb.Coa.Schedule
import Mathlib.Data.List.Count

/-! # Redelivery of a CoA message

A call that raises is made again, on the sessions that are still active. A packet is not
repeated when its session is no longer active: it was a disconnect that the NAS
acknowledged and whose log transaction was committed.
-/

namespace OpenRadiusWeb.Coa

open OpenRadiusWeb.Policy (PyVal)
open Traced (Keeps Emits)

def CoaEvent.sent? : CoaEvent → Option String
  | .sent sessionId _ _ => some sessionId
  | _ => none

def CoaEvent.terminated? : CoaEvent → Option String
  | .terminated sessionId => some sessionId
  | _ => none

/-- The sessions that packets were sent for, one entry for each packet. -/
def sentTo (events : List CoaEvent) : List String := events.filterMap CoaEvent.sent?

/-- Marks a request whose packet went out and whose session stays active. -/
def staysActive (attempt : CoaAttempt) : Flag := fun _ i _ result logged =>
  (attempt.answer i).reached && !(logged && match result with
    | .ok r => endsSession r
    | .error _ => false)

/-- Every session that a packet was sent for was ended. -/
def EndsAll (events : List CoaEvent) : Prop :=
  ∀ sessionId ∈ sentTo events, sessionId ∈ events.filterMap CoaEvent.terminated?

theorem endsAll_append (a b : List CoaEvent) (ha : EndsAll a) (hb : EndsAll b) :
    EndsAll (a ++ b) := by
  intro sessionId h
  rw [sentTo, List.filterMap_append, List.mem_append] at h
  rw [List.filterMap_append, List.mem_append]
  exact h.imp (ha sessionId) (hb sessionId)

section Calls

variable {env : Env} {w : World} {attempt : CoaAttempt}

theorem sentTo_callEvents (i identifier : Nat) (session : FoundSession) (operation : Operation)
    (wire : Bytes) (result : Except Exc CoAResult) (logged published : Bool) :
    sentTo (callEvents env attempt i identifier session operation wire result logged published) =
      if (attempt.answer i).reached then [session.row.sessionId] else [] := by
  unfold callEvents requestEvents
  cases (attempt.answer i).reached <;> cases result with
  | error e => rfl
  | ok r =>
    cases hSuccess : r.success <;> cases hEnds : endsSession r <;> cases logged <;>
      cases published <;> simp [sentTo, CoaEvent.sent?, List.filterMap_cons, hSuccess, hEnds]

theorem acceptable_endsAll (session : FoundSession) :
    Acceptable (staysActive attempt) env attempt EndsAll session where
  identifier n := fun _ h => nomatch h
  call i identifier operation wire result logged published _ hFlag := by
    unfold EndsAll
    rw [sentTo_callEvents]
    unfold staysActive at hFlag
    cases hReached : (attempt.answer i).reached with
    | false => exact fun _ h => nomatch h
    | true =>
      rw [hReached] at hFlag
      cases result with
      | error e => simp at hFlag
      | ok r =>
        have hEnded : logged = true ∧ endsSession r = true := by simpa using hFlag
        intro sessionId hMem
        obtain rfl := List.mem_singleton.mp hMem
        rw [hEnded.1, callEvents, List.filterMap_cons_none rfl, List.filterMap_append,
          List.mem_append]
        right
        simp [hEnded.2, CoaEvent.terminated?]

theorem handleCoaAction_endsAll (data : Dict PyVal) :
    Keeps EndsAll (handleCoaAction env w attempt data)
      (actionSteps (staysActive attempt) env w attempt data) :=
  handleCoaAction_keeps (fun _ h => nomatch h) endsAll_append
    fun session _ => acceptable_endsAll session

/-- No request marked. -/
def unmarked : Flag := fun _ _ _ _ _ => false

theorem sessionSteps_unmarked (action vlanId aclName : PyVal) (i identifier : Nat)
    (session : FoundSession) :
    Step.anySent (sessionSteps unmarked env w attempt action vlanId aclName i identifier session) =
      false := by
  unfold sessionSteps
  cases fetchedSecret env w attempt i session.row.nasIp with
  | error e => rfl
  | ok secret =>
    cases operationOf action vlanId aclName with
    | none => rfl
    | some operation =>
      dsimp only
      cases requestResult env attempt i identifier operation session
          session.row.callingStationId secret with
      | error e => rfl
      | ok sent =>
        obtain ⟨wire, result⟩ := sent
        unfold requestStep unmarked
        cases result with
        | error e => rfl
        | ok r =>
          dsimp only
          cases logStatements attempt i r <;> simp [Step.anySent]

theorem executeCoa_emits (action vlanId aclName : PyVal) (i identifier : Nat)
    (session : FoundSession) :
    Emits CoaEvent.sent? (executeCoa env w attempt i identifier session action vlanId aclName)
      [session.row.sessionId] := by
  have hAccept : Acceptable unmarked env attempt
      (fun events => (sentTo events).Sublist [session.row.sessionId]) session := by
    refine ⟨fun n => List.nil_sublist _, fun i identifier operation wire result logged published _ _ => ?_⟩
    rw [sentTo_callEvents]
    split
    · exact List.Sublist.refl _
    · exact List.nil_sublist _
  exact (executeCoa_keeps (Q := fun events => (sentTo events).Sublist [session.row.sessionId])
    (List.nil_sublist _) hAccept action vlanId aclName i identifier).clean
    (sessionSteps_unmarked action vlanId aclName i identifier session)

theorem emits_nil_of_ok {α β : Type} {x : CoaRun α} {f : α → CoaRun β} {out : List String}
    (hx : Emits CoaEvent.sent? x out) (hf : ∀ a, (f a).events = []) :
    Emits CoaEvent.sent? (x >>= f) out := by
  have := hx.bind (f := f) (t := []) fun a _ => by
    unfold Emits
    rw [hf a]
    exact List.nil_sublist _
  rwa [List.append_nil] at this

theorem executeAll_emits (action vlanId aclName : PyVal) (i identifier : Nat)
    (ss : List FoundSession) :
    Emits CoaEvent.sent? (executeAll env w attempt action vlanId aclName i identifier ss)
      (ss.map fun s => s.row.sessionId) := by
  induction ss generalizing i identifier with
  | nil => exact List.nil_sublist _
  | cons session rest ih =>
    exact (executeCoa_emits action vlanId aclName i identifier session).bind fun _ _ =>
      emits_nil_of_ok (ih (i + 1) _) fun _ => rfl

theorem coaBySession_emits {sessionId mac action vlanId aclName : PyVal} {notFound : CoAResult} :
    Emits CoaEvent.sent? (coaBySession env w attempt sessionId mac action vlanId aclName notFound)
      (match findActiveSession env w sessionId mac with
        | .ok (some s) => [s.row.sessionId]
        | _ => []) := by
  refine (Traced.emits_lift _ attempt.lookup).bind fun _ _ => ?_
  cases findActiveSession env w sessionId mac with
  | error e => exact List.nil_sublist _
  | ok found =>
    rw [Traced.lift_ok_bind]
    cases found with
    | none => exact List.nil_sublist _
    | some s => exact executeCoa_emits action vlanId aclName 0 w.identifier s

theorem coaByUsername_emits {username action vlanId aclName : PyVal} :
    Emits CoaEvent.sent? (coaByUsername env w attempt username action vlanId aclName)
      ((findActiveSessionsByUser env w username).map fun s => s.row.sessionId) := by
  refine (Traced.emits_lift _ attempt.lookup).bind fun _ _ => ?_
  cases findActiveSessionsByUser env w username with
  | nil => exact List.nil_sublist _
  | cons s ss => exact emits_nil_of_ok (executeAll_emits _ _ _ _ _ _) fun _ => rfl

/-- A call sends at most one packet for each matched session. -/
theorem handleCoaAction_emits (data : Dict PyVal) :
    Emits CoaEvent.sent? (handleCoaAction env w attempt data)
      ((matchedSessions env w data).map fun s => s.row.sessionId) := by
  unfold matchedSessions handleCoaAction
  dsimp only
  split
  · refine (emits_nil_of_ok coaBySession_emits fun _ => rfl).trans ?_
    cases findActiveSession env w (data.getD "session_id" .none) .none with
    | error e => exact List.Sublist.refl _
    | ok found => cases found <;> exact List.Sublist.refl _
  · split
    · refine (emits_nil_of_ok coaBySession_emits fun _ => rfl).trans ?_
      cases findActiveSession env w .none (data.getD "mac_address" .none) with
      | error e => exact List.Sublist.refl _
      | ok found => cases found <;> exact List.Sublist.refl _
    · split
      · exact emits_nil_of_ok coaByUsername_emits fun _ => rfl
      · exact List.nil_sublist _

end Calls

/-! ## What a call leaves behind -/

section After

theorem mem_terminate {table : SessionTable} {sessionId : String} {row : SessionRow}
    (h : row ∈ (table.terminate sessionId).rows) (hActive : row.status = "active") :
    row ∈ table.rows ∧ row.sessionId ≠ sessionId := by
  obtain ⟨old, hOld, rfl⟩ := List.mem_map.mp h
  unfold SessionRow.terminate at hActive ⊢
  split
  · rename_i hSame
    rw [if_pos hSame] at hActive
    have hClash : "terminated" = "active" := hActive
    exact absurd hClash (by decide)
  · rename_i hOther
    exact ⟨hOld, hOther⟩

/-- An active row after a call was active before it, and the call did not end it. -/
theorem mem_after {w : World} {events : List CoaEvent} {row : SessionRow}
    (h : row ∈ (events.foldl World.apply w).sessions.rows) (hActive : row.status = "active") :
    row ∈ w.sessions.rows ∧ row.sessionId ∉ events.filterMap CoaEvent.terminated? := by
  induction events generalizing w with
  | nil => exact ⟨h, List.not_mem_nil⟩
  | cons e events ih =>
    obtain ⟨hRow, hRest⟩ := ih h
    cases e with
    | terminated sessionId =>
      obtain ⟨hOld, hOther⟩ := mem_terminate hRow hActive
      refine ⟨hOld, ?_⟩
      exact fun hMem => (List.mem_cons.mp hMem).elim hOther hRest
    | identifier n => exact ⟨hRow, hRest⟩
    | sent sessionId operation wire => exact ⟨hRow, hRest⟩
    | acked sessionId operation => exact ⟨hRow, hRest⟩
    | logged row' => exact ⟨hRow, hRest⟩
    | published result => exact ⟨hRow, hRest⟩

end After

/-! ## All deliveries of one message -/

section Redelivery

variable (env : Env) (data : Dict PyVal)

/-- The calls for one message: it is delivered again until a call returns. -/
def redeliver (w : World) : List CoaAttempt → List (CoaRun Unit)
  | [] => []
  | attempt :: attempts =>
    let x := handleCoaAction env w attempt data
    if x.raises then x :: redeliver (w.after x) attempts else [x]

/-- In each delivery no session is matched twice, and when a step fails then no packet has
gone out by then for a session that stays active. -/
def SafeDeliveries (w : World) : List CoaAttempt → Prop
  | [] => True
  | attempt :: attempts =>
    let steps := actionSteps (staysActive attempt) env w attempt data
    ((matchedSessions env w data).map fun s => s.row.sessionId).Nodup ∧
      (Step.anyFails steps = true → Step.anySent steps = false ∧
        SafeDeliveries (w.after (handleCoaAction env w attempt data)) attempts)

variable {env data}

theorem sentTo_active {w : World} {attempt : CoaAttempt} {sessionId : String}
    (h : sessionId ∈ sentTo (handleCoaAction env w attempt data).events) :
    ∃ row ∈ w.sessions.rows, row.status = "active" ∧ row.sessionId = sessionId := by
  obtain ⟨s, hs, rfl⟩ := List.mem_map.mp ((handleCoaAction_emits data).subset h)
  obtain ⟨hRow, hActive⟩ := matchedSessions_active hs
  exact ⟨s.row, hRow, hActive, rfl⟩

theorem redeliver_active {w : World} {attempts : List CoaAttempt} {sessionId : String}
    (h : sessionId ∈ (redeliver env data w attempts).flatMap fun x => sentTo x.events) :
    ∃ row ∈ w.sessions.rows, row.status = "active" ∧ row.sessionId = sessionId := by
  induction attempts generalizing w with
  | nil => cases h
  | cons attempt attempts ih =>
    rw [redeliver] at h
    split at h
    · rw [List.flatMap_cons, List.mem_append] at h
      rcases h with hHead | hTail
      · exact sentTo_active hHead
      · obtain ⟨row, hRow, hActive, hId⟩ := ih hTail
        exact ⟨row, (mem_after hRow hActive).1, hActive, hId⟩
    · rw [List.flatMap_cons, List.flatMap_nil, List.append_nil] at h
      exact sentTo_active h

/-- Over all deliveries of a message at most one packet is sent for each session, when every
delivery is safe. -/
theorem redeliver_sentOnce {w : World} {attempts : List CoaAttempt}
    (h : SafeDeliveries env data w attempts) (sessionId : String) :
    ((redeliver env data w attempts).flatMap fun x => sentTo x.events).count sessionId ≤ 1 := by
  induction attempts generalizing w with
  | nil => simp [redeliver]
  | cons attempt attempts ih =>
    obtain ⟨hNodup, hFails⟩ := h
    have hOnce : (sentTo (handleCoaAction env w attempt data).events).count sessionId ≤ 1 :=
      List.nodup_iff_count.mp (hNodup.sublist (handleCoaAction_emits data)) sessionId
    have hKeeps : Keeps EndsAll (handleCoaAction env w attempt data)
        (actionSteps (staysActive attempt) env w attempt data) := handleCoaAction_endsAll data
    rw [redeliver]
    cases hRaises : (handleCoaAction env w attempt data).raises with
    | false => simpa using hOnce
    | true =>
      obtain ⟨hClean, hRest⟩ := hFails (hKeeps.raises ▸ hRaises)
      rw [if_pos rfl, List.flatMap_cons, List.count_append]
      by_cases hSent : sessionId ∈ sentTo (handleCoaAction env w attempt data).events
      · have hGone : sessionId ∉ (redeliver env data
            (w.after (handleCoaAction env w attempt data)) attempts).flatMap
              fun x => sentTo x.events := by
          intro hAgain
          obtain ⟨row, hRow, hActive, rfl⟩ := redeliver_active hAgain
          exact (mem_after hRow hActive).2 (hKeeps.clean hClean _ hSent)
        rw [List.count_eq_zero_of_not_mem hGone]
        exact hOnce
      · rw [List.count_eq_zero_of_not_mem hSent, Nat.zero_add]
        exact ih hRest

end Redelivery

/-! ## A disconnect whose audit row is rejected -/

def publishFails : CoaAttempt := { acknowledged with publish := fun _ => .error "ConnectionClosedError" }

def insertFails : CoaAttempt := { acknowledged with insertEvent := fun _ => .error "ProgrammingError" }

def disconnectMessage : Dict PyVal :=
  [("action", .str "disconnect"), ("session_id", .str "s1")]

theorem disconnect_sentOnce :
    ((redeliver oneEnv disconnectMessage oneWorld [publishFails, acknowledged]).flatMap
      fun x => sentTo x.events).count "s1" ≤ 1 := by
  have hSafe : SafeDeliveries oneEnv disconnectMessage oneWorld [publishFails, acknowledged] :=
    ⟨by decide, fun _ => ⟨by decide, by decide, fun h => absurd h (by decide)⟩⟩
  exact redeliver_sentOnce hSafe "s1"

theorem disconnect_sent_again :
    ((redeliver oneEnv disconnectMessage oneWorld [insertFails, acknowledged]).flatMap
      fun x => sentTo x.events).count "s1" = 2 := by
  decide

end OpenRadiusWeb.Coa
