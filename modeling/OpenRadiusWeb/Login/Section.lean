import OpenRadiusWeb.Lib.Lockout
import OpenRadiusWeb.Login.Service

/-! # The requests for one account

From the lockout check to the last write of its keys a request is inside the section of its
account. While the requests for one row of `users` spell its name in one way and enter the
section one at a time, their steps are steps of an account with a failure counter and a lock.
-/

namespace OpenRadiusWeb.Login

open Lockout (Phase Report Account Counter Step Good)
open Redis (Keyspace get incr expire setex keyExists erase put)

/-- The time-to-live of counter and lock in milliseconds. -/
def lockoutPeriod : Nat := failLockoutTtl * 1000

def phase : Pc → Phase
  | .lookup => .checked
  | .verify _ => .checked
  | .recordFailure => .rejected
  | .expireFailures => .counted
  | .armLockout _ => .arming
  | .clearFailures _ => .clearing
  | _ => .idle

/-- The request has started and has not yet looked for a lock. -/
def BeforeCheck : Pc → Prop
  | .expireRate => True
  | .checkLockout => True
  | _ => False

section Definitions

variable (env : Env) (row : User)

/-- The request is a login for this row. -/
def Own (i : Nat) : Prop := lookupUserForLogin env (env.requests i).username = some row

instance (i : Nat) : Decidable (Own env row i) := inferInstanceAs (Decidable (_ = _))

/-- The steps that do not reach a race. The requests for the row spell its name as `u` and
pass the lockout check one at a time; none of them dies between a rejection and the end of
its record; and the lock does not run out between the start of one and its check. -/
def Admissible (u : String) (s : State) : Label → Prop
  | .wait d =>
    (∃ i, Own env row i ∧ BeforeCheck (s.pc i)) → keyExists s.ks s.now (lockoutKey u) →
      keyExists s.ks (s.now + d) (lockoutKey u)
  | .step i =>
    Own env row i →
      (s.pc i = .start → (env.requests i).username = u) ∧
        (s.pc i = .checkLockout → ∀ j, Own env row j → phase (s.pc j) = .idle)
  | .die i =>
    Own env row i →
      phase (s.pc i) = .idle ∨ phase (s.pc i) = .checked ∨ phase (s.pc i) = .clearing

def Event.report : Event → Report
  | .verified _ (.ok true) => .accepted
  | .verified _ (.ok false) => .rejected
  | .verified _ (.error _) => .quiet
  | .refused => .rejected
  | .recorded _ => .counted

/-- What an account sees of a step. -/
def report : Option (Nat × Event) → Report
  | none => .quiet
  | some (i, event) => if Own env row i then event.report else .quiet

/-- At most one request of the row is inside the section, and it is in phase `p`. -/
structure Holds (pc : Nat → Pc) (p : Phase) : Prop where
  alone : ∀ i, Own env row i → phase (pc i) ≠ .idle →
    phase (pc i) = p ∧ ∀ j, Own env row j → j ≠ i → phase (pc j) = .idle
  held : p ≠ .idle → ∃ i, Own env row i ∧ phase (pc i) = p

/-- The account that the keys of the name `u` and the requests for the row show. -/
structure Represents (u : String) (s : State) (a : Account) : Prop where
  now : a.now = s.now
  counter : get s.ks s.now (failKey u) =
    a.counter.map fun c => ⟨.int c.count, c.expiresAt⟩
  lock : get s.ks s.now (lockoutKey u) =
    a.lockedUntil.map fun x => ⟨.text "locked", some x⟩
  spelling : ∀ i, Own env row i → BeforeCheck (s.pc i) ∨ phase (s.pc i) ≠ .idle →
    (env.requests i).username = u
  inside : Holds env row s.pc a.phase

end Definitions

variable {env : Env} {row : User}

section Phases

variable {pc : Nat → Pc} {p : Phase} {i : Nat} {next : Pc}

theorem Holds.eq_idle (h : Holds env row pc p) (hIdle : ∀ i, Own env row i → phase (pc i) = .idle) :
    p = .idle := by
  by_contra hBusy
  obtain ⟨i, hOwn, hPhase⟩ := h.held hBusy
  exact hBusy (hPhase.symm.trans (hIdle i hOwn))

theorem Holds.move (hOwn : Own env row i)
    (hOthers : ∀ j, Own env row j → j ≠ i → phase (pc j) = .idle) :
    Holds env row (Function.update pc i next) (phase next) := by
  constructor
  · intro j hj hBusy
    by_cases hSame : j = i
    · subst hSame
      refine ⟨by rw [Function.update_self], fun k hk hNe => ?_⟩
      rw [Function.update_of_ne hNe]
      exact hOthers k hk hNe
    · rw [Function.update_of_ne hSame] at hBusy
      exact absurd (hOthers j hj hSame) hBusy
  · intro _
    exact ⟨i, hOwn, by rw [Function.update_self]⟩

/-- Steps outside the section, and those of other requests, change nothing. -/
theorem Holds.outside (h : Holds env row pc p)
    (hOut : Own env row i → phase (pc i) = .idle ∧ phase next = .idle) :
    Holds env row (Function.update pc i next) p := by
  have hSame : ∀ j, Own env row j → phase (Function.update pc i next j) = phase (pc j) := by
    intro j hj
    by_cases hEq : j = i
    · subst hEq
      rw [Function.update_self, (hOut hj).1, (hOut hj).2]
    · rw [Function.update_of_ne hEq]
  constructor
  · intro j hj hBusy
    rw [hSame j hj] at hBusy ⊢
    obtain ⟨hp, hOthers⟩ := h.alone j hj hBusy
    exact ⟨hp, fun k hk hNe => by rw [hSame k hk]; exact hOthers k hk hNe⟩
  · intro hBusy
    obtain ⟨j, hj, hp⟩ := h.held hBusy
    exact ⟨j, hj, by rw [hSame j hj]; exact hp⟩

end Phases

section Frames

variable {request : Request} {now : Nat} {ks : Keyspace} {pc : Pc} {key : String}

/-- A step touches the keys of its request only. -/
theorem advance_frame (hRate : key ≠ rateKey request.clientIp)
    (hFail : key ≠ failKey request.username) (hLock : key ≠ lockoutKey request.username) :
    (advance env request now ks pc).2.1 key = ks key := by
  cases pc with
  | start =>
    simp only [advance]
    split
    · rfl
    · next h => exact Redis.incr_of_ne h hRate
  | expireRate => exact Redis.expire_of_ne hRate
  | recordFailure =>
    simp only [advance]
    split
    · rfl
    · next h => exact Redis.incr_of_ne h hFail
  | expireFailures => exact Redis.expire_of_ne hFail
  | armLockout count => exact Redis.setex_of_ne hLock
  | clearFailures user => simp [advance, hFail, hLock]
  | _ => rfl

theorem advance_frame_outside (hPhase : phase pc = .idle)
    (hRate : key ≠ rateKey request.clientIp) :
    (advance env request now ks pc).2.1 key = ks key := by
  cases pc with
  | start =>
    simp only [advance]
    split
    · rfl
    · next h => exact Redis.incr_of_ne h hRate
  | expireRate => exact Redis.expire_of_ne hRate
  | recordFailure => cases hPhase
  | expireFailures => cases hPhase
  | armLockout count => cases hPhase
  | clearFailures user => cases hPhase
  | _ => rfl

end Frames

end OpenRadiusWeb.Login
