import OpenRadiusWeb.Login.Service

/-! # Counters that expire

A counter is created by `INCR` without an expiry time, which the request that saw the value 1
sets with its next command. In between it is the only one that is going to: it must not die
there.
-/

namespace OpenRadiusWeb.Login

open Redis (Keyspace Lasting)
open Transcript (transcript final)

/-- The key that a request is about to give an expiry time. -/
def pendingKey (request : Request) : Pc → Option String
  | .expireRate => some (rateKey request.clientIp)
  | .expireFailures => some (failKey request.username)
  | _ => none

/-- The request has issued a command and has not returned or raised. -/
def InProgress : Pc → Prop
  | .start => False
  | .done _ => False
  | _ => True

section Definitions

variable (env : Env)

def Pending (s : State) (i : Nat) (key : String) : Prop :=
  pendingKey (env.requests i) (s.pc i) = some key

/-- Every key has an expiry time, or a request that is about to set it. -/
def Covered (s : State) : Prop := ∀ key, Lasting s.ks key → ∃ i, Pending env s i key

/-- A request does not die when it is the only one to set the expiry time of its counter. -/
def Spares (s : State) : Label → Prop
  | .die i => ∀ key, Pending env s i key → Lasting s.ks key → ∃ j, j ≠ i ∧ Pending env s j key
  | _ => True

end Definitions

variable {env : Env} {s : State} {request : Request} {now : Nat} {ks : Keyspace} {pc : Pc}
  {key : String}

/-- A key without an expiry time after a step is one the request is about to care for, or had
none before and is not the one it has just cared for. -/
theorem lasting_advance (h : Lasting (advance env request now ks pc).2.1 key) :
    pendingKey request (advance env request now ks pc).2.2 = some key ∨
      (Lasting ks key ∧ pendingKey request pc ≠ some key) := by
  cases pc with
  | start =>
    simp only [advance] at h ⊢
    cases hIncr : Redis.incr ks now (rateKey request.clientIp) with
    | none =>
      simp only [hIncr] at h
      exact .inr ⟨h, fun hNone => nomatch hNone⟩
    | some result =>
      obtain ⟨count, ks'⟩ := result
      simp only [hIncr] at h ⊢
      rcases h.of_incr hIncr with ⟨rfl, rfl⟩ | hBefore
      · exact .inl rfl
      · exact .inr ⟨hBefore, fun hNone => nomatch hNone⟩
  | recordFailure =>
    simp only [advance] at h ⊢
    cases hIncr : Redis.incr ks now (failKey request.username) with
    | none =>
      simp only [hIncr] at h
      exact .inr ⟨h, fun hNone => nomatch hNone⟩
    | some result =>
      obtain ⟨count, ks'⟩ := result
      simp only [hIncr] at h ⊢
      rcases h.of_incr hIncr with ⟨rfl, rfl⟩ | hBefore
      · exact .inl rfl
      · exact .inr ⟨hBefore, fun hNone => nomatch hNone⟩
  | expireRate =>
    obtain ⟨hBefore, hOther⟩ := h.of_expire
    exact .inr ⟨hBefore, fun hSame => hOther (Option.some.inj hSame).symm⟩
  | expireFailures =>
    obtain ⟨hBefore, hOther⟩ := h.of_expire
    exact .inr ⟨hBefore, fun hSame => hOther (Option.some.inj hSame).symm⟩
  | armLockout count => exact .inr ⟨h.of_setex, fun hNone => nomatch hNone⟩
  | clearFailures user => exact .inr ⟨h.of_erase.of_erase, fun hNone => nomatch hNone⟩
  | _ => exact .inr ⟨h, fun hNone => nomatch hNone⟩

theorem covered_step (hCovered : Covered env s) (i : Nat) : Covered env (step env (.step i) s).2 := by
  intro key hLasting
  rcases lasting_advance hLasting with hHere | ⟨hBefore, hNot⟩
  · refine ⟨i, ?_⟩
    change pendingKey (env.requests i) (Function.update s.pc i _ i) = some key
    rw [Function.update_self]
    exact hHere
  · obtain ⟨j, hj⟩ := hCovered key hBefore
    have hNe : j ≠ i := by
      rintro rfl
      exact hNot hj
    refine ⟨j, ?_⟩
    change pendingKey (env.requests j) (Function.update s.pc i _ j) = some key
    rw [Function.update_of_ne hNe]
    exact hj

theorem pendingKey_abandon (pc : Pc) : pendingKey request (abandon pc) = none := by
  cases pc <;> rfl

theorem pending_die (i j : Nat) :
    Pending env (step env (.die i) s).2 j key ↔ j ≠ i ∧ Pending env s j key := by
  change pendingKey (env.requests j) (Function.update s.pc i (abandon (s.pc i)) j) = some key ↔ _
  by_cases hSame : j = i
  · subst hSame
    rw [Function.update_self, pendingKey_abandon]
    simp
  · rw [Function.update_of_ne hSame]
    simp [hSame, Pending]

theorem covered_die (hCovered : Covered env s) (i : Nat) :
    Covered env (step env (.die i) s).2 ↔ Spares env s (.die i) := by
  constructor
  · intro h key _ hLasting
    obtain ⟨j, hj⟩ := h key hLasting
    exact ⟨j, (pending_die i j).mp hj⟩
  · intro h key hLasting
    obtain ⟨j, hj⟩ := hCovered key hLasting
    by_cases hSame : j = i
    · subst hSame
      obtain ⟨k, hk⟩ := h key hj hLasting
      exact ⟨k, (pending_die j k).mpr hk⟩
    · exact ⟨j, (pending_die i j).mpr ⟨hSame, hj⟩⟩

theorem covered_iff (hCovered : Covered env s) (label : Label) :
    Covered env (step env label s).2 ↔ Spares env s label := by
  cases label with
  | wait d => exact ⟨fun _ => trivial, fun _ => hCovered⟩
  | step i => exact ⟨fun _ => trivial, fun _ => covered_step hCovered i⟩
  | die i => exact covered_die hCovered i

theorem covered_initial (now : Nat) : Covered env (initial now) := by
  rintro key ⟨value, hValue⟩
  cases hValue

theorem covered_run {inputs : List Label} (hCovered : Covered env s)
    (hSpares : ∀ e ∈ transcript (step env) s inputs, Spares env e.pre e.input) :
    Covered env (final (step env) s inputs) := by
  induction inputs generalizing s with
  | nil => exact hCovered
  | cons label rest ih =>
    have hFirst : Spares env s label := hSpares _ List.mem_cons_self
    exact ih ((covered_iff hCovered label).mpr hFirst) fun e he =>
      hSpares e (List.mem_cons_of_mem _ he)

theorem inProgress_of_pending {i : Nat} (h : Pending env s i key) : InProgress (s.pc i) := by
  unfold Pending at h
  cases hPc : s.pc i with
  | start =>
    rw [hPc] at h
    cases h
  | done result =>
    rw [hPc] at h
    cases h
  | _ => trivial

theorem clientIp_of_pending {i : Nat} {ip : String} (h : Pending env s i (rateKey ip)) :
    (env.requests i).clientIp = ip := by
  unfold Pending at h
  cases hPc : s.pc i with
  | expireRate =>
    rw [hPc] at h
    exact rateKey_injective (Option.some.inj h)
  | expireFailures =>
    rw [hPc] at h
    exact absurd (Option.some.inj h) (failKey_ne_rateKey _ _)
  | _ =>
    rw [hPc] at h
    cases h

theorem username_of_pending {i : Nat} {username : String}
    (h : Pending env s i (failKey username)) : (env.requests i).username = username := by
  unfold Pending at h
  cases hPc : s.pc i with
  | expireRate =>
    rw [hPc] at h
    exact absurd (Option.some.inj h).symm (failKey_ne_rateKey _ _)
  | expireFailures =>
    rw [hPc] at h
    exact failKey_injective (Option.some.inj h)
  | _ =>
    rw [hPc] at h
    cases h

/-- A counter for which no request is in progress has an expiry time. -/
def CountersExpire (env : Env) (s : State) : Prop :=
  (∀ ip, (∀ i, (env.requests i).clientIp = ip → ¬InProgress (s.pc i)) →
    ¬Lasting s.ks (rateKey ip)) ∧
  ∀ username, (∀ i, (env.requests i).username = username → ¬InProgress (s.pc i)) →
    ¬Lasting s.ks (failKey username)

theorem Covered.countersExpire (h : Covered env s) : CountersExpire env s := by
  constructor
  · intro ip hIdle hLasting
    obtain ⟨i, hi⟩ := h _ hLasting
    exact hIdle i (clientIp_of_pending hi) (inProgress_of_pending hi)
  · intro username hIdle hLasting
    obtain ⟨i, hi⟩ := h _ hLasting
    exact hIdle i (username_of_pending hi) (inProgress_of_pending hi)

/-- In runs in which no request dies before it has set the expiry time of its counter, all
counters expire; and a death there is the only step that ends this. -/
theorem counters_expire (env : Env) (now : Nat) (inputs : List Label)
    (hSpares : ∀ e ∈ transcript (step env) (initial now) inputs, Spares env e.pre e.input) :
    CountersExpire env (final (step env) (initial now) inputs) ∧
      ∀ label, Covered env (step env label (final (step env) (initial now) inputs)).2 ↔
        Spares env (final (step env) (initial now) inputs) label := by
  have hCovered := covered_run (covered_initial now) hSpares
  exact ⟨hCovered.countersExpire, covered_iff hCovered⟩

/-! ## One request -/

def oneLogin : Env where
  fold := id
  checkpw _ _ := .ok false
  users := []
  requests _ := ⟨"admin", "secret", "10.0.0.1"⟩

/-- `INCR` and `EXPIRE`. -/
def rated : List Label := [.step 0, .step 0]

theorem rated_expires : CountersExpire oneLogin (final (step oneLogin) (initial 0) rated) := by
  refine (counters_expire oneLogin 0 rated fun e he => ?_).1
  have hInput := Transcript.mem_transcript_input he
  simp only [rated, List.mem_cons, List.not_mem_nil, or_false, or_self] at hInput
  rw [hInput]
  trivial

/-- A request that dies after `INCR` leaves a counter that never expires. -/
theorem counter_kept :
    ¬CountersExpire oneLogin (final (step oneLogin) (initial 0) [.step 0, .die 0]) := by
  intro h
  refine h.1 "10.0.0.1" ?_ ⟨.int 1, rfl⟩
  intro i _
  by_cases hZero : i = 0
  · subst hZero
    exact id
  · have hStart : (final (step oneLogin) (initial 0) [.step 0, .die 0]).pc i = .start := by
      change Function.update (Function.update _ 0 _) 0 _ i = _
      rw [Function.update_of_ne hZero, Function.update_of_ne hZero]
      rfl
    rw [hStart]
    exact id

end OpenRadiusWeb.Login
