import OpenRadiusWeb.Login.Section

/-! # Logins as steps of an account

Every admissible step of the login service is a step of the account of the row, or leaves
the account as it is.
-/

namespace OpenRadiusWeb.Login

open Lockout (Phase Report Account Counter Step Good)
open Redis (Keyspace get incr expire setex keyExists erase put)

variable {env : Env} {row : User} {u : String} {s : State} {a : Account} {i : Nat}

theorem Own.username_ne {v : String} (hRow : lookupUserForLogin env u = some row)
    (hNot : ¬Own env row i) (hName : (env.requests i).username = v) : u ≠ v := by
  rintro rfl
  exact hNot (by rw [Own, hName]; exact hRow)

theorem Represents.quiet {ks : Keyspace} {pc : Nat → Pc} (h : Represents env row u s a)
    (hFail : ks (failKey u) = s.ks (failKey u)) (hLock : ks (lockoutKey u) = s.ks (lockoutKey u))
    (hInside : Holds env row pc a.phase)
    (hSpelling : ∀ i, Own env row i → BeforeCheck (pc i) ∨ phase (pc i) ≠ .idle →
      (env.requests i).username = u) :
    Represents env row u { s with ks := ks, pc := pc } a where
  now := h.now
  counter := (Redis.get_congr hFail).trans h.counter
  lock := (Redis.get_congr hLock).trans h.lock
  spelling := hSpelling
  inside := hInside

theorem Represents.wait (h : Represents env row u s a) (d : Nat) :
    Represents env row u { s with now := s.now + d } (a.wait d) where
  now := congrArg (· + d) h.now
  counter := by
    show get s.ks (s.now + d) (failKey u) = _
    rw [Redis.get_later (Nat.le_add_right s.now d), h.counter, Option.filter_map, ← h.now]
    rfl
  lock := by
    show get s.ks (s.now + d) (lockoutKey u) = _
    rw [Redis.get_later (Nat.le_add_right s.now d), h.lock, Option.filter_map, ← h.now]
    rfl
  spelling := h.spelling
  inside := h.inside

theorem spelling_update {pc : Nat → Pc} {next : Pc}
    (h : ∀ j, Own env row j → BeforeCheck (pc j) ∨ phase (pc j) ≠ .idle →
      (env.requests j).username = u)
    (hNext : Own env row i → BeforeCheck next ∨ phase next ≠ .idle →
      (env.requests i).username = u) :
    ∀ j, Own env row j → BeforeCheck (Function.update pc i next j) ∨
      phase (Function.update pc i next j) ≠ .idle → (env.requests j).username = u := by
  intro j hj hActive
  by_cases hSame : j = i
  · subst hSame
    rw [Function.update_self] at hActive
    exact hNext hj hActive
  · rw [Function.update_of_ne hSame] at hActive
    exact h j hj hActive

theorem simulates_other (hRow : lookupUserForLogin env u = some row)
    (h : Represents env row u s a) (hNot : ¬Own env row i) :
    Represents env row u (step env (.step i) s).2 a := by
  have hNe : u ≠ (env.requests i).username := Own.username_ne hRow hNot rfl
  refine h.quiet ?_ ?_ (h.inside.outside fun hOwn => absurd hOwn hNot)
    (spelling_update h.spelling fun hOwn => absurd hOwn hNot)
  · exact advance_frame (failKey_ne_rateKey _ _) (fun hKey => hNe (failKey_injective hKey))
      (failKey_ne_lockoutKey _ _)
  · exact advance_frame (lockoutKey_ne_rateKey _ _) (failKey_ne_lockoutKey _ _).symm
      (fun hKey => hNe (lockoutKey_injective hKey))

theorem simulates_outside (h : Represents env row u s a) (hPhase : phase (s.pc i) = .idle)
    (hNext : phase (advance env (env.requests i) s.now s.ks (s.pc i)).2.2 = .idle)
    (hName : BeforeCheck (advance env (env.requests i) s.now s.ks (s.pc i)).2.2 →
      (env.requests i).username = u) :
    Represents env row u (step env (.step i) s).2 a := by
  refine h.quiet (advance_frame_outside hPhase (failKey_ne_rateKey _ _))
    (advance_frame_outside hPhase (lockoutKey_ne_rateKey _ _))
    (h.inside.outside fun _ => ⟨hPhase, hNext⟩) (spelling_update h.spelling ?_)
  rintro - (hBefore | hBusy)
  · exact hName hBefore
  · exact absurd hNext hBusy

theorem phase_afterRate (count : Nat) : phase (afterRate count) = .idle := by
  unfold afterRate
  split <;> rfl

theorem phase_afterFailure (count : Nat) :
    phase (afterFailure count) = Lockout.nextPhase failLockoutThreshold count := by
  unfold afterFailure Lockout.nextPhase
  split <;> rfl

theorem Represents.inside_step {next : Pc} {ks : Keyspace} {a' : Account}
    (h : Represents env row u s a) (hOwn : Own env row i) (hBusy : phase (s.pc i) ≠ .idle)
    (hNow : a'.now = a.now) (hPhase : a'.phase = phase next)
    (hCounter : get ks s.now (failKey u) =
      a'.counter.map fun c => ⟨.int c.count, c.expiresAt⟩)
    (hLock : get ks s.now (lockoutKey u) =
      a'.lockedUntil.map fun x => ⟨.text "locked", some x⟩) :
    Represents env row u { s with ks := ks, pc := Function.update s.pc i next } a' where
  now := hNow.trans h.now
  counter := hCounter
  lock := hLock
  spelling := spelling_update h.spelling fun hOwn _ => h.spelling i hOwn (.inr hBusy)
  inside := by
    rw [hPhase]
    exact Holds.move hOwn (h.inside.alone i hOwn hBusy).2

theorem report_own {event : Event} (hOwn : Own env row i) :
    report env row (some (i, event)) = event.report := if_pos hOwn

/-- The lockout check, when no other request for the row is inside the section. -/
theorem simulates_checkLockout (h : Represents env row u s a) (hOwn : Own env row i)
    (hPc : s.pc i = .checkLockout) (hAlone : ∀ j, Own env row j → phase (s.pc j) = .idle) :
    ∃ a', Step failLockoutThreshold lockoutPeriod a (report env row (step env (.step i) s).1) a' ∧
      Represents env row u (step env (.step i) s).2 a' := by
  have hName : (env.requests i).username = u :=
    h.spelling i hOwn (.inl (by rw [hPc]; exact trivial))
  have hIdle : a.phase = .idle := h.inside.eq_idle hAlone
  simp only [step, hPc, advance, hName, keyExists, h.lock]
  cases hLock : a.lockedUntil with
  | some x =>
    refine ⟨a, .stay a, ?_⟩
    exact h.quiet rfl rfl (h.inside.outside fun _ => ⟨by rw [hPc]; rfl, rfl⟩)
      (spelling_update h.spelling fun _ _ => hName)
  | none =>
    refine ⟨_, .enter hIdle hLock, ⟨h.now, h.counter, h.lock, ?_, ?_⟩⟩
    · exact spelling_update h.spelling fun _ _ => hName
    · change Holds env row (Function.update s.pc i .lookup) (phase .lookup)
      exact Holds.move hOwn fun j hj _ => hAlone j hj

/-- The verification of the credentials. -/
theorem simulates_verify {user : Option User} (h : Represents env row u s a)
    (hOwn : Own env row i) (hPc : s.pc i = .verify user) :
    ∃ a', Step failLockoutThreshold lockoutPeriod a (report env row (step env (.step i) s).1) a' ∧
      Represents env row u (step env (.step i) s).2 a' := by
  have hBusy : phase (s.pc i) ≠ .idle := by rw [hPc]; exact Phase.noConfusion
  have hPhase : a.phase = .checked := by rw [← (h.inside.alone i hOwn hBusy).1, hPc]; rfl
  have hMove : ∀ next p, phase next = p →
      Represents env row u { s with ks := s.ks, pc := Function.update s.pc i next }
        { a with phase := p } :=
    fun next p hNext => h.inside_step hOwn hBusy rfl hNext.symm h.counter h.lock
  have hReject : ∃ a', Step failLockoutThreshold lockoutPeriod a .rejected a' ∧
      Represents env row u { s with ks := s.ks, pc := Function.update s.pc i .recordFailure } a' :=
    ⟨_, .reject hPhase, hMove .recordFailure .rejected rfl⟩
  simp only [step, hPc, advance, checkCredentials]
  cases user with
  | none =>
    rw [Option.map_some, report_own hOwn]
    exact hReject
  | some user =>
    dsimp only
    by_cases hEnabled : user.enabled = some true
    · rw [if_pos hEnabled]
      dsimp only
      rw [Option.map_some, report_own hOwn]
      cases verifyPassword env (env.requests i).password user.passwordHash with
      | error e => exact ⟨_, .leave (.inl hPhase), hMove _ .idle rfl⟩
      | ok valid =>
        cases valid with
        | true => exact ⟨_, .accept hPhase, hMove (.clearFailures user) .clearing rfl⟩
        | false => exact hReject
    · rw [if_neg hEnabled, Option.map_some, report_own hOwn]
      exact hReject

/-- The increment of the failure counter. -/
theorem simulates_recordFailure (hGood : Good failLockoutThreshold lockoutPeriod a)
    (h : Represents env row u s a) (hOwn : Own env row i) (hPc : s.pc i = .recordFailure) :
    ∃ a', Step failLockoutThreshold lockoutPeriod a (report env row (step env (.step i) s).1) a' ∧
      Represents env row u (step env (.step i) s).2 a' := by
  have hBusy : phase (s.pc i) ≠ .idle := by rw [hPc]; exact Phase.noConfusion
  have hName : (env.requests i).username = u := h.spelling i hOwn (.inr hBusy)
  have hPhase : a.phase = .rejected := by rw [← (h.inside.alone i hOwn hBusy).1, hPc]; rfl
  have hLock : ∀ e, get (put s.ks (failKey u) e) s.now (lockoutKey u) =
      a.lockedUntil.map fun x => ⟨.text "locked", some x⟩ := fun e =>
    (Redis.get_congr (Redis.put_of_ne (failKey_ne_lockoutKey u u).symm)).trans h.lock
  have hView := h.counter
  cases hCounter : a.counter with
  | none =>
    rw [hCounter] at hView
    simp only [step, hPc, advance, hName, Redis.incr_of_none hView, Option.map_some,
      report_own hOwn]
    refine ⟨_, .restart hPhase hCounter, ?_⟩
    exact h.inside_step hOwn hBusy rfl rfl (Redis.get_put rfl) (hLock _)
  | some c =>
    rw [hCounter] at hView
    have hPos := (hGood.counter c hCounter).1
    have hNotFirst : c.count + 1 ≠ 1 := by omega
    obtain ⟨-, t, hExpires, hLive⟩ := hGood.recording (.inr hPhase) hCounter
    simp only [step, hPc, advance, hName, Redis.incr_of_int hView, Option.map_some,
      report_own hOwn, if_neg hNotFirst]
    refine ⟨_, .increment hPhase hCounter, ?_⟩
    refine h.inside_step hOwn hBusy rfl (phase_afterFailure _).symm (Redis.get_put ?_) (hLock _)
    rw [h.now] at hLive
    simpa [Redis.Entry.live, hExpires] using hLive

/-- A new counter gets its expiry time. -/
theorem simulates_expireFailures (hGood : Good failLockoutThreshold lockoutPeriod a)
    (h : Represents env row u s a) (hOwn : Own env row i) (hPc : s.pc i = .expireFailures) :
    ∃ a', Step failLockoutThreshold lockoutPeriod a (report env row (step env (.step i) s).1) a' ∧
      Represents env row u (step env (.step i) s).2 a' := by
  have hBusy : phase (s.pc i) ≠ .idle := by rw [hPc]; exact Phase.noConfusion
  have hName : (env.requests i).username = u := h.spelling i hOwn (.inr hBusy)
  have hPhase : a.phase = .counted := by rw [← (h.inside.alone i hOwn hBusy).1, hPc]; rfl
  have hCounter : a.counter = some ⟨1, none⟩ := hGood.counted hPhase
  have hView := h.counter
  rw [hCounter] at hView
  simp only [step, hPc, advance, hName, Redis.expire_of_some hView]
  refine ⟨_, .expire hPhase hCounter, ?_⟩
  refine h.inside_step hOwn hBusy rfl (phase_afterFailure 1).symm ?_ ?_
  · rw [h.now]
    exact Redis.get_put (by simp [Redis.Entry.live, Redis.deadline])
  · exact (Redis.get_congr (Redis.put_of_ne (failKey_ne_lockoutKey u u).symm)).trans h.lock

theorem simulates_armLockout {count : Nat} (h : Represents env row u s a) (hOwn : Own env row i)
    (hPc : s.pc i = .armLockout count) :
    ∃ a', Step failLockoutThreshold lockoutPeriod a (report env row (step env (.step i) s).1) a' ∧
      Represents env row u (step env (.step i) s).2 a' := by
  have hBusy : phase (s.pc i) ≠ .idle := by rw [hPc]; exact Phase.noConfusion
  have hName : (env.requests i).username = u := h.spelling i hOwn (.inr hBusy)
  have hPhase : a.phase = .arming := by rw [← (h.inside.alone i hOwn hBusy).1, hPc]; rfl
  simp only [step, hPc, advance, hName]
  refine ⟨_, .arm hPhase, ?_⟩
  refine h.inside_step hOwn hBusy rfl rfl ?_ ?_
  · exact (Redis.get_congr (Redis.setex_of_ne (failKey_ne_lockoutKey u u))).trans h.counter
  · rw [h.now]
    exact Redis.get_put (by simp [Redis.Entry.live, Redis.deadline])

theorem simulates_clearFailures {user : User} (h : Represents env row u s a)
    (hOwn : Own env row i) (hPc : s.pc i = .clearFailures user) :
    ∃ a', Step failLockoutThreshold lockoutPeriod a (report env row (step env (.step i) s).1) a' ∧
      Represents env row u (step env (.step i) s).2 a' := by
  have hBusy : phase (s.pc i) ≠ .idle := by rw [hPc]; exact Phase.noConfusion
  have hName : (env.requests i).username = u := h.spelling i hOwn (.inr hBusy)
  have hPhase : a.phase = .clearing := by rw [← (h.inside.alone i hOwn hBusy).1, hPc]; rfl
  simp only [step, hPc, advance, hName]
  refine ⟨_, .clear hPhase, ?_⟩
  refine h.inside_step hOwn hBusy rfl rfl ?_ Redis.get_erase
  exact (Redis.get_congr (Redis.erase_of_ne (failKey_ne_lockoutKey u u))).trans Redis.get_erase

/-- A step of a request, by where it is. -/
theorem simulates_step (hRow : lookupUserForLogin env u = some row)
    (hGood : Good failLockoutThreshold lockoutPeriod a) (h : Represents env row u s a)
    (hAdm : Admissible env row u s (.step i)) :
    ∃ a', Step failLockoutThreshold lockoutPeriod a (report env row (step env (.step i) s).1) a' ∧
      Represents env row u (step env (.step i) s).2 a' := by
  by_cases hOwn : Own env row i
  · obtain ⟨hSpelled, hAlone⟩ := hAdm hOwn
    have hQuiet : phase (s.pc i) = .idle →
        (advance env (env.requests i) s.now s.ks (s.pc i)).1 = none →
        phase (advance env (env.requests i) s.now s.ks (s.pc i)).2.2 = .idle →
        (BeforeCheck (advance env (env.requests i) s.now s.ks (s.pc i)).2.2 →
          (env.requests i).username = u) →
        ∃ a', Step failLockoutThreshold lockoutPeriod a
            (report env row (step env (.step i) s).1) a' ∧
          Represents env row u (step env (.step i) s).2 a' := by
      intro hPhase hNone hNext hName
      refine ⟨a, ?_, simulates_outside h hPhase hNext hName⟩
      simp only [step, hNone]
      exact .stay a
    cases hPc : s.pc i with
    | checkLockout => exact simulates_checkLockout h hOwn hPc (hAlone hPc)
    | verify user => exact simulates_verify h hOwn hPc
    | recordFailure => exact simulates_recordFailure hGood h hOwn hPc
    | expireFailures => exact simulates_expireFailures hGood h hOwn hPc
    | armLockout count => exact simulates_armLockout h hOwn hPc
    | clearFailures user => exact simulates_clearFailures h hOwn hPc
    | lookup =>
      have hBusy : phase (s.pc i) ≠ .idle := by rw [hPc]; exact Phase.noConfusion
      have hPhase : a.phase = .checked := by rw [← (h.inside.alone i hOwn hBusy).1, hPc]; rfl
      simp only [step, hPc, advance]
      exact ⟨a, .stay a, h.inside_step hOwn hBusy rfl hPhase h.counter h.lock⟩
    | start =>
      rw [hPc] at hQuiet
      apply hQuiet rfl
      · simp only [advance]
        split <;> rfl
      · simp only [advance]
        split
        · rfl
        · dsimp only
          split
          · rfl
          · exact phase_afterRate _
      · exact fun _ => hSpelled hPc
    | expireRate =>
      have hName := h.spelling i hOwn (.inl (by rw [hPc]; exact trivial))
      rw [hPc] at hQuiet
      exact hQuiet rfl rfl (phase_afterRate 1) fun _ => hName
    | _ =>
      rw [hPc] at hQuiet
      exact hQuiet rfl rfl rfl False.elim
  · refine ⟨a, ?_, simulates_other hRow h hOwn⟩
    have hQuietReport : report env row (step env (.step i) s).1 = .quiet := by
      simp only [step]
      cases (advance env (env.requests i) s.now s.ks (s.pc i)).1 with
      | none => rfl
      | some event => exact if_neg hOwn
    rw [hQuietReport]
    exact .stay a

theorem simulates_die (h : Represents env row u s a)
    (hAdm : Admissible env row u s (.die i)) :
    ∃ a', Step failLockoutThreshold lockoutPeriod a .quiet a' ∧
      Represents env row u (step env (.die i) s).2 a' := by
  have hIdle : phase (abandon (s.pc i)) = .idle := by cases s.pc i <;> rfl
  have hNotBefore : ¬BeforeCheck (abandon (s.pc i)) := by
    cases s.pc i <;> exact id
  have hSpelling := spelling_update h.spelling
    fun (_ : Own env row i) (hActive : BeforeCheck (abandon (s.pc i)) ∨
      phase (abandon (s.pc i)) ≠ .idle) => hActive.elim (fun hBefore => absurd hBefore hNotBefore)
      (fun hBusy => absurd hIdle hBusy)
  by_cases hBusy : Own env row i ∧ phase (s.pc i) ≠ .idle
  · obtain ⟨hOwn, hBusy⟩ := hBusy
    have hPhase : a.phase = .checked ∨ a.phase = .clearing := by
      rw [← (h.inside.alone i hOwn hBusy).1]
      exact (hAdm hOwn).resolve_left hBusy
    exact ⟨_, .leave hPhase, h.inside_step hOwn hBusy rfl hIdle.symm h.counter h.lock⟩
  · refine ⟨a, .stay a, h.quiet rfl rfl (h.inside.outside fun hOwn => ⟨?_, hIdle⟩) hSpelling⟩
    by_contra hNot
    exact hBusy ⟨hOwn, hNot⟩

theorem simulates {label : Label} (hRow : lookupUserForLogin env u = some row)
    (hGood : Good failLockoutThreshold lockoutPeriod a) (h : Represents env row u s a)
    (hAdm : Admissible env row u s label) :
    ∃ a', Step failLockoutThreshold lockoutPeriod a (report env row (step env label s).1) a' ∧
      Represents env row u (step env label s).2 a' := by
  cases label with
  | wait d => exact ⟨_, .wait a d, h.wait d⟩
  | step i => exact simulates_step hRow hGood h hAdm
  | die i => exact simulates_die h hAdm

end OpenRadiusWeb.Login
