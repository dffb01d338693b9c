import OpenRadiusWeb.Login.Simulation

/-! # How many passwords can be tried

The lockout bounds what any interleaving of logins can try against one row of `users`: after
a fifth recorded failure no new login is verified for a lockout period, and a window shorter
than that sees at most eight failed verifications.
-/

namespace OpenRadiusWeb.Login

open OpenRadiusWeb.Policy (PyErr)
open Lockout (Report Account Step Good Within Since Armed Shut Lapses)
open Redis (keyExists)
open Transcript (Entry transcript final final_append transcript_append final_invariant
  invariant_count)

section Statements

variable (env : Env) (row : User)

abbrev Moment : Type := Entry State Label (Option (Nat × Event))

def reported (e : Moment) : Report := report env row e.output

/-- A failure of a login for the row is counted. -/
def isRecorded (e : Moment) : Bool := reported env row e = .counted

/-- A login for the row has the right password. -/
def Succeeds (e : Moment) : Prop := reported env row e = .accepted

instance (e : Moment) : Decidable (Succeeds env row e) := inferInstanceAs (Decidable (_ = _))

/-- A failure counter of the row, under any spelling of its name, runs out. -/
def CounterExpires (e : Moment) : Prop :=
  ∃ v, lookupUserForLogin env v = some row ∧ e.pre.now < e.post.now ∧
    keyExists e.pre.ks e.pre.now (failKey v) ∧ ¬keyExists e.post.ks e.post.now (failKey v)

/-- `verify_password` is called for the row and answers false. -/
def isFailedVerification (e : Moment) : Bool :=
  match e.output with
  | some (i, .verified _ (.ok false)) => Own env row i
  | _ => false

/-- The label records the fifth failure since the last success or counter expiry. -/
structure FifthFailure (s : State) (before : List Label) (fifth : Label) : Prop where
  four : (transcript (step env) s before).countP (isRecorded env row) = 4
  records : reported env row
    ⟨final (step env) s before, fifth, (step env fifth (final (step env) s before)).1,
      (step env fifth (final (step env) s before)).2⟩ = .counted
  unbroken : ∀ e ∈ transcript (step env) s (before ++ [fifth]),
    ¬Succeeds env row e ∧ ¬CounterExpires env row e

/-- No login that starts less than a lockout period after a fifth recorded failure reaches
`verify_password`. -/
def LocksOut (s : State) (inputs : List Label) : Prop :=
  ∀ past before fifth between i rest,
    inputs = past ++ ((before ++ [fifth]) ++ (between ++ .step i :: rest)) →
    FifthFailure env row (final (step env) s past) before fifth →
    Own env row i →
    (final (step env) s (past ++ ((before ++ [fifth]) ++ between))).pc i = .start →
    (final (step env) s (past ++ ((before ++ [fifth]) ++ between))).now <
      (final (step env) s (past ++ (before ++ [fifth]))).now + lockoutPeriod →
    ∀ e ∈ transcript (step env)
        (final (step env) s (past ++ ((before ++ [fifth]) ++ between))) (.step i :: rest),
      ∀ user result, e.output ≠ some (i, .verified user result)

/-- A window shorter than a lockout period without a success has at most eight failed
verifications. -/
def BoundsWindows (s : State) (inputs : List Label) : Prop :=
  ∀ past window rest, inputs = past ++ (window ++ rest) →
    (final (step env) s (past ++ window)).now <
      (final (step env) s past).now + lockoutPeriod →
    (∀ e ∈ transcript (step env) (final (step env) s past) window, ¬Succeeds env row e) →
    (transcript (step env) (final (step env) s past) window).countP
      (isFailedVerification env row) ≤ 8

end Statements

variable {env : Env} {row : User} {u : String} {s : State} {a : Account}

theorem now_le_step (label : Label) : s.now ≤ (step env label s).2.now := by
  cases label with
  | wait d => exact Nat.le_add_right _ _
  | _ => exact Nat.le_refl _

theorem now_le_final (inputs : List Label) : s.now ≤ (final (step env) s inputs).now := by
  induction inputs generalizing s with
  | nil => exact Nat.le_refl _
  | cons label inputs ih => exact Nat.le_trans (now_le_step label) ih

theorem post_le_final {inputs : List Label} {e : Moment}
    (h : e ∈ transcript (step env) s inputs) :
    e.post.now ≤ (final (step env) s inputs).now := by
  induction inputs generalizing s with
  | nil => cases h
  | cons label inputs ih =>
    rcases List.mem_cons.mp h with rfl | h
    · exact now_le_final inputs
    · exact ih h

theorem isFailedVerification_rejections (env : Env) (row : User) (e : Moment) :
    (if isFailedVerification env row e then 1 else 0) ≤ (reported env row e).rejections := by
  obtain ⟨pre, input, output, post⟩ := e
  unfold isFailedVerification reported report
  rcases output with _ | ⟨i, event⟩
  · exact Nat.zero_le _
  · cases event with
    | verified user result =>
      rcases result with e | (_ | _)
      · exact Nat.zero_le _
      · dsimp only
        by_cases hOwn : Own env row i
        · simp [hOwn, Event.report, Report.rejections]
        · simp [hOwn]
      · exact Nat.zero_le _
    | _ => exact Nat.zero_le _

theorem isRecorded_recorded (e : Moment) :
    (if isRecorded env row e then 1 else 0) = (reported env row e).recorded := by
  unfold isRecorded
  cases reported env row e <;> rfl

/-- The state shows an account in good order. -/
def Shows (env : Env) (row : User) (u : String) (P : Account → Prop) (s : State) : Prop :=
  ∃ a, Represents env row u s a ∧ Good failLockoutThreshold lockoutPeriod a ∧ P a

theorem two_le_threshold : 2 ≤ failLockoutThreshold := by decide

theorem Shows.step {P Q : Account → Prop} {label : Label}
    (hRow : lookupUserForLogin env u = some row) (h : Shows env row u P s)
    (hAdm : Admissible env row u s label)
    (hKeep : ∀ a a', Represents env row u s a → Represents env row u (step env label s).2 a' →
      Good failLockoutThreshold lockoutPeriod a → P a →
      Step failLockoutThreshold lockoutPeriod a (report env row (step env label s).1) a' → Q a') :
    Shows env row u Q (step env label s).2 := by
  obtain ⟨a, hRep, hGood, hP⟩ := h
  obtain ⟨a', hStep, hRep'⟩ := simulates hRow hGood hRep hAdm
  exact ⟨a', hRep', hGood.step two_le_threshold hStep, hKeep a a' hRep hRep' hGood hP hStep⟩

/-- The steps of a transcript are admissible. -/
def AllAdmissible (env : Env) (row : User) (u : String) (s : State) (inputs : List Label) : Prop :=
  ∀ e ∈ transcript (step env) s inputs, Admissible env row u e.pre e.input

theorem AllAdmissible.append {xs ys : List Label} (h : AllAdmissible env row u s (xs ++ ys)) :
    AllAdmissible env row u s xs ∧ AllAdmissible env row u (final (step env) s xs) ys := by
  rw [AllAdmissible, transcript_append] at h
  exact ⟨fun e he => h e (List.mem_append_left _ he), fun e he => h e (List.mem_append_right _ he)⟩

theorem shows_initial (now : Nat) : Shows env row u (fun _ => True) (initial now) :=
  ⟨⟨now, none, none, .idle⟩,
    { now := rfl
      counter := rfl
      lock := rfl
      spelling := by
        rintro i - (hBefore | hBusy)
        · exact hBefore.elim
        · exact absurd rfl hBusy
      inside := ⟨fun _ _ hBusy => absurd rfl hBusy, fun hBusy => absurd rfl hBusy⟩ },
    by constructor <;> simp, trivial⟩

theorem Shows.run {inputs : List Label} (hRow : lookupUserForLogin env u = some row)
    (h : Shows env row u (fun _ => True) s) (hAdm : AllAdmissible env row u s inputs) :
    Shows env row u (fun _ => True) (final (Login.step env) s inputs) :=
  final_invariant _ (fun e : Moment => Admissible env row u e.pre e.input)
    (fun _ _ hs hAdm => hs.step hRow hAdm fun _ _ _ _ _ _ _ => trivial) h hAdm

/-! ## Windows -/

theorem window_le (hRow : lookupUserForLogin env u = some row)
    (h : Shows env row u (fun _ => True) s) {window : List Label}
    (hAdm : AllAdmissible env row u s window)
    (hShort : (final (step env) s window).now < s.now + lockoutPeriod)
    (hNone : ∀ e ∈ transcript (step env) s window, ¬Succeeds env row e) :
    (transcript (step env) s window).countP (isFailedVerification env row) ≤ 8 := by
  have hStart : Shows env row u
      (fun a => Within failLockoutThreshold lockoutPeriod s.now 0 a ∧ s.now ≤ a.now) s := by
    obtain ⟨a, hRep, hGood, -⟩ := h
    refine ⟨a, hRep, hGood, ?_, hRep.now.ge⟩
    rw [← hRep.now]
    exact Within.start two_le_threshold hGood
  have hEnd : Shows env row u
      (fun a => Within failLockoutThreshold lockoutPeriod s.now
        (0 + (transcript (step env) s window).countP (isFailedVerification env row)) a ∧
          s.now ≤ a.now) (final (step env) s window) := invariant_count
    (fun n => Shows env row u fun a =>
      Within failLockoutThreshold lockoutPeriod s.now n a ∧ s.now ≤ a.now)
    (isFailedVerification env row)
    (fun e : Moment => Admissible env row u e.pre e.input ∧
      e.post.now < s.now + lockoutPeriod ∧ ¬Succeeds env row e)
    (fun n s' label hs hAdm => hs.step hRow hAdm.1
      fun a a' hRep hRep' hGood hWithin hStep => by
        have hOpen : a'.now < s.now + lockoutPeriod := hRep'.now ▸ hAdm.2.1
        have hNext := hWithin.1.step two_le_threshold hGood hWithin.2 hStep hOpen hAdm.2.2
        refine ⟨hNext.mono ?_, ?_⟩
        · have hCount := isFailedVerification_rejections env row
            ⟨s', label, (step env label s').1, (step env label s').2⟩
          exact Nat.add_le_add_left hCount n
        · rw [hRep'.now]
          exact Nat.le_trans hWithin.2 (hRep.now ▸ now_le_step label))
    hStart (fun e he => ⟨hAdm e he, Nat.lt_of_le_of_lt (post_le_final he) hShort, hNone e he⟩)
  obtain ⟨a, -, -, hWithin, -⟩ := hEnd
  have hTotal := hWithin.total
  rw [Nat.zero_add] at hTotal
  simp only [failLockoutThreshold] at hTotal
  omega

/-! ## The fifth failure -/

theorem counterExpires_of_lapses {label : Label} {a' : Account}
    (hRow : lookupUserForLogin env u = some row) (hRep : Represents env row u s a)
    (hRep' : Represents env row u (step env label s).2 a') (h : Lapses a a') :
    CounterExpires env row
      ⟨s, label, (step env label s).1, (step env label s).2⟩ := by
  obtain ⟨hTime, hBefore, hAfter⟩ := h
  refine ⟨u, hRow, ?_, ?_, ?_⟩
  · rw [hRep.now, hRep'.now] at hTime
    exact hTime
  · obtain ⟨c, hc⟩ := Option.ne_none_iff_exists'.mp hBefore
    simp [keyExists, hRep.counter, hc]
  · simp [keyExists, hRep'.counter, hAfter]

theorem Since.keep {n : Nat} {label : Label} {a' : Account}
    (hRow : lookupUserForLogin env u = some row) (hRep : Represents env row u s a)
    (hRep' : Represents env row u (step env label s).2 a')
    (hGood : Good failLockoutThreshold lockoutPeriod a) (h : Since n a)
    (hStep : Step failLockoutThreshold lockoutPeriod a (report env row (step env label s).1) a')
    (hUnbroken : ¬Succeeds env row ⟨s, label, (step env label s).1, (step env label s).2⟩ ∧
      ¬CounterExpires env row ⟨s, label, (step env label s).1, (step env label s).2⟩) :
    Since (n + (report env row (step env label s).1).recorded) a' :=
  Lockout.Since.step hGood h hStep
    (fun hLapses => hUnbroken.2 (counterExpires_of_lapses hRow hRep hRep' hLapses)) hUnbroken.1

/-- The fifth failure arms the lock. -/
theorem armed_after_fifth (hRow : lookupUserForLogin env u = some row)
    (h : Shows env row u (fun _ => True) s) {before : List Label} {fifth : Label}
    (hAdm : AllAdmissible env row u s (before ++ [fifth]))
    (hFifth : FifthFailure env row s before fifth) :
    Shows env row u
      (Armed lockoutPeriod (final (step env) s (before ++ [fifth])).now)
      (final (step env) s (before ++ [fifth])) := by
  obtain ⟨hAdmBefore, hAdmFifth⟩ := hAdm.append
  have hUnbroken := hFifth.unbroken
  rw [transcript_append] at hUnbroken
  have hStart : Shows env row u (Since 0) s := by
    obtain ⟨a, hRep, hGood, -⟩ := h
    exact ⟨a, hRep, hGood, .inl rfl⟩
  have hFour : Shows env row u
      (Since (0 + (transcript (step env) s before).countP (isRecorded env row)))
      (final (step env) s before) := invariant_count
    (fun n => Shows env row u (Since n)) (isRecorded env row)
    (fun e : Moment => Admissible env row u e.pre e.input ∧
      ¬Succeeds env row e ∧ ¬CounterExpires env row e)
    (fun n s' label hs hAdm => hs.step hRow hAdm.1
      fun a a' hRep hRep' hGood hSince hStep => by
        rw [isRecorded_recorded]
        exact Since.keep hRow hRep hRep' hGood hSince hStep hAdm.2)
    hStart (fun e he => ⟨hAdmBefore e he, hUnbroken e (List.mem_append_left _ he)⟩)
  rw [hFifth.four, Nat.zero_add] at hFour
  rw [final_append]
  refine hFour.step hRow (hAdmFifth _ List.mem_cons_self) fun a a' _ hRep' hGood hSince hStep => ?_
  have hCounted : report env row (step env fifth (final (step env) s before)).1 = .counted :=
    hFifth.records
  rw [hCounted] at hStep
  exact .inl ⟨hSince.arms two_le_threshold (Nat.le_refl 5) hStep, hRep'.now.ge⟩

theorem armed_between (hRow : lookupUserForLogin env u = some row) {start : Nat}
    (h : Shows env row u (Armed lockoutPeriod start) s) {between : List Label}
    (hAdm : AllAdmissible env row u s between)
    (hOpen : (final (step env) s between).now ≤ start + lockoutPeriod) :
    Shows env row u (Armed lockoutPeriod start) (final (step env) s between) :=
  final_invariant _
    (fun e : Moment => Admissible env row u e.pre e.input ∧
      e.post.now ≤ start + lockoutPeriod)
    (fun _ _ hs hAdm => hs.step hRow hAdm.1 fun _ _ _ hRep' hGood hArmed hStep =>
      hArmed.step hGood hStep (hRep'.now ▸ hAdm.2))
    h (fun e he => ⟨hAdm e he, Nat.le_trans (post_le_final he) hOpen⟩)

/-- The account is shut and the request is before its check, or the request has ended. -/
def Barred (env : Env) (row : User) (u : String) (i : Nat) (s : State) : Prop :=
  Shows env row u (fun a => BeforeCheck (s.pc i) ∧ Shut a ∨ ∃ result, s.pc i = .done result) s

theorem pc_step_of_ne {i j : Nat} (hNe : i ≠ j) :
    (step env (.step j) s).2.pc i = s.pc i ∧ (step env (.die j) s).2.pc i = s.pc i :=
  ⟨Function.update_of_ne hNe .., Function.update_of_ne hNe ..⟩

theorem not_verified_of_barred {i : Nat} {label : Label} (h : Barred env row u i s)
    (user : User) (result : Except PyErr Bool) :
    (step env label s).1 ≠ some (i, .verified user result) := by
  obtain ⟨a, -, -, hPc⟩ := h
  cases label with
  | wait d =>
    intro hEvent
    cases hEvent
  | die j =>
    intro hEvent
    cases hEvent
  | step j =>
    intro hEvent
    obtain ⟨event, hAdvance, hPair⟩ := Option.map_eq_some_iff.mp hEvent
    cases hPair
    rcases hPc with ⟨hBefore, -⟩ | ⟨result', hDone⟩
    · cases hAt : s.pc i with
      | expireRate =>
        rw [hAt] at hAdvance
        cases hAdvance
      | checkLockout =>
        rw [hAt] at hAdvance
        cases hAdvance
      | _ =>
        rw [hAt] at hBefore
        exact hBefore
    · rw [hDone] at hAdvance
      cases hAdvance

theorem Represents.locked_iff (h : Represents env row u s a) :
    keyExists s.ks s.now (lockoutKey u) ↔ a.lockedUntil ≠ none := by
  unfold keyExists
  rw [h.lock]
  cases a.lockedUntil <;> simp

theorem advance_of_shut {i : Nat} (hRep : Represents env row u s a) (hShut : Shut a)
    (hOwn : Own env row i) (hPc : s.pc i = .checkLockout)
    (hAlone : ∀ j, Own env row j → phase (s.pc j) = .idle) :
    ∃ result, (step env (.step i) s).2.pc i = .done result := by
  have hName : (env.requests i).username = u :=
    hRep.spelling i hOwn (.inl (by rw [hPc]; exact trivial))
  have hLock : a.lockedUntil ≠ none := by
    rcases hShut with hArming | hLock
    · rw [hRep.inside.eq_idle hAlone] at hArming
      cases hArming
    · exact hLock
  refine ⟨.error (.rateLimit lockoutMessage), ?_⟩
  simp [step, hPc, advance, hName, hRep.locked_iff.mpr hLock]

theorem Barred.step {i : Nat} {label : Label} (hRow : lookupUserForLogin env u = some row)
    (hOwn : Own env row i) (h : Barred env row u i s)
    (hAdm : Admissible env row u s label) : Barred env row u i (step env label s).2 := by
  refine Shows.step hRow h hAdm fun a a' hRep hRep' hGood hBarred hStep => ?_
  rcases hBarred with ⟨hBefore, hShut⟩ | ⟨result, hDone⟩
  · cases label with
    | wait d =>
      refine .inl ⟨hBefore, hShut.step hGood hStep (.inr fun hLock => ?_)⟩
      exact hRep'.locked_iff.mp (hAdm ⟨i, hOwn, hBefore⟩ (hRep.locked_iff.mpr hLock))
    | die j =>
      have hShut' : Shut a' := hShut.step hGood hStep (.inl (hRep'.now.trans hRep.now.symm))
      by_cases hSame : i = j
      · subst hSame
        refine .inr ⟨.error .died, ?_⟩
        change Function.update s.pc i _ i = _
        rw [Function.update_self]
        cases hAt : s.pc i <;> first | rfl | (rw [hAt] at hBefore; exact hBefore.elim)
      · rw [(pc_step_of_ne hSame).2]
        exact .inl ⟨hBefore, hShut'⟩
    | step j =>
      have hShut' : Shut a' := hShut.step hGood hStep (.inl (hRep'.now.trans hRep.now.symm))
      by_cases hSame : i = j
      · subst hSame
        cases hAt : s.pc i with
        | expireRate =>
          refine .inl ⟨?_, hShut'⟩
          simp only [Login.step, hAt, advance, Function.update_self]
          exact trivial
        | checkLockout =>
          exact .inr (advance_of_shut hRep hShut hOwn hAt ((hAdm hOwn).2 hAt))
        | _ =>
          rw [hAt] at hBefore
          exact hBefore.elim
      · rw [(pc_step_of_ne hSame).1]
        exact .inl ⟨hBefore, hShut'⟩
  · refine .inr ⟨result, ?_⟩
    cases label with
    | wait d => exact hDone
    | die j =>
      by_cases hSame : i = j
      · subst hSame
        simp [Login.step, hDone, abandon]
      · exact (pc_step_of_ne hSame).2.trans hDone
    | step j =>
      by_cases hSame : i = j
      · subst hSame
        simp [Login.step, hDone, advance]
      · exact (pc_step_of_ne hSame).1.trans hDone

/-- A login that starts while the lock is armed is barred. -/
theorem barred_of_start {i start : Nat} (hRow : lookupUserForLogin env u = some row)
    (h : Shows env row u (Armed lockoutPeriod start) s)
    (hAdm : Admissible env row u s (.step i)) (hStart : s.pc i = .start) :
    Barred env row u i (step env (.step i) s).2 := by
  refine Shows.step hRow h hAdm fun a a' hRep hRep' hGood hArmed hStep => ?_
  have hShut' : Shut a' := hArmed.shut.step hGood hStep (.inl (hRep'.now.trans hRep.now.symm))
  simp only [Login.step, hStart, advance, Function.update_self]
  cases Redis.incr s.ks s.now (rateKey (env.requests i).clientIp) with
  | none => exact .inr ⟨_, rfl⟩
  | some counted =>
    dsimp only
    by_cases hFirst : counted.1 = 1
    · rw [if_pos hFirst]
      exact .inl ⟨trivial, hShut'⟩
    · rw [if_neg hFirst]
      unfold afterRate
      by_cases hOver : counted.1 > ipRateLimit
      · rw [if_pos hOver]
        exact .inr ⟨_, rfl⟩
      · rw [if_neg hOver]
        exact .inl ⟨trivial, hShut'⟩

theorem never_verified {i : Nat} (hRow : lookupUserForLogin env u = some row)
    (hOwn : Own env row i) {inputs : List Label} (h : Barred env row u i s)
    (hAdm : AllAdmissible env row u s inputs) :
    ∀ e ∈ transcript (step env) s inputs,
      ∀ user result, e.output ≠ some (i, .verified user result) := by
  have hAll := Transcript.invariant (Barred env row u i) (Admissible env row u)
    (fun _ _ hs hAdm => hs.step hRow hOwn hAdm) h hAdm
  intro e he user result
  have hOutput : (step env e.input e.pre).1 = e.output :=
    congrArg Prod.fst (Transcript.mem_transcript_step he)
  rw [← hOutput]
  exact not_verified_of_barred (hAll e he).1 user result

/-- Over every interleaving whose steps reach no race, the lockout holds and every window is
bounded. -/
theorem logins_bounded {now : Nat} {inputs : List Label}
    (hRow : lookupUserForLogin env u = some row)
    (hAdm : ∀ e ∈ transcript (step env) (initial now) inputs,
      Admissible env row u e.pre e.input) :
    LocksOut env row (initial now) inputs ∧ BoundsWindows env row (initial now) inputs := by
  constructor
  · rintro past before fifth between i rest rfl hFifth hOwn hStart hSoon
    obtain ⟨hPast, hAdm⟩ := AllAdmissible.append hAdm
    obtain ⟨hBefore, hAdm⟩ := hAdm.append
    obtain ⟨hBetween, hRest⟩ := hAdm.append
    have hArmed := armed_after_fifth hRow ((shows_initial now).run hRow hPast) hBefore hFifth
    simp only [final_append] at hArmed hBetween hRest hStart hSoon ⊢
    have hStill := armed_between hRow hArmed hBetween (Nat.le_of_lt hSoon)
    have hBarred := barred_of_start hRow hStill (hRest _ List.mem_cons_self) hStart
    intro e he user result
    rcases List.mem_cons.mp he with rfl | he
    · intro hEvent
      simp only [Login.step, hStart, advance] at hEvent
      split at hEvent <;> cases hEvent
    · exact never_verified hRow hOwn hBarred
        (fun e he => hRest e (List.mem_cons_of_mem _ he)) e he user result
  · rintro past window rest rfl hShort hNone
    obtain ⟨hPast, hAdm⟩ := AllAdmissible.append hAdm
    rw [final_append] at hShort
    exact window_le hRow ((shows_initial now).run hRow hPast) hAdm.append.1 hShort hNone

/-! ## Runs against one row -/

def admin : User := ⟨"u1", "admin", some "secret", "admin", none, some true⟩

/-- The first four requests name the row in one way and the next in two others; the requests
from the tenth on use the first spelling again. -/
def spelling (i : Nat) : String :=
  if i < 4 then "admin" else if i < 8 then "Admin" else if i < 9 then "ADMIN" else "admin"

def adminEnv (username : Nat → String) : Env where
  fold name := if name = "Admin" ∨ name = "ADMIN" then "admin" else name
  checkpw plain hashed := .ok (plain == hashed)
  users := [admin]
  requests i := ⟨username i, "wrong", "10.0.0.1"⟩

/-- One request with a wrong password, alone. -/
def singleEnv : Env := adminEnv fun i => if i = 0 then "admin" else "guest"

theorem single_login_bounded :
    LocksOut singleEnv admin (initial 0) (List.replicate 8 (.step 0)) ∧
      BoundsWindows singleEnv admin (initial 0) (List.replicate 8 (.step 0)) := by
  refine logins_bounded (u := "admin") rfl fun e he => ?_
  rw [List.eq_of_mem_replicate (Transcript.mem_transcript_input he)]
  intro _
  refine ⟨fun _ => rfl, fun hPc j hOwn => ?_⟩
  cases j with
  | zero => rw [hPc]; rfl
  | succ j =>
    have hNone : lookupUserForLogin singleEnv "guest" = none := by decide
    have hSome : lookupUserForLogin singleEnv "guest" = some admin := hOwn
    rw [hNone] at hSome
    cases hSome

def spellingEnv : Env := adminEnv spelling

/-- All steps of a login that fails. -/
def attempt (i : Nat) : List Label := List.replicate 8 (.step i)

def fourAttempts : List Label := (List.range 4).flatMap attempt ++ List.replicate 4 (.step 4)

theorem no_success (es : List Moment)
    (h : es.all fun e => decide (¬Succeeds spellingEnv admin e)) :
    ∀ e ∈ es, ¬Succeeds spellingEnv admin e := fun e he =>
  of_decide_eq_true (List.all_eq_true.mp h e he)

theorem four_attempts_fifth : FifthFailure spellingEnv admin (initial 0) fourAttempts (.step 4) := by
  have hQuiet : (transcript (step spellingEnv) (initial 0) (fourAttempts ++ [.step 4])).all
      (fun e => decide (¬Succeeds spellingEnv admin e ∧ e.pre.now = e.post.now)) := by
    decide +kernel
  rw [List.all_eq_true] at hQuiet
  refine ⟨by decide +kernel, by decide +kernel, fun e he => ?_⟩
  obtain ⟨hNone, hTime⟩ := of_decide_eq_true (hQuiet e he)
  refine ⟨hNone, ?_⟩
  rintro ⟨v, -, hLater, -⟩
  omega

/-- Failures under one spelling do not lock another, nor are they counted with it; and
requests that all pass the check before one of them is recorded are all verified. -/
theorem lockout_evaded :
    ¬LocksOut spellingEnv admin (initial 0)
        ([] ++ ((fourAttempts ++ [.step 4]) ++ ([] ++ .step 5 :: List.replicate 3 (.step 5)))) ∧
      ¬BoundsWindows spellingEnv admin (initial 0)
        ([] ++ ((List.range 9).flatMap attempt ++ [])) ∧
      ¬BoundsWindows spellingEnv admin (initial 0)
        ([] ++ (((List.range 9).flatMap fun i => List.replicate 5 (.step (i + 9))) ++ [])) := by
  refine ⟨fun h => ?_, fun h => ?_, fun h => ?_⟩
  · have hNever := h [] fourAttempts (.step 4) [] 5 (List.replicate 3 (.step 5)) rfl
      four_attempts_fifth (by decide +kernel) (by decide +kernel) (by decide +kernel)
    have hVerified : (transcript (step spellingEnv)
        (final (step spellingEnv) (initial 0) ([] ++ ((fourAttempts ++ [.step 4]) ++ [])))
        (.step 5 :: List.replicate 3 (.step 5))).any
          (fun e => decide (e.output = some (5, .verified admin (.ok false)))) := by
      decide +kernel
    obtain ⟨e, he, hOutput⟩ := List.any_eq_true.mp hVerified
    exact hNever e he admin (.ok false) (of_decide_eq_true hOutput)
  · have hBound := h [] ((List.range 9).flatMap attempt) [] rfl (by decide +kernel)
      (no_success _ (by decide +kernel))
    exact absurd hBound (by decide +kernel)
  · have hBound := h [] ((List.range 9).flatMap fun i => List.replicate 5 (.step (i + 9))) [] rfl
      (by decide +kernel) (no_success _ (by decide +kernel))
    exact absurd hBound (by decide +kernel)

end OpenRadiusWeb.Login
