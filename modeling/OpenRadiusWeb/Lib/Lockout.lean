import Mathlib.Logic.Basic

/-! # A failure counter with a lockout

One account, guarded by a counter of failed attempts with a fixed window and by a lock.
An attempt checks the lock, decides, and records its failure in several steps: it counts,
gives a new counter its expiry time, and arms the lock when the threshold is reached. At
most one attempt is between its check and the end of its record; other times pass freely.
-/

namespace Lockout

/-- How far the attempt that passed the check is. -/
inductive Phase
  | idle
  | checked
  | rejected
  | counted
  | arming
  | clearing
  deriving DecidableEq

/-- What a step tells the outside. -/
inductive Report
  | quiet
  | rejected
  | accepted
  | counted
  deriving DecidableEq

structure Counter where
  count : Nat
  expiresAt : Option Nat

structure Account where
  now : Nat
  counter : Option Counter
  lockedUntil : Option Nat
  phase : Phase

/-- Later the counter and the lock are gone when their time has passed. -/
def Account.wait (a : Account) (d : Nat) : Account :=
  { a with
    now := a.now + d
    counter := a.counter.filter fun c => c.expiresAt.all (a.now + d ≤ ·)
    lockedUntil := a.lockedUntil.filter (a.now + d ≤ ·) }

def nextPhase (threshold count : Nat) : Phase := if threshold ≤ count then .arming else .idle

inductive Step (threshold ttl : Nat) : Account → Report → Account → Prop
  | stay (a : Account) : Step threshold ttl a .quiet a
  | wait (a : Account) (d : Nat) : Step threshold ttl a .quiet (a.wait d)
  | enter {a : Account} (hPhase : a.phase = .idle) (hLock : a.lockedUntil = none) :
      Step threshold ttl a .quiet { a with phase := .checked }
  | leave {a : Account} (hPhase : a.phase = .checked ∨ a.phase = .clearing) :
      Step threshold ttl a .quiet { a with phase := .idle }
  | reject {a : Account} (hPhase : a.phase = .checked) :
      Step threshold ttl a .rejected { a with phase := .rejected }
  | accept {a : Account} (hPhase : a.phase = .checked) :
      Step threshold ttl a .accepted { a with phase := .clearing }
  | restart {a : Account} (hPhase : a.phase = .rejected) (hCounter : a.counter = none) :
      Step threshold ttl a .counted { a with counter := some ⟨1, none⟩, phase := .counted }
  | increment {a : Account} {c : Counter} (hPhase : a.phase = .rejected)
      (hCounter : a.counter = some c) :
      Step threshold ttl a .counted
        { a with
          counter := some { c with count := c.count + 1 }
          phase := nextPhase threshold (c.count + 1) }
  | expire {a : Account} {c : Counter} (hPhase : a.phase = .counted)
      (hCounter : a.counter = some c) :
      Step threshold ttl a .quiet
        { a with
          counter := some { c with expiresAt := some (a.now + ttl) }
          phase := nextPhase threshold c.count }
  | arm {a : Account} (hPhase : a.phase = .arming) :
      Step threshold ttl a .quiet { a with lockedUntil := some (a.now + ttl), phase := .idle }
  | clear {a : Account} (hPhase : a.phase = .clearing) :
      Step threshold ttl a .quiet
        { a with counter := none, lockedUntil := none, phase := .idle }

/-- The invariant: the lock outlives the counter that armed it, and a counter without an
expiry time is about to get one. -/
structure Good (threshold ttl : Nat) (a : Account) : Prop where
  locked : ∀ x, a.lockedUntil = some x → a.phase = .idle ∧ a.now ≤ x ∧ x ≤ a.now + ttl
  counter : ∀ c, a.counter = some c → 1 ≤ c.count ∧ c.count ≤ threshold
  endless : ∀ n, a.counter = some ⟨n, none⟩ → n = 1 ∧ a.phase = .counted
  expiring : ∀ n t, a.counter = some ⟨n, some t⟩ →
    a.now ≤ t ∧ t ≤ a.now + ttl ∧ a.phase ≠ .counted
  full : ∀ t, a.counter = some ⟨threshold, some t⟩ →
    a.phase = .arming ∨ ∃ x, a.lockedUntil = some x ∧ t ≤ x
  counted : a.phase = .counted → a.counter = some ⟨1, none⟩

variable {threshold ttl : Nat} {a a' : Account} {r : Report}

theorem Good.unlocked (h : Good threshold ttl a) (hPhase : a.phase ≠ .idle) :
    a.lockedUntil = none := by
  cases hLock : a.lockedUntil with
  | none => rfl
  | some x => exact absurd (h.locked x hLock).1 hPhase

theorem Good.recording {c : Counter} (h : Good threshold ttl a)
    (hPhase : a.phase = .checked ∨ a.phase = .rejected) (hCounter : a.counter = some c) :
    c.count < threshold ∧ ∃ t, c.expiresAt = some t ∧ a.now ≤ t := by
  obtain ⟨n, _ | t⟩ := c
  · have hCounted := (h.endless n hCounter).2
    grind
  · refine ⟨?_, t, rfl, (h.expiring n t hCounter).1⟩
    have hLe := (h.counter _ hCounter).2
    rcases Nat.lt_or_eq_of_le hLe with hLt | rfl
    · exact hLt
    · rcases h.full t hCounter with hArming | ⟨x, hLock, -⟩
      · grind
      · have hIdle := (h.locked x hLock).1
        grind

theorem Good.step (hTwo : 2 ≤ threshold) (h : Good threshold ttl a)
    (hStep : Step threshold ttl a r a') : Good threshold ttl a' := by
  have hRecording := fun c => h.recording (c := c)
  obtain ⟨hLocked, hCount, hEndless, hExpiring, hFull, hCounted⟩ := h
  cases hStep with
  | stay => exact ⟨hLocked, hCount, hEndless, hExpiring, hFull, hCounted⟩
  | wait d => constructor <;> grind [Account.wait, Option.filter_eq_some_iff]
  | enter hPhase hLock => constructor <;> grind
  | leave hPhase => constructor <;> grind
  | reject hPhase => constructor <;> grind
  | accept hPhase => constructor <;> grind
  | restart hPhase hCounter => constructor <;> grind
  | @increment c hPhase hCounter =>
    obtain ⟨hLt, t, ht, hNow⟩ := hRecording c (.inr hPhase) hCounter
    obtain ⟨n, e⟩ := c
    obtain rfl : e = some t := ht
    have hLater := (hExpiring n t hCounter).2.1
    constructor <;> grind [nextPhase]
  | expire hPhase hCounter => constructor <;> grind [nextPhase]
  | arm hPhase => constructor <;> grind
  | clear hPhase => constructor <;> grind

/-- The rejections of a window that starts at `start`, when it has lasted less than the
time-to-live: a counter that outlives the window was made in it or is bounded by the
threshold, and one that expires in it was made before. -/
structure Within (threshold ttl start rejections : Nat) (a : Account) : Prop where
  /-- Nothing is rejected while an accepted attempt clears the counter. -/
  clearing : a.phase = .clearing → rejections = 0
  locked : ∀ x, a.lockedUntil = some x → rejections = 0 ∨ start + ttl ≤ x
  total : rejections + 2 ≤ 2 * threshold
  fresh : a.phase ≠ .arming → a.lockedUntil = none → a.counter = none →
    rejections + 2 ≤ threshold + (if a.phase = .rejected then 1 else 0)
  old : ∀ n t, a.phase ≠ .arming → a.lockedUntil = none → a.counter = some ⟨n, some t⟩ →
    t < start + ttl → rejections + 1 ≤ n + (if a.phase = .rejected then 1 else 0)
  lasting : ∀ n t, a.phase ≠ .arming → a.lockedUntil = none → a.counter = some ⟨n, some t⟩ →
    start + ttl ≤ t →
    rejections + 2 ≤ threshold + n + (if a.phase = .rejected then 1 else 0)
  counted : a.phase = .counted → rejections + 1 ≤ threshold

theorem Within.start (hTwo : 2 ≤ threshold) (h : Good threshold ttl a) :
    Within threshold ttl a.now 0 a := by
  obtain ⟨hLocked, hCount, hEndless, hExpiring, hFull, hCounted⟩ := h
  constructor <;> grind

theorem Within.mono {start m n : Nat} (h : Within threshold ttl start n a) (hLe : m ≤ n) :
    Within threshold ttl start m a := by
  obtain ⟨hClearing, hLocked, hTotal, hFresh, hOld, hLasting, hFirst⟩ := h
  constructor <;> grind

def Report.rejections : Report → Nat
  | .rejected => 1
  | _ => 0

/-- An attempt that passed the check leaves room for its rejection. -/
theorem Within.room {start n : Nat} (hGood : Good threshold ttl a)
    (h : Within threshold ttl start n a) (hPhase : a.phase = .checked) :
    n + 3 ≤ 2 * threshold := by
  have hLock : a.lockedUntil = none := hGood.unlocked (by rw [hPhase]; decide)
  have hArming : a.phase ≠ .arming := by
    rw [hPhase]
    decide
  have hNot : ¬a.phase = .rejected := by
    rw [hPhase]
    decide
  cases hCounter : a.counter with
  | none =>
    have hFresh := h.fresh hArming hLock hCounter
    rw [if_neg hNot] at hFresh
    omega
  | some c =>
    obtain ⟨hLt, t, ht, -⟩ := hGood.recording (.inl hPhase) hCounter
    obtain ⟨m, e⟩ := c
    obtain rfl : e = some t := ht
    dsimp only at hLt
    rcases Nat.lt_or_ge t (start + ttl) with hEnds | hLasts
    · have hOld := h.old m t hArming hLock hCounter hEnds
      rw [if_neg hNot] at hOld
      omega
    · have hLasting := h.lasting m t hArming hLock hCounter hLasts
      rw [if_neg hNot] at hLasting
      omega

/-- A counter or a lock that ends in the window was made before it. -/
theorem Within.wait {start n d : Nat} (hTwo : 2 ≤ threshold) (hGood : Good threshold ttl a)
    (h : Within threshold ttl start n a) (hOpen : a.now + d < start + ttl) :
    Within threshold ttl start n (a.wait d) := by
  obtain ⟨hLocked, hCount, hEndless, hExpiring, hFull, hCounted⟩ := hGood
  obtain ⟨hClearing, hLockTime, hTotal, hFresh, hOld, hLasting, hFirst⟩ := h
  have hGone : (a.wait d).lockedUntil = none → n = 0 ∨ a.lockedUntil = none := by
    intro hLock
    cases hBefore : a.lockedUntil with
    | none => exact .inr rfl
    | some x =>
      have hLapsed : x < a.now + d := by simpa [Account.wait, hBefore] using hLock
      rcases hLockTime x hBefore with hZero | hLater
      · exact .inl hZero
      · omega
  have hKept : ∀ c, (a.wait d).counter = some c → a.counter = some c := by
    grind [Account.wait, Option.filter_eq_some_iff]
  refine ⟨hClearing, ?_, hTotal, ?_, ?_, ?_, hFirst⟩
  · grind [Account.wait, Option.filter_eq_some_iff]
  · intro hPhase hLock hCounter
    change a.phase ≠ .arming at hPhase
    change n + 2 ≤ threshold + (if a.phase = .rejected then 1 else 0)
    rcases hGone hLock with rfl | hNone
    · omega
    · cases hBefore : a.counter with
      | none => exact hFresh hPhase hNone hBefore
      | some c =>
        obtain ⟨m, _ | t⟩ := c
        · have hStill : (a.wait d).counter = some ⟨m, none⟩ := by
            simp [Account.wait, hBefore]
          rw [hStill] at hCounter
          cases hCounter
        · have hLapsed : t < a.now + d := by
            grind [Account.wait, Option.filter_eq_none_iff]
          have hBelow : m < threshold := by grind
          have hBound := hOld m t hPhase hNone hBefore (by omega)
          omega
  · intro m t hPhase hLock hCounter hEnds
    have hPos := (hCount _ (hKept _ hCounter)).1
    rcases hGone hLock with rfl | hNone
    · dsimp only at hPos
      omega
    · exact hOld m t hPhase hNone (hKept _ hCounter) hEnds
  · intro m t hPhase hLock hCounter hLasts
    rcases hGone hLock with rfl | hNone
    · omega
    · exact hLasting m t hPhase hNone (hKept _ hCounter) hLasts

theorem Within.step {start n : Nat} (hTwo : 2 ≤ threshold) (hGood : Good threshold ttl a)
    (h : Within threshold ttl start n a) (hStart : start ≤ a.now)
    (hStep : Step threshold ttl a r a')
    (hOpen : a'.now < start + ttl) (hAccepted : r ≠ .accepted) :
    Within threshold ttl start (n + r.rejections) a' := by
  have hRecording := fun c => hGood.recording (c := c)
  have hRoom := h.room hGood
  have hWait := fun d => h.wait (d := d) hTwo hGood
  have hUnlocked := hGood.unlocked
  obtain ⟨hLocked, hCount, hEndless, hExpiring, hFull, hCounted⟩ := hGood
  obtain ⟨hClearing, hLockTime, hTotal, hFresh, hOld, hLasting, hFirst⟩ := h
  cases hStep with
  | stay => exact ⟨hClearing, hLockTime, hTotal, hFresh, hOld, hLasting, hFirst⟩
  | wait d => exact hWait d hOpen
  | enter hPhase hLock => constructor <;> grind [Report.rejections]
  | leave hPhase => constructor <;> grind [Report.rejections]
  | reject hPhase => constructor <;> grind [Report.rejections]
  | accept hPhase => exact absurd rfl hAccepted
  | restart hPhase hCounter => constructor <;> grind [Report.rejections]
  | @increment c hPhase hCounter =>
    obtain ⟨hLt, t, ht, hNow⟩ := hRecording c (.inr hPhase) hCounter
    obtain ⟨k, e⟩ := c
    obtain rfl : e = some t := ht
    have hLater := (hExpiring k t hCounter).2.1
    constructor <;> grind [Report.rejections, nextPhase]
  | expire hPhase hCounter => constructor <;> grind [Report.rejections, nextPhase]
  | arm hPhase => constructor <;> grind [Report.rejections]
  | clear hPhase => constructor <;> grind [Report.rejections]

/-- The rejections recorded since the counter was last new or cleared. -/
def Since (recorded : Nat) (a : Account) : Prop :=
  recorded = 0 ∨ a.phase ≠ .clearing ∧ ∃ c, a.counter = some c ∧ recorded ≤ c.count

def Report.recorded : Report → Nat
  | .counted => 1
  | _ => 0

/-- The counter runs out as time passes. -/
def Lapses (a a' : Account) : Prop :=
  a.now < a'.now ∧ a.counter ≠ none ∧ a'.counter = none

theorem Good.wait_zero (h : Good threshold ttl a) : (a.wait 0).counter = a.counter := by
  cases hCounter : a.counter with
  | none => simp [Account.wait, hCounter]
  | some c =>
    obtain ⟨n, _ | t⟩ := c
    · simp [Account.wait, hCounter]
    · have hNow := (h.expiring n t hCounter).1
      simp [Account.wait, hCounter, hNow]

theorem Since.step {n : Nat} (hGood : Good threshold ttl a) (h : Since n a)
    (hStep : Step threshold ttl a r a') (hLapses : ¬Lapses a a') (hAccepted : r ≠ .accepted) :
    Since (n + r.recorded) a' := by
  cases hStep with
  | stay => exact h
  | wait d =>
    rcases h with rfl | ⟨hPhase, c, hCounter, hLe⟩
    · exact .inl rfl
    · have hStill : (a.wait d).counter ≠ none := by
        intro hGone
        rcases Nat.eq_zero_or_pos d with rfl | hPos
        · rw [hGood.wait_zero, hCounter] at hGone
          cases hGone
        · exact hLapses ⟨Nat.lt_add_of_pos_right hPos, by rw [hCounter]; exact Option.some_ne_none c,
            hGone⟩
      obtain ⟨c', hLater⟩ := Option.ne_none_iff_exists'.mp hStill
      have hSame := (Option.filter_eq_some_iff.mp hLater).1
      rw [hCounter] at hSame
      cases hSame
      exact .inr ⟨hPhase, c, hLater, hLe⟩
  | accept hPhase => exact absurd rfl hAccepted
  | _ => grind [Since, Report.recorded, nextPhase]

theorem Since.arms {n : Nat} (h : Since n a)
    (hTwo : 2 ≤ threshold) (hn : threshold ≤ n + 1)
    (hStep : Step threshold ttl a .counted a') : a'.phase = .arming := by
  cases hStep with
  | restart hPhase hCounter => grind [Since]
  | increment hPhase hCounter => grind [Since, nextPhase]

/-- The lock is armed for a full time-to-live after `start`, or is about to be. -/
def Armed (ttl start : Nat) (a : Account) : Prop :=
  a.phase = .arming ∧ start ≤ a.now ∨ ∃ x, a.lockedUntil = some x ∧ start + ttl ≤ x

theorem Armed.step {start : Nat} (hGood : Good threshold ttl a) (h : Armed ttl start a)
    (hStep : Step threshold ttl a r a') (hOpen : a'.now ≤ start + ttl) :
    Armed ttl start a' := by
  have hLocked := hGood.locked
  cases hStep with
  | wait d =>
    rcases h with ⟨hPhase, hStart⟩ | ⟨x, hLock, hLe⟩
    · exact .inl ⟨hPhase, Nat.le_add_right_of_le hStart⟩
    · refine .inr ⟨x, ?_, hLe⟩
      have hLive : a.now + d ≤ x := Nat.le_trans hOpen hLe
      simp [Account.wait, hLock, hLive]
  | _ => grind [Armed]

/-- The account lets no attempt pass the check. -/
def Shut (a : Account) : Prop := a.phase = .arming ∨ a.lockedUntil ≠ none

theorem Armed.shut {start : Nat} (h : Armed ttl start a) : Shut a := by
  rcases h with ⟨hPhase, -⟩ | ⟨x, hLock, -⟩
  · exact .inl hPhase
  · exact .inr (by rw [hLock]; exact Option.some_ne_none x)

/-- Only time opens an account that is shut. -/
theorem Shut.step (hGood : Good threshold ttl a) (h : Shut a)
    (hStep : Step threshold ttl a r a')
    (hTime : a'.now = a.now ∨ (a.lockedUntil ≠ none → a'.lockedUntil ≠ none)) : Shut a' := by
  have hUnlocked := hGood.unlocked
  cases hStep with
  | wait d =>
    rcases h with hPhase | hLock
    · exact .inl hPhase
    · obtain ⟨x, hx⟩ := Option.ne_none_iff_exists'.mp hLock
      rcases hTime with hSame | hStill
      · have hLive : a.now + d ≤ x := by
          change a.now + d = a.now at hSame
          have hNow := (hGood.locked x hx).2.1
          omega
        exact .inr (by simp [Account.wait, hx, hLive])
      · exact .inr (hStill hLock)
  | _ => grind [Shut]

end Lockout
