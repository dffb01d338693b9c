import Mathlib.Logic.Function.Basic

/-! # Keys with an expiry time

A keyspace as Redis keeps it: every entry may carry the time after which it no longer
exists. An expired entry stays in the table, but no command sees it. Commands are
atomic; times are in milliseconds and times-to-live in seconds.
-/

namespace Redis

inductive Value
  | int (n : Nat)
  | text (s : String)
  deriving DecidableEq

structure Entry where
  value : Value
  expiresAt : Option Nat
  deriving DecidableEq

/-- An entry is seen up to its expiry time. -/
def Entry.live (e : Entry) (now : Nat) : Bool := e.expiresAt.all (now ≤ ·)

def Keyspace : Type := String → Option Entry

def get (ks : Keyspace) (now : Nat) (key : String) : Option Entry :=
  (ks key).filter (·.live now)

def put (ks : Keyspace) (key : String) (e : Entry) : Keyspace := Function.update ks key (some e)

def erase (ks : Keyspace) (key : String) : Keyspace := Function.update ks key none

def deadline (now ttl : Nat) : Nat := now + ttl * 1000

/-- `INCR`: a missing key counts from 0 and gets no expiry time, another keeps its own. A
value that is not a number is an error. -/
def incr (ks : Keyspace) (now : Nat) (key : String) : Option (Nat × Keyspace) :=
  match get ks now key with
  | none => some (1, put ks key ⟨.int 1, none⟩)
  | some ⟨.int n, expiresAt⟩ => some (n + 1, put ks key ⟨.int (n + 1), expiresAt⟩)
  | some ⟨.text _, _⟩ => none

/-- `EXPIRE`, which does nothing to a missing key. -/
def expire (ks : Keyspace) (now : Nat) (key : String) (ttl : Nat) : Keyspace :=
  match get ks now key with
  | none => ks
  | some e => put ks key { e with expiresAt := some (deadline now ttl) }

def setex (ks : Keyspace) (now : Nat) (key : String) (ttl : Nat) (value : String) : Keyspace :=
  put ks key ⟨.text value, some (deadline now ttl)⟩

def keyExists (ks : Keyspace) (now : Nat) (key : String) : Bool := (get ks now key).isSome

/-- The key exists and is never going to expire. -/
def Lasting (ks : Keyspace) (key : String) : Prop := ∃ value, ks key = some ⟨value, none⟩

section Lemmas

variable {ks ks' : Keyspace} {now later ttl : Nat} {key other : String} {e : Entry}

@[simp] theorem put_self : put ks key e key = some e := Function.update_self ..

@[simp] theorem put_of_ne (h : other ≠ key) : put ks key e other = ks other :=
  Function.update_of_ne h ..

@[simp] theorem erase_self : erase ks key key = none := Function.update_self ..

@[simp] theorem erase_of_ne (h : other ≠ key) : erase ks key other = ks other :=
  Function.update_of_ne h ..

theorem get_congr (h : ks' key = ks key) : get ks' now key = get ks now key := by
  unfold get
  rw [h]

theorem get_put (h : e.live now) : get (put ks key e) now key = some e := by
  simp [get, Option.filter, h]

theorem get_erase : get (erase ks key) now key = none := by
  simp [get]

theorem live_antitone (hLe : now ≤ later) (h : e.live later) : e.live now := by
  obtain ⟨value, _ | expiresAt⟩ := e
  · rfl
  · simp only [Entry.live, Option.all_some, decide_eq_true_eq] at h ⊢
    omega

theorem get_later (hLe : now ≤ later) :
    get ks later key = (get ks now key).filter (·.live later) := by
  unfold get
  cases ks key with
  | none => rfl
  | some e =>
    rw [Option.filter_filter]
    congr 1
    funext e
    cases h : e.live later with
    | false => simp
    | true => simp [live_antitone hLe h]

theorem incr_of_none (h : get ks now key = none) :
    incr ks now key = some (1, put ks key ⟨.int 1, none⟩) := by
  simp [incr, h]

theorem incr_of_int {n : Nat} {expiresAt : Option Nat}
    (h : get ks now key = some ⟨.int n, expiresAt⟩) :
    incr ks now key = some (n + 1, put ks key ⟨.int (n + 1), expiresAt⟩) := by
  simp [incr, h]

theorem incr_of_ne {n : Nat} (h : incr ks now key = some (n, ks')) (hNe : other ≠ key) :
    ks' other = ks other := by
  unfold incr at h
  split at h
  all_goals
    cases h <;> exact put_of_ne hNe

theorem expire_of_some (h : get ks now key = some e) :
    expire ks now key ttl = put ks key { e with expiresAt := some (deadline now ttl) } := by
  simp [expire, h]

theorem expire_of_ne (hNe : other ≠ key) : expire ks now key ttl other = ks other := by
  unfold expire
  cases get ks now key with
  | none => rfl
  | some e => exact put_of_ne hNe

theorem setex_of_ne {value : String} (hNe : other ≠ key) :
    setex ks now key ttl value other = ks other :=
  put_of_ne hNe

/-- Only a new counter is without an expiry time that was not so before. -/
theorem Lasting.of_incr {n : Nat} (h : incr ks now key = some (n, ks')) (hLasting : Lasting ks' other) :
    (other = key ∧ n = 1) ∨ Lasting ks other := by
  by_cases hKey : other = key
  · subst hKey
    unfold incr at h
    split at h
    · cases h
      exact .inl ⟨rfl, rfl⟩
    · rename_i count expiresAt hGet
      cases h
      obtain ⟨value, hValue⟩ := hLasting
      rw [put_self] at hValue
      cases hValue
      exact .inr ⟨_, (Option.filter_eq_some_iff.mp hGet).1⟩
    · cases h
  · obtain ⟨value, hValue⟩ := hLasting
    rw [incr_of_ne h hKey] at hValue
    exact .inr ⟨value, hValue⟩

theorem Lasting.get (h : Lasting ks key) (now : Nat) : get ks now key ≠ none := by
  obtain ⟨value, hValue⟩ := h
  unfold Redis.get
  rw [hValue]
  exact fun hNone => nomatch hNone

/-- A key that is given an expiry time is not lasting. -/
theorem Lasting.of_expire (h : Lasting (expire ks now key ttl) other) :
    Lasting ks other ∧ other ≠ key := by
  have hOther : other ≠ key := by
    rintro rfl
    unfold expire at h
    cases hGet : Redis.get ks now other with
    | none =>
      simp only [hGet] at h
      exact h.get now hGet
    | some e =>
      simp only [hGet] at h
      obtain ⟨value, hValue⟩ := h
      rw [put_self] at hValue
      cases hValue
  obtain ⟨value, hValue⟩ := h
  rw [expire_of_ne hOther] at hValue
  exact ⟨⟨value, hValue⟩, hOther⟩

theorem Lasting.of_setex {value : String} (h : Lasting (setex ks now key ttl value) other) :
    Lasting ks other := by
  obtain ⟨stored, hStored⟩ := h
  by_cases hKey : other = key
  · subst hKey
    rw [setex, put_self] at hStored
    cases hStored
  · rw [setex_of_ne hKey] at hStored
    exact ⟨stored, hStored⟩

theorem Lasting.of_erase (h : Lasting (erase ks key) other) : Lasting ks other := by
  obtain ⟨value, hValue⟩ := h
  by_cases hKey : other = key
  · subst hKey
    rw [erase_self] at hValue
    cases hValue
  · rw [erase_of_ne hKey] at hValue
    exact ⟨value, hValue⟩

end Lemmas

end Redis
