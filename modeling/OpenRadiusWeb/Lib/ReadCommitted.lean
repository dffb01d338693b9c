import OpenRadiusWeb.Lib.Session
import OpenRadiusWeb.Lib.Transcript
import Mathlib.Logic.Function.Basic

/-! # Transactions at READ COMMITTED

Any number of transactions run a program each, statement by statement, in any order. A
statement sees what is committed and what its own transaction wrote. An UPDATE chooses its
rows when it starts; it waits while one of them is written by another open transaction, and
then goes by the latest versions.
-/

namespace ReadCommitted

/-- A row under its key: what is committed, and what an open transaction has written. -/
structure Slot (R : Type) where
  committed : Option R
  pending : Option (Nat × Option R)

namespace Slot

variable {R : Type}

def empty : Slot R := ⟨none, none⟩

/-- What transaction `i` has written. -/
def own (s : Slot R) (i : Nat) : Option (Option R) :=
  match s.pending with
  | some (j, version) => if j = i then some version else none
  | none => none

/-- What transaction `i` sees. -/
def view (s : Slot R) (i : Nat) : Option R := (s.own i).getD s.committed

/-- Is the row locked by a transaction other than `i`? -/
def heldByOther (s : Slot R) (i : Nat) : Bool :=
  match s.pending with
  | some (j, _) => decide (j ≠ i)
  | none => false

def write (s : Slot R) (i : Nat) (version : Option R) : Slot R := ⟨s.committed, some (i, version)⟩

def commit (s : Slot R) (i : Nat) : Slot R :=
  match s.own i with
  | some version => ⟨version, none⟩
  | none => s

def rollback (s : Slot R) (i : Nat) : Slot R :=
  match s.own i with
  | some _ => ⟨s.committed, none⟩
  | none => s

@[simp] theorem own_write_self (s : Slot R) (i : Nat) (version : Option R) :
    (s.write i version).own i = some version := if_pos rfl

@[simp] theorem committed_write (s : Slot R) (i : Nat) (version : Option R) :
    (s.write i version).committed = s.committed := rfl

theorem own_eq_some {s : Slot R} {i : Nat} {version : Option R} :
    s.own i = some version ↔ s.pending = some (i, version) := by
  unfold own
  rcases s.pending with _ | ⟨j, v⟩
  · simp
  · by_cases h : j = i <;> simp [h]

theorem own_unique {s : Slot R} {i j : Nat} {v w : Option R} (hi : s.own i = some v)
    (hj : s.own j = some w) : i = j := by
  rw [own_eq_some] at hi hj
  have hSame := hi.symm.trans hj
  simp only [Option.some.injEq, Prod.mk.injEq] at hSame
  exact hSame.1

theorem own_of_not_held {s : Slot R} {i j : Nat} (h : s.heldByOther i = false) (hij : j ≠ i) :
    s.own j = none := by
  unfold heldByOther at h
  unfold own
  rcases hPending : s.pending with _ | ⟨k, v⟩
  · rfl
  · rw [hPending] at h
    have hk : k = i := by simpa using h
    exact if_neg (hk ▸ Ne.symm hij)

theorem own_write_other {s : Slot R} {i j : Nat} (h : s.heldByOther i = false) (hij : j ≠ i)
    (version : Option R) : (s.write i version).own j = s.own j := by
  rw [own_of_not_held h hij]
  exact if_neg (Ne.symm hij)

theorem committed_commit (s : Slot R) (i : Nat) : (s.commit i).committed = s.view i := by
  unfold commit view
  cases s.own i <;> rfl

theorem own_commit_self (s : Slot R) (i : Nat) : (s.commit i).own i = none := by
  unfold commit
  cases h : s.own i with
  | none => exact h
  | some version => rfl

theorem own_commit_other {s : Slot R} {i j : Nat} (hij : j ≠ i) :
    (s.commit i).own j = s.own j := by
  unfold commit
  cases h : s.own i with
  | none => rfl
  | some version =>
    cases hj : s.own j with
    | none => rfl
    | some w => exact absurd (own_unique hj h) hij

@[simp] theorem committed_rollback (s : Slot R) (i : Nat) :
    (s.rollback i).committed = s.committed := by
  unfold rollback
  cases s.own i <;> rfl

theorem own_rollback_self (s : Slot R) (i : Nat) : (s.rollback i).own i = none := by
  unfold rollback
  cases h : s.own i with
  | none => exact h
  | some version => rfl

theorem own_rollback_other {s : Slot R} {i j : Nat} (hij : j ≠ i) :
    (s.rollback i).own j = s.own j := by
  unfold rollback
  cases h : s.own i with
  | none => rfl
  | some version =>
    cases hj : s.own j with
    | none => rfl
    | some w => exact absurd (own_unique hj h) hij

end Slot

section Machine

variable {R κ ε α : Type} {ρ : κ → Type}

inductive Phase (κ : Type) (ρ : κ → Type) (ε α : Type)
  | running (p : Program κ ρ ε α)
  /-- An UPDATE has chosen its rows and waits for them. -/
  | waiting (c : κ) (targets : List String) (next : Except ε (ρ c) → Program κ ρ ε α)
  | ended (r : Except ε α)

structure Proc (κ : Type) (ρ : κ → Type) (ε α : Type) where
  aborted : Bool
  phase : Phase κ ρ ε α

structure State (R κ : Type) (ρ : κ → Type) (ε α : Type) where
  clock : Nat
  /-- The keys that were ever used. -/
  keys : List String
  slot : String → Slot R
  proc : Nat → Proc κ ρ ε α

structure Env (R κ : Type) (ρ : κ → Type) (ε : Type) where
  /-- The statement of a command; nothing for a call to the outside. -/
  statement : (c : κ) → Option (SqlAction R (ρ c))
  /-- Do two rows violate a UNIQUE constraint? -/
  clashes : R → R → Bool
  external : Nat → Nat → (c : κ) → Except ε (ρ c)
  newKey : Nat → String
  uniqueViolation : ε
  failedTransaction : ε

inductive Label (ε : Type)
  | step (i : Nat)
  /-- The statement at hand fails. -/
  | fail (i : Nat) (e : ε)
  /-- The session ends without a commit. -/
  | die (i : Nat) (e : ε)

namespace State

variable (s : State R κ ρ ε α)

def visible (i : Nat) : List R := s.keys.filterMap fun k => (s.slot k).view i

/-- The keys of the rows that a statement of `i` finds. -/
def found (i : Nat) (p : R → Bool) : List String :=
  s.keys.filter fun k => ((s.slot k).view i).any p

/-- The rows at the given keys are updated as far as they still satisfy `p`. -/
def rewrite (i : Nat) (p : R → Bool) (f : R → Option R) (targets : List String) :
    String → Slot R := fun k =>
  if k ∈ targets then
    match ((s.slot k).view i).filter p with
    | some row => (s.slot k).write i (f row)
    | none => s.slot k
  else s.slot k

def rewritten (i : Nat) (p : R → Bool) (f : R → Option R) (targets : List String) : List R :=
  targets.filterMap fun k => (((s.slot k).view i).filter p).bind f

def setPhase (i : Nat) (phase : Phase κ ρ ε α) : State R κ ρ ε α :=
  { s with proc := Function.update s.proc i { s.proc i with phase := phase } }

def rollback (i : Nat) : State R κ ρ ε α := { s with slot := fun k => (s.slot k).rollback i }

def commit (i : Nat) : State R κ ρ ε α := { s with slot := fun k => (s.slot k).commit i }

/-- An aborted transaction gives its locks up at once and goes on until it ends. -/
def abort (i : Nat) (p : Program κ ρ ε α) : State R κ ρ ε α :=
  { s.rollback i with proc := Function.update s.proc i ⟨true, .running p⟩ }

def insertRow (i : Nat) (key : String) (row : R) : State R κ ρ ε α :=
  { s with
    keys := s.keys ++ [key]
    slot := Function.update s.slot key ⟨none, some (i, some row)⟩ }

end State

/-- How an INSERT goes: a row of another open transaction has to be waited for. -/
inductive InsertCheck
  | clash
  | wait
  | free
  deriving DecidableEq

/-- A key that was ever used is never free. -/
def insertCheck (env : Env R κ ρ ε) (s : State R κ ρ ε α) (i : Nat) (key : String) (row : R) :
    InsertCheck :=
  if key ∈ s.keys ∨ s.keys.any (fun k => !(s.slot k).heldByOther i &&
      ((s.slot k).view i).any (env.clashes row)) then .clash
  else if s.keys.any (fun k => (s.slot k).heldByOther i &&
      ((s.slot k).committed.any (env.clashes row) ||
        ((s.slot k).pending.bind Prod.snd).any (env.clashes row))) then .wait
  else .free

/-- The statement `c` of transaction `i`. -/
def begin (env : Env R κ ρ ε) (i : Nat) (c : κ) (next : Except ε (ρ c) → Program κ ρ ε α)
    (s : State R κ ρ ε α) : SqlAction R (ρ c) → State R κ ρ ε α
  | .select p answer => s.setPhase i (.running (next (.ok (answer ((s.visible i).filter p)))))
  | .append answer => s.setPhase i (.running (next (.ok answer)))
  | .update p _ _ => s.setPhase i (.waiting c (s.found i p) next)
  | .insert row answer =>
    let key := env.newKey s.clock
    match insertCheck env s i key (row key) with
    | .clash => s.abort i (next (.error env.uniqueViolation))
    | .wait => s
    | .free =>
      (s.insertRow i key (row key)).setPhase i (.running (next (.ok (answer (row key)))))

def advance (env : Env R κ ρ ε) (i : Nat) (s : State R κ ρ ε α) : State R κ ρ ε α :=
  match (s.proc i).phase with
  | .ended _ => s
  | .running (.ret a) =>
    (if (s.proc i).aborted then s.rollback i else s.commit i).setPhase i (.ended (.ok a))
  | .running (.raise e) => (s.rollback i).setPhase i (.ended (.error e))
  | .running (.call c next) =>
    match env.statement c with
    | none => s.setPhase i (.running (next (env.external i s.clock c)))
    | some action =>
      if (s.proc i).aborted then
        s.setPhase i (.running (next (.error env.failedTransaction)))
      else begin env i c next s action
  | .waiting c targets next =>
    match env.statement c with
    | some (.update p f answer) =>
      if targets.any fun k => (s.slot k).heldByOther i then s
      else
        State.setPhase { s with slot := s.rewrite i p f targets } i
          (.running (next (.ok (answer (s.rewritten i p f targets)))))
    | _ => s

/-- The statement at hand, or the commit, fails. -/
def failNow (env : Env R κ ρ ε) (i : Nat) (e : ε) (s : State R κ ρ ε α) : State R κ ρ ε α :=
  match (s.proc i).phase with
  | .running (.ret _) => (s.rollback i).setPhase i (.ended (.error e))
  | .running (.call c next) =>
    match env.statement c with
    | some _ => s.abort i (next (.error e))
    | none => s
  | .waiting _ _ next => s.abort i (next (.error e))
  | _ => s

def finish (i : Nat) (e : ε) (s : State R κ ρ ε α) : State R κ ρ ε α :=
  match (s.proc i).phase with
  | .ended _ => s
  | _ => (s.rollback i).setPhase i (.ended (.error e))

def step (env : Env R κ ρ ε) : Label ε → State R κ ρ ε α → Unit × State R κ ρ ε α
  | .step i, s => ((), { advance env i s with clock := s.clock + 1 })
  | .fail i e, s => ((), { failNow env i e s with clock := s.clock + 1 })
  | .die i e, s => ((), finish i e s)

/-! ## What others see of a step -/

section Unseen

variable {s s' : State R κ ρ ε α} {i j : Nat}

/-- No version of the row is left. -/
def Dead (s : State R κ ρ ε α) (k : String) : Prop :=
  (s.slot k).committed = none ∧ (s.slot k).pending = none

/-- Nothing exists under a key that was never used. -/
def Keyed (s : State R κ ρ ε α) : Prop := ∀ k, k ∉ s.keys → Dead s k

/-- The rows are the same for transaction `j`. -/
structure Alike (s s' : State R κ ρ ε α) (j : Nat) : Prop where
  committed : ∀ k, (s'.slot k).committed = (s.slot k).committed
  own : ∀ k, (s'.slot k).own j = (s.slot k).own j
  keys : ∀ k ∈ s.keys, k ∈ s'.keys
  dead : ∀ k ∈ s.keys, Dead s k → Dead s' k

/-- What transaction `j` notices of a step of another one that commits nothing. -/
structure Unseen (s s' : State R κ ρ ε α) (j : Nat) : Prop extends Alike s s' j where
  proc : s'.proc j = s.proc j

theorem Alike.view (h : Alike s s' j) (k : String) : (s'.slot k).view j = (s.slot k).view j := by
  rw [Slot.view, Slot.view, h.own, h.committed]

theorem alike_refl (s : State R κ ρ ε α) (j : Nat) : Alike s s j :=
  ⟨fun _ => rfl, fun _ => rfl, fun _ h => h, fun _ _ h => h⟩

theorem alike_setPhase (phase : Phase κ ρ ε α) : Alike s (s.setPhase i phase) j :=
  ⟨fun _ => rfl, fun _ => rfl, fun _ h => h, fun _ _ h => h⟩

theorem Alike.trans {s'' : State R κ ρ ε α} (h : Alike s s' j) (h' : Alike s' s'' j) :
    Alike s s'' j where
  committed k := (h'.committed k).trans (h.committed k)
  own k := (h'.own k).trans (h.own k)
  keys k hk := h'.keys k (h.keys k hk)
  dead k hk hDead := h'.dead k (h.keys k hk) (h.dead k hk hDead)

namespace Unseen

theorem refl (s : State R κ ρ ε α) (j : Nat) : Unseen s s j := ⟨alike_refl s j, rfl⟩

theorem trans {s'' : State R κ ρ ε α} (h : Unseen s s' j) (h' : Unseen s' s'' j) :
    Unseen s s'' j := ⟨h.toAlike.trans h'.toAlike, h'.proc.trans h.proc⟩

theorem setPhase (hij : j ≠ i) (phase : Phase κ ρ ε α) : Unseen s (s.setPhase i phase) j :=
  ⟨alike_setPhase phase, Function.update_of_ne hij _ _⟩

theorem rollback (hij : j ≠ i) : Unseen s (s.rollback i) j where
  committed k := Slot.committed_rollback _ _
  own k := Slot.own_rollback_other hij
  keys k hk := hk
  dead k _ hDead := by
    refine ⟨(Slot.committed_rollback _ _).trans hDead.1, ?_⟩
    have hNone : (s.slot k).own i = none := by rw [Slot.own, hDead.2]
    simp [State.rollback, Slot.rollback, hNone, hDead.2]
  proc := rfl

theorem abort (hij : j ≠ i) (p : Program κ ρ ε α) : Unseen s (s.abort i p) j :=
  (rollback hij).trans
    ⟨⟨fun _ => rfl, fun _ => rfl, fun _ h => h, fun _ _ h => h⟩, Function.update_of_ne hij _ _⟩

theorem insertRow (hKeyed : Keyed s) (hij : j ≠ i) {key : String} (hFresh : key ∉ s.keys) (row : R) :
    Unseen s (s.insertRow i key row) j where
  committed k := by
    by_cases hk : k = key
    · subst hk
      simp [State.insertRow, (hKeyed k hFresh).1]
    · simp [State.insertRow, hk]
  own k := by
    by_cases hk : k = key
    · subst hk
      simp [State.insertRow, Slot.own, (hKeyed k hFresh).2, Ne.symm hij]
    · simp [State.insertRow, hk]
  keys k hk := List.mem_append_left _ hk
  dead k hk hDead := by
    have hOther : k ≠ key := fun hSame => hFresh (hSame ▸ hk)
    simpa [Dead, State.insertRow, hOther] using hDead
  proc := rfl

end Unseen

theorem rewrite_slot (s : State R κ ρ ε α) (i : Nat) (p : R → Bool) (f : R → Option R)
    (targets : List String) (k : String) :
    s.rewrite i p f targets k = s.slot k ∨
      ∃ row, k ∈ targets ∧ (s.slot k).view i = some row ∧ p row = true ∧
        s.rewrite i p f targets k = (s.slot k).write i (f row) := by
  unfold State.rewrite
  by_cases hk : k ∈ targets
  · rw [if_pos hk]
    cases hFound : ((s.slot k).view i).filter p with
    | none => exact .inl rfl
    | some row =>
      rw [Option.filter_eq_some_iff] at hFound
      exact .inr ⟨row, hk, hFound.1, hFound.2, rfl⟩
  · exact .inl (if_neg hk)

theorem rewrite_found {p : R → Bool} {f : R → Option R} {targets : List String} {k : String}
    {row : R} (hk : k ∈ targets) (hView : (s.slot k).view i = some row) (hp : p row = true) :
    s.rewrite i p f targets k = (s.slot k).write i (f row) := by
  simp [State.rewrite, hk, hView, Option.filter, hp]

theorem Unseen.rewrite (hij : j ≠ i) {p : R → Bool} {f : R → Option R} {targets : List String}
    (hFree : (targets.any fun k => (s.slot k).heldByOther i) = false) :
    Unseen s { s with slot := s.rewrite i p f targets } j where
  committed k := by
    rcases rewrite_slot s i p f targets k with hk | ⟨row, -, -, -, hk⟩
    · exact congrArg Slot.committed hk
    · exact (congrArg Slot.committed hk).trans rfl
  own k := by
    rcases rewrite_slot s i p f targets k with hk | ⟨row, hTarget, -, -, hk⟩
    · exact congrArg (fun t => Slot.own t j) hk
    · have hNotHeld : (s.slot k).heldByOther i = false := by
        simpa using List.any_eq_false.mp hFree k hTarget
      exact (congrArg (fun t => Slot.own t j) hk).trans (Slot.own_write_other hNotHeld hij _)
  keys k hk := hk
  dead k _ hDead := by
    have hView : (s.slot k).view i = none := by
      rw [Slot.view, Slot.own, hDead.2]
      exact hDead.1
    rcases rewrite_slot s i p f targets k with hk | ⟨row, -, hRow, -, -⟩
    · exact ⟨(congrArg Slot.committed hk).trans hDead.1, (congrArg Slot.pending hk).trans hDead.2⟩
    · rw [hView] at hRow
      cases hRow
  proc := rfl

/-! ## What a statement finds -/

theorem mem_visible {row : R} : row ∈ s.visible i ↔ ∃ k ∈ s.keys, (s.slot k).view i = some row :=
  List.mem_filterMap

theorem Keyed.mem_of_view (hKeyed : Keyed s) {k : String} {row : R}
    (hView : (s.slot k).view i = some row) : k ∈ s.keys := by
  by_contra hk
  obtain ⟨hCommitted, hPending⟩ := hKeyed k hk
  rw [Slot.view, Slot.own, hPending] at hView
  exact absurd (hCommitted.symm.trans hView) (by simp)

theorem Keyed.mem_found (hKeyed : Keyed s) {k : String} {p : R → Bool} :
    k ∈ s.found i p ↔ ∃ row, (s.slot k).view i = some row ∧ p row = true := by
  simp only [State.found, List.mem_filter, Option.any_eq_true]
  constructor
  · exact fun h => h.2
  · intro h
    obtain ⟨row, hView, hp⟩ := h
    exact ⟨hKeyed.mem_of_view hView, row, hView, hp⟩

/-! ## What a step leaves of the committed rows -/

variable {env : Env R κ ρ ε}

theorem committed_insertRow (hKeyed : Keyed s) {key : String} (hFresh : key ∉ s.keys) (row : R)
    (k : String) : ((s.insertRow i key row).slot k).committed = (s.slot k).committed :=
  (Unseen.insertRow hKeyed (i := i) (Nat.succ_ne_self i) hFresh row).committed k

theorem fresh_of_free {key : String} {row : R} (h : insertCheck env s i key row = .free) :
    key ∉ s.keys := by
  intro hk
  unfold insertCheck at h
  rw [if_pos (.inl hk)] at h
  cases h

theorem committed_begin (hKeyed : Keyed s) (c : κ) (next : Except ε (ρ c) → Program κ ρ ε α)
    (action : SqlAction R (ρ c)) (k : String) :
    ((begin env i c next s action).slot k).committed = (s.slot k).committed := by
  cases action with
  | select p answer => rfl
  | append answer => rfl
  | update p f answer => rfl
  | insert row answer =>
    simp only [begin]
    cases hCheck : insertCheck env s i (env.newKey s.clock) (row (env.newKey s.clock)) with
    | clash => exact Slot.committed_rollback _ _
    | wait => rfl
    | free => exact committed_insertRow hKeyed (fresh_of_free hCheck) _ k

theorem committed_rewrite (p : R → Bool) (f : R → Option R) (targets : List String) (k : String) :
    (s.rewrite i p f targets k).committed = (s.slot k).committed := by
  rcases rewrite_slot s i p f targets k with hk | ⟨row, -, -, -, hk⟩
  · rw [hk]
  · rw [hk]
    rfl

/-- Transaction `i` is about to commit. -/
def Commits (s : State R κ ρ ε α) (i : Nat) : Prop :=
  (s.proc i).aborted = false ∧ ∃ a, (s.proc i).phase = .running (.ret a)

/-- Only a commit changes what is committed. -/
theorem committed_advance (hKeyed : Keyed s) (hOther : ¬ Commits s i) (k : String) :
    ((advance env i s).slot k).committed = (s.slot k).committed := by
  unfold advance
  cases hPhase : (s.proc i).phase with
  | ended r => rfl
  | running p =>
    cases p with
    | ret a =>
      have hAborted : (s.proc i).aborted = true := by
        by_contra hOpen
        exact hOther ⟨eq_false_of_ne_true hOpen, a, hPhase⟩
      simp only [hAborted, if_true]
      exact Slot.committed_rollback _ _
    | raise e => exact Slot.committed_rollback _ _
    | call c next =>
      simp only
      cases hStatement : env.statement c with
      | none => rfl
      | some action =>
        simp only
        split
        · rfl
        · exact committed_begin hKeyed c next action k
  | waiting c targets next =>
    simp only
    split
    · split
      · rfl
      · exact committed_rewrite _ _ _ k
    · rfl

theorem committed_failNow (e : ε) (k : String) :
    ((failNow env i e s).slot k).committed = (s.slot k).committed := by
  unfold failNow
  split
  · exact Slot.committed_rollback _ _
  · split
    · exact Slot.committed_rollback _ _
    · rfl
  · exact Slot.committed_rollback _ _
  · rfl

theorem committed_finish (e : ε) (k : String) :
    ((finish i e s).slot k).committed = (s.slot k).committed := by
  unfold finish
  split
  · rfl
  · exact Slot.committed_rollback _ _

end Unseen

end Machine

end ReadCommitted
