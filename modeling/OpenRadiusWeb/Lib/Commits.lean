import OpenRadiusWeb.Lib.ReadCommitted

/-! # What is committed

A step adds a key at most, touches no other transaction and changes what everyone sees only
by a commit. A command that every way to the end of a program issues has been issued when
its transaction commits.
-/

namespace ReadCommitted

variable {R κ ε α : Type} {ρ : κ → Type}

section Committed

variable {s : State R κ ρ ε α} {env : Env R κ ρ ε} {i j : Nat}

/-- The rows that everyone sees. -/
def State.committedRows (s : State R κ ρ ε α) : List R :=
  s.keys.filterMap fun k => (s.slot k).committed

theorem Keyed.rollback (h : Keyed s) (i : Nat) : Keyed (s.rollback i) := by
  intro k hk
  have hUnseen : Unseen s (s.rollback i) (i + 1) := Unseen.rollback (Nat.succ_ne_self i)
  obtain ⟨hCommitted, hPending⟩ := h k hk
  have hNone : (s.slot k).own i = none := by rw [Slot.own, hPending]
  refine ⟨(hUnseen.committed k).trans hCommitted, ?_⟩
  simp [State.rollback, Slot.rollback, hNone, hPending]

theorem Keyed.commit (h : Keyed s) (i : Nat) : Keyed (s.commit i) := by
  intro k hk
  obtain ⟨hCommitted, hPending⟩ := h k hk
  have hNone : (s.slot k).own i = none := by rw [Slot.own, hPending]
  have hSame : (s.commit i).slot k = s.slot k := by simp [State.commit, Slot.commit, hNone]
  rw [Dead, hSame]
  exact ⟨hCommitted, hPending⟩

theorem Keyed.insertRow (h : Keyed s) (key : String) (row : R) : Keyed (s.insertRow i key row) := by
  intro k hk
  rw [State.insertRow, List.mem_append, not_or, List.mem_singleton] at hk
  have hSame : (s.insertRow i key row).slot k = s.slot k := Function.update_of_ne hk.2 _ _
  rw [Dead, hSame]
  exact h k hk.1

theorem Keyed.rewrite (h : Keyed s) (p : R → Bool) (f : R → Option R) (targets : List String) :
    Keyed { s with slot := s.rewrite i p f targets } := by
  intro k hk
  have hView : (s.slot k).view i = none := by
    obtain ⟨hCommitted, hPending⟩ := h k hk
    rw [Slot.view, Slot.own, hPending]
    exact hCommitted
  rcases rewrite_slot s i p f targets k with hSame | ⟨row, -, hRow, -, -⟩
  · rw [Dead]
    simp only [hSame]
    exact h k hk
  · rw [hView] at hRow
    cases hRow

theorem Keyed.begin (h : Keyed s) (c : κ) (next : Except ε (ρ c) → Program κ ρ ε α)
    (action : SqlAction R (ρ c)) : Keyed (begin env i c next s action) := by
  cases action with
  | select p answer => exact h
  | append answer => exact h
  | update p f answer => exact h
  | insert row answer =>
    simp only [ReadCommitted.begin]
    cases insertCheck env s i (env.newKey s.clock) (row (env.newKey s.clock)) with
    | clash => exact h.rollback i
    | wait => exact h
    | free => exact h.insertRow _ _

theorem Keyed.advance (h : Keyed s) (i : Nat) : Keyed (advance env i s) := by
  unfold ReadCommitted.advance
  split
  · exact h
  · split
    · exact h.rollback i
    · exact h.commit i
  · exact h.rollback i
  · split
    · exact h
    · split
      · exact h
      · exact h.begin _ _ _
  · split
    · split
      · exact h
      · exact h.rewrite _ _ _
    · exact h

theorem Keyed.failNow (h : Keyed s) (i : Nat) (e : ε) : Keyed (failNow env i e s) := by
  unfold ReadCommitted.failNow
  split
  · exact h.rollback i
  · split
    · exact h.rollback i
    · exact h
  · exact h.rollback i
  · exact h

theorem Keyed.finish (h : Keyed s) (i : Nat) (e : ε) : Keyed (finish i e s) := by
  unfold ReadCommitted.finish
  split
  · exact h
  · exact h.rollback i

theorem Keyed.step (h : Keyed s) (env : Env R κ ρ ε) (l : Label ε) : Keyed (step env l s).2 := by
  cases l with
  | step i => exact h.advance i
  | fail i e => exact h.failNow i e
  | die i e => exact h.finish i e

/-! ## The rows that everyone sees -/

theorem keys_begin (c : κ) (next : Except ε (ρ c) → Program κ ρ ε α) (action : SqlAction R (ρ c)) :
    (begin env i c next s action).keys = s.keys ∨
      ∃ key, key ∉ s.keys ∧ (begin env i c next s action).keys = s.keys ++ [key] := by
  cases action with
  | select p answer => exact .inl rfl
  | append answer => exact .inl rfl
  | update p f answer => exact .inl rfl
  | insert row answer =>
    simp only [ReadCommitted.begin]
    cases hCheck : insertCheck env s i (env.newKey s.clock) (row (env.newKey s.clock)) with
    | clash => exact .inl rfl
    | wait => exact .inl rfl
    | free => exact .inr ⟨_, fresh_of_free hCheck, rfl⟩

theorem keys_step (env : Env R κ ρ ε) (s : State R κ ρ ε α) (l : Label ε) : (step env l s).2.keys = s.keys ∨
    ∃ key, key ∉ s.keys ∧ (step env l s).2.keys = s.keys ++ [key] := by
  cases l with
  | step i =>
    change (advance env i s).keys = s.keys ∨ ∃ key, key ∉ s.keys ∧ (advance env i s).keys = _
    unfold advance
    split
    · exact .inl rfl
    · split <;> exact .inl rfl
    · exact .inl rfl
    · split
      · exact .inl rfl
      · split
        · exact .inl rfl
        · exact keys_begin _ _ _
    · split
      · split <;> exact .inl rfl
      · exact .inl rfl
  | fail i e =>
    change (failNow env i e s).keys = s.keys ∨ _
    unfold failNow
    split
    · exact .inl rfl
    · split <;> exact .inl rfl
    · exact .inl rfl
    · exact .inl rfl
  | die i e =>
    change (finish i e s).keys = s.keys ∨ _
    unfold finish
    split <;> exact .inl rfl

/-- The label lets a transaction commit. -/
def LetsCommit (s : State R κ ρ ε α) : Label ε → Prop
  | .step i => Commits s i
  | _ => False

theorem committed_step (env : Env R κ ρ ε) (hKeyed : Keyed s) {l : Label ε} (hOther : ¬LetsCommit s l) (k : String) :
    ((step env l s).2.slot k).committed = (s.slot k).committed := by
  cases l with
  | step i => exact committed_advance hKeyed hOther k
  | fail i e => exact committed_failNow e k
  | die i e => exact committed_finish e k

/-- Only a commit changes the rows that everyone sees. -/
theorem committedRows_step (env : Env R κ ρ ε) (hKeyed : Keyed s) {l : Label ε} (hOther : ¬LetsCommit s l) :
    (step env l s).2.committedRows = s.committedRows := by
  have hCommitted := committed_step env hKeyed hOther
  rw [State.committedRows, State.committedRows]
  simp only [hCommitted]
  rcases keys_step env s l with hKeys | ⟨key, hFresh, hKeys⟩
  · rw [hKeys]
  · rw [hKeys, List.filterMap_append]
    simp [(hKeyed key hFresh).1]

/-- The transaction that a label is about. -/
def Label.transaction : Label ε → Nat
  | .step i => i
  | .fail i _ => i
  | .die i _ => i

@[simp] theorem proc_setPhase_of_ne (hij : j ≠ i) (phase : Phase κ ρ ε α) :
    (s.setPhase i phase).proc j = s.proc j := Function.update_of_ne hij _ _

theorem proc_begin (hij : j ≠ i) (c : κ) (next : Except ε (ρ c) → Program κ ρ ε α)
    (action : SqlAction R (ρ c)) : (begin env i c next s action).proc j = s.proc j := by
  cases action with
  | select p answer => exact proc_setPhase_of_ne hij _
  | append answer => exact proc_setPhase_of_ne hij _
  | update p f answer => exact proc_setPhase_of_ne hij _
  | insert row answer =>
    simp only [ReadCommitted.begin]
    cases insertCheck env s i (env.newKey s.clock) (row (env.newKey s.clock)) with
    | clash => exact Function.update_of_ne hij _ _
    | wait => rfl
    | free => exact proc_setPhase_of_ne hij _

theorem proc_step {l : Label ε} (hj : j ≠ l.transaction) : (step env l s).2.proc j = s.proc j := by
  cases l with
  | step i =>
    change (advance env i s).proc j = s.proc j
    unfold advance
    split
    · rfl
    · split <;> exact proc_setPhase_of_ne hj _
    · exact proc_setPhase_of_ne hj _
    · split
      · exact proc_setPhase_of_ne hj _
      · split
        · exact proc_setPhase_of_ne hj _
        · exact proc_begin hj _ _ _
    · split
      · split
        · rfl
        · exact proc_setPhase_of_ne hj _
      · rfl
  | fail i e =>
    change (failNow env i e s).proc j = s.proc j
    unfold failNow
    split
    · exact proc_setPhase_of_ne hj _
    · split
      · exact Function.update_of_ne hj _ _
      · rfl
    · exact Function.update_of_ne hj _ _
    · rfl
  | die i e =>
    change (finish i e s).proc j = s.proc j
    unfold finish
    split
    · rfl
    · exact proc_setPhase_of_ne hj _

/-! ## Commands that no commit misses -/

def Phase.Issues (kind : κ → Bool) (before : Prop) : Phase κ ρ ε α → Prop
  | .running p => p.Issues kind before
  | .waiting c _ next => kind c = false ∧ ∀ r, (next r).Issues kind before
  | .ended _ => True

theorem Phase.Issues.mono {kind : κ → Bool} {before before' : Prop} (hBefore : before → before')
    {phase : Phase κ ρ ε α} (h : phase.Issues kind before) : phase.Issues kind before' := by
  cases phase with
  | running p => exact Program.Issues.mono hBefore h
  | waiting c targets next => exact ⟨h.1, fun r => (h.2 r).mono hBefore⟩
  | ended r => trivial

/-- The step of transaction `i` issues a command of the kind, and it returns. -/
def Issued (env : Env R κ ρ ε) (kind : κ → Bool) (s : State R κ ρ ε α) (i : Nat) : Prop :=
  ∃ c next a, (s.proc i).phase = .running (.call c next) ∧ kind c = true ∧
    env.external i s.clock c = .ok a

@[simp] theorem phase_setPhase (phase : Phase κ ρ ε α) :
    ((s.setPhase i phase).proc i).phase = phase := by simp [State.setPhase]

@[simp] theorem phase_abort (p : Program κ ρ ε α) : ((s.abort i p).proc i).phase = .running p := by
  simp [State.abort]

variable {kind : κ → Bool} {before : Prop}

theorem issues_answer {c : κ} {next : Except ε (ρ c) → Program κ ρ ε α} (hKind : kind c = false)
    (h : (Program.call c next).Issues kind before) (r : Except ε (ρ c)) :
    (next r).Issues kind before :=
  (h r).mono fun hBefore => hBefore.resolve_right fun hIssued => by simp [hKind] at hIssued

theorem issues_begin {c : κ} {next : Except ε (ρ c) → Program κ ρ ε α} (hKind : kind c = false)
    (hPhase : (s.proc i).phase = .running (.call c next))
    (h : (Program.call c next).Issues kind before) (action : SqlAction R (ρ c)) :
    ((begin env i c next s action).proc i).phase.Issues kind before := by
  have hNext := issues_answer hKind h
  cases action with
  | select p answer =>
    rw [ReadCommitted.begin, phase_setPhase]
    exact hNext _
  | append answer =>
    rw [ReadCommitted.begin, phase_setPhase]
    exact hNext _
  | update p f answer =>
    rw [ReadCommitted.begin, phase_setPhase]
    exact ⟨hKind, hNext⟩
  | insert row answer =>
    simp only [ReadCommitted.begin]
    cases insertCheck env s i (env.newKey s.clock) (row (env.newKey s.clock)) with
    | clash =>
      simp only [phase_abort]
      exact hNext _
    | wait =>
      simp only [hPhase]
      exact h
    | free =>
      simp only [phase_setPhase]
      exact hNext _

theorem issues_advance (hOutside : ∀ c, kind c = true → env.statement c = none)
    (h : (s.proc i).phase.Issues kind before) :
    ((advance env i s).proc i).phase.Issues kind (before ∨ Issued env kind s i) := by
  have hStatement : ∀ c action, env.statement c = some action → kind c = false := by
    intro c action hAction
    by_contra hKind
    rw [hOutside c (eq_true_of_ne_false hKind)] at hAction
    cases hAction
  cases hPhase : (s.proc i).phase with
  | ended r =>
    simp only [advance, hPhase]
    trivial
  | running p =>
    rw [hPhase] at h
    cases p with
    | ret a =>
      simp only [advance, hPhase, phase_setPhase]
      trivial
    | raise e =>
      simp only [advance, hPhase, phase_setPhase]
      trivial
    | call c next =>
      simp only [advance, hPhase]
      split
      · rw [phase_setPhase]
        refine (h _).mono (Or.imp_right ?_)
        rintro ⟨hKind, a, hOk⟩
        exact ⟨c, next, a, hPhase, hKind, hOk⟩
      · rename_i action hAction
        have hKind := hStatement c action hAction
        split
        · rw [phase_setPhase]
          exact (issues_answer hKind h _).mono .inl
        · exact (issues_begin hKind hPhase h action).mono .inl
  | waiting c targets next =>
    rw [hPhase] at h
    simp only [advance, hPhase]
    split
    · split
      · rw [hPhase]
        exact Phase.Issues.mono .inl h
      · rw [phase_setPhase]
        exact (h.2 _).mono .inl
    · rw [hPhase]
      exact Phase.Issues.mono .inl h

theorem issues_failNow (e : ε) (h : (s.proc i).phase.Issues kind before) :
    ((failNow env i e s).proc i).phase.Issues kind before := by
  unfold failNow
  cases hPhase : (s.proc i).phase with
  | ended r =>
    rw [hPhase]
    trivial
  | running p =>
    rw [hPhase] at h
    cases p with
    | ret a =>
      simp only [phase_setPhase]
      trivial
    | raise e =>
      simp only [hPhase]
      trivial
    | call c next =>
      simp only
      split
      · rw [phase_abort]
        refine (h _).mono fun hBefore => hBefore.resolve_right ?_
        rintro ⟨-, a, hOk⟩
        cases hOk
      · rw [hPhase]
        exact h
  | waiting c targets next =>
    rw [hPhase] at h
    simp only [phase_abort]
    exact h.2 _

theorem issues_finish (e : ε) : ((finish i e s).proc i).phase.Issues kind before := by
  unfold finish
  split
  · rename_i r hPhase
    rw [hPhase]
    trivial
  · rw [phase_setPhase]
    trivial

/-- What a step does to the commands issued so far. -/
theorem issues_step (env : Env R κ ρ ε) (hOutside : ∀ c, kind c = true → env.statement c = none) (l : Label ε)
    (h : (s.proc i).phase.Issues kind before) :
    (((step env l s).2.proc i).phase).Issues kind
      (before ∨ (l = .step i ∧ Issued env kind s i)) := by
  by_cases hSame : i = l.transaction
  · cases l with
    | step j =>
      cases hSame
      exact (issues_advance hOutside h).mono (Or.imp_right fun hIssued => ⟨rfl, hIssued⟩)
    | fail j e =>
      cases hSame
      exact (issues_failNow e h).mono .inl
    | die j e =>
      cases hSame
      exact issues_finish e
  · rw [proc_step hSame]
    exact h.mono .inl

/-! ## Transactions that are over -/

def Ended (s : State R κ ρ ε α) (i : Nat) : Prop := ∃ r, (s.proc i).phase = .ended r

theorem Ended.step (h : Ended s i) (l : Label ε) : Ended (step env l s).2 i := by
  obtain ⟨r, hPhase⟩ := h
  by_cases hSame : i = l.transaction
  · cases l with
    | step j =>
      obtain rfl : i = j := hSame
      have hStays : advance env i s = s := by simp only [advance, hPhase]
      exact ⟨r, (congrArg (fun t => (State.proc t i).phase) hStays).trans hPhase⟩
    | fail j e =>
      obtain rfl : i = j := hSame
      have hStays : failNow env i e s = s := by simp only [failNow, hPhase]
      exact ⟨r, (congrArg (fun t => (State.proc t i).phase) hStays).trans hPhase⟩
    | die j e =>
      obtain rfl : i = j := hSame
      have hStays : finish i e s = s := by simp only [finish, hPhase]
      exact ⟨r, (congrArg (fun t => (State.proc t i).phase) hStays).trans hPhase⟩
  · exact ⟨r, (congrArg Proc.phase (proc_step hSame)).trans hPhase⟩

theorem ended_of_commits (h : Commits s i) : Ended (step env (.step i) s).2 i := by
  obtain ⟨hOpen, a, hPhase⟩ := h
  refine ⟨.ok a, ?_⟩
  change ((advance env i s).proc i).phase = _
  simp only [advance, hPhase, phase_setPhase]

end Committed

end ReadCommitted
