import OpenRadiusWeb.Lib.Commits

/-! # Transactions of two kinds

Rows and transactions are ours or theirs, and a transaction finds and leaves rows of its own
kind only. What our transactions see, wait for and return, and what becomes of our rows, is
then independent of their rows, their programs and their steps.
-/

namespace Program

variable {κ ε α β τ : Type} {ρ : κ → Type} {P : κ → Prop}

/-- Every command that is issued, whatever the answers are. -/
def Every (P : κ → Prop) : Program κ ρ ε α → Prop
  | .ret _ => True
  | .raise _ => True
  | .call c next => P c ∧ ∀ r, (next r).Every P

theorem every_command {c : κ} (h : P c) : (command c : Program κ ρ ε (ρ c)).Every P :=
  ⟨h, fun r => by cases r <;> trivial⟩

theorem Every.bind {p : Program κ ρ ε α} (hp : p.Every P) {f : α → Program κ ρ ε β}
    (hf : ∀ a, (f a).Every P) : (p >>= f).Every P := by
  induction p with
  | ret a => exact hf a
  | raise e => trivial
  | call c next ih => exact ⟨hp.1, fun r => ih r (hp.2 r)⟩

theorem Every.attempt {p : Program κ ρ ε α} (hp : p.Every P) {handler : ε → Program κ ρ ε α}
    (hHandler : ∀ e, (handler e).Every P) : (p.attempt handler).Every P := by
  induction p with
  | ret a => trivial
  | raise e => exact hHandler e
  | call c next ih => exact ⟨hp.1, fun r => ih r (hp.2 r)⟩

theorem Every.imp {Q : κ → Prop} (h : ∀ c, P c → Q c) {p : Program κ ρ ε α} (hp : p.Every P) :
    p.Every Q := by
  induction p with
  | ret a => trivial
  | raise e => trivial
  | call c next ih => exact ⟨h c hp.1, fun r => ih r (hp.2 r)⟩

theorem Every.tag {P : τ × κ → Prop} {t : τ} {p : Program κ ρ ε α}
    (hp : p.Every fun c => P (t, c)) : (p.tag t).Every P := by
  induction p with
  | ret a => trivial
  | raise e => trivial
  | call c next ih => exact ⟨hp.1, fun r => ih r (hp.2 r)⟩

end Program

/-- The statement finds and leaves rows of the kind `b`, each under its key. -/
def SqlAction.Within {R α : Type} (kind : R → Bool) (idOf : R → String) (b : Bool) :
    SqlAction R α → Prop
  | .select p _ => ∀ row, p row = true → kind row = b
  | .update p f _ => ∀ row, p row = true → kind row = b ∧
      ∀ row', f row = some row' → kind row' = b ∧ idOf row' = idOf row
  | .insert row _ => ∀ key, kind (row key) = b ∧ idOf (row key) = key
  | .append _ => True

namespace ReadCommitted

variable {R κ ε α : Type} {ρ : κ → Type}

/-- What is ours: rows, each with its key, and transactions. -/
structure Ours (R : Type) where
  idOf : R → String
  row : R → Bool
  transaction : Nat → Bool

variable {o : Ours R} {env : Env R κ ρ ε} {s s' : State R κ ρ ε α} {i j : Nat} {l : Label ε}

/-! ## What a step can do -/

/-- How the program of a transaction goes on. -/
inductive Follows : Phase κ ρ ε α → Phase κ ρ ε α → Prop
  | answer {c : κ} {next : Except ε (ρ c) → Program κ ρ ε α} (r : Except ε (ρ c)) :
      Follows (.running (.call c next)) (.running (next r))
  | resume {c : κ} {targets : List String} {next : Except ε (ρ c) → Program κ ρ ε α}
      (r : Except ε (ρ c)) : Follows (.waiting c targets next) (.running (next r))
  | ends (phase : Phase κ ρ ε α) (r : Except ε α) : Follows phase (.ended r)

/-- What a step of transaction `i` makes of the state, but for the clock. -/
inductive Move (env : Env R κ ρ ε) (s : State R κ ρ ε α) (i : Nat) : State R κ ρ ε α → Prop
  | stay : Move env s i s
  | go {phase : Phase κ ρ ε α} (h : Follows (s.proc i).phase phase) :
      Move env s i (s.setPhase i phase)
  | choose {c : κ} {next : Except ε (ρ c) → Program κ ρ ε α} {p : R → Bool} {f : R → Option R}
      {answer : List R → ρ c} (hPhase : (s.proc i).phase = .running (.call c next))
      (hStatement : env.statement c = some (.update p f answer)) :
      Move env s i (s.setPhase i (.waiting c (s.found i p) next))
  | rollback (r : Except ε α) : Move env s i ((s.rollback i).setPhase i (.ended r))
  | commit (r : Except ε α) : Move env s i ((s.commit i).setPhase i (.ended r))
  | abort {p : Program κ ρ ε α} (h : Follows (s.proc i).phase (.running p)) :
      Move env s i (s.abort i p)
  | rewrite {c : κ} {targets : List String} {next : Except ε (ρ c) → Program κ ρ ε α}
      {p : R → Bool} {f : R → Option R} {answer : List R → ρ c} (r : Except ε (ρ c))
      (hPhase : (s.proc i).phase = .waiting c targets next)
      (hStatement : env.statement c = some (.update p f answer))
      (hFree : (targets.any fun k => (s.slot k).heldByOther i) = false) :
      Move env s i
        (State.setPhase { s with slot := s.rewrite i p f targets } i (.running (next r)))
  | insert {c : κ} {next : Except ε (ρ c) → Program κ ρ ε α} {row : String → R} {answer : R → ρ c}
      (r : Except ε (ρ c)) (hPhase : (s.proc i).phase = .running (.call c next))
      (hStatement : env.statement c = some (.insert row answer))
      (hFresh : env.newKey s.clock ∉ s.keys) :
      Move env s i ((s.insertRow i (env.newKey s.clock) (row (env.newKey s.clock))).setPhase i
        (.running (next r)))

/-- What a step makes of the state, but for the clock. -/
def moved (env : Env R κ ρ ε) : Label ε → State R κ ρ ε α → State R κ ρ ε α
  | .step i, s => advance env i s
  | .fail i e, s => failNow env i e s
  | .die i e, s => finish i e s

def Label.ticks : Label ε → Nat
  | .die _ _ => 0
  | _ => 1

theorem move_begin {c : κ} {next : Except ε (ρ c) → Program κ ρ ε α} {action : SqlAction R (ρ c)}
    (hPhase : (s.proc i).phase = .running (.call c next))
    (hStatement : env.statement c = some action) : Move env s i (begin env i c next s action) := by
  have hAnswer : ∀ r, Follows (s.proc i).phase (.running (next r)) := by
    intro r
    rw [hPhase]
    exact .answer r
  cases action with
  | select p answer => exact .go (hAnswer _)
  | append answer => exact .go (hAnswer _)
  | update p f answer => exact .choose hPhase hStatement
  | insert row answer =>
    simp only [begin]
    cases hCheck : insertCheck env s i (env.newKey s.clock) (row (env.newKey s.clock)) with
    | clash => exact .abort (hAnswer _)
    | wait => exact .stay
    | free => exact .insert _ hPhase hStatement (fresh_of_free hCheck)

theorem move_advance (env : Env R κ ρ ε) (s : State R κ ρ ε α) (i : Nat) :
    Move env s i (advance env i s) := by
  unfold advance
  cases hPhase : (s.proc i).phase with
  | ended r => exact .stay
  | running p =>
    cases p with
    | ret a =>
      simp only
      split
      · exact .rollback _
      · exact .commit _
    | raise e => exact .rollback _
    | call c next =>
      simp only
      cases hStatement : env.statement c with
      | none => exact .go (hPhase ▸ .answer _)
      | some action =>
        simp only
        split
        · exact .go (hPhase ▸ .answer _)
        · exact move_begin hPhase hStatement
  | waiting c targets next =>
    simp only
    split
    · rename_i p f answer hStatement
      split
      · exact .stay
      · rename_i hFree
        exact .rewrite _ hPhase hStatement (eq_false_of_ne_true hFree)
    · exact .stay

theorem move_failNow (env : Env R κ ρ ε) (s : State R κ ρ ε α) (i : Nat) (e : ε) :
    Move env s i (failNow env i e s) := by
  unfold failNow
  cases hPhase : (s.proc i).phase with
  | ended r => exact .stay
  | running p =>
    cases p with
    | ret a => exact .rollback _
    | raise e => exact .stay
    | call c next =>
      simp only
      split
      · exact .abort (hPhase ▸ .answer _)
      · exact .stay
  | waiting c targets next => exact .abort (hPhase ▸ .resume _)

theorem move_moved (env : Env R κ ρ ε) (l : Label ε) (s : State R κ ρ ε α) :
    Move env s l.transaction (moved env l s) := by
  cases l with
  | step i => exact move_advance env s i
  | fail i e => exact move_failNow env s i e
  | die i e =>
    change Move env s i (finish i e s)
    unfold finish
    split
    · exact .stay
    · exact .rollback _

theorem Move.clock (h : Move env s i s') : s'.clock = s.clock := by
  cases h <;> rfl

theorem step_eq (env : Env R κ ρ ε) (l : Label ε) (s : State R κ ρ ε α) :
    (step env l s).2 = { moved env l s with clock := s.clock + l.ticks } := by
  have hClock := (move_moved env l s).clock
  cases l with
  | step i => rfl
  | fail i e => rfl
  | die i e => exact congrArg (fun n => { finish i e s with clock := n }) hClock

/-! ## Every key has a side -/

/-- The statement of a command, if it has one, keeps to the rows of the kind. -/
def Ours.Keeps (o : Ours R) (env : Env R κ ρ ε) (b : Bool) (c : κ) : Prop :=
  ∀ action, env.statement c = some action → action.Within o.row o.idOf b

/-- The versions under key `k` are of the kind `b`, and so is who writes them. -/
structure Slot.Sided (o : Ours R) (k : String) (b : Bool) (t : Slot R) : Prop where
  committed : ∀ row, t.committed = some row → o.row row = b ∧ o.idOf row = k
  writer : ∀ i version, t.pending = some (i, version) → o.transaction i = b
  pending : ∀ i row, t.pending = some (i, some row) → o.row row = b ∧ o.idOf row = k

/-- What is left of a program keeps to the kind `b`, and so do the rows it waits for. -/
def Phase.Keeps (o : Ours R) (env : Env R κ ρ ε) (keys : List String) (side : String → Bool)
    (b : Bool) : Phase κ ρ ε α → Prop
  | .running p => p.Every (o.Keeps env b)
  | .waiting c targets next => o.Keeps env b c ∧ (∀ r, (next r).Every (o.Keeps env b)) ∧
      ∀ k ∈ targets, k ∈ keys ∧ side k = b
  | .ended _ => True

/-- Every row, every transaction and every wait keeps to its side. -/
structure Parted (o : Ours R) (env : Env R κ ρ ε) (side : String → Bool)
    (s : State R κ ρ ε α) : Prop where
  keyed : Keyed s
  slot : ∀ k, (s.slot k).Sided o k (side k)
  phase : ∀ i, (s.proc i).phase.Keeps o env s.keys side (o.transaction i)

namespace Slot.Sided

variable {t : Slot R} {k : String} {b : Bool}

theorem view (h : t.Sided o k b) {row : R} (hView : t.view i = some row) :
    o.row row = b ∧ o.idOf row = k := by
  rw [Slot.view] at hView
  cases hOwn : t.own i with
  | none =>
    rw [hOwn] at hView
    exact h.committed row hView
  | some version =>
    rw [hOwn] at hView
    obtain rfl : version = some row := hView
    exact h.pending i row (Slot.own_eq_some.mp hOwn)

theorem own_of_other (h : t.Sided o k b) (hOther : o.transaction i ≠ b) : t.own i = none := by
  cases hOwn : t.own i with
  | none => rfl
  | some version => exact absurd (h.writer i version (Slot.own_eq_some.mp hOwn)) hOther

theorem rollback_of_other (h : t.Sided o k b) (hOther : o.transaction i ≠ b) : t.rollback i = t := by
  rw [Slot.rollback, h.own_of_other hOther]

theorem commit_of_other (h : t.Sided o k b) (hOther : o.transaction i ≠ b) : t.commit i = t := by
  rw [Slot.commit, h.own_of_other hOther]

theorem rollback (h : t.Sided o k b) (i : Nat) : (t.rollback i).Sided o k b := by
  unfold Slot.rollback
  split
  · refine ⟨h.committed, ?_, ?_⟩
    · rintro _ _ ⟨⟩
    · rintro _ _ ⟨⟩
  · exact h

theorem commit (h : t.Sided o k b) (i : Nat) : (t.commit i).Sided o k b := by
  have hView : (t.commit i).committed = t.view i := Slot.committed_commit t i
  refine ⟨fun row hRow => h.view (hView.symm.trans hRow), ?_, ?_⟩
  · unfold Slot.commit
    split
    · rintro _ _ ⟨⟩
    · exact h.writer
  · unfold Slot.commit
    split
    · rintro _ _ ⟨⟩
    · exact h.pending

theorem write (h : t.Sided o k b) (hWriter : o.transaction i = b) {version : Option R}
    (hRow : ∀ row, version = some row → o.row row = b ∧ o.idOf row = k) :
    (t.write i version).Sided o k b := by
  refine ⟨h.committed, ?_, ?_⟩
  · rintro _ _ ⟨⟩
    exact hWriter
  · rintro _ row ⟨⟩
    exact hRow row rfl

theorem of_dead (h : t.committed = none ∧ t.pending = none) : t.Sided o k b := by
  refine ⟨fun row hRow => ?_, fun i version hPending => ?_, fun i row hPending => ?_⟩
  · exact nomatch h.1.symm.trans hRow
  · exact nomatch h.2.symm.trans hPending
  · exact nomatch h.2.symm.trans hPending

end Slot.Sided

section Phases

variable {keys keys' : List String} {side side' : String → Bool} {b : Bool} {phase phase' : Phase κ ρ ε α}

theorem Phase.Keeps.follows (h : phase.Keeps o env keys side b) (hFollows : Follows phase phase') :
    phase'.Keeps o env keys side b := by
  cases hFollows with
  | answer r => exact h.2 r
  | resume r => exact h.2.1 r
  | ends phase r => trivial

theorem Phase.Keeps.grow (h : phase.Keeps o env keys side b) (hKeys : ∀ k ∈ keys, k ∈ keys')
    (hSide : ∀ k ∈ keys, side' k = side k) : phase.Keeps o env keys' side' b := by
  cases phase with
  | running p => exact h
  | ended r => trivial
  | waiting c targets next =>
    refine ⟨h.1, h.2.1, fun k hk => ?_⟩
    obtain ⟨hMem, hOwn⟩ := h.2.2 k hk
    exact ⟨hKeys k hMem, (hSide k hMem).trans hOwn⟩

end Phases

namespace Parted

variable {side : String → Bool}

theorem view (h : Parted o env side s) {k : String} {row : R} (hView : (s.slot k).view i = some row) :
    o.row row = side k ∧ o.idOf row = k := (h.slot k).view hView

theorem setPhase (h : Parted o env side s) {phase : Phase κ ρ ε α}
    (hPhase : phase.Keeps o env s.keys side (o.transaction i)) :
    Parted o env side (s.setPhase i phase) := by
  refine ⟨h.keyed, h.slot, fun j => ?_⟩
  by_cases hji : j = i
  · subst hji
    rw [phase_setPhase]
    exact hPhase
  · rw [proc_setPhase_of_ne hji]
    exact h.phase j

theorem rollback (h : Parted o env side s) (i : Nat) : Parted o env side (s.rollback i) :=
  ⟨h.keyed.rollback i, fun k => (h.slot k).rollback i, h.phase⟩

theorem commit (h : Parted o env side s) (i : Nat) : Parted o env side (s.commit i) :=
  ⟨h.keyed.commit i, fun k => (h.slot k).commit i, h.phase⟩

theorem abort (h : Parted o env side s) {p : Program κ ρ ε α}
    (hPhase : (Phase.running p).Keeps o env s.keys side (o.transaction i)) :
    Parted o env side (s.abort i p) := by
  refine ⟨h.keyed.rollback i, fun k => (h.slot k).rollback i, fun j => ?_⟩
  by_cases hji : j = i
  · subst hji
    rw [phase_abort]
    exact hPhase
  · have hSame : (s.abort i p).proc j = s.proc j := Function.update_of_ne hji _ _
    rw [hSame]
    exact h.phase j

theorem rewrite (h : Parted o env side s) {p : R → Bool} {f : R → Option R}
    {targets : List String} {β : Type} {answer : List R → β}
    (hWithin : (SqlAction.update p f answer).Within o.row o.idOf (o.transaction i)) :
    Parted o env side { s with slot := s.rewrite i p f targets } := by
  refine ⟨h.keyed.rewrite p f targets, fun k => ?_, h.phase⟩
  change (s.rewrite i p f targets k).Sided o k (side k)
  rcases rewrite_slot s i p f targets k with hk | ⟨row, -, hView, hp, hk⟩
  · rw [hk]
    exact h.slot k
  · rw [hk]
    obtain ⟨hKind, hId⟩ := h.view hView
    obtain ⟨hOwn, hNew⟩ := hWithin row hp
    refine (h.slot k).write (hOwn.symm.trans hKind) fun row' hRow' => ?_
    obtain ⟨hKind', hId'⟩ := hNew row' hRow'
    exact ⟨(hKind'.trans hOwn.symm).trans hKind, hId'.trans hId⟩

theorem insertRow (h : Parted o env side s) {key : String} {row : R}
    (hSide : side key = o.transaction i) (hRow : o.row row = side key ∧ o.idOf row = key) :
    Parted o env side (s.insertRow i key row) := by
  refine ⟨h.keyed.insertRow key row, fun k => ?_, fun j => ?_⟩
  · by_cases hk : k = key
    · subst hk
      have hSlot : (s.insertRow i k row).slot k = Slot.empty.write i (some row) :=
        Function.update_self _ _ _
      rw [hSlot]
      refine (Slot.Sided.of_dead ⟨rfl, rfl⟩).write hSide.symm ?_
      rintro _ ⟨⟩
      exact hRow
    · have hSlot : (s.insertRow i key row).slot k = s.slot k := Function.update_of_ne hk _ _
      rw [hSlot]
      exact h.slot k
  · exact (h.phase j).grow (fun k hk => List.mem_append_left _ hk) fun _ _ => rfl

/-- A step keeps every row, transaction and wait on its side. -/
theorem move (h : Parted o env side s) (hSide : side (env.newKey s.clock) = o.transaction i)
    (hMove : Move env s i s') : Parted o env side s' := by
  have hPhase := h.phase i
  cases hMove with
  | stay => exact h
  | go hFollows => exact h.setPhase (hPhase.follows hFollows)
  | rollback r => exact (h.rollback i).setPhase trivial
  | commit r => exact (h.commit i).setPhase trivial
  | abort hFollows => exact h.abort (hPhase.follows hFollows)
  | @choose c next p f answer hRunning hStatement =>
    rw [hRunning] at hPhase
    refine h.setPhase ⟨hPhase.1, hPhase.2, fun k hk => ?_⟩
    obtain ⟨row, hView, hp⟩ := h.keyed.mem_found.mp hk
    exact ⟨h.keyed.mem_of_view hView, (h.view hView).1.symm.trans (hPhase.1 _ hStatement row hp).1⟩
  | rewrite r hWaiting hStatement hFree =>
    rw [hWaiting] at hPhase
    exact (h.rewrite (hPhase.1 _ hStatement)).setPhase (hPhase.2.1 r)
  | insert r hRunning hStatement hFresh =>
    rw [hRunning] at hPhase
    obtain ⟨hKind, hId⟩ := hPhase.1 _ hStatement (env.newKey s.clock)
    exact (h.insertRow hSide ⟨hKind.trans hSide.symm, hId⟩).setPhase (hPhase.2 r)

/-- A key that was never used may be put on either side. -/
theorem relabel (h : Parted o env side s) {key : String} (hKey : key ∉ s.keys) (b : Bool) :
    Parted o env (Function.update side key b) s := by
  have hOld : ∀ k ∈ s.keys, Function.update side key b k = side k :=
    fun k hk => Function.update_of_ne (ne_of_mem_of_not_mem hk hKey) _ _
  refine ⟨h.keyed, fun k => ?_, fun j => (h.phase j).grow (fun _ hk => hk) hOld⟩
  by_cases hk : k ∈ s.keys
  · rw [hOld k hk]
    exact h.slot k
  · exact .of_dead (h.keyed k hk)

end Parted

end ReadCommitted
