import OpenRadiusWeb.Lib.Sides
import Mathlib.Data.List.Basic
import Mathlib.Data.List.Forall2

/-! # What is ours goes its own way

Two runs in which we have the same rows, the same programs and the same steps, and where the
others have whatever rows, programs and steps they like: our part of the state stays the
same in both.
-/

namespace ReadCommitted

variable {R κ ε α : Type} {ρ : κ → Type} {o : Ours R} {env : Env R κ ρ ε}
  {s s' s'' : State R κ ρ ε α} {i : Nat} {side side' side'' : String → Bool}

/-- Our part of the two states is the same. -/
structure Agree (o : Ours R) (side side' : String → Bool) (s s' : State R κ ρ ε α) : Prop where
  proc : ∀ i, o.transaction i = true → s'.proc i = s.proc i
  keys : s'.keys.filter side' = s.keys.filter side
  slot : ∀ k ∈ s.keys.filter side, s'.slot k = s.slot k

namespace Agree

theorem refl (o : Ours R) (side : String → Bool) (s : State R κ ρ ε α) : Agree o side side s s :=
  ⟨fun _ _ => rfl, rfl, fun _ _ => rfl⟩

theorem symm (h : Agree o side side' s s') : Agree o side' side s' s :=
  ⟨fun i hi => (h.proc i hi).symm, h.keys.symm, fun k hk => (h.slot k (h.keys ▸ hk)).symm⟩

theorem trans (h : Agree o side side' s s') (h' : Agree o side' side'' s' s'') :
    Agree o side side'' s s'' where
  proc i hi := (h'.proc i hi).trans (h.proc i hi)
  keys := h'.keys.trans h.keys
  slot k hk := (h'.slot k (h.keys.symm ▸ hk)).trans (h.slot k hk)

/-- On which side a key is that was never used makes no difference. -/
theorem relabel (o : Ours R) (s : State R κ ρ ε α) {key : String} (hKey : key ∉ s.keys)
    (side : String → Bool) (b : Bool) : Agree o side (Function.update side key b) s s := by
  refine ⟨fun _ _ => rfl, List.filter_congr fun k hk => ?_, fun _ _ => rfl⟩
  exact Function.update_of_ne (ne_of_mem_of_not_mem hk hKey) _ _

end Agree

/-! ## Their steps -/

theorem proc_move {j : Nat} (hMove : Move env s i s') (hij : j ≠ i) : s'.proc j = s.proc j := by
  cases hMove with
  | stay => rfl
  | abort hFollows => exact Function.update_of_ne hij _ _
  | _ => exact proc_setPhase_of_ne hij _

/-- A step of theirs leaves our part as it is. -/
theorem agree_move (h : Parted o env side s) (hTheirs : o.transaction i = false)
    (hSide : side (env.newKey s.clock) = false) (hMove : Move env s i s') :
    Agree o side side s s' := by
  have hProc : ∀ j, o.transaction j = true → s'.proc j = s.proc j := by
    intro j hj
    apply proc_move hMove
    rintro rfl
    exact Bool.false_ne_true (hTheirs.symm.trans hj)
  have hOther : ∀ k ∈ s.keys.filter side, o.transaction i ≠ side k := by
    intro k hk
    rw [hTheirs, (List.mem_filter.mp hk).2]
    exact Bool.false_ne_true
  have hPhase := h.phase i
  cases hMove with
  | stay => exact .refl o side s
  | go hFollows => exact ⟨hProc, rfl, fun _ _ => rfl⟩
  | choose hRunning hStatement => exact ⟨hProc, rfl, fun _ _ => rfl⟩
  | rollback r => exact ⟨hProc, rfl, fun k hk => (h.slot k).rollback_of_other (hOther k hk)⟩
  | commit r => exact ⟨hProc, rfl, fun k hk => (h.slot k).commit_of_other (hOther k hk)⟩
  | abort hFollows => exact ⟨hProc, rfl, fun k hk => (h.slot k).rollback_of_other (hOther k hk)⟩
  | @rewrite c targets next p f answer r hWaiting hStatement hFree =>
    rw [hWaiting] at hPhase
    refine ⟨hProc, rfl, fun k hk => ?_⟩
    rcases rewrite_slot s i p f targets k with hSame | ⟨row, -, hView, hp, -⟩
    · exact hSame
    · have hKind := (hPhase.1 _ hStatement row hp).1
      exact absurd (hKind.symm.trans (h.view hView).1) (hOther k hk)
  | insert r hRunning hStatement hFresh =>
    refine ⟨hProc, ?_, fun k hk => ?_⟩
    · change (s.keys ++ [env.newKey s.clock]).filter side = s.keys.filter side
      rw [List.filter_append, List.filter_singleton, hSide, cond_false, List.append_nil]
    · apply Function.update_of_ne
      exact ne_of_mem_of_not_mem (List.mem_filter.mp hk).1 hFresh

/-! ## Our steps -/

namespace Agree

/-- What comes of the keys on our side, and nothing of the others. -/
theorem filterMap {β : Type} (h : Agree o side side' s s') {f f' : String → Option β}
    (hOff : ∀ k ∈ s.keys, side k = false → f k = none)
    (hOff' : ∀ k ∈ s'.keys, side' k = false → f' k = none)
    (hSame : ∀ k ∈ s.keys.filter side, f' k = f k) :
    s'.keys.filterMap f' = s.keys.filterMap f := by
  have hOnly : ∀ {keys : List String} {side : String → Bool} {f : String → Option β},
      (∀ k ∈ keys, side k = false → f k = none) →
      keys.filterMap f = (keys.filter side).filterMap f := by
    intro keys side f hOff
    rw [List.filterMap_filter]
    refine List.filterMap_congr fun k hk => ?_
    split
    · rfl
    · rename_i hSide
      exact hOff k hk (eq_false_of_ne_true hSide)
  rw [hOnly hOff, hOnly hOff', h.keys]
  exact List.filterMap_congr hSame

theorem filter (h : Agree o side side' s s') {q q' : String → Bool}
    (hOff : ∀ k ∈ s.keys, side k = false → q k = false)
    (hOff' : ∀ k ∈ s'.keys, side' k = false → q' k = false)
    (hSame : ∀ k ∈ s.keys.filter side, q' k = q k) : s'.keys.filter q' = s.keys.filter q := by
  rw [← List.filterMap_eq_filter, ← List.filterMap_eq_filter]
  apply h.filterMap
  · intro k hk hSide
    simp [Option.guard, hOff k hk hSide]
  · intro k hk hSide
    simp [Option.guard, hOff' k hk hSide]
  · intro k hk
    simp only [Option.guard, hSame k hk]

theorem any (h : Agree o side side' s s') {q q' : String → Bool}
    (hOff : ∀ k ∈ s.keys, side k = false → q k = false)
    (hOff' : ∀ k ∈ s'.keys, side' k = false → q' k = false)
    (hSame : ∀ k ∈ s.keys.filter side, q' k = q k) : s'.keys.any q' = s.keys.any q := by
  have hFilter : ∀ (keys : List String) (q : String → Bool), keys.any q = !(keys.filter q).isEmpty := by
    intro keys q
    rw [Bool.eq_iff_iff]
    simp
  rw [hFilter, hFilter, h.filter hOff hOff' hSame]

variable (h : Agree o side side' s s') (hParted : Parted o env side s)
  (hParted' : Parted o env side' s')

include h hParted hParted'

theorem visible {p : R → Bool} (hp : ∀ row, p row = true → o.row row = true) (i : Nat) :
    (s'.visible i).filter p = (s.visible i).filter p := by
  rw [State.visible, State.visible, List.filter_filterMap, List.filter_filterMap]
  have hOff : ∀ {s : State R κ ρ ε α} {side : String → Bool}, Parted o env side s →
      ∀ k ∈ s.keys, side k = false → ((s.slot k).view i).filter p = none := by
    intro s side hParted k _ hSide
    rw [Option.filter_eq_none_iff]
    intro row hView hRow
    have hKind := (hParted.view hView).1
    rw [hSide, hp row hRow] at hKind
    cases hKind
  exact h.filterMap (hOff hParted) (hOff hParted') fun k hk => by rw [h.slot k hk]

theorem found {p : R → Bool} (hp : ∀ row, p row = true → o.row row = true) (i : Nat) :
    s'.found i p = s.found i p := by
  have hOff : ∀ {s : State R κ ρ ε α} {side : String → Bool}, Parted o env side s →
      ∀ k ∈ s.keys, side k = false → ((s.slot k).view i).any p = false := by
    intro s side hParted k _ hSide
    rw [Option.any_eq_false]
    intro row hView
    by_contra hRow
    have hKind := (hParted.view hView).1
    rw [hSide, hp row (by simpa using hRow)] at hKind
    cases hKind
  exact h.filter (hOff hParted) (hOff hParted') fun k hk => by rw [h.slot k hk]

/-- Whether an INSERT clashes or waits does not depend on their rows. -/
theorem insertCheck {env' : Env R κ ρ ε} (hClashes : env'.clashes = env.clashes)
    (hApart : ∀ a b, o.row a = true → o.row b = false → o.idOf a ≠ o.idOf b →
      env.clashes a b = false)
    {key : String} {row : R} (hRow : o.row row = true ∧ o.idOf row = key)
    (hFresh : key ∉ s.keys) (hFresh' : key ∉ s'.keys) (i : Nat) :
    ReadCommitted.insertCheck env' s' i key row = ReadCommitted.insertCheck env s i key row := by
  have hNone : ∀ {s : State R κ ρ ε α} {side : String → Bool}, Parted o env side s →
      key ∉ s.keys → ∀ k ∈ s.keys, side k = false → ∀ row',
      ((s.slot k).committed = some row' ∨ (s.slot k).view i = some row' ∨
        ∃ j, (s.slot k).pending = some (j, some row')) → env.clashes row row' = false := by
    intro s side hParted hFresh k hk hSide row' hVersion
    have hSided : o.row row' = side k ∧ o.idOf row' = k := by
      rcases hVersion with hCommitted | hView | ⟨j, hPending⟩
      · exact (hParted.slot k).committed row' hCommitted
      · exact hParted.view hView
      · exact (hParted.slot k).pending j row' hPending
    apply hApart row row' hRow.1 (hSided.1.trans hSide)
    rw [hRow.2, hSided.2]
    exact (ne_of_mem_of_not_mem hk hFresh).symm
  have hClash : ∀ {s : State R κ ρ ε α} {side : String → Bool}, Parted o env side s →
      key ∉ s.keys → ∀ k ∈ s.keys, side k = false →
      (!(s.slot k).heldByOther i && ((s.slot k).view i).any (env.clashes row)) = false := by
    intro s side hParted hFresh k hk hSide
    rw [Bool.and_eq_false_iff, Option.any_eq_false]
    right
    intro row' hView
    simp [hNone hParted hFresh k hk hSide row' (.inr (.inl hView))]
  have hWait : ∀ {s : State R κ ρ ε α} {side : String → Bool}, Parted o env side s →
      key ∉ s.keys → ∀ k ∈ s.keys, side k = false →
      ((s.slot k).heldByOther i && ((s.slot k).committed.any (env.clashes row) ||
        ((s.slot k).pending.bind Prod.snd).any (env.clashes row))) = false := by
    intro s side hParted hFresh k hk hSide
    rw [Bool.and_eq_false_iff, Bool.or_eq_false_iff, Option.any_eq_false, Option.any_eq_false]
    right
    constructor
    · intro row' hCommitted
      simp [hNone hParted hFresh k hk hSide row' (.inl hCommitted)]
    · intro row' hPending
      obtain ⟨⟨j, version⟩, hWriter, rfl⟩ := Option.bind_eq_some_iff.mp hPending
      simp [hNone hParted hFresh k hk hSide row' (.inr (.inr ⟨j, hWriter⟩))]
  unfold ReadCommitted.insertCheck
  simp only [hClashes, hFresh, hFresh', false_or]
  rw [h.any (hClash hParted hFresh) (hClash hParted' hFresh') fun k hk => by rw [h.slot k hk],
    h.any (hWait hParted hFresh) (hWait hParted' hFresh') fun k hk => by rw [h.slot k hk]]

end Agree

namespace Agree

theorem setPhase (h : Agree o side side' s s') (i : Nat) (phase : Phase κ ρ ε α)
    (hOurs : o.transaction i = true) : Agree o side side' (s.setPhase i phase) (s'.setPhase i phase) := by
  refine ⟨fun j hj => ?_, h.keys, h.slot⟩
  simp only [State.setPhase, h.proc i hOurs, Function.update_apply, h.proc j hj]

theorem rollback (h : Agree o side side' s s') (i : Nat) :
    Agree o side side' (s.rollback i) (s'.rollback i) :=
  ⟨h.proc, h.keys, fun k hk => congrArg (Slot.rollback · i) (h.slot k hk)⟩

theorem commit (h : Agree o side side' s s') (i : Nat) :
    Agree o side side' (s.commit i) (s'.commit i) :=
  ⟨h.proc, h.keys, fun k hk => congrArg (Slot.commit · i) (h.slot k hk)⟩

theorem abort (h : Agree o side side' s s') (i : Nat) (p : Program κ ρ ε α) :
    Agree o side side' (s.abort i p) (s'.abort i p) := by
  refine ⟨fun j hj => ?_, h.keys, (h.rollback i).slot⟩
  simp only [State.abort, State.rollback, Function.update_apply, h.proc j hj]

theorem insertRow (h : Agree o side side' s s') {key : String} (hSide : side key = true)
    (hSide' : side' key = true) (i : Nat) (row : R) :
    Agree o side side' (s.insertRow i key row) (s'.insertRow i key row) := by
  refine ⟨h.proc, ?_, fun k hk => ?_⟩
  · change (s'.keys ++ [key]).filter side' = (s.keys ++ [key]).filter side
    rw [List.filter_append, List.filter_append, h.keys, List.filter_singleton,
      List.filter_singleton, hSide, hSide']
  · obtain ⟨hMem, hOurs⟩ := List.mem_filter.mp hk
    simp only [State.insertRow, List.mem_append, List.mem_singleton] at hMem
    simp only [State.insertRow, Function.update_apply]
    split
    · rfl
    · rename_i hOther
      exact h.slot k (List.mem_filter.mpr ⟨hMem.resolve_right hOther, hOurs⟩)

variable {p : R → Bool} {f : R → Option R} {targets : List String}

theorem rewrite (h : Agree o side side' s s') (i : Nat) : Agree o side side'
    { s with slot := s.rewrite i p f targets } { s' with slot := s'.rewrite i p f targets } := by
  refine ⟨h.proc, h.keys, fun k hk => ?_⟩
  simp only [State.rewrite, h.slot k hk]

theorem rewritten (h : Agree o side side' s s') (hTargets : ∀ k ∈ targets, k ∈ s.keys.filter side)
    (i : Nat) : s'.rewritten i p f targets = s.rewritten i p f targets :=
  List.filterMap_congr fun k hk => by rw [h.slot k (hTargets k hk)]

theorem held (h : Agree o side side' s s') (hTargets : ∀ k ∈ targets, k ∈ s.keys.filter side)
    (i : Nat) : (targets.any fun k => (s'.slot k).heldByOther i) =
      targets.any fun k => (s.slot k).heldByOther i := by
  rw [Bool.eq_iff_iff, List.any_eq_true, List.any_eq_true]
  exact exists_congr fun k => and_congr_right fun hk => by rw [h.slot k (hTargets k hk)]

end Agree

/-- What two runs share: the statements and the keys, and what the outside tells us. -/
structure SharedEnv (o : Ours R) (env env' : Env R κ ρ ε) : Prop where
  statement : env'.statement = env.statement
  clashes : env'.clashes = env.clashes
  newKey : env'.newKey = env.newKey
  uniqueViolation : env'.uniqueViolation = env.uniqueViolation
  failedTransaction : env'.failedTransaction = env.failedTransaction
  external : ∀ i, o.transaction i = true → env'.external i = env.external i

/-- Rows of the two sides clash by their keys only. -/
def Apart (o : Ours R) (env : Env R κ ρ ε) : Prop :=
  ∀ a b, o.row a = true → o.row b = false → o.idOf a ≠ o.idOf b → env.clashes a b = false

section OurStep

variable {env' : Env R κ ρ ε} (hEnv : SharedEnv o env env') (hApart : Apart o env)
  (h : Agree o side side' s s') (hParted : Parted o env side s) (hParted' : Parted o env side' s')
  (hClock : s'.clock = s.clock) (hOurs : o.transaction i = true)
  (hSide : side (env.newKey s.clock) = true) (hSide' : side' (env.newKey s.clock) = true)
  (hFresh : env.newKey s.clock ∉ s.keys) (hFresh' : env.newKey s.clock ∉ s'.keys)

include hEnv hApart h hParted hParted' hClock hOurs hSide hSide' hFresh hFresh'

theorem agree_begin {c : κ} {next : Except ε (ρ c) → Program κ ρ ε α} {action : SqlAction R (ρ c)}
    (hWithin : action.Within o.row o.idOf true) :
    Agree o side side' (begin env i c next s action) (begin env' i c next s' action) := by
  cases action with
  | select p answer =>
    simp only [begin, h.visible hParted hParted' hWithin i]
    exact h.setPhase i _ hOurs
  | append answer => exact h.setPhase i _ hOurs
  | update p f answer =>
    simp only [begin, h.found hParted hParted' (fun row hp => (hWithin row hp).1) i]
    exact h.setPhase i _ hOurs
  | insert row answer =>
    simp only [begin, hEnv.newKey, hClock, hEnv.uniqueViolation,
      h.insertCheck hParted hParted' hEnv.clashes hApart (hWithin (env.newKey s.clock)) hFresh hFresh' i]
    split
    · exact h.abort i _
    · exact h
    · exact (h.insertRow hSide hSide' i _).setPhase i _ hOurs

theorem agree_advance : Agree o side side' (advance env i s) (advance env' i s') := by
  have hPhase := hParted.phase i
  simp only [advance, h.proc i hOurs, hEnv.statement]
  split
  · exact h
  · split
    · exact (h.rollback i).setPhase i _ hOurs
    · exact (h.commit i).setPhase i _ hOurs
  · exact (h.rollback i).setPhase i _ hOurs
  · rename_i c next hRunning
    rw [hRunning, hOurs] at hPhase
    split
    · rw [hEnv.external i hOurs, hClock]
      exact h.setPhase i _ hOurs
    · rename_i action hStatement
      split
      · rw [hEnv.failedTransaction]
        exact h.setPhase i _ hOurs
      · exact agree_begin hEnv hApart h hParted hParted' hClock hOurs hSide hSide' hFresh hFresh'
          (hPhase.1 action hStatement)
  · rename_i c targets next hWaiting
    rw [hWaiting, hOurs] at hPhase
    have hTargets : ∀ k ∈ targets, k ∈ s.keys.filter side :=
      fun k hk => List.mem_filter.mpr (hPhase.2.2 k hk)
    split
    · rw [h.held hTargets i]
      split
      · exact h
      · rw [h.rewritten hTargets i]
        exact (h.rewrite i).setPhase i _ hOurs
    · exact h

end OurStep

theorem agree_moved {env' : Env R κ ρ ε} (hEnv : SharedEnv o env env') (hApart : Apart o env)
    (h : Agree o side side' s s') (hParted : Parted o env side s) (hParted' : Parted o env side' s')
    (hClock : s'.clock = s.clock) {l : Label ε} (hOurs : o.transaction l.transaction = true)
    (hSide : side (env.newKey s.clock) = true) (hSide' : side' (env.newKey s.clock) = true)
    (hFresh : env.newKey s.clock ∉ s.keys) (hFresh' : env.newKey s.clock ∉ s'.keys) :
    Agree o side side' (moved env l s) (moved env' l s') := by
  cases l with
  | step i => exact agree_advance hEnv hApart h hParted hParted' hClock hOurs hSide hSide' hFresh hFresh'
  | fail i e =>
    simp only [moved, failNow, h.proc i hOurs, hEnv.statement]
    split
    · exact (h.rollback i).setPhase i _ hOurs
    · split
      · exact h.abort i _
      · exact h
    · exact h.abort i _
    · exact h
  | die i e =>
    simp only [moved, finish, h.proc i hOurs]
    split
    · exact h
    · exact (h.rollback i).setPhase i _ hOurs

/-! ## Runs -/

/-- The same step of ours, or steps of theirs that take as long. -/
def SameOurs (o : Ours R) (l l' : Label ε) : Prop :=
  (o.transaction l.transaction = true ∧ l' = l) ∨
    (o.transaction l.transaction = false ∧ o.transaction l'.transaction = false ∧ l'.ticks = l.ticks)

/-- No key to come was ever used. -/
def Unused (env : Env R κ ρ ε) (s : State R κ ρ ε α) : Prop :=
  ∀ n, s.clock ≤ n → env.newKey n ∉ s.keys

theorem keys_move (h : Move env s i s') :
    s'.keys = s.keys ∨ s'.keys = s.keys ++ [env.newKey s.clock] := by
  cases h with
  | insert r hRunning hStatement hFresh => exact .inr rfl
  | _ => exact .inl rfl

theorem keys_finish (i : Nat) (e : ε) (s : State R κ ρ ε α) : (finish i e s).keys = s.keys := by
  unfold finish
  split <;> rfl

theorem Unused.step (hInjective : Function.Injective env.newKey) (h : Unused env s) (l : Label ε) :
    Unused env (step env l s).2 := by
  intro n hn
  rw [step_eq] at hn ⊢
  change s.clock + l.ticks ≤ n at hn
  change env.newKey n ∉ (moved env l s).keys
  have hOld := h n (by omega)
  have hNew : 1 ≤ l.ticks → env.newKey n ∉ s.keys ++ [env.newKey s.clock] := by
    intro hTicks hMem
    rcases List.mem_append.mp hMem with hMem | hMem
    · exact hOld hMem
    · have hSame := hInjective (List.mem_singleton.mp hMem)
      omega
  cases l with
  | step i =>
    rcases keys_move (move_advance env s i) with hKeys | hKeys
    · exact fun hMem => hOld (hKeys ▸ hMem)
    · exact fun hMem => hNew (Nat.le_refl 1) (hKeys ▸ hMem)
  | fail i e =>
    rcases keys_move (move_failNow env s i e) with hKeys | hKeys
    · exact fun hMem => hOld (hKeys ▸ hMem)
    · exact fun hMem => hNew (Nat.le_refl 1) (hKeys ▸ hMem)
  | die i e =>
    change env.newKey n ∉ (finish i e s).keys
    rwa [keys_finish]

theorem Parted.shared {env' : Env R κ ρ ε} (hEnv : SharedEnv o env env') (h : Parted o env side s) :
    Parted o env' side s := by
  have hKeeps : o.Keeps env' = o.Keeps env := by
    unfold Ours.Keeps
    rw [hEnv.statement]
  refine ⟨h.keyed, h.slot, fun i => ?_⟩
  have hPhase := h.phase i
  unfold Phase.Keeps at hPhase ⊢
  rwa [hKeeps]

theorem SharedEnv.symm {env' : Env R κ ρ ε} (h : SharedEnv o env env') : SharedEnv o env' env where
  statement := h.statement.symm
  clashes := h.clashes.symm
  newKey := h.newKey.symm
  uniqueViolation := h.uniqueViolation.symm
  failedTransaction := h.failedTransaction.symm
  external i hi := (h.external i hi).symm

/-- A state whose rows, transactions and keys are in order. -/
structure InOrder (o : Ours R) (env : Env R κ ρ ε) (side : String → Bool)
    (s : State R κ ρ ε α) : Prop where
  parted : Parted o env side s
  unused : Unused env s

/-- Whose the key of the step is. -/
def nextSide (o : Ours R) (env : Env R κ ρ ε) (side : String → Bool) (s : State R κ ρ ε α)
    (l : Label ε) : String → Bool :=
  Function.update side (env.newKey s.clock) (o.transaction l.transaction)

theorem InOrder.relabel (h : InOrder o env side s) (l : Label ε) :
    Parted o env (nextSide o env side s l) s :=
  h.parted.relabel (h.unused _ (Nat.le_refl _)) _

theorem InOrder.step (hInjective : Function.Injective env.newKey) (h : InOrder o env side s)
    (l : Label ε) : InOrder o env (nextSide o env side s l) (step env l s).2 := by
  have hMoved := (h.relabel l).move (Function.update_self _ _ _) (move_moved env l s)
  refine ⟨?_, h.unused.step hInjective l⟩
  rw [step_eq]
  exact ⟨hMoved.keyed, hMoved.slot, hMoved.phase⟩

theorem Agree.ticked {n n' : Nat} (h : Agree o side side' s s') :
    Agree o side side' { s with clock := n } { s' with clock := n' } := ⟨h.proc, h.keys, h.slot⟩

/-- A step of theirs, seen from our part. -/
theorem agree_step (h : InOrder o env side s) {l : Label ε}
    (hTheirs : o.transaction l.transaction = false) :
    Agree o side (nextSide o env side s l) s (step env l s).2 := by
  have hKey := h.unused _ (Nat.le_refl s.clock)
  have hLabel : Agree o side (nextSide o env side s l) s s := Agree.relabel o s hKey side _
  have hMoved := agree_move (h.relabel l) hTheirs
    ((Function.update_self _ _ _).trans hTheirs) (move_moved env l s)
  rw [step_eq]
  exact hLabel.trans ⟨hMoved.proc, hMoved.keys, hMoved.slot⟩

theorem agree_steps {env' : Env R κ ρ ε} (hEnv : SharedEnv o env env') (hApart : Apart o env)
    (h : Agree o side side' s s') (hOrder : InOrder o env side s) (hOrder' : InOrder o env' side' s')
    (hClock : s'.clock = s.clock) {l l' : Label ε} (hLabels : SameOurs o l l') :
    Agree o (nextSide o env side s l) (nextSide o env' side' s' l') (step env l s).2 (step env' l' s').2 ∧
      (step env' l' s').2.clock = (step env l s).2.clock := by
  rcases hLabels with ⟨hOurs, rfl⟩ | ⟨hTheirs, hTheirs', hTicks⟩
  · have hKey := hOrder.unused _ (Nat.le_refl s.clock)
    have hKey' : env.newKey s.clock ∉ s'.keys := by
      have hUnused := hOrder'.unused _ (Nat.le_refl s'.clock)
      rwa [hEnv.newKey, hClock] at hUnused
    have hNext' : nextSide o env' side' s' l' =
        Function.update side' (env.newKey s.clock) (o.transaction l'.transaction) := by
      rw [nextSide, hEnv.newKey, hClock]
    have hAgree : Agree o (nextSide o env side s l') (nextSide o env' side' s' l') s s' := by
      rw [hNext']
      exact ((Agree.relabel o s hKey side _).symm.trans h).trans (Agree.relabel o s' hKey' side' _)
    have hMoved := agree_moved hEnv hApart hAgree (hOrder.relabel l')
      ((hOrder'.relabel l').shared hEnv.symm) hClock hOurs
      ((Function.update_self _ _ _).trans hOurs)
      (by rw [hNext', Function.update_self, hOurs]) hKey hKey'
    rw [step_eq, step_eq]
    refine ⟨hMoved.ticked, ?_⟩
    change s'.clock + l'.ticks = s.clock + l'.ticks
    rw [hClock]
  · refine ⟨((agree_step hOrder hTheirs).symm.trans h).trans (agree_step hOrder' hTheirs'), ?_⟩
    rw [step_eq, step_eq]
    change s'.clock + l'.ticks = s.clock + l.ticks
    rw [hClock, hTicks]

/-- Two runs with the same part of ours. -/
theorem agree_final {env' : Env R κ ρ ε} (hEnv : SharedEnv o env env') (hApart : Apart o env)
    (hInjective : Function.Injective env.newKey) {labels labels' : List (Label ε)}
    (hLabels : List.Forall₂ (SameOurs o) labels labels') (h : Agree o side side' s s')
    (hOrder : InOrder o env side s) (hOrder' : InOrder o env' side' s') (hClock : s'.clock = s.clock) :
    ∃ side₁ side₁', Agree o side₁ side₁' (Transcript.final (step env) s labels)
        (Transcript.final (step env') s' labels') ∧
      InOrder o env side₁ (Transcript.final (step env) s labels) ∧
      InOrder o env' side₁' (Transcript.final (step env') s' labels') := by
  induction hLabels generalizing s s' side side' with
  | nil => exact ⟨side, side', h, hOrder, hOrder'⟩
  | cons hHead hTail ih =>
    obtain ⟨hNext, hClock'⟩ := agree_steps hEnv hApart h hOrder hOrder' hClock hHead
    exact ih hNext (hOrder.step hInjective _) (hOrder'.step (hEnv.newKey ▸ hInjective) _) hClock'

/-! ## What can be told apart -/

/-- Our transactions are where they were and see the same rows, and the same rows of ours are
committed. -/
structure SameShare (o : Ours R) (s s' : State R κ ρ ε α) : Prop where
  proc : ∀ i, o.transaction i = true → s'.proc i = s.proc i
  visible : ∀ i, o.transaction i = true → (s'.visible i).filter o.row = (s.visible i).filter o.row
  committed : s'.committedRows.filter o.row = s.committedRows.filter o.row

theorem Agree.sameShare (h : Agree o side side' s s') (hParted : Parted o env side s)
    (hParted' : Parted o env side' s') : SameShare o s s' := by
  refine ⟨h.proc, fun i _ => h.visible hParted hParted' (fun _ hRow => hRow) i, ?_⟩
  rw [State.committedRows, State.committedRows, List.filter_filterMap, List.filter_filterMap]
  have hOff : ∀ {s : State R κ ρ ε α} {side : String → Bool}, Parted o env side s →
      ∀ k ∈ s.keys, side k = false → ((s.slot k).committed).filter o.row = none := by
    intro s side hParted k _ hSide
    rw [Option.filter_eq_none_iff]
    intro row hCommitted hRow
    have hKind := ((hParted.slot k).committed row hCommitted).1
    rw [hSide, hRow] at hKind
    cases hKind
  exact h.filterMap (hOff hParted) (hOff hParted') fun k hk => by rw [h.slot k hk]

/-- Whatever the others have and do, our share of a run is the same. -/
theorem sameShare_final {env' : Env R κ ρ ε} (hEnv : SharedEnv o env env') (hApart : Apart o env)
    (hInjective : Function.Injective env.newKey) {labels labels' : List (Label ε)}
    (hLabels : List.Forall₂ (SameOurs o) labels labels') (h : Agree o side side' s s')
    (hOrder : InOrder o env side s) (hOrder' : InOrder o env' side' s') (hClock : s'.clock = s.clock) :
    SameShare o (Transcript.final (step env) s labels) (Transcript.final (step env') s' labels') := by
  obtain ⟨side₁, side₁', hAgree, hEnd, hEnd'⟩ :=
    agree_final hEnv hApart hInjective hLabels h hOrder hOrder' hClock
  exact hAgree.sameShare hEnd.parted (hEnd'.parted.shared hEnv.symm)

end ReadCommitted
