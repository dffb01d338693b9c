import OpenRadiusWeb.Certificates.SingleActive

/-! # Interleaved requests keep one active certificate

The invariant of the open transactions survives every step that is in order, and with it a
commit leaves one active certificate of a type, takes none away without a successor, and
deletes none.
-/

namespace OpenRadiusWeb.Certificates

open ReadCommitted (Slot Phase Proc Alike Unseen Dead Keyed)

/-! ## Commits -/

section Commit

/-- Transaction `i` commits and is over. -/
structure Commits (s s' : World) (i : Nat) : Prop where
  slot : ∀ k, s'.slot k = (s.slot k).commit i
  keys : s'.keys = s.keys
  proc : ∀ j, j ≠ i → s'.proc j = s.proc j
  ended : ∃ r, (s'.proc i).phase = .ended r

variable {s s' : World} {i j : Nat} {T y a k : String} {K : Known} {p : Operation Unit}

theorem Commits.committed (h : Commits s s' i) (k : String) :
    (s'.slot k).committed = (s.slot k).view i := by
  rw [h.slot, Slot.committed_commit]

theorem Commits.own (h : Commits s s' i) (hji : j ≠ i) (k : String) :
    (s'.slot k).own j = (s.slot k).own j := by
  rw [h.slot, Slot.own_commit_other hji]

theorem Commits.committed_of_own (h : Commits s s' i) (hji : j ≠ i) {version : Option Certificate}
    (hOwn : (s.slot k).own j = some version) :
    (s'.slot k).committed = (s.slot k).committed := by
  have hNone : (s.slot k).own i = none := by
    cases hi : (s.slot k).own i with
    | none => rfl
    | some v => exact absurd (Slot.own_unique hOwn hi) hji
  rw [h.committed, Slot.view, hNone]
  rfl

theorem Commits.active_quiet (h : Commits s s' i) (hQuiet : Quiet s i T y) :
    ActiveIn s' T y k ↔ ActiveIn s T y k := by
  cases hOwn : (s.slot k).own i with
  | none =>
    have hSame : (s'.slot k).committed = (s.slot k).committed := by
      rw [h.committed, Slot.view, hOwn]
      rfl
    simp only [ActiveIn, hSame]
  | some version =>
    obtain ⟨hNot, hInactive⟩ := hQuiet k version hOwn
    have hSame : (s'.slot k).committed = version := by
      rw [h.committed, Slot.view, hOwn]
      rfl
    refine iff_of_false ?_ hNot
    rintro ⟨row, hRow, hType, hActive⟩
    rw [hInactive row (hSame.symm.trans hRow) hType] at hActive
    cases hActive

theorem Commits.active_owned (h : Commits s s' i) (hOwned : Owned s i T y a) :
    ActiveIn s' T y k ↔ k = a := by
  constructor
  · rintro ⟨row, hRow, hType, hActive⟩
    rw [h.committed, Slot.view] at hRow
    cases hOwn : (s.slot k).own i with
    | none =>
      rw [hOwn] at hRow
      exact absurd hOwn (hOwned.held k ⟨row, hRow, hType, hActive⟩)
    | some version =>
      rw [hOwn] at hRow
      exact hOwned.only k row (hOwn.trans (congrArg some hRow)) hType hActive
  · rintro rfl
    obtain ⟨row, hOwn, hType, hActive⟩ := hOwned.row
    exact ⟨row, by rw [h.committed, Slot.view, hOwn]; rfl, hType, hActive⟩

/-- What a transaction that is about to commit has done to each type. -/
def Settled (s : World) (i : Nat) : Prop :=
  ∀ T y, Quiet s i T y ∨ ∃ a, Owned s i T y a

theorem Commits.atMostOne (h : Commits s s' i) (hSettled : Settled s i) (hSingle : AtMostOne s) :
    AtMostOne s' := by
  intro T y k k' hk hk'
  rcases hSettled T y with hQuiet | ⟨a, hOwned⟩
  · rw [h.active_quiet hQuiet] at hk hk'
    exact hSingle T y k k' hk hk'
  · rw [h.active_owned hOwned] at hk hk'
    exact hk.trans hk'.symm

theorem Commits.hasActive (h : Commits s s' i) (hSettled : Settled s i) (hHas : HasActive s T y) :
    HasActive s' T y := by
  rcases hSettled T y with hQuiet | ⟨a, hOwned⟩
  · obtain ⟨k, hk⟩ := hHas
    exact ⟨k, (h.active_quiet hQuiet).mpr hk⟩
  · exact ⟨a, (h.active_owned hOwned).mpr rfl⟩

theorem Commits.spares (h : Commits s s' i) (hSpares : Spares s i) {row : Certificate}
    (hRow : (s.slot k).committed = some row) (hActive : row.isActive = true) :
    (s'.slot k).committed ≠ none := by
  rw [h.committed, Slot.view]
  cases hOwn : (s.slot k).own i with
  | none => simp [hRow]
  | some version =>
    cases version with
    | none => exact absurd hOwn (hSpares k row hRow hActive)
    | some new => simp

theorem Commits.dead (h : Commits s s' i) (hDead : Dead s k) : Dead s' k := by
  have hNone : (s.slot k).own i = none := by rw [Slot.own, hDead.2]
  have hSame : s'.slot k = s.slot k := by
    rw [h.slot, Slot.commit, hNone]
  rw [Dead, hSame]
  exact hDead

theorem Commits.typed (h : Commits s s' i) (hTyped : Typed s) : Typed s' where
  keyed k hk := h.dead (hTyped.keyed k (h.keys ▸ hk))
  committedId k row hRow := by
    rw [h.committed, Slot.view] at hRow
    cases hOwn : (s.slot k).own i with
    | none =>
      rw [hOwn] at hRow
      exact hTyped.committedId k row hRow
    | some version =>
      rw [hOwn] at hRow
      exact hTyped.ownId k i row (hOwn.trans (congrArg some hRow))
  ownId k j row hRow := by
    by_cases hji : j = i
    · subst hji
      rw [h.slot, Slot.own_commit_self] at hRow
      cases hRow
    · exact hTyped.ownId k j row ((h.own hji k).symm.trans hRow)
  agree k j row row' hRow hRow' := by
    by_cases hji : j = i
    · subst hji
      rw [h.slot, Slot.own_commit_self] at hRow'
      cases hRow'
    · rw [h.own hji] at hRow'
      rw [h.committed_of_own hji hRow'] at hRow
      exact hTyped.agree k j row row' hRow hRow'

theorem Commits.alive (h : Commits s s' i) (hKnows : Knows s j K) (hk : (k, T, y) ∈ K.kinds)
    (hOwn : (s.slot k).own j = none) (hRow : (s'.slot k).committed ≠ none) :
    (s.slot k).committed ≠ none := by
  intro hNone
  exact hRow (h.dead (hKnows.dead k T y hk hNone hOwn)).1

theorem Commits.knows (h : Commits s s' i) (hTyped : Typed s) (hSettled : Settled s i)
    (hji : j ≠ i) (hKnows : Knows s j K) : Knows s' j K where
  used k T y hk := h.keys ▸ hKnows.used k T y hk
  kindCommitted k T y hk row hRow := by
    rw [h.committed, Slot.view] at hRow
    cases hOwn : (s.slot k).own i with
    | none =>
      rw [hOwn] at hRow
      exact hKnows.kindCommitted k T y hk row hRow
    | some version =>
      rw [hOwn] at hRow
      have hNew : (s.slot k).own i = some (some row) := hOwn.trans (congrArg some hRow)
      cases hCommitted : (s.slot k).committed with
      | none =>
        have hOther : (s.slot k).own j = none := by
          cases hj : (s.slot k).own j with
          | none => rfl
          | some v => exact absurd (Slot.own_unique hj hOwn) hji
        have hDead := hKnows.dead k T y hk hCommitted hOther
        rw [Slot.own, hDead.2] at hOwn
        cases hOwn
      | some old =>
        rw [hTyped.agree k i old row hCommitted hNew]
        exact hKnows.kindCommitted k T y hk old hCommitted
  kindOwn k T y hk row hRow := hKnows.kindOwn k T y hk row ((h.own hji k).symm.trans hRow)
  dead k T y hk hCommitted hOwn := by
    rw [h.own hji] at hOwn
    cases hi : (s.slot k).own i with
    | none =>
      rw [h.committed, Slot.view, hi] at hCommitted
      exact h.dead (hKnows.dead k T y hk hCommitted hOwn)
    | some version =>
      rw [h.committed, Slot.view, hi] at hCommitted
      have hSlot : s'.slot k = ⟨version, none⟩ := by rw [h.slot, Slot.commit, hi]
      rw [Dead, hSlot]
      exact ⟨hCommitted, rfl⟩
  inserted k hk := by simpa only [h.own hji] using hKnows.inserted k hk
  made k version hOwn hCommitted := by
    rw [h.own hji] at hOwn
    exact hKnows.made k version hOwn ((h.committed_of_own hji hOwn).symm.trans hCommitted)
  active T y hk := h.hasActive hSettled (hKnows.active T y hk)
  unwritten hNone k := (h.own hji k).trans (hKnows.unwritten hNone k)

theorem Commits.quiet (h : Commits s s' i) (hji : j ≠ i) (hQuiet : Quiet s j T y) :
    Quiet s' j T y := by
  intro k version hOwn
  rw [h.own hji] at hOwn
  obtain ⟨hNot, hInactive⟩ := hQuiet k version hOwn
  refine ⟨?_, hInactive⟩
  simpa only [ActiveIn, h.committed_of_own hji hOwn] using hNot

theorem Commits.held (h : Commits s s' i) (hji : j ≠ i) (hSettled : Settled s i)
    (hHeld : Held s j T y) (hApart : ∀ a, ¬ Owned s i T y a) : Held s' j T y := by
  rcases hSettled T y with hQuiet | ⟨a, hOwned⟩
  · intro k hk
    rw [h.active_quiet hQuiet] at hk
    rw [h.own hji]
    exact hHeld k hk
  · exact absurd hOwned (hApart a)

theorem Commits.view (h : Commits s s' i) (hji : j ≠ i) (hKnows : Knows s j K)
    (hk : (k, T, y) ∈ K.kinds) (hAlive : (s'.slot k).view j ≠ none) :
    (s.slot k).view j ≠ none := by
  rw [Slot.view, h.own hji] at hAlive
  rw [Slot.view]
  cases hOwn : (s.slot k).own j with
  | none =>
    rw [hOwn] at hAlive
    exact h.alive hKnows hk hOwn hAlive
  | some version =>
    rw [hOwn] at hAlive
    exact hAlive

theorem Commits.owned (h : Commits s s' i) (hji : j ≠ i) (hSettled : Settled s i)
    (hOwned : Owned s j T y a) (hApart : ∀ a, ¬ Owned s i T y a) : Owned s' j T y a where
  held := h.held hji hSettled hOwned.held hApart
  row := by simpa only [h.own hji] using hOwned.row
  only k row hRow := hOwned.only k row ((h.own hji k).symm.trans hRow)
  grounded hNone := by
    obtain ⟨row, hOwn, -, -⟩ := hOwned.row
    rw [h.committed_of_own hji hOwn] at hNone
    exact h.hasActive hSettled (hOwned.grounded hNone)

theorem Owned.flipped (hGoes : Goes s i K p) (hArmed : K.armed ≠ some (T, y))
    (hOwned : Owned s i T y a) : (T, y) ∈ K.flipped := by
  rcases hGoes.settled T y hArmed with hQuiet | ⟨hFlipped, -⟩
  · obtain ⟨row, hOwn, hType, hActive⟩ := hOwned.row
    have hInactive := (hQuiet a (some row) hOwn).2 row rfl hType
    rw [hActive] at hInactive
    cases hInactive
  · exact hFlipped

/-- The committing transaction: it is about to return. -/
structure Committing (s : World) (i : Nat) (K : Known) : Prop where
  goes : ∃ a, Goes s i K (.ret a) ∧ (s.proc i).phase = .running (.ret a)
  opened : (s.proc i).aborted = false

theorem Committing.settled (hi : Committing s i K) : Settled s i := by
  obtain ⟨a, hGoes, -⟩ := hi.goes
  intro T y
  have hArmed : K.armed ≠ some (T, y) := by simp [hGoes.disciplined.1]
  exact (hGoes.settled T y hArmed).imp id fun hOwned => hOwned.2

theorem Committing.apart (hi : Committing s i K) (hInv : Inv s) (hji : j ≠ i) {b : String}
    (hj : Takes s j T y b) (a : String) : ¬ Owned s i T y a := by
  intro hOwned
  obtain ⟨r, hGoes, hPhase⟩ := hi.goes
  have hArmed : K.armed ≠ some (T, y) := by simp [hGoes.disciplined.1]
  have hTakes := hOwned.takes hInv.typed hi.opened hGoes (.inl hPhase) (hOwned.flipped hGoes hArmed)
  exact exclusive hInv.ordered hji.symm hTakes hj

theorem Commits.goes {L : Known} (h : Commits s s' i) (hInv : Inv s) (hi : Committing s i L)
    (hji : j ≠ i) (hOpen : (s.proc j).aborted = false) (hAt : At (s.proc j).phase p)
    (hGoes : Goes s j K p) : Goes s' j K p where
  disciplined := hGoes.disciplined
  knows := h.knows hInv.typed hi.settled hji hGoes.knows
  spares k row hRow hActive hOwn := by
    rw [h.own hji] at hOwn
    rw [h.committed_of_own hji hOwn] at hRow
    exact hGoes.spares k row hRow hActive hOwn
  settled T y hArmed := by
    rcases hGoes.settled T y hArmed with hQuiet | ⟨hFlipped, b, hOwned⟩
    · exact .inl (h.quiet hji hQuiet)
    · have hTakes := hOwned.takes hInv.typed hOpen hGoes hAt hFlipped
      exact .inr ⟨hFlipped, b, h.owned hji hi.settled hOwned (hi.apart hInv hji hTakes)⟩
  ready T y b hArmed hAim := by
    have hReady := hGoes.ready T y b hArmed hAim
    obtain ⟨t, b', next, rfl, hKind, -⟩ := armed_aim hGoes.disciplined hArmed
    obtain rfl : b' = b := Option.some.inj hAim
    refine ⟨fun hAlive => ?_, fun k row hRow => ?_⟩
    · have hBefore := h.view hji hGoes.knows hKind hAlive
      obtain ⟨hHeld, hOwn⟩ := hReady.held hBefore
      have hTakes := Ready.takes hGoes hOpen hAt hArmed rfl hBefore
      refine ⟨h.held hji hi.settled hHeld (hi.apart hInv hji hTakes), ?_⟩
      rwa [h.own hji]
    · exact hReady.cleared k row ((h.own hji k).symm.trans hRow)

theorem Commits.chosen (h : Commits s s' i) (hji : j ≠ i) {c : Nat × Command}
    {targets : List String} {next : Except PyException (Answer c) → Operation Unit}
    (hGoes : Goes s j K (.call c next)) (hChosen : Chosen s j c targets next) :
    Chosen s' j c targets next := by
  obtain ⟨t, c⟩ := c
  cases c with
  | deactivateCertsOfType T y =>
    obtain ⟨hOwn, hAim⟩ := hChosen
    refine ⟨fun k row hRow => hOwn k row ((h.own hji k).symm.trans hRow), fun a ha hAlive => ?_⟩
    obtain ⟨t', a', next', hNext, hKind, -⟩ := armed_aim hGoes.disciplined.2.2 rfl
    rw [hNext] at ha
    obtain rfl : a' = a := Option.some.inj ha
    exact hAim a' (by rw [hNext]; rfl) (h.view hji hGoes.knows hKind hAlive)
  | setCertActive T a =>
    obtain ⟨hOnly, hAlive⟩ := hChosen
    obtain ⟨y, hArmed, hKind, -⟩ := hGoes.disciplined
    exact ⟨hOnly, fun hAfter => hAlive (h.view hji hGoes.knows hKind hAfter)⟩
  | deleteCert T a => exact hChosen
  | _ => exact hChosen.elim

theorem Commits.stands (h : Commits s s' i) (hInv : Inv s) {L : Known} (hi : Committing s i L)
    (j : Nat) : Stands s' j (s'.proc j) := by
  by_cases hji : j = i
  · subst hji
    obtain ⟨r, hOver⟩ := h.ended
    rcases hProc : s'.proc j with ⟨aborted, phase⟩
    rw [hProc] at hOver
    obtain rfl : phase = .ended r := hOver
    intro k
    rw [h.slot, Slot.own_commit_self]
  · have hStands := hInv.stands j
    rw [h.proc j hji]
    rcases hProc : s.proc j with ⟨aborted, phase⟩
    rw [hProc] at hStands
    have hOpen : aborted = false → (s.proc j).aborted = false := by
      intro hSame
      rw [hProc, hSame]
    cases phase with
    | ended r =>
      intro k
      rw [h.own hji]
      exact hStands k
    | running p =>
      cases aborted with
      | true =>
        intro k
        rw [h.own hji]
        exact hStands k
      | false =>
        refine hStands.imp (fun hGoes => hGoes.imp fun K hK => ?_) id
        exact h.goes hInv hi hji (hOpen rfl) (.inl (by rw [hProc])) hK
    | waiting c targets next =>
      cases aborted with
      | true => exact hStands.elim
      | false =>
        obtain ⟨⟨K, hK⟩, hChosen⟩ := hStands
        have hAt : At (s.proc j).phase (.call c next) :=
          .inr ⟨c, targets, next, by rw [hProc], rfl⟩
        exact ⟨⟨K, h.goes hInv hi hji (hOpen rfl) hAt hK⟩, h.chosen hji hK hChosen⟩

/-- A row that `j` aims at is one that it holds or knows of. -/
theorem aim_known (hStands : Stands s j (s.proc j)) (hAims : Aims s' j T y a)
    (hSame : s'.proc j = s.proc j) (hOwn : (s'.slot a).own j = (s.slot a).own j) :
    (s.slot a).own j ≠ none ∨ ∃ K T' y', Knows s j K ∧ (a, T', y') ∈ K.kinds := by
  obtain ⟨-, hOpen, hAim⟩ := hAims
  rw [hSame] at hOpen hAim
  rcases hProc : s.proc j with ⟨aborted, phase⟩
  rw [hProc] at hStands hOpen hAim
  obtain rfl : aborted = false := hOpen
  rcases hAim with ⟨t, targets, next, rfl, hNext⟩ | ⟨p, rfl, hp⟩ | ⟨t, targets, next, rfl⟩ |
    ⟨row, hRow, -⟩
  · obtain ⟨⟨K, hK⟩, -⟩ := hStands
    obtain ⟨t', a', next', hCall, hKind, -⟩ := armed_aim hK.disciplined.2.2 rfl
    rw [hCall] at hNext
    obtain rfl : a' = a := Option.some.inj hNext
    exact .inr ⟨K, T, y, hK.knows, hKind⟩
  · rcases hStands with ⟨K, hK⟩ | ⟨e, rfl⟩
    · unfold aimOf at hp
      split at hp
      · rename_i t T' a' next
        obtain rfl : a' = a := Option.some.inj hp
        obtain ⟨y', -, hKind, -⟩ := hK.disciplined
        exact .inr ⟨K, T', y', hK.knows, hKind⟩
      · cases hp
    · cases hp
  · obtain ⟨⟨K, hK⟩, -⟩ := hStands
    obtain ⟨y', -, hKind, -⟩ := hK.disciplined
    exact .inr ⟨K, T, y', hK.knows, hKind⟩
  · rw [hOwn] at hRow
    exact .inl (by simp [hRow])

theorem Commits.aims (h : Commits s s' i) (hInv : Inv s) (hji : j ≠ i) (hAims : Aims s' j T y a) :
    Aims s j T y a := by
  have hKnown := aim_known (hInv.stands j) hAims (h.proc j hji) (h.own hji a)
  obtain ⟨⟨row, hRow, hType⟩, hOpen, hAim⟩ := hAims
  rw [h.proc j hji, h.own hji] at hAim
  rw [h.proc j hji] at hOpen
  refine ⟨?_, hOpen, hAim⟩
  have hRow' := hRow
  rw [h.committed, Slot.view] at hRow
  cases hOwn : (s.slot a).own i with
  | none =>
    rw [hOwn] at hRow
    exact ⟨row, hRow, hType⟩
  | some version =>
    rw [hOwn] at hRow
    cases hCommitted : (s.slot a).committed with
    | some old =>
      refine ⟨old, rfl, ?_⟩
      rw [← hInv.typed.agree a i old row hCommitted (hOwn.trans (congrArg some hRow)) T y]
      exact hType
    | none =>
      have hNone : (s.slot a).own j = none := by
        cases hj : (s.slot a).own j with
        | none => rfl
        | some v => exact absurd (Slot.own_unique hj hOwn) hji
      rcases hKnown with hHeld | ⟨K, T', y', hK, hKind⟩
      · exact absurd hNone hHeld
      · exact absurd hCommitted (h.alive hK hKind hNone (by simp [hRow']))

theorem Commits.inv (h : Commits s s' i) (hInv : Inv s) (hi : Committing s i K) : Inv s' where
  typed := h.typed hInv.typed
  stands := h.stands hInv hi
  single := h.atMostOne hi.settled hInv.single
  ordered := by
    have hActor : ∀ T y a, ¬ Aims s' i T y a := by
      rintro T y a ⟨-, -, hAim⟩
      obtain ⟨r, hOver⟩ := h.ended
      rw [hOver] at hAim
      rcases hAim with ⟨_, _, _, hPhase, -⟩ | ⟨_, hPhase, -⟩ | ⟨_, _, _, hPhase⟩ | ⟨row, hOwn, -⟩
      · cases hPhase
      · cases hPhase
      · cases hPhase
      · rw [h.slot, Slot.own_commit_self] at hOwn
        cases hOwn
    intro j l T y a b hjl ha hb
    have hji : j ≠ i := fun hSame => hActor T y a (hSame ▸ ha)
    have hli : l ≠ i := fun hSame => hActor T y b (hSame ▸ hb)
    have hMet := hInv.ordered j l T y a b hjl (h.aims hInv hji ha) (h.aims hInv hli hb)
    simpa only [Met, h.proc j hji, h.proc l hli, h.own hji, h.own hli] using hMet

end Commit

/-! ## Steps that commit nothing -/

section Steps

variable {s s' : World} {i : Nat} {T y a k : String} {K : Known} {p : Operation Unit}

theorem Inv.of_unseen (hInv : Inv s) (u : ∀ j, j ≠ i → Unseen s s' j) (hTyped : Typed s')
    (hStands : Stands s' i (s'.proc i))
    (hAims : ∀ T y a, Aims s' i T y a → ∀ b row, (s.slot b).committed = some row →
      row.ofType T y = true →
      (Aims s i T y a ∧ (Met s i T y b → Met s' i T y b)) ∨ Met s' i T y b) : Inv s' where
  typed := hTyped
  stands j := by
    by_cases hji : j = i
    · subst hji
      exact hStands
    · exact (hInv.stands j).unseen (u j hji)
  ordered := hInv.ordered.step u hAims
  single := atMostOne_congr (u (i + 1) (by omega)).committed hInv.single

theorem not_aims_of_none (hOwn : ∀ k, (s'.slot k).own i = none)
    (hEnd : (s'.proc i).aborted = true ∨ ∃ r, (s'.proc i).phase = .ended r) : ¬ Aims s' i T y a := by
  rintro ⟨-, hOpen, hAim⟩
  rcases hEnd with hAborted | ⟨r, hOver⟩
  · rw [hAborted] at hOpen
    cases hOpen
  · rw [hOver] at hAim
    rcases hAim with ⟨_, _, _, hPhase, -⟩ | ⟨_, hPhase, -⟩ | ⟨_, _, _, hPhase⟩ | ⟨row, hRow, -⟩
    · cases hPhase
    · cases hPhase
    · cases hPhase
    · rw [hOwn] at hRow
      cases hRow

/-- An unarmed transaction aims only at what it has activated. -/
theorem aims_running (hDisciplined : Disciplined True (fun _ _ => True) (fun _ _ => True) K p)
    (hArmed : K.armed = none) (hPhase : (s'.proc i).phase = .running p) (hAims : Aims s' i T y a) :
    ∃ row, (s'.slot a).own i = some (some row) ∧ row.isActive = true := by
  obtain ⟨-, -, hAim⟩ := hAims
  rw [hPhase] at hAim
  rcases hAim with ⟨_, _, _, hSame, -⟩ | ⟨p', hSame, hp⟩ | ⟨_, _, _, hSame⟩ | hOwn
  · cases hSame
  · cases hSame
    unfold aimOf at hp
    split at hp
    · obtain ⟨y', hSome, -⟩ := hDisciplined
      rw [hArmed] at hSome
      cases hSome
    · cases hp
  · cases hSame
  · exact hOwn

theorem Inv.clock (hInv : Inv s) (n : Nat) : Inv { s with clock := n } where
  typed := ⟨hInv.typed.keyed, hInv.typed.committedId, hInv.typed.ownId, hInv.typed.agree⟩
  stands j := (hInv.stands j).unseen ⟨⟨fun _ => rfl, fun _ => rfl, fun _ h => h, fun _ _ h => h⟩, rfl⟩
  ordered := hInv.ordered
  single := hInv.single

theorem Typed.setPhase (h : Typed s) (phase : Phase (Nat × Command) Answer PyException Unit) :
    Typed (s.setPhase i phase) := ⟨h.keyed, h.committedId, h.ownId, h.agree⟩

theorem Typed.rollback (h : Typed s) : Typed (s.rollback i) := by
  have hOwn : ∀ k j version, ((s.slot k).rollback i).own j = some version →
      (s.slot k).own j = some version := by
    intro k j version hSome
    by_cases hji : j = i
    · subst hji
      rw [Slot.own_rollback_self] at hSome
      cases hSome
    · rwa [Slot.own_rollback_other hji] at hSome
  refine ⟨fun k hk => ?_, fun k row hRow => ?_, fun k j row hRow => h.ownId k j row (hOwn _ _ _ hRow),
    fun k j row row' hRow hRow' => ?_⟩
  · have hDead := h.keyed k hk
    have hNone : (s.slot k).own i = none := by rw [Slot.own, hDead.2]
    simpa [Dead, ReadCommitted.State.rollback, Slot.rollback, hNone] using hDead
  · exact h.committedId k row ((Slot.committed_rollback _ _).symm.trans hRow)
  · exact h.agree k j row row' ((Slot.committed_rollback _ _).symm.trans hRow) (hOwn _ _ _ hRow')

theorem proc_setPhase (phase : Phase (Nat × Command) Answer PyException Unit) :
    (s.setPhase i phase).proc i = ⟨(s.proc i).aborted, phase⟩ := Function.update_self ..

/-- A transaction that gives up all it has written. -/
theorem Inv.giveUp (hInv : Inv s) {phase : Phase (Nat × Command) Answer PyException Unit}
    {aborted : Bool} (hEnd : aborted = true ∧ (∃ p, phase = .running p) ∨ ∃ r, phase = .ended r) :
    Inv { s.rollback i with proc := Function.update s.proc i ⟨aborted, phase⟩ } := by
  have hOwn : ∀ k, ((s.slot k).rollback i).own i = none := fun k => Slot.own_rollback_self _ _
  have hProc : (Function.update s.proc i ⟨aborted, phase⟩) i = ⟨aborted, phase⟩ :=
    Function.update_self ..
  refine hInv.of_unseen (i := i) (fun j hji => ?_) ?_ ?_ ?_
  · exact (Unseen.rollback hji).trans
      ⟨⟨fun _ => rfl, fun _ => rfl, fun _ h => h, fun _ _ h => h⟩, Function.update_of_ne hji _ _⟩
  · have hTyped : Typed (s.rollback i) := hInv.typed.rollback
    exact ⟨hTyped.keyed, hTyped.committedId, hTyped.ownId, hTyped.agree⟩
  · simp only [hProc]
    rcases hEnd with ⟨rfl, p, rfl⟩ | ⟨r, rfl⟩
    · exact hOwn
    · cases aborted <;> exact hOwn
  · intro T y a hAims
    refine absurd hAims (not_aims_of_none hOwn ?_)
    simp only [hProc]
    exact hEnd.imp And.left id

theorem Inv.goOn (hInv : Inv s) (hOpen : (s.proc i).aborted = false) {q : Operation Unit}
    (hRunning : (s.proc i).phase = .running q) (hGoes : Goes s i K p) (hArmed : K.armed = none) :
    Inv (s.setPhase i (.running p)) := by
  refine hInv.of_unseen (i := i) (fun j hji => Unseen.setPhase hji _) (hInv.typed.setPhase _) ?_ ?_
  · rw [proc_setPhase, hOpen]
    exact .inl ⟨K, hGoes.alike (ReadCommitted.alike_setPhase _)⟩
  · intro T y a hAims b row hRow hType
    obtain ⟨own, hOwn, hActive⟩ := aims_running hGoes.disciplined hArmed
      (by rw [proc_setPhase]) hAims
    refine .inl ⟨⟨hAims.1, hOpen, .inr (.inr (.inr ⟨own, hOwn, hActive⟩))⟩, ?_⟩
    rintro (⟨t, targets, next, hPhase, -⟩ | hMet)
    · rw [hRunning] at hPhase
      cases hPhase
    · exact .inr hMet

/-- An UPDATE chooses its rows. -/
theorem Inv.choose (hInv : Inv s) (hOpen : (s.proc i).aborted = false) {c : Nat × Command}
    {targets : List String} {next : Except PyException (Answer c) → Operation Unit}
    (hRunning : (s.proc i).phase = .running (.call c next)) (hGoes : Goes s i K (.call c next))
    (hChosen : Chosen s i c targets next)
    (hMet : ∀ t T y, c = (t, .deactivateCertsOfType T y) → ∀ b row,
      (s.slot b).committed = some row → row.ofType T y = true →
      b ∈ targets ∨ (s.slot b).own i ≠ none) :
    Inv (s.setPhase i (.waiting c targets next)) := by
  refine hInv.of_unseen (i := i) (fun j hji => Unseen.setPhase hji _) (hInv.typed.setPhase _) ?_ ?_
  · rw [proc_setPhase, hOpen]
    exact ⟨⟨K, hGoes.alike (ReadCommitted.alike_setPhase _)⟩,
      hChosen.alike (ReadCommitted.alike_setPhase _)⟩
  · intro T y a hAims b row hRow hType
    obtain ⟨hKind, -, hAim⟩ := hAims
    rw [proc_setPhase] at hAim
    have hKeeps : Met s i T y b → Met (s.setPhase i (.waiting c targets next)) i T y b := by
      rintro (⟨t, targets', next', hPhase, -⟩ | hOwn)
      · rw [hRunning] at hPhase
        cases hPhase
      · exact .inr hOwn
    rcases hAim with ⟨t, targets', next', hPhase, -⟩ | ⟨p, hPhase, -⟩ | ⟨t, targets', next', hPhase⟩ |
      hOwn
    · cases hPhase
      rcases hMet t T y rfl b row hRow hType with hTarget | hOwn
      · exact .inr (.inl ⟨t, targets, next', by rw [proc_setPhase], hTarget⟩)
      · exact .inr (.inr hOwn)
    · cases hPhase
    · cases hPhase
      exact .inl ⟨⟨hKind, hOpen, .inr (.inl ⟨_, hRunning, rfl⟩)⟩, hKeeps⟩
    · exact .inl ⟨⟨hKind, hOpen, .inr (.inr (.inr hOwn))⟩, hKeeps⟩

/-! ### Updates -/

/-- An update of certificates keeps what a row is. -/
def KeepsKind (f : Certificate → Option Certificate) : Prop :=
  ∀ row new, f row = some new → new.id = row.id ∧ ∀ T y, new.ofType T y = row.ofType T y

/-- The table after an update of transaction `i`. -/
abbrev rewritten (s : World) (i : Nat) (q : Certificate → Bool)
    (f : Certificate → Option Certificate) (targets : List String) : World :=
  { s with slot := s.rewrite i q f targets }

variable {q : Certificate → Bool} {f : Certificate → Option Certificate} {targets : List String}
  {T' y' : String}

theorem slot_rewritten (s : World) (i : Nat) (q : Certificate → Bool)
    (f : Certificate → Option Certificate) (targets : List String) (k : String) :
    (rewritten s i q f targets).slot k = s.slot k ∨
      ∃ row, k ∈ targets ∧ (s.slot k).view i = some row ∧ q row = true ∧
        (rewritten s i q f targets).slot k = (s.slot k).write i (f row) :=
  ReadCommitted.rewrite_slot s i q f targets k

theorem committed_rewritten (k : String) :
    ((rewritten s i q f targets).slot k).committed = (s.slot k).committed := by
  rcases slot_rewritten s i q f targets k with
    hk | ⟨row, -, -, -, hk⟩
  · rw [hk]
  · rw [hk]
    rfl

theorem own_rewritten (s : World) (i : Nat) (q : Certificate → Bool)
    (f : Certificate → Option Certificate) (targets : List String) (k : String) :
    ((rewritten s i q f targets).slot k = s.slot k) ∨
      ∃ row, k ∈ targets ∧ (s.slot k).view i = some row ∧ q row = true ∧
        ((rewritten s i q f targets).slot k).own i = some (f row) := by
  refine (slot_rewritten s i q f targets k).imp id fun h => ?_
  obtain ⟨row, hTarget, hView, hRow, hSlot⟩ := h
  exact ⟨row, hTarget, hView, hRow, by rw [hSlot]; exact Slot.own_write_self _ _ _⟩

theorem ofType_unique {row : Certificate} (h : row.ofType T y = true) (h' : row.ofType T' y' = true) :
    T' = T ∧ y' = y := by
  simp only [Certificate.ofType, Bool.and_eq_true, beq_iff_eq] at h h'
  exact ⟨h'.2.symm.trans h.2, h'.1.symm.trans h.1⟩

theorem view_cases {row : Certificate} (h : (s.slot k).view i = some row) :
    (s.slot k).own i = some (some row) ∨
      ((s.slot k).own i = none ∧ (s.slot k).committed = some row) := by
  rw [Slot.view] at h
  cases hOwn : (s.slot k).own i with
  | none =>
    rw [hOwn] at h
    exact .inr ⟨rfl, h⟩
  | some version =>
    rw [hOwn] at h
    exact .inl (congrArg some h)

theorem Typed.viewId (h : Typed s) {row : Certificate} (hView : (s.slot k).view i = some row) :
    row.id = k := by
  rcases view_cases hView with hOwn | ⟨-, hCommitted⟩
  · exact h.ownId k i row hOwn
  · exact h.committedId k row hCommitted

theorem Typed.viewAgrees (h : Typed s) {row old : Certificate}
    (hView : (s.slot k).view i = some row) (hOld : (s.slot k).committed = some old) :
    row.ofType T y = old.ofType T y := by
  rcases view_cases hView with hOwn | ⟨-, hCommitted⟩
  · exact h.agree k i old row hOld hOwn T y
  · rw [hCommitted] at hOld
    cases hOld
    rfl

theorem Typed.rewrite (h : Typed s) (hf : KeepsKind f)
    (hFree : (targets.any fun k => (s.slot k).heldByOther i) = false) :
    Typed (rewritten s i q f targets) := by
  have hOwn : ∀ k j row, ((rewritten s i q f targets).slot k).own j = some (some row) →
      (s.slot k).own j = some (some row) ∨
        ∃ seen, (s.slot k).view i = some seen ∧ f seen = some row := by
    intro k j row hRow
    rcases slot_rewritten _ _ _ _ _ k with hk | ⟨seen, hTarget, hView, -, hk⟩
    · rw [hk] at hRow
      exact .inl hRow
    · by_cases hji : j = i
      · subst hji
        rw [hk, Slot.own_write_self] at hRow
        exact .inr ⟨seen, hView, Option.some.inj hRow⟩
      · have hNotHeld : (s.slot k).heldByOther i = false := by
          simpa using List.any_eq_false.mp hFree k hTarget
        rw [hk, Slot.own_write_other hNotHeld hji] at hRow
        exact .inl hRow
  refine ⟨fun k hk => ?_, fun k row hRow => ?_, fun k j row hRow => ?_,
    fun k j row row' hRow hRow' => ?_⟩
  · have hDead := h.keyed k hk
    rcases slot_rewritten s i q f targets k with
      hSlot | ⟨seen, -, hView, -, -⟩
    · rw [Dead, hSlot]
      exact hDead
    · rw [Slot.view, Slot.own, hDead.2] at hView
      rw [hDead.1] at hView
      cases hView
  · exact h.committedId k row ((committed_rewritten k).symm.trans hRow)
  · rcases hOwn k j row hRow with hOld | ⟨seen, hView, hNew⟩
    · exact h.ownId k j row hOld
    · exact (hf seen row hNew).1.trans (h.viewId hView)
  · have hCommitted := (committed_rewritten k).symm.trans hRow
    intro T y
    rcases hOwn k j row' hRow' with hOld | ⟨seen, hView, hNew⟩
    · exact h.agree k j row row' hCommitted hOld T y
    · rw [(hf seen row' hNew).2]
      exact h.viewAgrees hView hCommitted

theorem Knows.rewrite (h : Knows s i K) (hf : KeepsKind f)
    (hKeep : ∀ k ∈ K.inserted, ∀ row, (s.slot k).own i = some (some row) → f row ≠ none) :
    Knows (rewritten s i q f targets) i { K with written := true } where
  used k T y hk := h.used k T y hk
  kindCommitted k T y hk row hRow :=
    h.kindCommitted k T y hk row ((committed_rewritten k).symm.trans hRow)
  kindOwn k T y hk row hRow := by
    rcases own_rewritten s i q f targets k with
      hSlot | ⟨seen, -, hView, -, hOwn⟩
    · rw [hSlot] at hRow
      exact h.kindOwn k T y hk row hRow
    · rw [hOwn] at hRow
      rw [(hf seen row (Option.some.inj hRow)).2]
      rcases view_cases hView with hSeen | ⟨-, hSeen⟩
      · exact h.kindOwn k T y hk seen hSeen
      · exact h.kindCommitted k T y hk seen hSeen
  dead k T y hk hCommitted hOwn := by
    rcases own_rewritten s i q f targets k with
      hSlot | ⟨seen, -, -, -, hNew⟩
    · rw [hSlot] at hCommitted hOwn
      rw [Dead, hSlot]
      exact h.dead k T y hk hCommitted hOwn
    · rw [hNew] at hOwn
      cases hOwn
  inserted k hk := by
    obtain ⟨row, hRow⟩ := h.inserted k hk
    rcases own_rewritten s i q f targets k with
      hSlot | ⟨seen, -, hView, -, hNew⟩
    · exact ⟨row, by rw [hSlot]; exact hRow⟩
    · have hSeen : seen = row := by
        rw [Slot.view, hRow] at hView
        exact (Option.some.inj hView).symm
      obtain ⟨new, hSome⟩ := Option.ne_none_iff_exists'.mp (hKeep k hk row hRow)
      exact ⟨new, by rw [hNew, hSeen, hSome]⟩
  made k version hOwn hCommitted := by
    rw [committed_rewritten] at hCommitted
    rcases own_rewritten s i q f targets k with
      hSlot | ⟨seen, -, hView, -, -⟩
    · rw [hSlot] at hOwn
      exact h.made k version hOwn hCommitted
    · rcases view_cases hView with hSeen | ⟨-, hSeen⟩
      · exact h.made k (some seen) hSeen hCommitted
      · rw [hCommitted] at hSeen
        cases hSeen
  active T y hk := (hasActive_congr committed_rewritten).mpr (h.active T y hk)
  unwritten hNone := by cases hNone

theorem Knows.relabel (h : Knows s i K) (flipped : List (String × String))
    (armed : Option (String × String)) : Knows s i { K with flipped := flipped, armed := armed } :=
  ⟨h.used, h.kindCommitted, h.kindOwn, h.dead, h.inserted, h.made, h.active, h.unwritten⟩

end Steps

end OpenRadiusWeb.Certificates
