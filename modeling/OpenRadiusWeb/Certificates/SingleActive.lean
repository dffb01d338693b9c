import OpenRadiusWeb.Certificates.Requests

/-! # One active certificate of a type

What holds of the open transactions while requests run side by side. A transaction that has
activated a certificate holds every row of the type that is active in the database, so no
other one can have done the same; a commit therefore moves the active row and adds none.
-/

namespace OpenRadiusWeb.Certificates

open ReadCommitted (Slot Phase Proc Alike Unseen Dead Keyed)

/-- The row under `k` is an active certificate of the database. -/
def ActiveIn (s : World) (tenantId certType k : String) : Prop :=
  ∃ row, (s.slot k).committed = some row ∧ row.ofType tenantId certType = true ∧ row.isActive = true

def HasActive (s : World) (tenantId certType : String) : Prop := ∃ k, ActiveIn s tenantId certType k

def AtMostOne (s : World) : Prop :=
  ∀ tenantId certType k k', ActiveIn s tenantId certType k → ActiveIn s tenantId certType k' → k = k'

/-- The steps that need care are those of an UPDATE or DELETE whose rows are free. Every
active certificate of the type must be among the rows that the deactivation chose when it
started, and the row of a DELETE must be inactive. -/
def Orderly (s : World) : Label → Prop
  | .step i =>
    match (s.proc i).phase with
    | .waiting (_, .deactivateCertsOfType tenantId certType) targets _ =>
      (targets.any fun k => (s.slot k).heldByOther i) = false →
        ∀ k, ActiveIn s tenantId certType k → k ∈ targets
    | .waiting (_, .deleteCert _ certId) targets _ =>
      (targets.any fun k => (s.slot k).heldByOther i) = false →
        ∀ row, (s.slot certId).committed = some row → row.isActive = false
    | _ => True
  | _ => True

/-! ## What is known of one transaction -/

/-- The versions of a row have its key, and one tenant and type. -/
structure Typed (s : World) : Prop where
  keyed : Keyed s
  committedId : ∀ k row, (s.slot k).committed = some row → row.id = k
  ownId : ∀ k i row, (s.slot k).own i = some (some row) → row.id = k
  agree : ∀ k i row row', (s.slot k).committed = some row → (s.slot k).own i = some (some row') →
    ∀ tenantId certType, row'.ofType tenantId certType = row.ofType tenantId certType

/-- What transaction `i` was told is so. -/
structure Knows (s : World) (i : Nat) (K : Known) : Prop where
  used : ∀ k T y, (k, T, y) ∈ K.kinds → k ∈ s.keys
  kindCommitted : ∀ k T y, (k, T, y) ∈ K.kinds →
    ∀ row, (s.slot k).committed = some row → row.ofType T y = true
  kindOwn : ∀ k T y, (k, T, y) ∈ K.kinds →
    ∀ row, (s.slot k).own i = some (some row) → row.ofType T y = true
  dead : ∀ k T y, (k, T, y) ∈ K.kinds →
    (s.slot k).committed = none → (s.slot k).own i = none → Dead s k
  inserted : ∀ k ∈ K.inserted, ∃ row, (s.slot k).own i = some (some row)
  made : ∀ k version, (s.slot k).own i = some version → (s.slot k).committed = none →
    k ∈ K.inserted
  active : ∀ T y, (T, y) ∈ K.active → HasActive s T y
  unwritten : K.written = false → ∀ k, (s.slot k).own i = none

/-- The transaction has neither touched an active row of the type nor made one. -/
def Quiet (s : World) (i : Nat) (T y : String) : Prop :=
  ∀ k version, (s.slot k).own i = some version → ¬ ActiveIn s T y k ∧
    ∀ row, version = some row → row.ofType T y = true → row.isActive = false

/-- The transaction holds all active rows of the type. -/
def Held (s : World) (i : Nat) (T y : String) : Prop :=
  ∀ k, ActiveIn s T y k → (s.slot k).own i ≠ none

/-- The transaction has made `a` the one active row of the type. -/
structure Owned (s : World) (i : Nat) (T y a : String) : Prop where
  held : Held s i T y
  row : ∃ row, (s.slot a).own i = some (some row) ∧ row.ofType T y = true ∧ row.isActive = true
  only : ∀ k row, (s.slot k).own i = some (some row) → row.ofType T y = true →
    row.isActive = true → k = a
  grounded : (s.slot a).committed = none → HasActive s T y

/-- No active row of the database is deleted. -/
def Spares (s : World) (i : Nat) : Prop :=
  ∀ k row, (s.slot k).committed = some row → row.isActive = true → (s.slot k).own i ≠ some none

/-- The transaction has deactivated the type, and can activate `a` if that row is there. -/
structure Ready (s : World) (i : Nat) (T y a : String) : Prop where
  held : (s.slot a).view i ≠ none → Held s i T y ∧ (s.slot a).own i ≠ none
  cleared : ∀ k row, (s.slot k).own i = some (some row) → row.ofType T y = true →
    row.isActive = false

/-- The row that a program activates next. -/
def aimOf : Operation Unit → Option String
  | .call (_, .setCertActive _ certId) _ => some certId
  | _ => none

/-- Where an open transaction stands before the program `p`. -/
structure Goes (s : World) (i : Nat) (K : Known) (p : Operation Unit) : Prop where
  disciplined : Disciplined True (fun _ _ => True) (fun _ _ => True) K p
  knows : Knows s i K
  spares : Spares s i
  settled : ∀ T y, K.armed ≠ some (T, y) →
    Quiet s i T y ∨ ((T, y) ∈ K.flipped ∧ ∃ a, Owned s i T y a)
  ready : ∀ T y a, K.armed = some (T, y) → aimOf p = some a → Ready s i T y a

/-- The rows an UPDATE has chosen. -/
def Chosen (s : World) (i : Nat) :
    (c : Nat × Command) → List String → (Except PyException (Answer c) → Operation Unit) → Prop
  | (_, .deactivateCertsOfType T y), targets, next =>
    (∀ k row, (s.slot k).own i = some (some row) → row.ofType T y = true → k ∈ targets) ∧
      (∀ a, aimOf (next (.ok ())) = some a → (s.slot a).view i ≠ none → a ∈ targets)
  | (_, .setCertActive _ a), targets, _ =>
    (∀ k ∈ targets, k = a) ∧ ((s.slot a).view i ≠ none → a ∈ targets)
  | (_, .deleteCert _ a), targets, _ => ∀ k ∈ targets, k = a
  | _, _, _ => False

def Stands (s : World) (i : Nat) : Proc (Nat × Command) Answer PyException Unit → Prop
  | ⟨_, .ended _⟩ => ∀ k, (s.slot k).own i = none
  | ⟨true, .running _⟩ => ∀ k, (s.slot k).own i = none
  | ⟨false, .running p⟩ => (∃ K, Goes s i K p) ∨ ∃ e, p = .raise e
  | ⟨false, .waiting c targets next⟩ => (∃ K, Goes s i K (.call c next)) ∧ Chosen s i c targets next
  | ⟨true, .waiting _ _ _⟩ => False

/-! ## What is known of two transactions -/

/-- Transaction `i` is on its way to activate `a`, or has done so. -/
def Aims (s : World) (i : Nat) (T y a : String) : Prop :=
  (∃ row, (s.slot a).committed = some row ∧ row.ofType T y = true) ∧ (s.proc i).aborted = false ∧
    ((∃ t targets next, (s.proc i).phase = .waiting (t, .deactivateCertsOfType T y) targets next ∧
        aimOf (next (.ok ())) = some a) ∨
      (∃ p, (s.proc i).phase = .running p ∧ aimOf p = some a) ∨
      (∃ t targets next, (s.proc i).phase = .waiting (t, .setCertActive T a) targets next) ∨
      ∃ row, (s.slot a).own i = some (some row) ∧ row.isActive = true)

/-- Transaction `i` has chosen or written the row under `b`. -/
def Met (s : World) (i : Nat) (T y b : String) : Prop :=
  (∃ t targets next, (s.proc i).phase = .waiting (t, .deactivateCertsOfType T y) targets next ∧
      b ∈ targets) ∨ (s.slot b).own i ≠ none

/-- Of two transactions, the later one has come across the other's row. -/
def Ordered (s : World) : Prop :=
  ∀ i j T y a b, i ≠ j → Aims s i T y a → Aims s j T y b → Met s j T y a ∨ Met s i T y b

structure Inv (s : World) : Prop where
  typed : Typed s
  stands : ∀ i, Stands s i (s.proc i)
  ordered : Ordered s
  single : AtMostOne s

/-! ## Two transactions cannot both have activated a type -/

section Exclusion

variable {s : World} {i j : Nat} {T y a b : String}

theorem held_apart (hij : i ≠ j) (hi : Held s i T y) (hj : Held s j T y) : ¬ HasActive s T y := by
  rintro ⟨k, hk⟩
  obtain ⟨v, hv⟩ := Option.ne_none_iff_exists'.mp (hi k hk)
  obtain ⟨w, hw⟩ := Option.ne_none_iff_exists'.mp (hj k hk)
  exact hij (Slot.own_unique hv hw)

/-- The transaction has the type to itself and `a` in its hands. -/
structure Takes (s : World) (i : Nat) (T y a : String) : Prop where
  held : Held s i T y
  own : (s.slot a).own i ≠ none
  aims : ¬ HasActive s T y → Aims s i T y a
  steady : ¬ HasActive s T y → ∀ t targets next,
    (s.proc i).phase ≠ .waiting (t, .deactivateCertsOfType T y) targets next

theorem exclusive (hOrdered : Ordered s) (hij : i ≠ j) (hi : Takes s i T y a)
    (hj : Takes s j T y b) : False := by
  have hNone := held_apart hij hi.held hj.held
  obtain ⟨v, hv⟩ := Option.ne_none_iff_exists'.mp hi.own
  obtain ⟨w, hw⟩ := Option.ne_none_iff_exists'.mp hj.own
  rcases hOrdered i j T y a b hij (hi.aims hNone) (hj.aims hNone) with hMet | hMet
  · rcases hMet with ⟨t, targets, next, hPhase, -⟩ | hOwn
    · exact hj.steady hNone t targets next hPhase
    · obtain ⟨u, hu⟩ := Option.ne_none_iff_exists'.mp hOwn
      exact hij (Slot.own_unique hv hu)
  · rcases hMet with ⟨t, targets, next, hPhase, -⟩ | hOwn
    · exact hi.steady hNone t targets next hPhase
    · obtain ⟨u, hu⟩ := Option.ne_none_iff_exists'.mp hOwn
      exact hij (Slot.own_unique hu hw)

/-- The program that a phase goes on with. -/
def At (phase : Phase (Nat × Command) Answer PyException Unit) (p : Operation Unit) : Prop :=
  phase = .running p ∨ ∃ c targets next, phase = .waiting c targets next ∧ p = .call c next

variable {K : Known} {p : Operation Unit}

theorem Owned.takes (hTyped : Typed s) (h : Owned s i T y a) (hOpen : (s.proc i).aborted = false)
    (hGoes : Goes s i K p) (hAt : At (s.proc i).phase p) (hFlipped : (T, y) ∈ K.flipped) :
    Takes s i T y a := by
  obtain ⟨row, hOwn, hType, hActive⟩ := h.row
  refine ⟨h.held, by simp [hOwn], fun hNone => ?_, fun hNone t targets next hPhase => ?_⟩
  · cases hCommitted : (s.slot a).committed with
    | none => exact absurd (h.grounded hCommitted) hNone
    | some old =>
      refine ⟨⟨old, hCommitted, ?_⟩, hOpen, .inr (.inr (.inr ⟨row, hOwn, hActive⟩))⟩
      rw [← hTyped.agree a i old row hCommitted hOwn T y]
      exact hType
  · rcases hAt with hRunning | ⟨c, targets', next', hWaiting, rfl⟩
    · rw [hRunning] at hPhase
      cases hPhase
    · rw [hWaiting] at hPhase
      cases hPhase
      exact hNone (hGoes.knows.active T y (hGoes.disciplined.2.1 hFlipped))

/-- An armed transaction activates a row of the type it has deactivated. -/
theorem armed_aim (h : Disciplined True (fun _ _ => True) (fun _ _ => True) K p)
    (hArmed : K.armed = some (T, y)) :
    ∃ t b next, p = .call (t, .setCertActive T b) next ∧ (b, T, y) ∈ K.kinds ∧
      (b ∈ K.inserted → (T, y) ∈ K.active) := by
  cases p with
  | ret a => exact absurd h.1 (by simp [hArmed])
  | raise e => exact absurd h.1 (by simp [hArmed])
  | call c next =>
    obtain ⟨t, c⟩ := c
    cases c with
    | setCertActive tenantId certId =>
      obtain ⟨certType, hSame, hKind, hActive, -⟩ := h
      rw [hArmed] at hSame
      cases hSame
      exact ⟨t, certId, next, rfl, hKind, hActive⟩
    | _ => exact absurd h.1 (by simp [hArmed])

theorem Ready.takes (hGoes : Goes s i K p) (hOpen : (s.proc i).aborted = false)
    (hAt : At (s.proc i).phase p) (hArmed : K.armed = some (T, y)) {t : Nat}
    {next : Except PyException (Answer (t, .setCertActive T a)) → Operation Unit}
    (hp : p = .call (t, .setCertActive T a) next) (hAlive : (s.slot a).view i ≠ none) :
    Takes s i T y a := by
  obtain ⟨t', a', next', hCall, hKind, hInserted⟩ := armed_aim hGoes.disciplined hArmed
  rw [hp] at hCall
  cases hCall
  have hReady := hGoes.ready T y a hArmed (by rw [hp]; rfl)
  obtain ⟨hHeld, hOwn⟩ := hReady.held hAlive
  refine ⟨hHeld, hOwn, fun hNone => ?_, fun _ t' targets next' hPhase => ?_⟩
  · cases hCommitted : (s.slot a).committed with
    | none =>
      obtain ⟨version, hVersion⟩ := Option.ne_none_iff_exists'.mp hOwn
      have hMade := hGoes.knows.made a version hVersion hCommitted
      exact absurd (hGoes.knows.active T y (hInserted hMade)) hNone
    | some row =>
      refine ⟨⟨row, hCommitted, hGoes.knows.kindCommitted a T y hKind row hCommitted⟩, hOpen, ?_⟩
      rcases hAt with hRunning | ⟨c, targets, next', hWaiting, hSame⟩
      · exact .inr (.inl ⟨p, hRunning, by rw [hp]; rfl⟩)
      · rw [hp] at hSame
        cases hSame
        exact .inr (.inr (.inl ⟨t, targets, next, hWaiting⟩))
  · rcases hAt with hRunning | ⟨c, targets', next'', hWaiting, hSame⟩
    · rw [hRunning] at hPhase
      cases hPhase
    · rw [hp] at hSame
      cases hSame
      rw [hWaiting] at hPhase
      cases hPhase

end Exclusion

/-! ## Steps that commit nothing -/

section Frame

variable {s s' : World} {i j : Nat} {T y a k : String} {K : Known} {p : Operation Unit}

theorem activeIn_congr (h : ∀ k, (s'.slot k).committed = (s.slot k).committed) :
    ActiveIn s' T y k ↔ ActiveIn s T y k := by
  simp only [ActiveIn, h]

theorem hasActive_congr (h : ∀ k, (s'.slot k).committed = (s.slot k).committed) :
    HasActive s' T y ↔ HasActive s T y := by
  simp only [HasActive, ActiveIn, h]

theorem Knows.alike (h : Knows s j K) (u : Alike s s' j) : Knows s' j K where
  used k T y hk := u.keys k (h.used k T y hk)
  kindCommitted k T y hk row hRow := h.kindCommitted k T y hk row ((u.committed k).symm.trans hRow)
  kindOwn k T y hk row hRow := h.kindOwn k T y hk row ((u.own k).symm.trans hRow)
  dead k T y hk hCommitted hOwn := u.dead k (h.used k T y hk)
    (h.dead k T y hk ((u.committed k).symm.trans hCommitted) ((u.own k).symm.trans hOwn))
  inserted k hk := by simpa only [u.own] using h.inserted k hk
  made k version hOwn hCommitted :=
    h.made k version ((u.own k).symm.trans hOwn) ((u.committed k).symm.trans hCommitted)
  active T y hk := (hasActive_congr u.committed).mpr (h.active T y hk)
  unwritten hNone k := (u.own k).trans (h.unwritten hNone k)

theorem quiet_alike (u : Alike s s' j) : Quiet s' j T y ↔ Quiet s j T y := by
  simp only [Quiet, ActiveIn, u.own, u.committed]

theorem held_alike (u : Alike s s' j) : Held s' j T y ↔ Held s j T y := by
  simp only [Held, ActiveIn, u.own, u.committed]

theorem Owned.alike (h : Owned s j T y a) (u : Alike s s' j) : Owned s' j T y a where
  held := (held_alike u).mpr h.held
  row := by simpa only [u.own] using h.row
  only k row hRow := h.only k row ((u.own k).symm.trans hRow)
  grounded hNone := (hasActive_congr u.committed).mpr (h.grounded ((u.committed a).symm.trans hNone))

theorem Ready.alike (h : Ready s j T y a) (u : Alike s s' j) : Ready s' j T y a where
  held hAlive := by
    rw [u.view] at hAlive
    exact ⟨(held_alike u).mpr (h.held hAlive).1, by rw [u.own]; exact (h.held hAlive).2⟩
  cleared k row hRow := h.cleared k row ((u.own k).symm.trans hRow)

theorem Spares.alike (h : Spares s j) (u : Alike s s' j) : Spares s' j := by
  intro k row hRow hActive
  rw [u.own]
  exact h k row ((u.committed k).symm.trans hRow) hActive

theorem Goes.alike (h : Goes s j K p) (u : Alike s s' j) : Goes s' j K p where
  disciplined := h.disciplined
  knows := h.knows.alike u
  spares := h.spares.alike u
  settled T y hArmed := by
    rcases h.settled T y hArmed with hQuiet | ⟨hFlipped, a, hOwned⟩
    · exact .inl ((quiet_alike u).mpr hQuiet)
    · exact .inr ⟨hFlipped, a, hOwned.alike u⟩
  ready T y a hArmed hAim := (h.ready T y a hArmed hAim).alike u

theorem Chosen.alike {c : Nat × Command} {targets : List String}
    {next : Except PyException (Answer c) → Operation Unit} (h : Chosen s j c targets next)
    (u : Alike s s' j) : Chosen s' j c targets next := by
  obtain ⟨t, c⟩ := c
  cases c with
  | deactivateCertsOfType T y => simpa only [Chosen, u.own, u.view] using h
  | setCertActive T a => simpa only [Chosen, u.view] using h
  | deleteCert T a => exact h
  | _ => exact h.elim

/-- A transaction stands where it stood when another one takes a step that commits nothing. -/
theorem Stands.unseen (h : Stands s j (s.proc j)) (u : Unseen s s' j) :
    Stands s' j (s'.proc j) := by
  rw [u.proc]
  generalize s.proc j = proc at h ⊢
  obtain ⟨aborted, phase⟩ := proc
  cases phase with
  | ended r =>
    intro k
    rw [u.own]
    exact h k
  | running p =>
    cases aborted with
    | true =>
      intro k
      rw [u.own]
      exact h k
    | false => exact h.imp (fun hGoes => hGoes.imp fun K hK => hK.alike u.toAlike) id
  | waiting c targets next =>
    cases aborted with
    | true => exact h.elim
    | false => exact ⟨h.1.imp fun K hK => hK.alike u.toAlike, h.2.alike u.toAlike⟩

theorem aims_unseen (u : Unseen s s' j) : Aims s' j T y a ↔ Aims s j T y a := by
  simp only [Aims, u.committed, u.own, u.proc]

theorem met_unseen (u : Unseen s s' j) : Met s' j T y a ↔ Met s j T y a := by
  simp only [Met, u.own, u.proc]

/-- The step of `i` keeps the order if what `i` now aims at it aimed at before, with nothing
lost of what it has met, or if it meets whatever others aim at. -/
theorem Ordered.step (h : Ordered s) (u : ∀ j, j ≠ i → Unseen s s' j)
    (hAims : ∀ T y a, Aims s' i T y a → ∀ b row, (s.slot b).committed = some row →
      row.ofType T y = true →
      (Aims s i T y a ∧ (Met s i T y b → Met s' i T y b)) ∨ Met s' i T y b) :
    Ordered s' := by
  have hActor : ∀ j T y a b, j ≠ i → Aims s' i T y a → Aims s' j T y b →
      Met s' j T y a ∨ Met s' i T y b := by
    intro j T y a b hji ha hb
    rw [aims_unseen (u j hji)] at hb
    obtain ⟨row, hRow, hType⟩ := hb.1
    rcases hAims T y a ha b row hRow hType with ⟨hOld, hKeeps⟩ | hMet
    · rw [met_unseen (u j hji)]
      exact (h i j T y a b hji.symm hOld hb).imp id hKeeps
    · exact .inr hMet
  intro j l T y a b hjl ha hb
  by_cases hj : j = i
  · subst hj
    exact hActor l T y a b hjl.symm ha hb
  · by_cases hl : l = i
    · subst hl
      exact (hActor j T y b a hjl hb ha).symm
    · rw [aims_unseen (u j hj)] at ha
      rw [aims_unseen (u l hl)] at hb
      rw [met_unseen (u j hj), met_unseen (u l hl)]
      exact h j l T y a b hjl ha hb

theorem atMostOne_congr (h : ∀ k, (s'.slot k).committed = (s.slot k).committed)
    (hSingle : AtMostOne s) : AtMostOne s' := by
  intro T y k k' hk hk'
  exact hSingle T y k k' ((activeIn_congr h).mp hk) ((activeIn_congr h).mp hk')

end Frame

end OpenRadiusWeb.Certificates
