import OpenRadiusWeb.Certificates.Interleaving

/-! # The three updates

Deactivation, activation and deletion, once their rows are free: what each leaves of the
transaction's standing. A type other than the one updated is not touched.
-/

namespace OpenRadiusWeb.Certificates

open ReadCommitted (Slot Phase Proc Alike Unseen Dead Keyed)

variable {s : World} {i : Nat} {T y T' y' a k : String} {K : Known}
  {q : Certificate → Bool} {f : Certificate → Option Certificate} {targets : List String}

theorem own_rewritten_ne (hOwn : (s.slot k).own i ≠ none) :
    ((rewritten s i q f targets).slot k).own i ≠ none := by
  rcases own_rewritten s i q f targets k with
    hSlot | ⟨row, -, -, -, hNew⟩
  · rwa [hSlot]
  · simp [hNew]

theorem own_rewritten_of_view {row : Certificate} (hk : k ∈ targets)
    (hView : (s.slot k).view i = some row) (hq : q row = true) :
    ((rewritten s i q f targets).slot k).own i = some (f row) := by
  have hSlot := ReadCommitted.rewrite_found (f := f) hk hView hq
  exact (congrArg (fun t => Slot.own t i) hSlot).trans (Slot.own_write_self _ _ _)

theorem own_rewritten_of_committed {row : Certificate} (hk : k ∈ targets)
    (hRow : (s.slot k).committed = some row) (hq : q row = true) :
    ((rewritten s i q f targets).slot k).own i ≠ none := by
  cases hOwn : (s.slot k).own i with
  | some version => exact own_rewritten_ne (by simp [hOwn])
  | none =>
    have hView : (s.slot k).view i = some row := by
      rw [Slot.view, hOwn]
      exact hRow
    rw [own_rewritten_of_view hk hView hq]
    simp

theorem view_of_rewritten (hAlive : ((rewritten s i q f targets).slot k).view i ≠ none) :
    (s.slot k).view i ≠ none := by
  rcases own_rewritten s i q f targets k with
    hSlot | ⟨row, -, hView, -, -⟩
  · rwa [hSlot] at hAlive
  · simp [hView]

/-- The rows that the update finds are of one type. -/
def OfOneType (s : World) (i : Nat) (q : Certificate → Bool) (targets : List String)
    (T y : String) : Prop :=
  ∀ k ∈ targets, ∀ row, (s.slot k).view i = some row → q row = true → row.ofType T y = true

theorem quiet_rewritten (hTyped : Typed s) (hf : KeepsKind f)
    (hOne : OfOneType s i q targets T y) (hOther : ¬ (T' = T ∧ y' = y))
    (hQuiet : Quiet s i T' y') : Quiet (rewritten s i q f targets) i T' y' := by
  intro k version hOwn
  rw [activeIn_congr committed_rewritten]
  rcases own_rewritten s i q f targets k with
    hSlot | ⟨row, hTarget, hView, hRow, hNew⟩
  · rw [hSlot] at hOwn
    exact hQuiet k version hOwn
  · have hType := hOne k hTarget row hView hRow
    refine ⟨?_, fun new hVersion hNewType => ?_⟩
    · rintro ⟨old, hOld, hOldType, -⟩
      rw [← hTyped.viewAgrees hView hOld] at hOldType
      exact hOther (ofType_unique hType hOldType)
    · rw [hNew] at hOwn
      have hSome : f row = some new := (Option.some.inj hOwn).trans hVersion
      rw [(hf row new hSome).2] at hNewType
      exact absurd (ofType_unique hType hNewType) hOther

theorem held_rewritten (hHeld : Held s i T y) : Held (rewritten s i q f targets) i T y := by
  intro k hk
  rw [activeIn_congr committed_rewritten] at hk
  exact own_rewritten_ne (hHeld k hk)

theorem owned_rewritten (hf : KeepsKind f) (hOne : OfOneType s i q targets T y)
    (hOther : ¬ (T' = T ∧ y' = y)) (hOwned : Owned s i T' y' a) :
    Owned (rewritten s i q f targets) i T' y' a where
  held := held_rewritten hOwned.held
  row := by
    obtain ⟨row, hRow, hType, hActive⟩ := hOwned.row
    rcases own_rewritten s i q f targets a with
      hSlot | ⟨seen, hTarget, hView, hSeen, -⟩
    · exact ⟨row, by rw [hSlot]; exact hRow, hType, hActive⟩
    · have hSame : seen = row := by
        rw [Slot.view, hRow] at hView
        exact (Option.some.inj hView).symm
      rw [← hSame] at hType
      exact absurd (ofType_unique (hOne a hTarget seen hView hSeen) hType) hOther
  only k row hRow hType hActive := by
    rcases own_rewritten s i q f targets k with
      hSlot | ⟨seen, hTarget, hView, hSeen, hNew⟩
    · rw [hSlot] at hRow
      exact hOwned.only k row hRow hType hActive
    · rw [hNew] at hRow
      rw [(hf seen row (Option.some.inj hRow)).2] at hType
      exact absurd (ofType_unique (hOne k hTarget seen hView hSeen) hType) hOther
  grounded hNone := by
    rw [committed_rewritten] at hNone
    exact (hasActive_congr committed_rewritten).mpr (hOwned.grounded hNone)

theorem settled_rewritten {flipped : List (String × String)} (hTyped : Typed s) (hf : KeepsKind f)
    (hOne : OfOneType s i q targets T y) (hFlipped : ∀ t ∈ K.flipped, t ∈ flipped)
    (hOther : ¬ (T' = T ∧ y' = y))
    (h : Quiet s i T' y' ∨ ((T', y') ∈ K.flipped ∧ ∃ a, Owned s i T' y' a)) :
    Quiet (rewritten s i q f targets) i T' y' ∨
      ((T', y') ∈ flipped ∧ ∃ a, Owned (rewritten s i q f targets) i T' y' a) := by
  rcases h with hQuiet | ⟨hMem, b, hOwned⟩
  · exact .inl (quiet_rewritten hTyped hf hOne hOther hQuiet)
  · exact .inr ⟨hFlipped _ hMem, b, owned_rewritten hf hOne hOther hOwned⟩

/-! ## The step of an update -/

section Finish

variable {c : Nat × Command} {next : Except PyException (Answer c) → Operation Unit}
  {p : Operation Unit}

/-- An update whose rows are free takes its transaction to `p`. -/
theorem Inv.update (hInv : Inv s) (hOpen : (s.proc i).aborted = false) (hf : KeepsKind f)
    (hFree : (targets.any fun k => (s.slot k).heldByOther i) = false)
    (hStands : (∃ K, Goes (rewritten s i q f targets) i K p) ∨ ∃ e, p = .raise e)
    (hAims : ∀ T y a, Aims ((rewritten s i q f targets).setPhase i (.running p)) i T y a →
      ∀ b row, (s.slot b).committed = some row → row.ofType T y = true →
      Aims s i T y a ∧ (Met s i T y b → ((rewritten s i q f targets).slot b).own i ≠ none)) :
    Inv ((rewritten s i q f targets).setPhase i (.running p)) := by
  have hUnseen : ∀ j, j ≠ i →
      Unseen s ((rewritten s i q f targets).setPhase i (.running p)) j := fun j hji =>
    (Unseen.rewrite hji hFree).trans (Unseen.setPhase hji _)
  refine hInv.of_unseen hUnseen ((hInv.typed.rewrite hf hFree).setPhase _) ?_ ?_
  · have hProc : ((rewritten s i q f targets).setPhase i (.running p)).proc i =
        ⟨false, .running p⟩ := by
      rw [proc_setPhase]
      exact congrArg (fun aborted => Proc.mk aborted (.running p)) hOpen
    rw [hProc]
    exact hStands.imp (fun hGoes => hGoes.imp fun K hK => hK.alike (ReadCommitted.alike_setPhase _)) id
  · intro T y a hA b row hRow hType
    obtain ⟨hBefore, hMet⟩ := hAims T y a hA b row hRow hType
    exact .inl ⟨hBefore, fun h => .inr (hMet h)⟩

theorem aims_update (hAims : Aims ((rewritten s i q f targets).setPhase i (.running p)) i T y a) :
    (∃ row, (s.slot a).committed = some row ∧ row.ofType T y = true) ∧
      (aimOf p = some a ∨ ∃ row, ((rewritten s i q f targets).slot a).own i = some (some row) ∧
        row.isActive = true) := by
  obtain ⟨⟨row, hRow, hType⟩, -, hAim⟩ := hAims
  refine ⟨⟨row, (committed_rewritten a).symm.trans hRow, hType⟩, ?_⟩
  rw [proc_setPhase] at hAim
  rcases hAim with ⟨_, _, _, hPhase, -⟩ | ⟨p', hPhase, hp⟩ | ⟨_, _, _, hPhase⟩ | hOwn
  · cases hPhase
  · cases hPhase
    exact .inl hp
  · cases hPhase
  · exact .inr hOwn

theorem keepsKind_activate (active : Bool) :
    KeepsKind fun c => some { c with isActive := active } := by
  intro row new hNew
  obtain rfl := Option.some.inj hNew
  exact ⟨rfl, fun _ _ => rfl⟩

theorem keepsKind_delete : KeepsKind fun _ => none := by
  intro row new hNew
  cases hNew

end Finish

section Deactivate

variable {t : Nat} {next : Except PyException (Answer (t, .deactivateCertsOfType T y)) → Operation Unit}

/-- The table with the chosen rows of the type deactivated. -/
abbrev deactivatedBy (s : World) (i : Nat) (T y : String) (targets : List String) : World :=
  rewritten s i (Certificate.ofType T y) (fun c => some { c with isActive := false }) targets

theorem Goes.deactivate (hTyped : Typed s)
    (hGoes : Goes s i K (.call (t, .deactivateCertsOfType T y) next))
    (hChosen : Chosen s i (t, .deactivateCertsOfType T y) targets next)
    (hOrderly : ∀ k, ActiveIn s T y k → k ∈ targets) :
    Goes (deactivatedBy s i T y targets) i { K with written := true, armed := some (T, y) }
      (next (.ok ())) := by
  obtain ⟨hArmed, hActive, hNext⟩ := hGoes.disciplined
  obtain ⟨hOwn, hAim⟩ := hChosen
  have hOne : OfOneType s i (Certificate.ofType T y) targets T y := fun _ _ _ _ hq => hq
  have hNew : Knows (deactivatedBy s i T y targets) i { K with written := true } :=
    hGoes.knows.rewrite (keepsKind_activate false) fun _ _ _ _ => by simp
  refine ⟨hNext, hNew.relabel K.flipped (some (T, y)), ?_, ?_, ?_⟩
  · intro k row hRow hRowActive hDeleted
    rw [committed_rewritten] at hRow
    rcases own_rewritten _ _ _ _ _ k with hSlot | ⟨seen, -, -, -, hWritten⟩
    · rw [hSlot] at hDeleted
      exact hGoes.spares k row hRow hRowActive hDeleted
    · rw [hWritten] at hDeleted
      cases hDeleted
  · intro T' y' hOther
    have hUnarmed : K.armed ≠ some (T', y') := by simp [hArmed]
    refine settled_rewritten hTyped (keepsKind_activate false) hOne (fun _ h => h) ?_
      (hGoes.settled T' y' hUnarmed)
    rintro ⟨rfl, rfl⟩
    exact hOther rfl
  · intro T' y' b hSame hb
    cases hSame
    refine ⟨fun hAlive => ⟨?_, ?_⟩, ?_⟩
    · intro k hk
      rw [activeIn_congr committed_rewritten] at hk
      have hTarget := hOrderly k hk
      obtain ⟨row, hRow, hType, -⟩ := hk
      exact own_rewritten_of_committed hTarget hRow hType
    · have hBefore := view_of_rewritten hAlive
      obtain ⟨row, hView⟩ := Option.ne_none_iff_exists'.mp hBefore
      obtain ⟨t', b', next', hCall, hKind, -⟩ := armed_aim hNext rfl
      rw [hCall] at hb
      obtain rfl : b' = b := Option.some.inj hb
      have hType : row.ofType T y = true := by
        rcases view_cases hView with hSeen | ⟨-, hSeen⟩
        · exact hGoes.knows.kindOwn b' T y hKind row hSeen
        · exact hGoes.knows.kindCommitted b' T y hKind row hSeen
      have hTarget : b' ∈ targets := hAim b' (by rw [hCall]; rfl) hBefore
      rw [own_rewritten_of_view hTarget hView hType]
      simp
    · intro k row hRow hType
      rcases own_rewritten _ _ _ _ _ k with hSlot | ⟨seen, -, -, -, hWritten⟩
      · have hOld := hRow
        rw [hSlot] at hOld
        have hView : (s.slot k).view i = some row := by
          rw [Slot.view, hOld]
          rfl
        rw [own_rewritten_of_view (hOwn k row hOld hType) hView hType] at hRow
        exact (congrArg Certificate.isActive (Option.some.inj (Option.some.inj hRow))).symm
      · rw [hWritten] at hRow
        cases hRow
        rfl

theorem Inv.deactivate (hInv : Inv s) (hOpen : (s.proc i).aborted = false)
    (hPhase : (s.proc i).phase = .waiting (t, .deactivateCertsOfType T y) targets next)
    (hFree : (targets.any fun k => (s.slot k).heldByOther i) = false)
    (hGoes : Goes s i K (.call (t, .deactivateCertsOfType T y) next))
    (hChosen : Chosen s i (t, .deactivateCertsOfType T y) targets next)
    (hOrderly : ∀ k, ActiveIn s T y k → k ∈ targets) :
    Inv ((deactivatedBy s i T y targets).setPhase i (.running (next (.ok ())))) := by
  have hNext := hGoes.deactivate hInv.typed hChosen hOrderly
  refine hInv.update hOpen (keepsKind_activate false) hFree (.inl ⟨_, hNext⟩) ?_
  intro T' y' a hAims b row hRow hType
  obtain ⟨⟨old, hOld, hOldType⟩, hAim⟩ := aims_update hAims
  have hMet : T' = T → y' = y → Met s i T' y' b →
      ((deactivatedBy s i T y targets).slot b).own i ≠ none := by
    rintro rfl rfl (⟨t', targets', next', hSame, hb⟩ | hb)
    · rw [hPhase] at hSame
      cases hSame
      exact own_rewritten_of_committed hb hRow hType
    · exact own_rewritten_ne hb
  rcases hAim with hAim | ⟨new, hNew, hActive⟩
  · obtain ⟨t', a', next', hCall, hKind, -⟩ := armed_aim hNext.disciplined rfl
    rw [hCall] at hAim
    obtain rfl : a' = a := Option.some.inj hAim
    have hOldKnown := hGoes.knows.kindCommitted a' T y hKind old hOld
    obtain ⟨rfl, rfl⟩ := ofType_unique hOldKnown hOldType
    refine ⟨⟨⟨old, hOld, hOldType⟩, hOpen, .inl ⟨t, targets, next, hPhase, ?_⟩⟩, hMet rfl rfl⟩
    rw [hCall]
    rfl
  · rcases own_rewritten _ _ _ _ _ a with hSlot | ⟨seen, -, -, -, hWritten⟩
    · rw [hSlot] at hNew
      refine ⟨⟨⟨old, hOld, hOldType⟩, hOpen, .inr (.inr (.inr ⟨new, hNew, hActive⟩))⟩, ?_⟩
      rintro (⟨t', targets', next', hSame, hb⟩ | hb)
      · refine hMet ?_ ?_ (.inl ⟨t', targets', next', hSame, hb⟩)
        · rw [hPhase] at hSame
          cases hSame
          rfl
        · rw [hPhase] at hSame
          cases hSame
          rfl
      · exact own_rewritten_ne hb
    · rw [hWritten] at hNew
      cases hNew
      cases hActive

end Deactivate

section Activate

variable {t : Nat} {next : Except PyException (Answer (t, .setCertActive T a)) → Operation Unit}

/-- The table with the chosen row activated. -/
abbrev activatedBy (s : World) (i : Nat) (T a : String) (targets : List String) : World :=
  rewritten s i (Certificate.isRow T a) (fun c => some { c with isActive := true }) targets

theorem Knows.viewType (h : Knows s i K) (hKind : (k, T, y) ∈ K.kinds) {row : Certificate}
    (hView : (s.slot k).view i = some row) : row.ofType T y = true := by
  rcases view_cases hView with hSeen | ⟨-, hSeen⟩
  · exact h.kindOwn k T y hKind row hSeen
  · exact h.kindCommitted k T y hKind row hSeen

theorem isRow_of_view (hTyped : Typed s) {row : Certificate} (hView : (s.slot a).view i = some row)
    (hType : row.ofType T y = true) : row.isRow T a = true := by
  have hId := hTyped.viewId hView
  simp only [Certificate.ofType, Bool.and_eq_true, beq_iff_eq] at hType
  simp [Certificate.isRow, hId, hType.2]

theorem Goes.activate (hTyped : Typed s) (hGoes : Goes s i K (.call (t, .setCertActive T a) next))
    (hArmed : K.armed = some (T, y)) (hKind : (a, T, y) ∈ K.kinds)
    (hInserted : a ∈ K.inserted → (T, y) ∈ K.active)
    (hChosen : Chosen s i (t, .setCertActive T a) targets next) {row new : Certificate}
    (hView : (s.slot a).view i = some row)
    (hNext : Disciplined True (fun _ _ => True) (fun _ _ => True)
      { K with flipped := (T, y) :: K.flipped, armed := none } (next (.ok (some new)))) :
    Goes (activatedBy s i T a targets) i { K with flipped := (T, y) :: K.flipped, armed := none }
      (next (.ok (some new))) := by
  obtain ⟨hOnly, hAlive⟩ := hChosen
  have hTarget : a ∈ targets := hAlive (by simp [hView])
  have hType := hGoes.knows.viewType hKind hView
  have hOwn := own_rewritten_of_view (f := fun c => some { c with isActive := true }) hTarget hView
    (isRow_of_view hTyped hView hType)
  obtain ⟨hHeld, hMine⟩ := (hGoes.ready T y a hArmed rfl).held (by simp [hView])
  have hCleared := (hGoes.ready T y a hArmed rfl).cleared
  have hOne : OfOneType s i (Certificate.isRow T a) targets T y := by
    intro k hk seen hSeen _
    obtain rfl := hOnly k hk
    exact hGoes.knows.viewType hKind hSeen
  have hWritten : K.written = true := by
    cases hCase : K.written with
    | true => rfl
    | false => exact absurd (hGoes.knows.unwritten hCase a) hMine
  have hNew : Knows (activatedBy s i T a targets) i K := by
    have hWrite := @Knows.rewrite _ _ _ (Certificate.isRow T a) _ targets hGoes.knows
      (keepsKind_activate true) fun _ _ _ _ => by simp
    have hSame : { K with written := true } = K := by rw [← hWritten]
    rwa [hSame] at hWrite
  refine ⟨hNext, hNew.relabel _ none, ?_, ?_, ?_⟩
  · intro k old hOld hActive hDeleted
    rw [committed_rewritten] at hOld
    rcases own_rewritten _ _ _ _ _ k with hSlot | ⟨seen, -, -, -, hSome⟩
    · rw [hSlot] at hDeleted
      exact hGoes.spares k old hOld hActive hDeleted
    · rw [hSome] at hDeleted
      cases hDeleted
  · intro T' y' _
    by_cases hSame : T' = T ∧ y' = y
    · obtain ⟨rfl, rfl⟩ := hSame
      refine .inr ⟨List.mem_cons_self, a, held_rewritten hHeld, ⟨_, hOwn, hType, rfl⟩, ?_, ?_⟩
      · intro k other hOther hOtherType hOtherActive
        rcases own_rewritten _ _ _ _ _ k with hSlot | ⟨seen, hk, -, -, -⟩
        · rw [hSlot] at hOther
          have hInactive := hCleared k other hOther hOtherType
          rw [hOtherActive] at hInactive
          cases hInactive
        · exact hOnly k hk
      · intro hNone
        rw [committed_rewritten] at hNone
        obtain ⟨version, hVersion⟩ := Option.ne_none_iff_exists'.mp hMine
        have hMade := hGoes.knows.made a version hVersion hNone
        exact (hasActive_congr committed_rewritten).mpr
          (hGoes.knows.active T' y' (hInserted hMade))
    · have hUnarmed : K.armed ≠ some (T', y') := by
        rw [hArmed]
        rintro hEq
        cases hEq
        exact hSame ⟨rfl, rfl⟩
      exact settled_rewritten hTyped (keepsKind_activate true) hOne
        (fun _ h => List.mem_cons_of_mem _ h) hSame (hGoes.settled T' y' hUnarmed)
  · intro T' y' b hSome
    cases hSome

/-- An activation that finds no row: the program gives up. -/
theorem Inv.activateNone (hInv : Inv s) (hOpen : (s.proc i).aborted = false)
    (hPhase : (s.proc i).phase = .waiting (t, .setCertActive T a) targets next)
    (hFree : (targets.any fun k => (s.slot k).heldByOther i) = false)
    (hGoes : Goes s i K (.call (t, .setCertActive T a) next)) (hView : (s.slot a).view i = none)
    (hOnly : ∀ k ∈ targets, k = a) :
    Inv ((activatedBy s i T a targets).setPhase i (.running (next (.ok none)))) := by
  obtain ⟨y, hArmed, hKind, hInserted, hFound, -⟩ := hGoes.disciplined
  have hGivesUp : ∃ e, next (.ok none) = .raise e := by
    rcases hFound with hMine | ⟨-, hRaise⟩
    · obtain ⟨row, hRow⟩ := hGoes.knows.inserted a hMine
      rw [Slot.view, hRow] at hView
      cases hView
    · exact hRaise
  obtain ⟨e, hRaise⟩ := hGivesUp
  refine hInv.update hOpen (keepsKind_activate true) hFree (.inr ⟨e, hRaise⟩) ?_
  intro T' y' b hAims c row hRow hType
  obtain ⟨hOld, hAim⟩ := aims_update hAims
  rw [hRaise] at hAim
  rcases hAim with hAim | ⟨new, hNew, hActive⟩
  · cases hAim
  · rcases own_rewritten _ _ _ _ _ b with hSlot | ⟨seen, hTarget, hSeen, -, -⟩
    · rw [hSlot] at hNew
      refine ⟨⟨hOld, hOpen, .inr (.inr (.inr ⟨new, hNew, hActive⟩))⟩, ?_⟩
      rintro (⟨t', targets', next', hSame, -⟩ | hc)
      · rw [hPhase] at hSame
        cases hSame
      · exact own_rewritten_ne hc
    · rw [hOnly b hTarget, hView] at hSeen
      cases hSeen

theorem Inv.activateSome (hInv : Inv s) (hOpen : (s.proc i).aborted = false)
    (hPhase : (s.proc i).phase = .waiting (t, .setCertActive T a) targets next)
    (hFree : (targets.any fun k => (s.slot k).heldByOther i) = false)
    (hGoes : Goes s i K (.call (t, .setCertActive T a) next))
    (hChosen : Chosen s i (t, .setCertActive T a) targets next) {row new : Certificate}
    (hView : (s.slot a).view i = some row) :
    Inv ((activatedBy s i T a targets).setPhase i (.running (next (.ok (some new))))) := by
  obtain ⟨y, hArmed, hKind, hInserted, -, hNext⟩ := hGoes.disciplined
  have hGoes' := hGoes.activate hInv.typed hArmed hKind hInserted hChosen hView (hNext new)
  refine hInv.update hOpen (keepsKind_activate true) hFree (.inl ⟨_, hGoes'⟩) ?_
  intro T' y' b hAims c old hOld hType
  obtain ⟨⟨known, hKnown, hKnownType⟩, -⟩ := aims_update hAims
  obtain ⟨active, hOwn, hActive⟩ := aims_running hGoes'.disciplined rfl (by rw [proc_setPhase]) hAims
  have hMet : Met s i T' y' c → ((activatedBy s i T a targets).slot c).own i ≠ none := by
    rintro (⟨t', targets', next', hSame, -⟩ | hc)
    · rw [hPhase] at hSame
      cases hSame
    · exact own_rewritten_ne hc
  refine ⟨⟨⟨known, hKnown, hKnownType⟩, hOpen, ?_⟩, hMet⟩
  change ((rewritten s i _ _ targets).slot b).own i = _ at hOwn
  rcases own_rewritten _ _ _ _ _ b with hSlot | ⟨seen, hTarget, -, -, -⟩
  · rw [hSlot] at hOwn
    exact .inr (.inr (.inr ⟨active, hOwn, hActive⟩))
  · obtain rfl := hChosen.1 b hTarget
    have hSame := hGoes.knows.kindCommitted b T y hKind known hKnown
    obtain ⟨rfl, rfl⟩ := ofType_unique hSame hKnownType
    exact .inr (.inr (.inl ⟨t, targets, next, hPhase⟩))

theorem activated_answer (hTyped : Typed s) (hOnly : ∀ k ∈ targets, k = a) (hTarget : a ∈ targets)
    {row : Certificate} (hView : (s.slot a).view i = some row) (hType : row.ofType T y = true) :
    (s.rewritten i (Certificate.isRow T a) (fun c => some { c with isActive := true })
      targets).head? = some { row with isActive := true } := by
  have hRow := isRow_of_view hTyped hView hType
  cases targets with
  | nil => cases hTarget
  | cons k rest =>
    obtain rfl := hOnly k List.mem_cons_self
    simp [ReadCommitted.State.rewritten, hView, Option.filter, hRow]

theorem activated_answer_none (hOnly : ∀ k ∈ targets, k = a) (hView : (s.slot a).view i = none) :
    (s.rewritten i (Certificate.isRow T a) (fun c => some { c with isActive := true })
      targets).head? = none := by
  have hNil : s.rewritten i (Certificate.isRow T a) (fun c => some { c with isActive := true })
      targets = [] := by
    apply List.filterMap_eq_nil_iff.mpr
    intro k hk
    rw [hOnly k hk, hView]
    rfl
  rw [hNil]
  rfl

end Activate

section Delete

variable {t : Nat} {next : Except PyException (Answer (t, .deleteCert T a)) → Operation Unit}

/-- The table without the chosen row. -/
abbrev deletedBy (s : World) (i : Nat) (T a : String) (targets : List String) : World :=
  rewritten s i (Certificate.isRow T a) (fun _ => none) targets

theorem Goes.delete (hGoes : Goes s i K (.call (t, .deleteCert T a) next))
    (hOnly : ∀ k ∈ targets, k = a)
    (hOrderly : ∀ row, (s.slot a).committed = some row → row.isActive = false) :
    Goes (deletedBy s i T a targets) i { K with written := true } (next (.ok ())) := by
  obtain ⟨hArmed, hWritten, hNext⟩ := hGoes.disciplined
  have hNone := hGoes.knows.unwritten hWritten
  have hNew : Knows (deletedBy s i T a targets) i { K with written := true } := by
    refine hGoes.knows.rewrite keepsKind_delete fun k hk row hRow => ?_
    rw [hNone k] at hRow
    cases hRow
  refine ⟨hNext, hNew, ?_, ?_, ?_⟩
  · intro k row hRow hActive hDeleted
    rw [committed_rewritten] at hRow
    rcases own_rewritten _ _ _ _ _ k with hSlot | ⟨seen, hTarget, -, -, -⟩
    · rw [hSlot, hNone k] at hDeleted
      cases hDeleted
    · obtain rfl := hOnly k hTarget
      rw [hOrderly row hRow] at hActive
      cases hActive
  · intro T' y' _
    refine .inl fun k version hOwn => ?_
    rw [activeIn_congr committed_rewritten]
    rcases own_rewritten _ _ _ _ _ k with hSlot | ⟨seen, hTarget, -, -, hGone⟩
    · rw [hSlot, hNone k] at hOwn
      cases hOwn
    · obtain rfl := hOnly k hTarget
      rw [hGone] at hOwn
      refine ⟨?_, fun row hRow => ?_⟩
      · rintro ⟨row, hRow, -, hActive⟩
        rw [hOrderly row hRow] at hActive
        cases hActive
      · cases hOwn
        cases hRow
  · intro T' y' b hSome
    exact absurd hSome (by simp [hArmed])

theorem Inv.delete (hInv : Inv s) (hOpen : (s.proc i).aborted = false)
    (hFree : (targets.any fun k => (s.slot k).heldByOther i) = false)
    (hGoes : Goes s i K (.call (t, .deleteCert T a) next)) (hOnly : ∀ k ∈ targets, k = a)
    (hOrderly : ∀ row, (s.slot a).committed = some row → row.isActive = false) :
    Inv ((deletedBy s i T a targets).setPhase i (.running (next (.ok ())))) := by
  have hGoes' := hGoes.delete hOnly hOrderly
  obtain ⟨hArmed, hWritten, -⟩ := hGoes.disciplined
  have hNone := hGoes.knows.unwritten hWritten
  refine hInv.update hOpen keepsKind_delete hFree (.inl ⟨_, hGoes'⟩) ?_
  intro T' y' b hAims c row hRow hType
  obtain ⟨active, hOwn, -⟩ := aims_running hGoes'.disciplined hArmed (by rw [proc_setPhase]) hAims
  change ((rewritten s i _ _ targets).slot b).own i = _ at hOwn
  rcases own_rewritten _ _ _ _ _ b with hSlot | ⟨seen, -, -, -, hGone⟩
  · rw [hSlot, hNone b] at hOwn
    cases hOwn
  · rw [hGone] at hOwn
    cases hOwn

end Delete

end OpenRadiusWeb.Certificates
