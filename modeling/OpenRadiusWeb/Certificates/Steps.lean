import OpenRadiusWeb.Certificates.Updates

/-! # Every step of every request

A statement at its start, an insertion, and with the updates every step of the requests:
the invariant holds in every run whose steps are in order.
-/

namespace OpenRadiusWeb.Certificates

open ReadCommitted (Slot Phase Proc Alike Unseen Dead Keyed)

variable {s : World} {i : Nat} {T y T' y' a k : String} {K : Known} {targets : List String}
  {p p' : Operation Unit}

/-! ## Queries -/

theorem Goes.move {L : Known} (hGoes : Goes s i K p) (hArmed : K.armed = none)
    (hFlipped : L.flipped = K.flipped) (hUnarmed : L.armed = none) (hKnows : Knows s i L)
    (hDisciplined : Disciplined True (fun _ _ => True) (fun _ _ => True) L p') :
    Goes s i L p' where
  disciplined := hDisciplined
  knows := hKnows
  spares := hGoes.spares
  settled T y _ := by
    rw [hFlipped]
    exact hGoes.settled T y (by simp [hArmed])
  ready T y a hSome := by
    rw [hUnarmed] at hSome
    cases hSome

theorem Knows.lookup (h : Knows s i K) (hTyped : Typed s) {row : Certificate}
    (hView : (s.slot k).view i = some row) (hType : row.ofType T y = true) :
    Knows s i { K with kinds := (k, T, y) :: K.kinds } where
  used k' T' y' hk := by
    rcases List.mem_cons.mp hk with hSame | hOld
    · cases hSame
      exact hTyped.keyed.mem_of_view hView
    · exact h.used k' T' y' hOld
  kindCommitted k' T' y' hk old hOld := by
    rcases List.mem_cons.mp hk with hSame | hKind
    · cases hSame
      rw [← hTyped.viewAgrees hView hOld]
      exact hType
    · exact h.kindCommitted k' T' y' hKind old hOld
  kindOwn k' T' y' hk own hOwn := by
    rcases List.mem_cons.mp hk with hSame | hKind
    · cases hSame
      rw [Slot.view, hOwn] at hView
      obtain rfl := Option.some.inj hView
      exact hType
    · exact h.kindOwn k' T' y' hKind own hOwn
  dead k' T' y' hk hCommitted hOwn := by
    rcases List.mem_cons.mp hk with hSame | hKind
    · cases hSame
      rw [Slot.view, hOwn] at hView
      rw [hCommitted] at hView
      cases hView
    · exact h.dead k' T' y' hKind hCommitted hOwn
  inserted := h.inserted
  made := h.made
  active := h.active
  unwritten := h.unwritten

theorem Knows.sawActive (h : Knows s i K) (hActive : HasActive s T y) :
    Knows s i { K with active := (T, y) :: K.active } where
  used := h.used
  kindCommitted := h.kindCommitted
  kindOwn := h.kindOwn
  dead := h.dead
  inserted := h.inserted
  made := h.made
  active T' y' hMem := by
    rcases List.mem_cons.mp hMem with hSame | hOld
    · cases hSame
      exact hActive
    · exact h.active T' y' hOld
  unwritten := h.unwritten

theorem eq_of_isRow (hTyped : Typed s) {row : Certificate} (hView : (s.slot k).view i = some row)
    (hRow : row.isRow T a = true) : k = a ∧ row.ofType T row.certType = true := by
  have hId := hTyped.viewId hView
  simp only [Certificate.isRow, Bool.and_eq_true, beq_iff_eq] at hRow
  exact ⟨hId.symm.trans hRow.1, by simp [Certificate.ofType, hRow.2]⟩

theorem mem_filter_visible {row : Certificate} {q : Certificate → Bool}
    (h : row ∈ (s.visible i).filter q) :
    ∃ k, (s.slot k).view i = some row ∧ q row = true := by
  obtain ⟨hVisible, hq⟩ := List.mem_filter.mp h
  obtain ⟨k, -, hView⟩ := ReadCommitted.mem_visible.mp hVisible
  exact ⟨k, hView, hq⟩

theorem Goes.lookupCertSummary {t : Nat}
    {next : Except PyException (Answer (t, .lookupCertSummary T a)) → Operation Unit}
    (hGoes : Goes s i K (.call (t, .lookupCertSummary T a) next)) (hTyped : Typed s) :
    ∃ L, Goes s i L (next (.ok (((s.visible i).filter (Certificate.isRow T a)).head?.map
      Certificate.summary))) ∧ L.armed = none := by
  obtain ⟨hArmed, hNone, hSome⟩ := hGoes.disciplined
  cases hHead : ((s.visible i).filter (Certificate.isRow T a)).head? with
  | none => exact ⟨K, hGoes.move hArmed rfl hArmed hGoes.knows hNone, hArmed⟩
  | some row =>
    obtain ⟨k, hView, hRow⟩ := mem_filter_visible (List.mem_of_mem_head? hHead)
    obtain ⟨rfl, hType⟩ := eq_of_isRow hTyped hView hRow
    have hKnows := hGoes.knows.lookup hTyped hView hType
    refine ⟨{ K with kinds := (k, T, row.certType) :: K.kinds },
      hGoes.move hArmed rfl hArmed hKnows (hSome row.summary fun certType hKind => ?_), hArmed⟩
    exact ((ofType_unique hType (hGoes.knows.viewType hKind hView)).2).symm

theorem Goes.listRenewable {t : Nat} {horizon : Timestamp}
    {next : Except PyException (Answer (t, .listRenewableServerCertsWithin T horizon)) →
      Operation Unit}
    (hGoes : Goes s i K (.call (t, .listRenewableServerCertsWithin T horizon) next)) :
    ∃ L, Goes s i L (next (.ok (byExpiry ((s.visible i).filter
      (Certificate.renewable T horizon))))) ∧ L.armed = none := by
  obtain ⟨hArmed, hWritten, hNil, hCons⟩ := hGoes.disciplined
  cases hRows : byExpiry ((s.visible i).filter (Certificate.renewable T horizon)) with
  | nil => exact ⟨K, hGoes.move hArmed rfl hArmed hGoes.knows hNil, hArmed⟩
  | cons c rest =>
    have hMem : c ∈ byExpiry ((s.visible i).filter (Certificate.renewable T horizon)) := by
      rw [hRows]
      exact List.mem_cons_self
    obtain ⟨k, hView, hRenewable⟩ := mem_filter_visible (Sorting.mem_sortBy.mp hMem)
    have hCommitted : (s.slot k).committed = some c := by
      rw [Slot.view, hGoes.knows.unwritten hWritten k] at hView
      exact hView
    simp only [Certificate.renewable, Bool.and_eq_true, beq_iff_eq] at hRenewable
    have hActive : HasActive s T "server" := by
      refine ⟨k, c, hCommitted, ?_, hRenewable.1.1.1.1.2⟩
      simp [Certificate.ofType, hRenewable.1.1.1.1.1, hRenewable.1.2]
    exact ⟨{ K with active := (T, "server") :: K.active },
      hGoes.move hArmed rfl hArmed (hGoes.knows.sawActive hActive) (hCons c rest), hArmed⟩

/-! ## Insertions -/

section Insert

variable {new : NewCert}

/-- The table with a new row that `i` has not committed. -/
abbrev withRow (s : World) (i : Nat) (new : NewCert) (key : String) : World :=
  s.insertRow i key (new.row key)

theorem slot_withRow_other (hOther : k ≠ a) : (withRow s i new a).slot k = s.slot k :=
  Function.update_of_ne hOther _ _

theorem slot_withRow_self : (withRow s i new a).slot a = ⟨none, some (i, some (new.row a))⟩ :=
  Function.update_self ..

theorem committed_withRow (i : Nat) (new : NewCert) (hTyped : Typed s) (hFresh : a ∉ s.keys)
    (k : String) :
    ((withRow s i new a).slot k).committed = (s.slot k).committed :=
  ReadCommitted.committed_insertRow hTyped.keyed hFresh _ k

theorem own_withRow {j : Nat} {version : Option Certificate}
    (h : ((withRow s i new a).slot k).own j = some version) :
    (k = a ∧ j = i ∧ version = some (new.row a)) ∨ (k ≠ a ∧ (s.slot k).own j = some version) := by
  by_cases hk : k = a
  · subst hk
    rw [slot_withRow_self, Slot.own_eq_some] at h
    cases h
    exact .inl ⟨rfl, rfl, rfl⟩
  · rw [slot_withRow_other hk] at h
    exact .inr ⟨hk, h⟩

theorem own_withRow_of_some {j : Nat} (i : Nat) (new : NewCert) (hTyped : Typed s) (hFresh : a ∉ s.keys)
    {version : Option Certificate} (h : (s.slot k).own j = some version) :
    k ≠ a ∧ ((withRow s i new a).slot k).own j = some version := by
  have hOther : k ≠ a := by
    rintro rfl
    rw [Slot.own, (hTyped.keyed k hFresh).2] at h
    cases h
  exact ⟨hOther, by rwa [slot_withRow_other hOther]⟩

theorem Typed.withRow (h : Typed s) (hFresh : a ∉ s.keys) : Typed (withRow s i new a) where
  keyed k hk := by
    have hOther : k ≠ a := by
      rintro rfl
      exact hk (List.mem_append_right _ List.mem_cons_self)
    rw [Dead, slot_withRow_other hOther]
    exact h.keyed k fun hOld => hk (List.mem_append_left _ hOld)
  committedId k row hRow := h.committedId k row ((committed_withRow _ _ h hFresh k).symm.trans hRow)
  ownId k j row hRow := by
    rcases own_withRow hRow with ⟨rfl, rfl, hSame⟩ | ⟨-, hOld⟩
    · cases hSame
      rfl
    · exact h.ownId k j row hOld
  agree k j row row' hRow hRow' := by
    rw [committed_withRow _ _ h hFresh] at hRow
    rcases own_withRow hRow' with ⟨rfl, -, -⟩ | ⟨-, hOld⟩
    · rw [(h.keyed k hFresh).1] at hRow
      cases hRow
    · exact h.agree k j row row' hRow hOld

/-- What a transaction knows after an insertion. -/
def Known.insert (K : Known) (new : NewCert) (key : String) : Known :=
  { K with
    kinds := (key, new.tenantId, new.certType) :: K.kinds
    inserted := key :: K.inserted
    written := true }

theorem Knows.insert (h : Knows s i K) (hTyped : Typed s) (hFresh : a ∉ s.keys) :
    Knows (withRow s i new a) i (K.insert new a) where
  used k T y hk := by
    rcases List.mem_cons.mp hk with hSame | hOld
    · cases hSame
      exact List.mem_append_right _ List.mem_cons_self
    · exact List.mem_append_left _ (h.used k T y hOld)
  kindCommitted k T y hk row hRow := by
    rw [committed_withRow _ _ hTyped hFresh] at hRow
    rcases List.mem_cons.mp hk with hSame | hOld
    · cases hSame
      rw [(hTyped.keyed a hFresh).1] at hRow
      cases hRow
    · exact h.kindCommitted k T y hOld row hRow
  kindOwn k T y hk row hRow := by
    rcases List.mem_cons.mp hk with hSame | hOld
    · cases hSame
      rcases own_withRow hRow with ⟨-, -, hNew⟩ | ⟨hOther, -⟩
      · cases hNew
        simp [Certificate.ofType, NewCert.row]
      · exact absurd rfl hOther
    · have hOther : k ≠ a := fun hSame => hFresh (hSame ▸ h.used k T y hOld)
      rcases own_withRow hRow with ⟨hSame, -, -⟩ | ⟨-, hRow'⟩
      · exact absurd hSame hOther
      · exact h.kindOwn k T y hOld row hRow'
  dead k T y hk hCommitted hOwn := by
    by_cases hSame : k = a
    · subst hSame
      rw [slot_withRow_self] at hOwn
      simp [Slot.own] at hOwn
    · rw [slot_withRow_other hSame] at hCommitted hOwn
      rw [Dead, slot_withRow_other hSame]
      rcases List.mem_cons.mp hk with hNew | hOld
      · cases hNew
        exact absurd rfl hSame
      · exact h.dead k T y hOld hCommitted hOwn
  inserted k hk := by
    rcases List.mem_cons.mp hk with rfl | hOld
    · exact ⟨_, by rw [slot_withRow_self]; exact if_pos rfl⟩
    · obtain ⟨row, hRow⟩ := h.inserted k hOld
      exact ⟨row, (own_withRow_of_some _ _ hTyped hFresh hRow).2⟩
  made k version hOwn hCommitted := by
    rw [committed_withRow _ _ hTyped hFresh] at hCommitted
    rcases own_withRow hOwn with ⟨rfl, -, -⟩ | ⟨-, hOld⟩
    · exact List.mem_cons_self
    · exact List.mem_cons_of_mem _ (h.made k version hOld hCommitted)
  active T y hk := (hasActive_congr (committed_withRow _ _ hTyped hFresh)).mpr (h.active T y hk)
  unwritten hNone := by cases hNone

theorem Goes.insert (hGoes : Goes s i K p) (hTyped : Typed s) (hFresh : a ∉ s.keys)
    (hArmed : K.armed = none)
    (hNext : Disciplined True (fun _ _ => True) (fun _ _ => True) (K.insert new a) p') :
    Goes (withRow s i new a) i (K.insert new a) p' := by
  have hCommitted := committed_withRow i new hTyped hFresh
  refine ⟨hNext, hGoes.knows.insert hTyped hFresh, ?_, ?_, ?_⟩
  · intro k row hRow hActive hDeleted
    rw [hCommitted] at hRow
    rcases own_withRow hDeleted with ⟨-, -, hSome⟩ | ⟨-, hOld⟩
    · cases hSome
    · exact hGoes.spares k row hRow hActive hOld
  · intro T y _
    refine (hGoes.settled T y (by simp [hArmed])).imp ?_ ?_
    · intro hQuiet k version hOwn
      rw [activeIn_congr hCommitted]
      rcases own_withRow hOwn with ⟨rfl, -, rfl⟩ | ⟨-, hOld⟩
      · refine ⟨?_, fun row hRow _ => ?_⟩
        · rintro ⟨row, hRow, -⟩
          rw [(hTyped.keyed k hFresh).1] at hRow
          cases hRow
        · cases hRow
          rfl
      · exact hQuiet k version hOld
    · rintro ⟨hFlipped, b, hOwned⟩
      refine ⟨hFlipped, b, ?_, ?_, ?_, ?_⟩
      · intro k hk
        rw [activeIn_congr hCommitted] at hk
        obtain ⟨version, hVersion⟩ := Option.ne_none_iff_exists'.mp (hOwned.held k hk)
        simp [(own_withRow_of_some i new hTyped hFresh hVersion).2]
      · obtain ⟨row, hRow, hRest⟩ := hOwned.row
        exact ⟨row, (own_withRow_of_some _ _ hTyped hFresh hRow).2, hRest⟩
      · intro k row hRow hType hActive
        rcases own_withRow hRow with ⟨-, -, hNew⟩ | ⟨-, hOld⟩
        · cases hNew
          cases hActive
        · exact hOwned.only k row hOld hType hActive
      · intro hNone
        rw [hCommitted] at hNone
        exact (hasActive_congr hCommitted).mpr (hOwned.grounded hNone)
  · intro T y b hSome
    exact absurd hSome (by simp [Known.insert, hArmed])

theorem Inv.insert {L : Known} {q : Operation Unit} (hInv : Inv s)
    (hOpen : (s.proc i).aborted = false) (hRunning : (s.proc i).phase = .running q)
    (hFresh : a ∉ s.keys) (hArmed : L.armed = none) (hGoes : Goes (withRow s i new a) i L p) :
    Inv ((withRow s i new a).setPhase i (.running p)) := by
  have hUnseen : ∀ j, j ≠ i → Unseen s ((withRow s i new a).setPhase i (.running p)) j := fun j hji =>
    (Unseen.insertRow hInv.typed.keyed hji hFresh _).trans (Unseen.setPhase hji _)
  refine hInv.of_unseen hUnseen ((hInv.typed.withRow hFresh).setPhase _) ?_ ?_
  · have hProc : ((withRow s i new a).setPhase i (.running p)).proc i = ⟨false, .running p⟩ := by
      rw [proc_setPhase]
      exact congrArg (fun aborted => Proc.mk aborted (.running p)) hOpen
    rw [hProc]
    exact .inl ⟨L, hGoes.alike (ReadCommitted.alike_setPhase _)⟩
  · intro T y b hAims c row hRow hType
    obtain ⟨own, hOwn, hActive⟩ := aims_running hGoes.disciplined hArmed (by rw [proc_setPhase]) hAims
    obtain ⟨⟨old, hOld, hOldType⟩, -⟩ := hAims
    replace hOld := (committed_withRow _ _ hInv.typed hFresh b).symm.trans hOld
    change ((withRow s i new a).slot b).own i = _ at hOwn
    rcases own_withRow hOwn with ⟨-, -, hNew⟩ | ⟨-, hBefore⟩
    · cases hNew
      cases hActive
    · refine .inl ⟨⟨⟨old, hOld, hOldType⟩, hOpen, .inr (.inr (.inr ⟨own, hBefore, hActive⟩))⟩, ?_⟩
      rintro (⟨t', targets', next', hSame, -⟩ | hc)
      · rw [hRunning] at hSame
        cases hSame
      · obtain ⟨version, hVersion⟩ := Option.ne_none_iff_exists'.mp hc
        have hKept := own_withRow_of_some i new hInv.typed hFresh hVersion
        have hKept' : (((withRow s i new a).setPhase i (.running p)).slot c).own i = some version :=
          hKept.2
        exact .inr (by simp [hKept'])

end Insert

/-! ## Steps -/

section Step

variable {env : GatewayEnv}

theorem Inv.goOnAborted (hInv : Inv s) (hAborted : (s.proc i).aborted = true)
    (hNone : ∀ k, (s.slot k).own i = none) : Inv (s.setPhase i (.running p)) := by
  have hProc : (s.setPhase i (.running p)).proc i = ⟨true, .running p⟩ := by
    rw [proc_setPhase]
    exact congrArg (fun aborted => Proc.mk aborted (.running p)) hAborted
  refine hInv.of_unseen (i := i) (fun j hji => Unseen.setPhase hji _) (hInv.typed.setPhase _) ?_ ?_
  · rw [hProc]
    exact hNone
  · intro T y a hAims
    exact absurd hAims (not_aims_of_none hNone (.inl (by rw [hProc])))

theorem Inv.abort (hInv : Inv s) (p : Operation Unit) : Inv (s.abort i p) :=
  hInv.giveUp (.inl ⟨rfl, p, rfl⟩)

theorem Inv.endWith (hInv : Inv s) (r : Except PyException Unit) :
    Inv ((s.rollback i).setPhase i (.ended r)) :=
  hInv.giveUp (.inr ⟨r, rfl⟩)

theorem Inv.chooseDeactivate (hInv : Inv s) (hOpen : (s.proc i).aborted = false) {t : Nat}
    {next : Except PyException (Answer (t, .deactivateCertsOfType T y)) → Operation Unit}
    (hRunning : (s.proc i).phase = .running (.call (t, .deactivateCertsOfType T y) next))
    (hGoes : Goes s i K (.call (t, .deactivateCertsOfType T y) next)) :
    Inv (s.setPhase i (.waiting (t, .deactivateCertsOfType T y)
      (s.found i (Certificate.ofType T y)) next)) := by
  have hKeyed := hInv.typed.keyed
  refine hInv.choose hOpen hRunning hGoes ⟨fun k row hOwn hType => ?_, fun a hAim hAlive => ?_⟩ ?_
  · rw [hKeyed.mem_found]
    exact ⟨row, by rw [Slot.view, hOwn]; rfl, hType⟩
  · obtain ⟨t', a', next', hCall, hKind, -⟩ := armed_aim hGoes.disciplined.2.2 rfl
    rw [hCall] at hAim
    obtain rfl : a' = a := Option.some.inj hAim
    obtain ⟨row, hView⟩ := Option.ne_none_iff_exists'.mp hAlive
    rw [hKeyed.mem_found]
    exact ⟨row, hView, hGoes.knows.viewType hKind hView⟩
  · rintro t' T' y' hSame b row hRow hType
    cases hSame
    cases hOwn : (s.slot b).own i with
    | some version => exact .inr (by simp)
    | none =>
      refine .inl (hKeyed.mem_found.mpr ⟨row, ?_, hType⟩)
      rw [Slot.view, hOwn]
      exact hRow

theorem Inv.chooseActivate (hInv : Inv s) (hOpen : (s.proc i).aborted = false) {t : Nat}
    {next : Except PyException (Answer (t, .setCertActive T a)) → Operation Unit}
    (hRunning : (s.proc i).phase = .running (.call (t, .setCertActive T a) next))
    (hGoes : Goes s i K (.call (t, .setCertActive T a) next)) :
    Inv (s.setPhase i (.waiting (t, .setCertActive T a) (s.found i (Certificate.isRow T a)) next)) := by
  have hKeyed := hInv.typed.keyed
  refine hInv.choose hOpen hRunning hGoes ⟨fun k hk => ?_, fun hAlive => ?_⟩ ?_
  · obtain ⟨row, hView, hRow⟩ := hKeyed.mem_found.mp hk
    exact (eq_of_isRow hInv.typed hView hRow).1
  · obtain ⟨y, -, hKind, -⟩ := hGoes.disciplined
    obtain ⟨row, hView⟩ := Option.ne_none_iff_exists'.mp hAlive
    have hType := hGoes.knows.viewType hKind hView
    exact hKeyed.mem_found.mpr ⟨row, hView, isRow_of_view hInv.typed hView hType⟩
  · rintro t' T' y' hSame
    cases hSame

theorem Inv.chooseDelete (hInv : Inv s) (hOpen : (s.proc i).aborted = false) {t : Nat}
    {next : Except PyException (Answer (t, .deleteCert T a)) → Operation Unit}
    (hRunning : (s.proc i).phase = .running (.call (t, .deleteCert T a) next))
    (hGoes : Goes s i K (.call (t, .deleteCert T a) next)) :
    Inv (s.setPhase i (.waiting (t, .deleteCert T a) (s.found i (Certificate.isRow T a)) next)) := by
  refine hInv.choose hOpen hRunning hGoes (fun k hk => ?_) ?_
  · obtain ⟨row, hView, hRow⟩ := hInv.typed.keyed.mem_found.mp hk
    exact (eq_of_isRow hInv.typed hView hRow).1
  · rintro t' T' y' hSame
    cases hSame

theorem Inv.begin (hInv : Inv s) (hOpen : (s.proc i).aborted = false) {c : Nat × Command}
    {next : Except PyException (Answer c) → Operation Unit}
    (hRunning : (s.proc i).phase = .running (.call c next)) (hGoes : Goes s i K (.call c next))
    {action : SqlAction Certificate (Answer c)} (hAction : c.2.statement = some action) :
    Inv (ReadCommitted.begin env.readCommitted i c next s action) := by
  obtain ⟨t, c⟩ := c
  cases c with
  | listRenewableServerCertsWithin T horizon =>
    obtain rfl := Option.some.inj hAction
    obtain ⟨L, hNext, hArmed⟩ := hGoes.listRenewable
    exact hInv.goOn hOpen hRunning hNext hArmed
  | selectActiveCa T =>
    obtain rfl := Option.some.inj hAction
    obtain ⟨hArmed, hNext⟩ := hGoes.disciplined
    exact hInv.goOn hOpen hRunning (hGoes.move hArmed rfl hArmed hGoes.knows (hNext _)) hArmed
  | lookupCertSummary T a =>
    obtain rfl := Option.some.inj hAction
    obtain ⟨L, hNext, hArmed⟩ := hGoes.lookupCertSummary hInv.typed
    exact hInv.goOn hOpen hRunning hNext hArmed
  | insertCert new =>
    obtain rfl := Option.some.inj hAction
    obtain ⟨hArmed, hNext⟩ := hGoes.disciplined
    simp only [ReadCommitted.begin]
    split
    · exact hInv.abort _
    · exact hInv
    · rename_i hFree
      have hFresh := ReadCommitted.fresh_of_free hFree
      have hUnarmed : (K.insert new (env.newId s.clock)).armed = none := hArmed
      exact hInv.insert hOpen hRunning hFresh hUnarmed
        (hGoes.insert hInv.typed hFresh hArmed (hNext _))
  | deactivateCertsOfType T y =>
    obtain rfl := Option.some.inj hAction
    exact hInv.chooseDeactivate hOpen hRunning hGoes
  | setCertActive T a =>
    obtain rfl := Option.some.inj hAction
    exact hInv.chooseActivate hOpen hRunning hGoes
  | deleteCert T a =>
    obtain rfl := Option.some.inj hAction
    exact hInv.chooseDelete hOpen hRunning hGoes
  | logAudit action resourceId =>
    obtain rfl := Option.some.inj hAction
    obtain ⟨hArmed, hNext⟩ := hGoes.disciplined
    exact hInv.goOn hOpen hRunning (hGoes.move hArmed rfl hArmed hGoes.knows hNext) hArmed
  | _ => cases hAction

theorem Inv.external (hInv : Inv s) (hOpen : (s.proc i).aborted = false) {c : Nat × Command}
    {next : Except PyException (Answer c) → Operation Unit}
    (hRunning : (s.proc i).phase = .running (.call c next)) (hGoes : Goes s i K (.call c next))
    (hOutside : c.2.statement = none) (r : Except PyException (Answer c)) :
    Inv (s.setPhase i (.running (next r))) := by
  have hNext : K.armed = none ∧
      Disciplined True (fun _ _ => True) (fun _ _ => True) K (next r) := by
    have hCall := hGoes.disciplined
    obtain ⟨t, c⟩ := c
    cases c <;> first | exact ⟨hCall.1, hCall.2 r⟩ | cases hOutside
  exact hInv.goOn hOpen hRunning (hGoes.move hNext.1 rfl hNext.1 hGoes.knows hNext.2) hNext.1

theorem commits_commit {r : Except PyException Unit} :
    Commits s ((s.commit i).setPhase i (.ended r)) i where
  slot _ := rfl
  keys := rfl
  proc j hji := Function.update_of_ne hji _ _
  ended := ⟨r, by rw [proc_setPhase]⟩

theorem Inv.committing (hInv : Inv s) (hOpen : (s.proc i).aborted = false) {u : Unit}
    (hRunning : (s.proc i).phase = .running (.ret u)) : ∃ K, Committing s i K := by
  have hStands := hInv.stands i
  rcases hProc : s.proc i with ⟨aborted, phase⟩
  rw [hProc] at hStands hOpen hRunning
  obtain rfl : aborted = false := hOpen
  obtain rfl : phase = .running (.ret u) := hRunning
  rcases hStands with ⟨K, hK⟩ | ⟨e, hRaise⟩
  · exact ⟨K, ⟨u, hK, by rw [hProc]⟩, by rw [hProc]⟩
  · cases hRaise

theorem Inv.running (hInv : Inv s) (hOpen : (s.proc i).aborted = false)
    (hRunning : (s.proc i).phase = .running p) : (∃ K, Goes s i K p) ∨ ∃ e, p = .raise e := by
  have hStands := hInv.stands i
  rcases hProc : s.proc i with ⟨aborted, phase⟩
  rw [hProc] at hStands hOpen hRunning
  obtain rfl : aborted = false := hOpen
  obtain rfl : phase = .running p := hRunning
  exact hStands

theorem Inv.nothingOwned (hInv : Inv s) (hAborted : (s.proc i).aborted = true) (k : String) :
    (s.slot k).own i = none := by
  have hStands := hInv.stands i
  rcases hProc : s.proc i with ⟨aborted, phase⟩
  rw [hProc] at hStands hAborted
  obtain rfl : aborted = true := hAborted
  cases phase with
  | ended r => exact hStands k
  | running p => exact hStands k
  | waiting c targets next => exact hStands.elim

theorem Inv.waiting (hInv : Inv s) {c : Nat × Command}
    {next : Except PyException (Answer c) → Operation Unit}
    (hPhase : (s.proc i).phase = .waiting c targets next) :
    (s.proc i).aborted = false ∧ (∃ K, Goes s i K (.call c next)) ∧ Chosen s i c targets next := by
  have hStands := hInv.stands i
  rcases hProc : s.proc i with ⟨aborted, phase⟩
  rw [hProc] at hStands hPhase
  obtain rfl : phase = .waiting c targets next := hPhase
  cases aborted with
  | true => exact hStands.elim
  | false => exact ⟨rfl, hStands⟩

theorem Inv.finishUpdate (hInv : Inv s) {c : Nat × Command}
    {next : Except PyException (Answer c) → Operation Unit}
    (hPhase : (s.proc i).phase = .waiting c targets next) (hOrderly : Orderly s (.step i)) :
    Inv (ReadCommitted.advance env.readCommitted i s) := by
  obtain ⟨hOpen, ⟨K, hGoes⟩, hChosen⟩ := hInv.waiting hPhase
  simp only [Orderly, hPhase] at hOrderly
  simp only [ReadCommitted.advance, hPhase]
  obtain ⟨t, c⟩ := c
  cases c with
  | deactivateCertsOfType T y =>
    simp only [GatewayEnv.readCommitted, Command.statement]
    split
    · exact hInv
    · rename_i hFree
      have hFree := eq_false_of_ne_true hFree
      exact hInv.deactivate hOpen hPhase hFree hGoes hChosen (hOrderly hFree)
  | setCertActive T a =>
    simp only [GatewayEnv.readCommitted, Command.statement]
    split
    · exact hInv
    · rename_i hFree
      have hFree := eq_false_of_ne_true hFree
      cases hView : (s.slot a).view i with
      | none =>
        rw [activated_answer_none hChosen.1 hView]
        exact hInv.activateNone hOpen hPhase hFree hGoes hView hChosen.1
      | some row =>
        obtain ⟨y, -, hKind, -⟩ := hGoes.disciplined
        have hTarget : a ∈ targets := hChosen.2 (by simp [hView])
        rw [activated_answer hInv.typed hChosen.1 hTarget hView (hGoes.knows.viewType hKind hView)]
        exact hInv.activateSome hOpen hPhase hFree hGoes hChosen hView
  | deleteCert T a =>
    simp only [GatewayEnv.readCommitted, Command.statement]
    split
    · exact hInv
    · rename_i hFree
      have hFree := eq_false_of_ne_true hFree
      exact hInv.delete hOpen hFree hGoes hChosen (hOrderly hFree)
  | _ => exact hChosen.elim

theorem Inv.advance (hInv : Inv s) (hOrderly : Orderly s (.step i)) :
    Inv (ReadCommitted.advance env.readCommitted i s) := by
  cases hPhase : (s.proc i).phase with
  | ended r =>
    simp only [ReadCommitted.advance, hPhase]
    exact hInv
  | waiting c targets next => exact hInv.finishUpdate hPhase hOrderly
  | running p =>
    simp only [ReadCommitted.advance, hPhase]
    cases hOpen : (s.proc i).aborted with
    | true =>
      have hNone := hInv.nothingOwned hOpen
      cases p with
      | ret u => exact hInv.endWith _
      | raise e => exact hInv.endWith _
      | call c next =>
        simp only [if_true]
        split
        · exact hInv.goOnAborted hOpen hNone
        · exact hInv.goOnAborted hOpen hNone
    | false =>
      cases p with
      | ret u =>
        obtain ⟨K, hCommitting⟩ := hInv.committing hOpen hPhase
        exact commits_commit.inv hInv hCommitting
      | raise e => exact hInv.endWith _
      | call c next =>
        rcases hInv.running hOpen hPhase with ⟨K, hGoes⟩ | ⟨e, hRaise⟩
        · simp only
          split
          · rename_i hOutside
            exact hInv.external hOpen hPhase hGoes hOutside _
          · rename_i action hAction
            exact hInv.begin hOpen hPhase hGoes hAction
        · cases hRaise

theorem Inv.step (hInv : Inv s) {l : Label} (hOrderly : Orderly s l) : Inv (env.step l s).2 := by
  cases l with
  | step i => exact (hInv.advance hOrderly).clock _
  | fail i e =>
    refine Inv.clock ?_ _
    unfold ReadCommitted.failNow
    split
    · exact hInv.endWith _
    · split
      · exact hInv.abort _
      · exact hInv
    · exact hInv.abort _
    · exact hInv
  | die i e =>
    change Inv (ReadCommitted.finish i e s)
    unfold ReadCommitted.finish
    split
    · exact hInv
    · exact hInv.endWith _

end Step

end OpenRadiusWeb.Certificates
