import OpenRadiusWeb.Realms.Requests

/-! # Consistency of the stored realms

Every stored proxy realm has a host and a secret, and references stay within the tenant: an
invariant of every run in which no update blanks a proxy's fields or names a realm of another
tenant. `update_realm` checks neither.
-/

namespace OpenRadiusWeb.Realms

open Transcript (transcript)

section Invariant

variable {Key : Type} {g : Gateway Key} {rows rows' : List Stored} {r : Realm}

/-- A host, and a secret that decrypts to a text; neither is empty. -/
structure ProxyComplete (g : Gateway Key) (r : Realm) : Prop where
  host : ∃ host, r.proxyHost = some host ∧ host ≠ ""
  secret : ∃ secret, g.cipher.decrypt g.key r.proxySecretEncrypted = .ok (some secret) ∧ secret ≠ ""

structure RealmSound (g : Gateway Key) (rows : List Stored) (r : Realm) : Prop where
  proxy : r.realmType = some "proxy" → ProxyComplete g r
  ldapServer : ∀ id, r.ldapServerId = some id → HasLdapServer rows r.tenantId id
  fallback : ∀ id, r.fallbackRealmId = some id → HasRealm rows r.tenantId id

def Sound (g : Gateway Key) (rows : List Stored) : Prop := ∀ r, .realm r ∈ rows → RealmSound g rows r

theorem RealmSound.mono (h : RealmSound g rows r)
    (hLdap : ∀ T id, HasLdapServer rows T id → HasLdapServer rows' T id)
    (hRealm : ∀ T id, HasRealm rows T id → HasRealm rows' T id) : RealmSound g rows' r where
  proxy := h.proxy
  ldapServer id hId := hLdap _ id (h.ldapServer id hId)
  fallback id hId := hRealm _ id (h.fallback id hId)

theorem Sound.insert (h : Sound g rows) (hNew : RealmSound g rows r) :
    Sound g (rows ++ [.realm r]) := by
  have hLdap : ∀ T id, HasLdapServer rows T id → HasLdapServer (rows ++ [.realm r]) T id := by
    rintro T id ⟨l, hMem, hIs⟩
    exact ⟨l, List.mem_append_left _ hMem, hIs⟩
  have hRealm : ∀ T id, HasRealm rows T id → HasRealm (rows ++ [.realm r]) T id := by
    rintro T id ⟨r', hMem, hIs⟩
    exact ⟨r', List.mem_append_left _ hMem, hIs⟩
  intro r' hMem
  rw [List.mem_append, List.mem_singleton] at hMem
  rcases hMem with hOld | hSame
  · exact (h r' hOld).mono hLdap hRealm
  · obtain rfl := Stored.realm.inj hSame
    exact hNew.mono hLdap hRealm

variable {T realmId : String} {f : Realm → Realm}

theorem mem_updateRows_ldapServer {l : LdapServer} :
    .ldapServer l ∈ updateRows T realmId f rows ↔ .ldapServer l ∈ rows := by
  simp only [updateRows, List.mem_map]
  constructor
  · rintro ⟨row, hMem, hRow⟩
    cases row with
    | ldapServer l' =>
      simp only [Stored.isRealm, Bool.false_eq_true, if_false] at hRow
      exact hRow ▸ hMem
    | realm r =>
      split at hRow <;> cases hRow
  · exact fun hMem => ⟨_, hMem, rfl⟩

theorem mem_updateRows_realm :
    .realm r ∈ updateRows T realmId f rows ↔
      (.realm r ∈ rows ∧ ¬ (r.id = realmId ∧ r.tenantId = T)) ∨
        ∃ r', IsRealm rows T realmId r' ∧ r = f r' := by
  simp only [updateRows, List.mem_map]
  constructor
  · rintro ⟨row, hMem, hRow⟩
    cases row with
    | ldapServer l => cases hRow
    | realm r' =>
      simp only [Stored.isRealm, Bool.and_eq_true, beq_iff_eq] at hRow
      split at hRow
      · rename_i hIs
        exact .inr ⟨r', ⟨hMem, hIs⟩, (Stored.realm.inj hRow).symm⟩
      · rename_i hOther
        obtain rfl := Stored.realm.inj hRow
        exact .inl ⟨hMem, hOther⟩
  · rintro (⟨hMem, hOther⟩ | ⟨r', ⟨hMem, hIs⟩, rfl⟩)
    · exact ⟨.realm r, hMem, if_neg (by simpa [Stored.isRealm] using hOther)⟩
    · exact ⟨.realm r', hMem, if_pos (by simpa [Stored.isRealm] using hIs)⟩

theorem hasLdapServer_updateRows {T' id : String} :
    HasLdapServer (updateRows T realmId f rows) T' id ↔ HasLdapServer rows T' id := by
  simp only [HasLdapServer, mem_updateRows_ldapServer]

theorem hasRealm_updateRows (hKeeps : ∀ r, (f r).id = r.id ∧ (f r).tenantId = r.tenantId)
    {T' id : String} : HasRealm (updateRows T realmId f rows) T' id ↔ HasRealm rows T' id := by
  constructor
  · rintro ⟨r, hMem, hIs⟩
    rcases mem_updateRows_realm.mp hMem with ⟨hOld, -⟩ | ⟨r', hTarget, rfl⟩
    · exact ⟨r, hOld, hIs⟩
    · exact ⟨r', hTarget.1, (hKeeps r').1 ▸ hIs.1, (hKeeps r').2 ▸ hIs.2⟩
  · rintro ⟨r, hMem, hIs⟩
    by_cases hTarget : r.id = realmId ∧ r.tenantId = T
    · refine ⟨f r, mem_updateRows_realm.mpr (.inr ⟨r, ⟨hMem, hTarget⟩, rfl⟩), ?_⟩
      exact ⟨(hKeeps r).1.trans hIs.1, (hKeeps r).2.trans hIs.2⟩
    · exact ⟨r, mem_updateRows_realm.mpr (.inl ⟨hMem, hTarget⟩), hIs⟩

theorem Sound.update (h : Sound g rows)
    (hKeeps : ∀ r, (f r).id = r.id ∧ (f r).tenantId = r.tenantId)
    (hNew : ∀ r, IsRealm rows T realmId r → RealmSound g rows (f r)) :
    Sound g (updateRows T realmId f rows) := by
  intro r hMem
  have hSound : RealmSound g rows r := by
    rcases mem_updateRows_realm.mp hMem with ⟨hOld, -⟩ | ⟨r', hTarget, rfl⟩
    · exact h r hOld
    · exact hNew r' hTarget
  exact hSound.mono (fun _ _ => hasLdapServer_updateRows.mpr)
    fun _ _ => (hasRealm_updateRows hKeeps).mpr

def deleteRows (T realmId : String) (rows : List Stored) : List Stored :=
  rows.filterMap fun row =>
    if row.isRealm T realmId || row.fallsBackOn realmId then
      if row.isRealm T realmId then none else some (row.mapRealm (Realm.forget realmId))
    else some row

theorem forget_of_other {r : Realm} (h : r.fallbackRealmId ≠ some realmId) : r.forget realmId = r :=
  if_neg h

theorem mem_deleteRows_ldapServer {l : LdapServer} :
    .ldapServer l ∈ deleteRows T realmId rows ↔ .ldapServer l ∈ rows := by
  simp only [deleteRows, List.mem_filterMap]
  constructor
  · rintro ⟨row, hMem, hRow⟩
    cases row with
    | ldapServer l' =>
      simp only [Stored.isRealm, Stored.fallsBackOn, Bool.or_self, Bool.false_eq_true,
        if_false] at hRow
      exact Option.some.inj hRow ▸ hMem
    | realm r =>
      split at hRow
      · split at hRow <;> cases hRow
      · cases hRow
  · exact fun hMem => ⟨_, hMem, rfl⟩

theorem mem_deleteRows_realm :
    .realm r ∈ deleteRows T realmId rows ↔
      ∃ r', .realm r' ∈ rows ∧ ¬ (r'.id = realmId ∧ r'.tenantId = T) ∧ r = r'.forget realmId := by
  simp only [deleteRows, List.mem_filterMap]
  constructor
  · rintro ⟨row, hMem, hRow⟩
    cases row with
    | ldapServer l =>
      simp only [Stored.isRealm, Stored.fallsBackOn, Bool.or_self, Bool.false_eq_true,
        if_false] at hRow
      cases hRow
    | realm r' =>
      refine ⟨r', hMem, ?_⟩
      by_cases hTarget : (Stored.realm r').isRealm T realmId = true
      · rw [if_pos (by simp [hTarget]), if_pos hTarget] at hRow
        cases hRow
      · refine ⟨by simpa [Stored.isRealm] using hTarget, ?_⟩
        by_cases hRefers : (Stored.realm r').fallsBackOn realmId = true
        · rw [if_pos (by simp [hRefers]), if_neg hTarget] at hRow
          exact (Stored.realm.inj (Option.some.inj hRow)).symm
        · rw [if_neg (by simp [hTarget, hRefers])] at hRow
          rw [forget_of_other (by simpa [Stored.fallsBackOn] using hRefers)]
          exact (Stored.realm.inj (Option.some.inj hRow)).symm
  · rintro ⟨r', hMem, hOther, rfl⟩
    refine ⟨.realm r', hMem, ?_⟩
    have hNot : ¬ (Stored.realm r').isRealm T realmId = true := by simpa [Stored.isRealm] using hOther
    by_cases hRefers : (Stored.realm r').fallsBackOn realmId = true
    · rw [if_pos (by simp [hRefers]), if_neg hNot]
      rfl
    · rw [if_neg (by simp [hNot, hRefers]),
        forget_of_other (by simpa [Stored.fallsBackOn] using hRefers)]

@[simp] theorem forget_id (r : Realm) : (r.forget realmId).id = r.id := by
  unfold Realm.forget
  split <;> rfl

@[simp] theorem forget_tenantId (r : Realm) : (r.forget realmId).tenantId = r.tenantId := by
  unfold Realm.forget
  split <;> rfl

theorem forget_fallbackRealmId {r : Realm} {id : String}
    (h : (r.forget realmId).fallbackRealmId = some id) :
    r.fallbackRealmId = some id ∧ id ≠ realmId := by
  unfold Realm.forget at h
  split at h
  · cases h
  · rename_i hOther
    refine ⟨h, ?_⟩
    rintro rfl
    exact hOther h

/-- The references to the row are gone with it. -/
theorem Sound.delete (h : Sound g rows) : Sound g (deleteRows T realmId rows) := by
  intro r hMem
  obtain ⟨r', hOld, -, rfl⟩ := mem_deleteRows_realm.mp hMem
  have hSound := h r' hOld
  refine ⟨fun hProxy => ?_, fun id hId => ?_, fun id hId => ?_⟩
  · have hComplete : ProxyComplete g r' := hSound.proxy (by
      unfold Realm.forget at hProxy
      split at hProxy <;> exact hProxy)
    unfold Realm.forget
    split
    · exact ⟨hComplete.host, hComplete.secret⟩
    · exact hComplete
  · have hSame : r'.ldapServerId = some id := by
      unfold Realm.forget at hId
      split at hId <;> exact hId
    obtain ⟨l, hLdap, hIs⟩ := hSound.ldapServer id hSame
    rw [forget_tenantId]
    exact ⟨l, mem_deleteRows_ldapServer.mpr hLdap, hIs⟩
  · obtain ⟨hSame, hOther⟩ := forget_fallbackRealmId hId
    obtain ⟨r'', hThere, hKey, hTenant⟩ := hSound.fallback id hSame
    refine ⟨r''.forget realmId, mem_deleteRows_realm.mpr ⟨r'', hThere, ?_, rfl⟩, ?_⟩
    · rintro ⟨hDeleted, -⟩
      exact hOther (hKey.symm.trans hDeleted)
    · rw [forget_id, forget_tenantId, forget_tenantId]
      exact ⟨hKey, hTenant⟩

end Invariant

/-! ## What the requests write -/

section Requests

variable {Key : Type} {g : Gateway Key} {o : Outside} {t t' : Tables} {actor : Actor}
  {realmId : String}

theorem varchar_eq_empty {width : Nat} {text : String} (hWidth : width ≠ 0)
    (h : varchar width text = "") : text = "" := by
  unfold varchar at h
  split at h
  · have hTake : text.toList.take width = [] := String.ofList_injective (h.trans rfl)
    rw [List.take_eq_nil_iff] at hTake
    exact String.toList_injective (hTake.resolve_left hWidth)
  · exact h

theorem varchar_eq_short {width : Nat} {text short : String} (hShort : short.toList.length < width)
    (h : varchar width text = short) : text = short := by
  unfold varchar at h
  split at h
  · have hTake : text.toList.take width = short.toList := by rw [← h, String.toList_ofList]
    have hLength : min width text.toList.length = short.toList.length := by
      rw [← hTake, List.length_take]
    rw [List.take_of_length_le (by omega)] at hTake
    exact String.toList_injective hTake
  · exact h

theorem proxyIncomplete_eq_none {host secret : Option String} :
    proxyIncomplete host secret = none ↔ truthy host = true ∧ truthy secret = true := by
  unfold proxyIncomplete
  cases truthy host <;> cases truthy secret <;> simp

theorem decrypt_encrypt {nonce : Secrets.Nonce} {secret : Option String} :
    g.cipher.decrypt g.key (g.cipher.encrypt g.key nonce secret) = .ok secret := by
  cases secret with
  | none => rfl
  | some text =>
    simp [Secrets.Cipher.encrypt, Secrets.Cipher.decrypt, Secrets.sealed_ne_empty,
      Secrets.opened_sealed, Except.map]

theorem truthy_varchar {host : Option String} (h : truthy host = true) :
    ∃ text, host.map (varchar 255) = some text ∧ text ≠ "" := by
  obtain ⟨text, rfl, hText⟩ := truthy_iff.mp h
  exact ⟨_, rfl, fun hEmpty => hText (varchar_eq_empty (by decide) hEmpty)⟩

theorem handle_ok {call : Call} {u : Unit} (h : g.handle call t = (.ok u, t')) :
    ∃ s, (call.request.program g.codec).run (g.exec call.outside) (.start t) = (.ok u, s) ∧
      t' = s.result :=
  Session.transact_ok h

/-- What a request that creates a realm and returns has done. -/
theorem handle_create {fields : RealmCreate} {u : Unit}
    (h : g.handle ⟨.create actor fields, o⟩ t = (.ok u, t')) :
    (fields.realmType = "proxy" → proxyIncomplete fields.proxyHost fields.proxySecret = none) ∧
      (∀ text id, fields.ldapServerId = some text → g.codec.parse text = some id →
        HasLdapServer t.val actor.tenantId id) ∧
      (∀ text id, fields.fallbackRealmId = some text → g.codec.parse text = some id →
        HasRealm t.val actor.tenantId id) ∧
      Inserted g o actor fields t.val t'.val := by
  obtain ⟨s, hRun, hResult⟩ := handle_ok h
  obtain ⟨row, s₁, hCreate, hReturn⟩ := Program.run_bind_ok hRun
  cases hReturn
  obtain ⟨_, s₂, hValidate, hAfterCreate⟩ := Program.run_bind_ok hCreate
  obtain ⟨_, s₃, hLdapRef, hAfterLdap⟩ := Program.run_bind_ok hAfterCreate
  obtain ⟨_, s₄, hFallbackRef, hAfterFallback⟩ := Program.run_bind_ok hAfterLdap
  obtain ⟨made, s₅, hInsert, hAfterInsert⟩ := Program.run_bind_ok hAfterFallback
  obtain ⟨_, s₆, hAudit, hAfterAudit⟩ := Program.run_bind_ok hAfterInsert
  obtain ⟨_, s₇, hPublish, hReturn⟩ := Program.run_bind_ok hAfterAudit
  cases hReturn
  obtain ⟨rfl, hProxy⟩ := run_validateCreate hValidate
  obtain ⟨rfl, hLdap⟩ := run_validateLdapServerRef hLdapRef
  obtain ⟨rfl, hFallback⟩ := run_validateFallbackRealmRef hFallbackRef
  obtain ⟨t₁, rfl, hInserted⟩ := run_insertRealm hInsert
  obtain rfl := run_append rfl hAudit
  obtain ⟨-, rfl⟩ := run_answer rfl hPublish
  obtain rfl : t' = t₁ := hResult
  exact ⟨hProxy, hLdap, hFallback, hInserted⟩

theorem sound_create {fields : RealmCreate} {u : Unit} (hSound : Sound g t.val)
    (h : g.handle ⟨.create actor fields, o⟩ t = (.ok u, t')) : Sound g t'.val := by
  obtain ⟨hProxy, hLdap, hFallback, ldapServerId, fallbackRealmId, hLdapKey, hFallbackKey, hRows⟩ :=
    handle_create h
  rw [hRows]
  apply hSound.insert
  refine ⟨fun hType => ?_, fun id hId => ?_, fun id hId => ?_⟩
  · have hIsProxy : fields.realmType = "proxy" :=
      varchar_eq_short (by decide) (Option.some.inj hType)
    obtain ⟨hHost, hSecret⟩ := proxyIncomplete_eq_none.mp (hProxy hIsProxy)
    obtain ⟨secret, hSome, hNonempty⟩ := truthy_iff.mp hSecret
    exact ⟨truthy_varchar hHost, secret, decrypt_encrypt.trans (congrArg Except.ok hSome), hNonempty⟩
  · rcases hLdapKey with ⟨-, rfl⟩ | ⟨text, key, hText, rfl, hParse⟩
    · cases hId
    · cases hId
      exact hLdap text id hText hParse
  · rcases hFallbackKey with ⟨-, rfl⟩ | ⟨text, key, hText, rfl, hParse⟩
    · cases hId
    · cases hId
      exact hFallback text id hText hParse

/-- What a request that deletes a realm and returns has done. -/
theorem handle_delete {u : Unit} (h : g.handle ⟨.delete actor realmId, o⟩ t = (.ok u, t')) :
    t'.val = deleteRows actor.tenantId realmId t.val := by
  obtain ⟨s, hRun, hResult⟩ := handle_ok h
  obtain ⟨_, s₁, hCheck, hAfterCheck⟩ := Program.run_bind_ok hRun
  obtain ⟨summary, s₂, hLookup, hAfterLookup⟩ := Program.run_bind_ok hAfterCheck
  obtain rfl := run_checkUnreferenced hCheck
  obtain ⟨-, rfl⟩ := run_select rfl hLookup
  cases summary with
  | none => cases hAfterLookup
  | some summary =>
    obtain ⟨_, s₃, hDelete, hAfterDelete⟩ := Program.run_bind_ok hAfterLookup
    obtain ⟨_, s₄, hAudit, hPublish⟩ := Program.run_bind_ok hAfterDelete
    obtain ⟨-, t₁, rfl, hRows⟩ := run_update rfl hDelete
    obtain rfl := run_append rfl hAudit
    obtain ⟨-, rfl⟩ := run_answer rfl hPublish
    obtain rfl : t' = t₁ := hResult
    exact hRows

/-- What a request that updates a realm and returns has done. -/
theorem handle_update {updates : RealmUpdate} {u : Unit}
    (h : g.handle ⟨.update actor realmId updates, o⟩ t = (.ok u, t')) :
    (∀ r, IsRealm t.val actor.tenantId realmId r → PassesSwitch g updates r) ∧
      (∀ text id, updates.ldapServerId = some (some text) → g.codec.parse text = some id →
        HasLdapServer t.val actor.tenantId id) ∧
      HasRealm t.val actor.tenantId realmId ∧
      ∃ changes, Bound g o updates changes ∧
        t'.val = updateRows actor.tenantId realmId changes.assign t.val := by
  obtain ⟨s, hRun, hResult⟩ := handle_ok h
  obtain ⟨row, s₁, hUpdate, hReturn⟩ := Program.run_bind_ok hRun
  cases hReturn
  unfold updateRealm at hUpdate
  split at hUpdate
  · cases hUpdate
  · obtain ⟨_, s₂, hSwitch, hAfterSwitch⟩ := Program.run_bind_ok hUpdate
    obtain ⟨_, s₃, hLdapRef, hAfterLdap⟩ := Program.run_bind_ok hAfterSwitch
    obtain ⟨made, s₄, hStore, hAfterStore⟩ := Program.run_bind_ok hAfterLdap
    obtain ⟨_, s₅, hAudit, hAfterAudit⟩ := Program.run_bind_ok hAfterStore
    obtain ⟨_, s₆, hPublish, hReturn⟩ := Program.run_bind_ok hAfterAudit
    cases hReturn
    obtain ⟨rfl, hPasses⟩ := run_validateSwitch hSwitch
    obtain ⟨rfl, hLdap⟩ := run_validateLdapServerChange hLdapRef
    obtain ⟨changes, t₁, rfl, hBound, hHas, hRows⟩ := run_storeUpdate hStore
    obtain rfl := run_append rfl hAudit
    obtain ⟨-, rfl⟩ := run_answer rfl hPublish
    obtain rfl : t' = t₁ := hResult
    exact ⟨hPasses, hLdap, hHas, changes, hBound, hRows⟩

/-- The field is sent, and is null or empty. -/
def Blank (field : Option (Option String)) : Prop := ∃ value, field = some value ∧ truthy value = false

/-- The update neither blanks a field of a proxy nor names a realm of another tenant, unless
its own check refuses it. -/
def SafeUpdate (g : Gateway Key) (rows : List Stored) (actor : Actor) (realmId : String)
    (updates : RealmUpdate) : Prop :=
  ∀ r, IsRealm rows actor.tenantId realmId r → PassesSwitch g updates r →
    ((updates.assign r).realmType = some "proxy" →
      ¬ Blank updates.proxyHost ∧ ¬ Blank updates.proxySecret) ∧
    ∀ text id tenantId, updates.fallbackRealmId = some (some text) →
      g.codec.parse text = some id → HasRealm rows tenantId id → tenantId = actor.tenantId

variable {updates changes : RealmUpdate} {r : Realm}

theorem Bound.realmType (h : Bound g o updates changes) :
    (changes.assign r).realmType = (updates.assign r).realmType := by
  rw [h.changes_eq]
  rfl

theorem Bound.proxyHost (h : Bound g o updates changes) :
    (changes.assign r).proxyHost =
      (updates.proxyHost.map (Option.map (varchar 255))).getD r.proxyHost := by
  rw [h.changes_eq]
  rfl

theorem Bound.proxySecret (h : Bound g o updates changes) :
    (changes.assign r).proxySecretEncrypted =
      (updates.proxySecret.map (g.cipher.encrypt g.key o.nonce)).getD r.proxySecretEncrypted := by
  rw [h.changes_eq]
  rfl

theorem becomes_proxy (h : (updates.assign r).realmType = some "proxy") :
    updates.realmType.join = some "proxy" ∨ r.realmType = some "proxy" := by
  unfold RealmUpdate.assign at h
  cases hField : updates.realmType with
  | none =>
    rw [hField] at h
    exact .inr h
  | some realmType =>
    rw [hField] at h
    cases realmType with
    | none => cases h
    | some realmType =>
      exact .inl (congrArg some (varchar_eq_short (by decide) (Option.some.inj h)))

/-- What the update leaves as it is has been there, by the check or by the invariant. -/
theorem complete_before (hSound : RealmSound g t.val r) (hPasses : PassesSwitch g updates r)
    (hType : (updates.assign r).realmType = some "proxy") :
    (updates.proxyHost = none → ∃ host, r.proxyHost = some host ∧ host ≠ "") ∧
      (updates.proxySecret = none →
        ∃ secret, g.cipher.decrypt g.key r.proxySecretEncrypted = .ok (some secret) ∧ secret ≠ "") := by
  rcases becomes_proxy hType with hSwitch | hProxy
  · obtain ⟨secret, hDecrypt, hComplete⟩ := hPasses hSwitch
    obtain ⟨hHost, hSecret⟩ := proxyIncomplete_eq_none.mp hComplete
    constructor
    · intro hNone
      rw [hNone] at hHost
      exact truthy_iff.mp hHost
    · intro hNone
      rw [hNone] at hSecret
      obtain ⟨text, rfl, hText⟩ := truthy_iff.mp hSecret
      exact ⟨text, hDecrypt, hText⟩
  · have hComplete := hSound.proxy hProxy
    exact ⟨fun _ => hComplete.host, fun _ => hComplete.secret⟩

theorem assigned_reference {sent bound : Option (Option String)} {before : Option String} {id : String}
    (hRel : Option.Rel (Denotes g.codec) sent bound) (hId : bound.getD before = some id) :
    before = some id ∨ ∃ text, sent = some (some text) ∧ g.codec.parse text = some id := by
  cases hRel with
  | none => exact .inl hId
  | some hDenotes =>
    rcases hDenotes with ⟨-, rfl⟩ | ⟨text, key, rfl, rfl, hParse⟩
    · cases hId
    · obtain rfl : key = id := Option.some.inj hId
      exact .inr ⟨text, rfl, hParse⟩

theorem assigned_sent {sent bound : Option (Option String)} {before : Option String} {text id : String}
    (hRel : Option.Rel (Denotes g.codec) sent bound) (hSent : sent = some (some text))
    (hParse : g.codec.parse text = some id) : bound.getD before = some id := by
  subst hSent
  cases hRel with
  | some hDenotes =>
    rcases hDenotes with ⟨hNone, -⟩ | ⟨text', key, hText, rfl, hParse'⟩
    · cases hNone
    · cases hText
      exact hParse'.symm.trans hParse

/-- A safe update writes a sound row. -/
theorem sound_assign (hSound : RealmSound g t.val r) (hPasses : PassesSwitch g updates r)
    (hLdap : ∀ text id, updates.ldapServerId = some (some text) → g.codec.parse text = some id →
      HasLdapServer t.val actor.tenantId id)
    (hTenant : r.tenantId = actor.tenantId) (hBound : Bound g o updates changes)
    (hProxy : (updates.assign r).realmType = some "proxy" →
      ¬ Blank updates.proxyHost ∧ ¬ Blank updates.proxySecret)
    (hFallback : ∀ text id, updates.fallbackRealmId = some (some text) →
      g.codec.parse text = some id → HasRealm t.val actor.tenantId id) :
    RealmSound g t.val (changes.assign r) where
  proxy hType := by
    rw [hBound.realmType] at hType
    obtain ⟨hHost, hSecret⟩ := hProxy hType
    obtain ⟨hHostBefore, hSecretBefore⟩ := complete_before hSound hPasses hType
    constructor
    · rw [hBound.proxyHost]
      cases hField : updates.proxyHost with
      | none => exact hHostBefore hField
      | some host =>
        have hTruthy : truthy host = true := by
          by_contra hBlank
          exact hHost ⟨host, hField, eq_false_of_ne_true hBlank⟩
        exact truthy_varchar hTruthy
    · rw [hBound.proxySecret]
      cases hField : updates.proxySecret with
      | none => exact hSecretBefore hField
      | some secret =>
        have hTruthy : truthy secret = true := by
          by_contra hBlank
          exact hSecret ⟨secret, hField, eq_false_of_ne_true hBlank⟩
        obtain ⟨text, rfl, hText⟩ := truthy_iff.mp hTruthy
        exact ⟨text, decrypt_encrypt, hText⟩
  ldapServer id hId := by
    rcases assigned_reference hBound.ldapServerId hId with hBefore | ⟨text, hSent, hParse⟩
    · exact hSound.ldapServer id hBefore
    · change HasLdapServer t.val r.tenantId id
      rw [hTenant]
      exact hLdap text id hSent hParse
  fallback id hId := by
    rcases assigned_reference hBound.fallbackRealmId hId with hBefore | ⟨text, hSent, hParse⟩
    · exact hSound.fallback id hBefore
    · change HasRealm t.val r.tenantId id
      rw [hTenant]
      exact hFallback text id hSent hParse

theorem hasRealm_of_constraints {id : String} (hMem : .realm r ∈ t.val)
    (hId : r.fallbackRealmId = some id) : ∃ T, HasRealm t.val T id := by
  have hHold := t.property
  simp only [constraintsHold, Bool.and_eq_true, List.all_eq_true] at hHold
  have hAdmitted := hHold.1 _ hMem
  simp only [Stored.admitted, Bool.and_eq_true, hId, Option.all_some, List.any_eq_true] at hAdmitted
  obtain ⟨row, hRow, hKey⟩ := hAdmitted.2
  cases row with
  | ldapServer l => cases hKey
  | realm r' => exact ⟨r'.tenantId, r', hRow, beq_iff_eq.mp hKey, rfl⟩

theorem changes_keep (changes : RealmUpdate) (r : Realm) :
    (changes.assign r).id = r.id ∧ (changes.assign r).tenantId = r.tenantId := ⟨rfl, rfl⟩

/-- An update that returns keeps the realms sound exactly when it is safe. -/
theorem sound_update_iff {u : Unit} (hSound : Sound g t.val)
    (h : g.handle ⟨.update actor realmId updates, o⟩ t = (.ok u, t')) :
    Sound g t'.val ↔ SafeUpdate g t.val actor realmId updates := by
  obtain ⟨hPasses, hLdap, ⟨target, hTarget⟩, changes, hBound, hRows⟩ := handle_update h
  have hHas : ∀ T id, HasRealm t'.val T id ↔ HasRealm t.val T id := by
    rw [hRows]
    exact fun _ _ => hasRealm_updateRows (changes_keep changes)
  constructor
  · intro hAfter r hIs _
    have hWritten : RealmSound g t'.val (changes.assign r) := by
      apply hAfter
      rw [hRows]
      exact mem_updateRows_realm.mpr (.inr ⟨r, hIs, rfl⟩)
    refine ⟨fun hType => ?_, fun text id T hSent hParse hThere => ?_⟩
    · have hComplete := hWritten.proxy (hBound.realmType.trans hType)
      constructor
      · rintro ⟨host, hSent, hBlank⟩
        obtain ⟨text, hHost, hText⟩ := hComplete.host
        rw [hBound.proxyHost, hSent] at hHost
        cases host with
        | none => cases hHost
        | some host =>
          obtain rfl : host = "" := by simpa [truthy] using hBlank
          exact hText (Option.some.inj hHost).symm
      · rintro ⟨secret, hSent, hBlank⟩
        obtain ⟨text, hDecrypt, hText⟩ := hComplete.secret
        rw [hBound.proxySecret, hSent] at hDecrypt
        obtain rfl : secret = some text := Except.ok.inj (decrypt_encrypt.symm.trans hDecrypt)
        simp [truthy, hText] at hBlank
    · have hAssigned : (changes.assign r).fallbackRealmId = some id :=
        assigned_sent hBound.fallbackRealmId hSent hParse
      obtain ⟨a, hA⟩ := (hHas _ _).mp (hWritten.fallback id hAssigned)
      obtain ⟨b, hB⟩ := hThere
      obtain rfl := t.unique hA hB
      exact hB.2.2.symm.trans (hA.2.2.trans hIs.2.2)
  · intro hSafe
    rw [hRows]
    apply hSound.update (changes_keep changes)
    intro r hIs
    obtain ⟨hProxy, hFallback⟩ := hSafe r hIs (hPasses r hIs)
    apply sound_assign (hSound r hIs.1) (hPasses r hIs) hLdap hIs.2.2 hBound hProxy
    intro text id hSent hParse
    have hWritten : .realm (changes.assign r) ∈ t'.val := by
      rw [hRows]
      exact mem_updateRows_realm.mpr (.inr ⟨r, hIs, rfl⟩)
    have hAssigned : (changes.assign r).fallbackRealmId = some id :=
      assigned_sent hBound.fallbackRealmId hSent hParse
    obtain ⟨T, hThere⟩ := hasRealm_of_constraints hWritten hAssigned
    have hBefore := (hHas T id).mp hThere
    obtain rfl := hFallback text id T hSent hParse hBefore
    exact hBefore

end Requests

/-! ## Runs -/

section Runs

variable {Key : Type} {g : Gateway Key}

/-- Only an update can be unsafe. -/
def SafeCall (g : Gateway Key) (t : Tables) (call : Call) : Prop :=
  match call.request with
  | .update actor realmId updates => SafeUpdate g t.val actor realmId updates
  | _ => True

theorem Sound.handle {t : Tables} {call : Call} (hSound : Sound g t.val) (hSafe : SafeCall g t call) :
    Sound g (g.handle call t).2.val := by
  rcases h : g.handle call t with ⟨e | u, t'⟩
  · obtain rfl := Session.transact_error h
    exact hSound
  · obtain ⟨request, o⟩ := call
    cases request with
    | create actor fields => exact sound_create hSound h
    | update actor realmId updates => exact (sound_update_iff hSound h).mpr hSafe
    | delete actor realmId =>
      rw [handle_delete h]
      exact hSound.delete

/-- In every run from sound tables whose updates are all safe, the stored realms stay sound. -/
theorem runs_sound (g : Gateway Key) (t : Tables) (calls : List Call) (hSound : Sound g t.val)
    (hSafe : ∀ e ∈ transcript g.handle t calls, SafeCall g e.pre e.input) :
    ∀ e ∈ transcript g.handle t calls, Sound g e.pre.val ∧ Sound g e.post.val :=
  Transcript.invariant (fun t => Sound g t.val) (SafeCall g) (fun _ _ h hSafe => h.handle hSafe)
    hSound hSafe

end Runs

/-! ## Updates that are not checked -/

def exampleGateway : Gateway UInt8 where
  cipher := Secrets.tagCipher
  key := 7
  codec := ⟨fun text => if text.length = 36 then some text else none, fun _ => ⟨"DBAPIError", ""⟩, rfl⟩
  decryptionError _ := ⟨"SecretDecryptionError", ""⟩
  integrityError := ⟨"IntegrityError", ""⟩
  failedTransaction := ⟨"InternalError", ""⟩

def noTables : Tables := ⟨[], rfl⟩

def newRealm (name realmType : String) (proxyHost proxySecret : Option String) : RealmCreate where
  name := name
  description := none
  realmType := realmType
  stripUsername := true
  proxyHost := proxyHost
  proxyPort := some 1812
  proxySecret := proxySecret
  proxyNostrip := false
  proxyRetryCount := 3
  proxyRetryDelaySeconds := 5
  proxyDeadTimeSeconds := 120
  ldapServerId := none
  authTypesAllowed := ["EAP-TLS", "PEAP", "EAP-TTLS", "MAB"]
  defaultVlan := none
  defaultFilterId := none
  fallbackRealmId := none
  priority := 100
  enabled := true

def calmly (newId : String) : Outside := ⟨newId, Secrets.zeroNonce, fun _ => none⟩

def firstId : String := "00000000-0000-0000-0000-000000000001"

def secondId : String := "00000000-0000-0000-0000-000000000002"

def createProxy : Call :=
  ⟨.create ⟨"u1", "T1"⟩ (newRealm "corp" "proxy" (some "10.0.0.1") (some "testing123")),
    calmly firstId⟩

def moveProxy : Call :=
  ⟨.update ⟨"u1", "T1"⟩ firstId { proxyHost := some (some "10.0.0.2") }, calmly ""⟩

theorem moved_proxy_sound :
    (transcript exampleGateway.handle noTables [createProxy, moveProxy]).length = 2 ∧
    ∀ e ∈ transcript exampleGateway.handle noTables [createProxy, moveProxy],
      Sound exampleGateway e.pre.val ∧ Sound exampleGateway e.post.val := by
  refine ⟨rfl, ?_⟩
  apply runs_sound
  · exact fun r hMem => nomatch hMem
  · intro e he
    simp only [transcript, List.mem_cons, List.not_mem_nil, or_false] at he
    rcases he with rfl | rfl
    · trivial
    · intro r _ _
      refine ⟨fun _ => ⟨?_, ?_⟩, ?_⟩
      · rintro ⟨host, hSent, hBlank⟩
        obtain rfl : some "10.0.0.2" = host := Option.some.inj hSent
        cases hBlank
      · rintro ⟨secret, hSent, -⟩
        cases hSent
      · rintro text id T hSent
        cases hSent

def blankHost : Call := ⟨.update ⟨"u1", "T1"⟩ firstId { proxyHost := some (some "") }, calmly ""⟩

def createTwo : List Call :=
  [⟨.create ⟨"u1", "T1"⟩ (newRealm "corp" "local" none none), calmly firstId⟩,
    ⟨.create ⟨"u2", "T2"⟩ (newRealm "lab" "local" none none), calmly secondId⟩]

def foreignFallback : Call :=
  ⟨.update ⟨"u1", "T1"⟩ firstId { fallbackRealmId := some (some secondId) }, calmly ""⟩

/-- A proxy loses its host, and a realm falls back on one of another tenant. -/
theorem unchecked_updates :
    (∀ call ∈ createProxy :: blankHost :: foreignFallback :: createTwo,
      call.request.accepts = true) ∧
    (∃ e ∈ transcript exampleGateway.handle noTables ([createProxy] ++ [blankHost]),
      ¬ Sound exampleGateway e.post.val) ∧
    ∃ e ∈ transcript exampleGateway.handle noTables (createTwo ++ [foreignFallback]),
      ¬ Sound exampleGateway e.post.val := by
  refine ⟨by decide +kernel, ⟨_, Transcript.last_mem_transcript _ _ _, fun hSound => ?_⟩,
    ⟨_, Transcript.last_mem_transcript _ _ _, fun hSound => ?_⟩⟩
  · have hMem : .realm { (newRealm "corp" "proxy" (some "") none).row "T1"
        (Secrets.tagCipher.encrypt 7 Secrets.zeroNonce (some "testing123")) none none firstId with
          proxyHost := some "" } ∈
        (Transcript.final exampleGateway.handle noTables ([createProxy] ++ [blankHost])).val := by
      decide +kernel
    obtain ⟨host, hHost, hText⟩ := ((hSound _ hMem).proxy rfl).host
    exact hText (Option.some.inj hHost).symm
  · have hTables : (Transcript.final exampleGateway.handle noTables
        (createTwo ++ [foreignFallback])).val =
        [.realm ((newRealm "corp" "local" none none).row "T1" none none (some secondId) firstId),
          .realm ((newRealm "lab" "local" none none).row "T2" none none none secondId)] := by
      decide +kernel
    rw [hTables] at hSound
    obtain ⟨r, hThere, hKey, hTenant⟩ := (hSound _ List.mem_cons_self).fallback secondId rfl
    simp only [List.mem_cons, Stored.realm.injEq, List.not_mem_nil, or_false] at hThere
    rcases hThere with rfl | rfl
    · exact absurd hKey (by decide)
    · exact absurd hTenant (by decide)

end OpenRadiusWeb.Realms
