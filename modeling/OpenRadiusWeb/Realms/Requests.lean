import OpenRadiusWeb.Realms.Service
import OpenRadiusWeb.Secrets.Vault
import OpenRadiusWeb.Lib.Transcript
import Mathlib.Data.List.Pairwise

/-! # Realm requests, one after another

Each request runs in a session of its own, on tables whose constraints hold. What a use case
that returns has found in the tables, and what it has written.
-/

namespace OpenRadiusWeb.Realms

open Effects (Eff)
open Secrets (Cipher Nonce DecryptError)

/-- Rows that meet the constraints of their tables. -/
abbrev Tables := {rows : List Stored // constraintsHold rows = true}

/-- What the requests of a gateway share. -/
structure Gateway (Key : Type) where
  cipher : Cipher Key
  key : Key
  codec : UuidCodec
  decryptionError : DecryptError → PyException
  integrityError : PyException
  failedTransaction : PyException

/-- What the outside has for one request: a generated key, a nonce, and the calls that fail. -/
structure Outside where
  newId : String
  nonce : Nonce
  fails : Command → Option PyException

structure Call where
  request : Request
  outside : Outside

namespace Gateway

variable {Key : Type} (g : Gateway Key)

/-- A statement, and then the constraints on what it leaves. -/
def perform {α : Type} (newId : String) (action : SqlAction Stored α) (t : Tables) :
    Except PyException (α × Tables) :=
  match action.perform Stored.clashes g.integrityError newId t.val with
  | .error e => .error e
  | .ok (a, rows) =>
    if h : constraintsHold rows = true then .ok (a, ⟨rows, h⟩) else .error g.integrityError

/-- Calls to the outside that do not fail. -/
def answer (nonce : Nonce) : (c : Command) → Except PyException c.Answer
  | .encryptSecret plaintext => .ok (g.cipher.encrypt g.key nonce plaintext)
  | .decryptSecret ciphertext => (g.cipher.decrypt g.key ciphertext).mapError g.decryptionError
  | .publishFreeradiusApply .. => .ok ()
  | _ => .error g.failedTransaction

def exec (o : Outside) (c : Command) : Eff (Session Tables) PyException c.Answer :=
  match c.statement with
  | some action =>
    Session.execute g.failedTransaction fun t =>
      match o.fails c with
      | some e => .error e
      | none => g.perform o.newId action t
  | none => fun s =>
    match o.fails c with
    | some e => (.error e, s)
    | none => (g.answer o.nonce c, s)

/-- One request in a session of its own. -/
def handle (call : Call) (t : Tables) : Except PyException Unit × Tables :=
  Session.transact ((call.request.program g.codec).run (g.exec call.outside)) t

end Gateway

/-! ## What commands that return have done -/

section Commands

variable {Key : Type} {g : Gateway Key} {o : Outside} {s s' : Session Tables}

theorem exec_statement {c : Command} {action : SqlAction Stored c.Answer} {a : c.Answer}
    (hStatement : c.statement = some action) (h : g.exec o c s = (.ok a, s')) :
    ∃ t, g.perform o.newId action s.working = .ok (a, t) ∧ s' = { s with working := t } := by
  simp only [Gateway.exec, hStatement] at h
  obtain ⟨-, t, hPerform, hSession⟩ := Session.execute_eq_ok h
  refine ⟨t, ?_, hSession⟩
  cases hFails : o.fails c with
  | none => simpa [hFails] using hPerform
  | some e => simp [hFails] at hPerform

theorem exec_answer {c : Command} {a : c.Answer} (hStatement : c.statement = none)
    (h : g.exec o c s = (.ok a, s')) : g.answer o.nonce c = .ok a ∧ s' = s := by
  simp only [Gateway.exec, hStatement] at h
  cases hFails : o.fails c with
  | none =>
    simp only [hFails, Prod.mk.injEq] at h
    exact ⟨h.1, h.2.symm⟩
  | some e => simp [hFails] at h

theorem perform_rows {α : Type} {newId : String} {action : SqlAction Stored α} {t t' : Tables}
    {a : α} (h : g.perform newId action t = .ok (a, t')) :
    action.perform Stored.clashes g.integrityError newId t.val = .ok (a, t'.val) := by
  unfold Gateway.perform at h
  split at h
  · cases h
  · split at h
    · cases h
      assumption
    · cases h

theorem run_issue {c : Command} {a : c.Answer} (h : (issue c).run (g.exec o) s = (.ok a, s')) :
    g.exec o c s = (.ok a, s') := by
  rwa [issue, Program.run_command] at h

theorem run_select {c : Command} {p : Stored → Bool} {f : List Stored → c.Answer} {a : c.Answer}
    (hStatement : c.statement = some (.select p f))
    (h : (issue c).run (g.exec o) s = (.ok a, s')) :
    a = f (s.working.val.filter p) ∧ s' = s := by
  obtain ⟨t, hPerform, rfl⟩ := exec_statement hStatement (run_issue h)
  have hRows := perform_rows hPerform
  simp only [SqlAction.perform, Except.ok.injEq, Prod.mk.injEq] at hRows
  obtain rfl : s.working = t := Subtype.ext hRows.2
  exact ⟨hRows.1.symm, rfl⟩

theorem run_append {c : Command} {answer a : c.Answer} (hStatement : c.statement = some (.append answer))
    (h : (issue c).run (g.exec o) s = (.ok a, s')) : s' = s := by
  obtain ⟨t, hPerform, rfl⟩ := exec_statement hStatement (run_issue h)
  have hRows := perform_rows hPerform
  simp only [SqlAction.perform, Except.ok.injEq, Prod.mk.injEq] at hRows
  obtain rfl : s.working = t := Subtype.ext hRows.2
  rfl

theorem run_update {c : Command} {p : Stored → Bool} {f : Stored → Option Stored}
    {answer : List Stored → c.Answer} {a : c.Answer}
    (hStatement : c.statement = some (.update p f answer))
    (h : (issue c).run (g.exec o) s = (.ok a, s')) :
    a = answer ((s.working.val.filter p).filterMap f) ∧ ∃ t, s' = { s with working := t } ∧
      t.val = s.working.val.filterMap fun row => if p row then f row else some row := by
  obtain ⟨t, hPerform, rfl⟩ := exec_statement hStatement (run_issue h)
  have hRows := perform_rows hPerform
  simp only [SqlAction.perform, Except.ok.injEq, Prod.mk.injEq] at hRows
  exact ⟨hRows.1.symm, t, rfl, hRows.2.symm⟩

theorem run_insert {c : Command} {row : String → Stored} {answer : Stored → c.Answer} {a : c.Answer}
    (hStatement : c.statement = some (.insert row answer))
    (h : (issue c).run (g.exec o) s = (.ok a, s')) :
    ∃ t, s' = { s with working := t } ∧ t.val = s.working.val ++ [row o.newId] := by
  obtain ⟨t, hPerform, rfl⟩ := exec_statement hStatement (run_issue h)
  have hRows := perform_rows hPerform
  simp only [SqlAction.perform] at hRows
  split at hRows
  · cases hRows
  · simp only [Except.ok.injEq, Prod.mk.injEq] at hRows
    exact ⟨t, rfl, hRows.2.symm⟩

theorem run_answer {c : Command} {a : c.Answer} (hStatement : c.statement = none)
    (h : (issue c).run (g.exec o) s = (.ok a, s')) : g.answer o.nonce c = .ok a ∧ s' = s :=
  exec_answer hStatement (run_issue h)

end Commands

/-! ## What use cases that return have found -/

/-- The realm of the tenant under the key. -/
def IsRealm (rows : List Stored) (tenantId id : String) (r : Realm) : Prop :=
  .realm r ∈ rows ∧ r.id = id ∧ r.tenantId = tenantId

def HasRealm (rows : List Stored) (tenantId id : String) : Prop := ∃ r, IsRealm rows tenantId id r

/-- An LDAP server of the tenant has the key. -/
def HasLdapServer (rows : List Stored) (tenantId id : String) : Prop :=
  ∃ l, .ldapServer l ∈ rows ∧ l.id = id ∧ l.tenantId = tenantId

section UseCases

variable {Key : Type} {g : Gateway Key} {o : Outside} {s s' : Session Tables} {actor : Actor}
  {realmId : String}

theorem truthy_iff {x : Option String} : truthy x = true ↔ ∃ text, x = some text ∧ text ≠ "" := by
  cases x <;> simp [truthy]

theorem run_bindUuid {text id : String}
    (h : (bindUuid g.codec text).run (g.exec o) s = (.ok id, s')) :
    g.codec.parse text = some id ∧ s' = s := by
  unfold bindUuid at h
  split at h
  · cases h
    exact ⟨by assumption, rfl⟩
  · cases h

/-- Null, or the key that the text denotes. -/
def Denotes (codec : UuidCodec) (text id : Option String) : Prop :=
  (text = none ∧ id = none) ∨ ∃ t k, text = some t ∧ id = some k ∧ codec.parse t = some k

theorem run_bindOptionalUuid {text id : Option String}
    (h : (bindOptionalUuid g.codec text).run (g.exec o) s = (.ok id, s')) :
    Denotes g.codec text id ∧ s' = s := by
  cases text with
  | none =>
    cases h
    exact ⟨.inl ⟨rfl, rfl⟩, rfl⟩
  | some t =>
    obtain ⟨k, s₁, hBind, hRest⟩ := Program.run_bind_ok h
    obtain ⟨hParse, rfl⟩ := run_bindUuid hBind
    cases hRest
    exact ⟨.inr ⟨t, k, rfl, rfl, hParse⟩, rfl⟩

theorem run_require {found : Bool} {e : PyException} {u : Unit}
    (h : (require found e).run (g.exec o) s = (.ok u, s')) : found = true ∧ s' = s := by
  unfold require at h
  split at h
  · cases h
    exact ⟨by assumption, rfl⟩
  · cases h

theorem isRealm_of_filter {rows : List Stored} {tenantId realmId : String} {row : Stored}
    (h : row ∈ rows.filter (Stored.isRealm tenantId realmId)) :
    ∃ r, row = .realm r ∧ IsRealm rows tenantId realmId r := by
  obtain ⟨hMem, hIs⟩ := List.mem_filter.mp h
  cases row with
  | ldapServer l => cases hIs
  | realm r =>
    simp only [Stored.isRealm, Bool.and_eq_true, beq_iff_eq] at hIs
    exact ⟨r, rfl, hMem, hIs⟩

theorem hasRealm_of_filter {rows : List Stored} {tenantId realmId : String} {row : Stored}
    (h : row ∈ rows.filter (Stored.isRealm tenantId realmId)) : HasRealm rows tenantId realmId := by
  obtain ⟨r, -, hIs⟩ := isRealm_of_filter h
  exact ⟨r, hIs⟩

theorem isRealm_of_head {rows : List Stored} {tenantId realmId : String} {r : Realm}
    (h : (rows.filter (Stored.isRealm tenantId realmId)).head?.bind Stored.asRealm = some r) :
    IsRealm rows tenantId realmId r := by
  obtain ⟨row, hHead, hRealm⟩ := Option.bind_eq_some_iff.mp h
  obtain ⟨r', rfl, hIs⟩ := isRealm_of_filter (List.mem_of_mem_head? hHead)
  obtain rfl : r' = r := Option.some.inj hRealm
  exact hIs

theorem run_validateLdapServerRef {ref : Option String} {u : Unit}
    (h : (validateLdapServerRef g.codec actor ref).run (g.exec o) s = (.ok u, s')) :
    s' = s ∧ ∀ text id, ref = some text → g.codec.parse text = some id →
      HasLdapServer s.working.val actor.tenantId id := by
  unfold validateLdapServerRef at h
  by_cases hTruthy : truthy ref = true
  · rw [if_pos hTruthy] at h
    obtain ⟨id, s₁, hBind, hRest⟩ := Program.run_bind_ok h
    obtain ⟨found, s₂, hExists, hRequire⟩ := Program.run_bind_ok hRest
    obtain ⟨hParse, rfl⟩ := run_bindUuid hBind
    obtain ⟨hFound, rfl⟩ := run_select rfl hExists
    obtain ⟨rfl, rfl⟩ := run_require hRequire
    refine ⟨rfl, ?_⟩
    rintro text id' rfl hParse'
    obtain rfl : id = id' := Option.some.inj (hParse.symm.trans hParse')
    have hSome : (s'.working.val.filter (Stored.isLdapServer actor.tenantId id)) ≠ [] := by
      simpa using hFound
    obtain ⟨row, hRow⟩ := List.exists_mem_of_ne_nil _ hSome
    obtain ⟨hMem, hIs⟩ := List.mem_filter.mp hRow
    cases row with
    | realm r => cases hIs
    | ldapServer l =>
      simp only [Stored.isLdapServer, Bool.and_eq_true, beq_iff_eq] at hIs
      exact ⟨l, hMem, hIs.1, hIs.2⟩
  · rw [if_neg hTruthy] at h
    cases h
    refine ⟨rfl, ?_⟩
    rintro text id rfl hParse
    have hEmpty : text = "" := by simpa [truthy] using hTruthy
    rw [hEmpty, g.codec.parse_empty] at hParse
    cases hParse

theorem run_validateFallbackRealmRef {ref : Option String} {u : Unit}
    (h : (validateFallbackRealmRef g.codec actor ref).run (g.exec o) s = (.ok u, s')) :
    s' = s ∧ ∀ text id, ref = some text → g.codec.parse text = some id →
      HasRealm s.working.val actor.tenantId id := by
  unfold validateFallbackRealmRef at h
  by_cases hTruthy : truthy ref = true
  · rw [if_pos hTruthy] at h
    obtain ⟨id, s₁, hBind, hRest⟩ := Program.run_bind_ok h
    obtain ⟨found, s₂, hExists, hRequire⟩ := Program.run_bind_ok hRest
    obtain ⟨hParse, rfl⟩ := run_bindUuid hBind
    obtain ⟨hFound, rfl⟩ := run_select rfl hExists
    obtain ⟨rfl, rfl⟩ := run_require hRequire
    refine ⟨rfl, ?_⟩
    rintro text id' rfl hParse'
    obtain rfl : id = id' := Option.some.inj (hParse.symm.trans hParse')
    have hSome : (s'.working.val.filter (Stored.isRealm actor.tenantId id)) ≠ [] := by
      simpa using hFound
    obtain ⟨row, hRow⟩ := List.exists_mem_of_ne_nil _ hSome
    exact hasRealm_of_filter hRow
  · rw [if_neg hTruthy] at h
    cases h
    refine ⟨rfl, ?_⟩
    rintro text id rfl hParse
    have hEmpty : text = "" := by simpa [truthy] using hTruthy
    rw [hEmpty, g.codec.parse_empty] at hParse
    cases hParse

theorem run_validateProxyComplete {host secret : Option String} {u : Unit}
    (h : (validateProxyComplete host secret).run (g.exec o) s = (.ok u, s')) :
    proxyIncomplete host secret = none ∧ s' = s := by
  unfold validateProxyComplete at h
  split at h
  · cases h
  · cases h
    exact ⟨by assumption, rfl⟩

theorem run_validateCreate {fields : RealmCreate} {u : Unit}
    (h : (validateCreate fields).run (g.exec o) s = (.ok u, s')) :
    s' = s ∧ (fields.realmType = "proxy" → proxyIncomplete fields.proxyHost fields.proxySecret = none) := by
  unfold validateCreate at h
  split at h
  · obtain ⟨hComplete, rfl⟩ := run_validateProxyComplete h
    exact ⟨rfl, fun _ => hComplete⟩
  · cases h
    exact ⟨rfl, fun hProxy => absurd hProxy (by assumption)⟩

/-- What an INSERT of a realm has appended. -/
def Inserted (g : Gateway Key) (o : Outside) (actor : Actor) (fields : RealmCreate)
    (rows rows' : List Stored) : Prop :=
  ∃ ldapServerId fallbackRealmId, Denotes g.codec fields.ldapServerId ldapServerId ∧
    Denotes g.codec fields.fallbackRealmId fallbackRealmId ∧
    rows' = rows ++ [.realm (fields.row actor.tenantId
      (g.cipher.encrypt g.key o.nonce fields.proxySecret) ldapServerId fallbackRealmId o.newId)]

theorem run_insertRealm {fields : RealmCreate} {row : Realm}
    (h : (insertRealm g.codec actor fields).run (g.exec o) s = (.ok row, s')) :
    ∃ t, s' = { s with working := t } ∧ Inserted g o actor fields s.working.val t.val := by
  unfold insertRealm at h
  obtain ⟨secret, s₁, hEncrypt, hAfterEncrypt⟩ := Program.run_bind_ok h
  obtain ⟨ldapServerId, s₂, hBindLdap, hAfterLdap⟩ := Program.run_bind_ok hAfterEncrypt
  obtain ⟨fallbackRealmId, s₃, hBindFallback, hAfterFallback⟩ := Program.run_bind_ok hAfterLdap
  obtain ⟨answer, s₄, hInsert, hReturn⟩ := Program.run_bind_ok hAfterFallback
  obtain ⟨hSecret, rfl⟩ := run_answer rfl hEncrypt
  obtain ⟨hLdap, rfl⟩ := run_bindOptionalUuid hBindLdap
  obtain ⟨hFallback, rfl⟩ := run_bindOptionalUuid hBindFallback
  obtain ⟨t, rfl, hRows⟩ := run_insert rfl hInsert
  obtain rfl : g.cipher.encrypt g.key o.nonce fields.proxySecret = secret := Except.ok.inj hSecret
  cases answer with
  | none => cases hReturn
  | some made =>
    cases hReturn
    exact ⟨t, rfl, ldapServerId, fallbackRealmId, hLdap, hFallback, hRows⟩

theorem run_encryptSent {secret ciphertext : Option String}
    (h : (encryptSent secret).run (g.exec o) s = (.ok ciphertext, s')) :
    g.cipher.encrypt g.key o.nonce secret = ciphertext ∧ s' = s := by
  cases secret with
  | none =>
    cases h
    exact ⟨rfl, rfl⟩
  | some secret =>
    obtain ⟨hAnswer, hSame⟩ := run_answer rfl h
    exact ⟨Except.ok.inj hAnswer, hSame⟩

theorem run_overSent {α β : Type} {f : α → UseCase β} {P : α → β → Prop}
    (hf : ∀ {a b s s'}, (f a).run (g.exec o) s = (.ok b, s') → P a b ∧ s' = s)
    {field : Option α} {b : Option β}
    (h : (overSent f field).run (g.exec o) s = (.ok b, s')) : Option.Rel P field b ∧ s' = s := by
  cases field with
  | none =>
    cases h
    exact ⟨.none, rfl⟩
  | some a =>
    obtain ⟨b, s₁, hBody, hReturn⟩ := Program.run_bind_ok h
    obtain ⟨hP, rfl⟩ := hf hBody
    cases hReturn
    exact ⟨.some hP, rfl⟩

theorem map_of_rel {α β : Type} {f : α → β} {x : Option α} {y : Option β}
    (h : Option.Rel (fun a b => f a = b) x y) : x.map f = y := by
  cases h with
  | none => rfl
  | some hf => exact congrArg some hf

/-- The check of an update lets the row through. -/
def PassesSwitch (g : Gateway Key) (updates : RealmUpdate) (r : Realm) : Prop :=
  updates.realmType.join = some "proxy" →
    ∃ secret, g.cipher.decrypt g.key r.proxySecretEncrypted = .ok secret ∧
      proxyIncomplete (pyOr updates.proxyHost.join r.proxyHost)
        (pyOr updates.proxySecret.join secret) = none

theorem clashes_comm (a b : Stored) : a.clashes b = b.clashes a := by
  cases a <;> cases b <;> simp only [Stored.clashes, Bool.beq_comm]

theorem Tables.unique (t : Tables) {tenantId tenantId' realmId : String} {a b : Realm}
    (ha : IsRealm t.val tenantId realmId a) (hb : IsRealm t.val tenantId' realmId b) : a = b := by
  have hHold := t.property
  simp only [constraintsHold, Bool.and_eq_true, decide_eq_true_eq] at hHold
  have hSymm : Std.Symm fun a b => Stored.clashes a b = false :=
    ⟨fun a b h => (clashes_comm b a).trans h⟩
  by_contra hne
  have hClash := hHold.2.forall ha.1 hb.1 fun hSame => hne (Stored.realm.inj hSame)
  simp [Stored.clashes, ha.2.1, hb.2.1] at hClash

theorem run_validateSwitch {updates : RealmUpdate} {u : Unit}
    (h : (validateSwitch actor realmId updates).run (g.exec o) s = (.ok u, s')) :
    s' = s ∧ ∀ r, IsRealm s.working.val actor.tenantId realmId r → PassesSwitch g updates r := by
  unfold validateSwitch at h
  split at h
  · rename_i hProxy
    obtain ⟨state, s₁, hLookup, hCheck⟩ := Program.run_bind_ok h
    obtain ⟨row, s₂, hSelect, hDecrypt⟩ := Program.run_bind_ok hLookup
    obtain ⟨hRow, rfl⟩ := run_select rfl hSelect
    cases row with
    | none =>
      cases hDecrypt
      cases hCheck
    | some row =>
      obtain ⟨secret, s₃, hAnswer, hReturn⟩ := Program.run_bind_ok hDecrypt
      obtain ⟨hSecret, rfl⟩ := run_answer rfl hAnswer
      cases hReturn
      obtain ⟨hComplete, rfl⟩ := run_validateProxyComplete hCheck
      refine ⟨rfl, fun r hIs _ => ⟨secret, ?_, ?_⟩⟩
      all_goals
        obtain ⟨r', hHead, rfl⟩ := Option.map_eq_some_iff.mp hRow.symm
        obtain rfl := s'.working.unique hIs (isRealm_of_head hHead)
      · simp only [Gateway.answer, Realm.proxyState] at hSecret
        cases hPlain : g.cipher.decrypt g.key r.proxySecretEncrypted with
        | error e =>
          rw [hPlain] at hSecret
          cases hSecret
        | ok plain =>
          rw [hPlain] at hSecret
          cases hSecret
          rfl
      · exact hComplete
  · cases h
    exact ⟨rfl, fun r _ hProxy => absurd hProxy (by assumption)⟩

theorem run_validateLdapServerChange {field : Option (Option String)} {u : Unit}
    (h : (validateLdapServerChange g.codec actor field).run (g.exec o) s = (.ok u, s')) :
    s' = s ∧ ∀ text id, field = some (some text) → g.codec.parse text = some id →
      HasLdapServer s.working.val actor.tenantId id := by
  cases field with
  | none =>
    cases h
    exact ⟨rfl, fun _ _ hField => nomatch hField⟩
  | some ref =>
    obtain ⟨hSame, hFound⟩ := run_validateLdapServerRef h
    refine ⟨hSame, ?_⟩
    rintro text id hField hParse
    exact hFound text id (Option.some.inj hField) hParse

/-- What is assigned by an update that returns, with secret and references bound. -/
structure Bound (g : Gateway Key) (o : Outside) (updates changes : RealmUpdate) : Prop where
  changes_eq : changes = { updates with
    proxySecret := updates.proxySecret.map (g.cipher.encrypt g.key o.nonce)
    ldapServerId := changes.ldapServerId
    fallbackRealmId := changes.fallbackRealmId }
  ldapServerId : Option.Rel (Denotes g.codec) updates.ldapServerId changes.ldapServerId
  fallbackRealmId : Option.Rel (Denotes g.codec) updates.fallbackRealmId changes.fallbackRealmId

def updateRows (tenantId realmId : String) (f : Realm → Realm) (rows : List Stored) : List Stored :=
  rows.map fun row => if row.isRealm tenantId realmId then row.mapRealm f else row

theorem filterMap_update (p : Stored → Bool) (f : Stored → Stored) (rows : List Stored) :
    (rows.filterMap fun row => if p row then some (f row) else some row) =
      rows.map fun row => if p row then f row else row := by
  rw [← List.filterMap_eq_map]
  congr 1
  funext row
  simp only [Function.comp]
  split <;> rfl

theorem run_storeUpdate {updates : RealmUpdate} {row : Realm}
    (h : (storeUpdate g.codec actor realmId updates).run (g.exec o) s = (.ok row, s')) :
    ∃ changes t, s' = { s with working := t } ∧ Bound g o updates changes ∧
      HasRealm s.working.val actor.tenantId realmId ∧
      t.val = updateRows actor.tenantId realmId changes.assign s.working.val := by
  unfold storeUpdate updateRow at h
  obtain ⟨answer, s₁, hUpdateRow, hReturn⟩ := Program.run_bind_ok h
  obtain ⟨secret, s₂, hSendSecret, hAfterSecret⟩ := Program.run_bind_ok hUpdateRow
  obtain ⟨ldapServerId, s₃, hSendLdap, hAfterLdap⟩ := Program.run_bind_ok hAfterSecret
  obtain ⟨fallbackRealmId, s₄, hSendFallback, hUpdate⟩ := Program.run_bind_ok hAfterLdap
  obtain ⟨hSecret, rfl⟩ := run_overSent run_encryptSent hSendSecret
  obtain ⟨hLdap, rfl⟩ := run_overSent run_bindOptionalUuid hSendLdap
  obtain ⟨hFallback, rfl⟩ := run_overSent run_bindOptionalUuid hSendFallback
  obtain ⟨hAnswer, t, rfl, hRows⟩ := run_update rfl hUpdate
  cases answer with
  | none => cases hReturn
  | some made =>
    cases hReturn
    refine ⟨{ updates with
      proxySecret := secret
      ldapServerId := ldapServerId
      fallbackRealmId := fallbackRealmId }, t, rfl, ⟨?_, hLdap, hFallback⟩, ?_, ?_⟩
    · rw [map_of_rel hSecret]
    · obtain ⟨made', hHead, -⟩ := Option.bind_eq_some_iff.mp hAnswer.symm
      obtain ⟨row, hRow, -⟩ := List.mem_filterMap.mp (List.mem_of_mem_head? hHead)
      exact hasRealm_of_filter hRow
    · exact hRows.trans (filterMap_update _ _ _)

theorem run_checkUnreferenced {u : Unit}
    (h : (checkUnreferenced actor realmId).run (g.exec o) s = (.ok u, s')) : s' = s := by
  obtain ⟨count, s₁, hCount, hRefuse⟩ := Program.run_bind_ok h
  obtain ⟨-, rfl⟩ := run_select rfl hCount
  split at hRefuse
  · cases hRefuse
  · cases hRefuse
    rfl

end UseCases

end OpenRadiusWeb.Realms
