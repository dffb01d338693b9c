import OpenRadiusWeb.Secrets.Authenticity
import OpenRadiusWeb.Secrets.Walk

/-! # Migration of plaintext secrets

The scripts that encrypt what was stored before `encrypt_secret`: in one transaction they walk
over their columns and encrypt what does not look encrypted. A plaintext that looks encrypted
is left where it is.
-/

namespace OpenRadiusWeb.Secrets

open Effects (Eff)

/-! ## The scripts -/

inductive Script
  | ldapPasswords
  | nasSecrets
  | remainingSecrets
  deriving DecidableEq

def Script.targets : Script → List (String × String)
  | .ldapPasswords => [("ldap_servers", "bind_password_encrypted")]
  | .nasSecrets => [("radius_nas_clients", "secret_encrypted")]
  | .remainingSecrets =>
    [remainingTargets 0, remainingTargets 1, remainingTargets 2, remainingTargets 3]

inductive MigrationPoint
  | table (table column : String)
  | row (table column id : String)
  | commit

structure MigrationRun where
  dryRun : Bool
  nonce : String → String → String → Nonce
  /-- `encrypt_secret` raised, and the row was reported. -/
  encryptFails : String → String → String → Bool
  interrupted : MigrationPoint → Bool

structure MigrationTally where
  encrypted : Nat
  already : Nat
  nullOrEmpty : Nat
  failed : List (String × String × String)

def MigrationTally.add (a b : MigrationTally) : MigrationTally :=
  ⟨a.encrypted + b.encrypted, a.already + b.already, a.nullOrEmpty + b.nullOrEmpty,
    a.failed ++ b.failed⟩

section Script

variable {Key : Type} (cipher : Cipher Key) (key : Key) (run : MigrationRun)

/-- The body of the loop over the rows, with the row as it was selected. -/
def migrateRow (table column : String) (row : Row) :
    MigrationTally × Database → Except Interrupted (MigrationTally × Database)
  | (tally, db) =>
    if run.interrupted (.row table column row.id) then .error .interrupted
    else .ok <|
      match row.value column with
      | none => ({ tally with nullOrEmpty := tally.nullOrEmpty + 1 }, db)
      | some current =>
        if current = "" then ({ tally with nullOrEmpty := tally.nullOrEmpty + 1 }, db)
        else if isEncrypted (some current) then ({ tally with already := tally.already + 1 }, db)
        else if run.dryRun then ({ tally with encrypted := tally.encrypted + 1 }, db)
        else if run.encryptFails table column row.id then
          ({ tally with failed := tally.failed ++ [(table, column, row.id)] }, db)
        else
          ({ tally with encrypted := tally.encrypted + 1 },
            db.setValue table column row.id
              (cipher.encrypt key (run.nonce table column row.id) (some current)))

/-- `_migrate_one`. -/
def migrateOne (table column : String) (db : Database) :
    Except Interrupted (MigrationTally × Database) :=
  (db.rows table).foldlM (fun acc row => migrateRow cipher key run table column row acc)
    (⟨0, 0, 0, []⟩, db)

def migrateTargets : List (String × String) → MigrationTally → Database →
    Except Interrupted (MigrationTally × Database)
  | [], total, db => if run.interrupted .commit then .error .interrupted else .ok (total, db)
  | (table, column) :: rest, total, db =>
    if run.interrupted (.table table column) then .error .interrupted
    else
      match migrateOne cipher key run table column db with
      | .error e => .error e
      | .ok (tally, db') => migrateTargets rest (total.add tally) db'

/-- `main`: the exit code, unless the run is interrupted. -/
def migrate (script : Script) : Eff Database Interrupted Nat := do
  let total ← withConn (migrateTargets cipher key run script.targets ⟨0, 0, 0, []⟩)
  return if total.failed.isEmpty then 0 else 2

end Script

variable {Key : Type} {cipher : Cipher Key} {key : Key} {run : MigrationRun} {script : Script}
  {db db' plain : Database} {table column : String} {tally tally' : MigrationTally}

/-! ## One column -/

/-- What a run makes of a value of the given row. -/
def migratedValue (cipher : Cipher Key) (key : Key) (run : MigrationRun)
    (table column id : String) : Option String → Option String
  | none => none
  | some current =>
    if current = "" ∨ isEncrypted (some current) = true ∨ run.dryRun = true ∨
      run.encryptFails table column id = true then some current
    else cipher.encrypt key (run.nonce table column id) (some current)

def migratedRow (cipher : Cipher Key) (key : Key) (run : MigrationRun) (table column : String)
    (row : Row) : Row :=
  row.set column (migratedValue cipher key run table column row.id (row.value column))

theorem migrateRow_db {row : Row}
    (h : migrateRow cipher key run table column row (tally, db) = .ok (tally', db')) :
    Writes table column (migratedRow cipher key run table column) row db db' := by
  simp only [migrateRow] at h
  split at h
  · cases h
  · have hResult := Except.ok.inj h
    cases hValue : row.value column with
    | none =>
      simp only [hValue] at hResult
      cases hResult
      exact .inl ⟨rfl, Row.set_unchanged (by rw [hValue]; rfl)⟩
    | some current =>
      have hKept : (current = "" ∨ isEncrypted (some current) = true ∨ run.dryRun = true ∨
          run.encryptFails table column row.id = true) →
          migratedRow cipher key run table column row = row := fun hKeep =>
        Row.set_unchanged (by rw [hValue, migratedValue, if_pos hKeep])
      simp only [hValue] at hResult
      split at hResult
      · cases hResult
        exact .inl ⟨rfl, hKept (.inl ‹_›)⟩
      · split at hResult
        · cases hResult
          exact .inl ⟨rfl, hKept (.inr (.inl ‹_›))⟩
        · split at hResult
          · cases hResult
            exact .inl ⟨rfl, hKept (.inr (.inr (.inl ‹_›)))⟩
          · split at hResult
            · cases hResult
              exact .inl ⟨rfl, hKept (.inr (.inr (.inr ‹_›)))⟩
            · cases hResult
              refine .inr ⟨_, rfl, ?_⟩
              rw [migratedRow, hValue, migratedValue, if_neg]
              simp only [not_or]
              exact ⟨‹_›, ‹_›, ‹_›, ‹_›⟩

theorem migrateOne_rows (h : migrateOne cipher key run table column db = .ok (tally', db')) :
    db'.rows table = (db.rows table).map (migratedRow cipher key run table column) ∧
      ∀ t, t ≠ table → db'.rows t = db.rows t :=
  foldlM_rows (fun _ _ _ hRow => migrateRow_db hRow) [] rfl h

theorem Cells.migrateOne {R Q : String → String → Option String → Option String → Prop}
    (hCells : Cells R plain db)
    (h : Secrets.migrateOne cipher key run table column db = .ok (tally', db'))
    (hHere : ∀ id p v, R table column p v →
      Q table column p (migratedValue cipher key run table column id v))
    (hElse : ∀ t c p v, ¬ (t = table ∧ c = column) → R t c p v → Q t c p v) :
    Cells Q plain db' := by
  obtain ⟨hRows, hOther⟩ := migrateOne_rows h
  exact hCells.walk hRows hOther hHere hElse

/-! ## Values through the runs -/

/-- A value is the original plaintext, or encrypts it under the key. -/
def Stored (cipher : Cipher Key) (key : Key) (p v : Option String) : Prop :=
  v = p ∨ ∃ nonce, v = cipher.encrypt key nonce p

/-- A value that the scripts skip. -/
def Finished (v : Option String) : Prop :=
  v = none ∨ v = some "" ∨ isEncrypted v = true

/-- How far the values of the scripts' columns are when the given ones were walked through. -/
def Migrating (cipher : Cipher Key) (key : Key) (columns walked : List (String × String))
    (t c : String) (p v : Option String) : Prop :=
  ((t, c) ∈ columns → Stored cipher key p v) ∧ ((t, c) ∈ walked → Finished v)

theorem Finished.migratedValue {v : Option String} (h : Finished v) (id : String) :
    migratedValue cipher key run table column id v = v := by
  cases v with
  | none => rfl
  | some current =>
    rcases h with hNone | hEmpty | hForm
    · cases hNone
    · exact if_pos (.inl (Option.some.inj hEmpty))
    · exact if_pos (.inr (.inl hForm))

theorem isEncrypted_sealed (nonce : Nonce) (text : String) :
    isEncrypted (some (cipher.sealed key nonce text)) = true := by
  rw [isEncrypted_iff]
  refine ⟨nonce.bytes ++ cipher.aesEncrypt key nonce.bytes (utf8 text), b64urlDecode_encode _, ?_⟩
  have hNonce : nonce.bytes.length = nonceLen := nonce.length_bytes
  have hSeal : (cipher.aesEncrypt key nonce.bytes (utf8 text)).length =
      (utf8 text).length + tagLen := cipher.length_aesEncrypt _ _ _
  rw [List.length_append, hNonce, hSeal]
  omega

theorem finished_encrypt (nonce : Nonce) (p : Option String) :
    Finished (cipher.encrypt key nonce p) := by
  cases p with
  | none => exact .inl rfl
  | some text => exact .inr (.inr (isEncrypted_sealed nonce text))

theorem Stored.migratedValue {p v : Option String} (h : Stored cipher key p v) (id : String) :
    Stored cipher key p (migratedValue cipher key run table column id v) := by
  rcases h with rfl | ⟨nonce, rfl⟩
  · cases v with
    | none => exact .inl rfl
    | some current =>
      rw [Secrets.migratedValue]
      split
      · exact .inl rfl
      · exact .inr ⟨_, rfl⟩
  · rw [(finished_encrypt nonce p).migratedValue]
    exact .inr ⟨nonce, rfl⟩

/-- A run that nothing interrupts, and that encrypts every row it is to encrypt. -/
structure MigrationRun.Complete (run : MigrationRun) : Prop where
  writes : run.dryRun = false
  encrypts : ∀ table column id, run.encryptFails table column id = false
  uninterrupted : ∀ p, run.interrupted p = false

theorem finished_migratedValue (hRun : run.Complete) (id : String) (v : Option String) :
    Finished (migratedValue cipher key run table column id v) := by
  cases v with
  | none => exact .inl rfl
  | some current =>
    rw [migratedValue]
    split
    · rename_i hKeep
      rw [hRun.writes, hRun.encrypts] at hKeep
      rcases hKeep with hEmpty | hForm | hDry | hFails
      · exact .inr (.inl (congrArg some hEmpty))
      · exact .inr (.inr hForm)
      · cases hDry
      · cases hFails
    · exact finished_encrypt _ _

section Targets

variable {columns : List (String × String)}

theorem migrating_one {walked : List (String × String)}
    (hCells : Cells (Migrating cipher key columns walked) plain db)
    (h : migrateOne cipher key run table column db = .ok (tally', db')) :
    Cells (Migrating cipher key columns walked) plain db' :=
  hCells.migrateOne h
    (fun id p v hValue => ⟨fun hMem => (hValue.1 hMem).migratedValue id, fun hWalked => by
      rw [(hValue.2 hWalked).migratedValue]
      exact hValue.2 hWalked⟩)
    fun _ _ _ _ _ hValue => hValue

theorem migrating_one_complete {walked : List (String × String)} (hRun : run.Complete)
    (hCells : Cells (Migrating cipher key columns walked) plain db)
    (h : migrateOne cipher key run table column db = .ok (tally', db')) :
    Cells (Migrating cipher key columns (walked ++ [(table, column)])) plain db' := by
  refine hCells.migrateOne h ?_ ?_
  · intro id p v hValue
    exact ⟨fun hMem => (hValue.1 hMem).migratedValue id, fun _ => finished_migratedValue hRun id v⟩
  · intro t c p v hOther hValue
    refine ⟨hValue.1, fun hWalked => hValue.2 ?_⟩
    rcases List.mem_append.mp hWalked with hBefore | hNow
    · exact hBefore
    · cases List.mem_singleton.mp hNow
      exact (hOther ⟨rfl, rfl⟩).elim

theorem migrateTargets_ok {targets : List (String × String)} {walked : List (String × String)}
    {total : MigrationTally} (hCells : Cells (Migrating cipher key columns walked) plain db)
    (h : migrateTargets cipher key run targets total db = .ok (tally', db')) :
    Cells (Migrating cipher key columns walked) plain db' ∧
      (run.Complete → Cells (Migrating cipher key columns (walked ++ targets)) plain db') := by
  induction targets generalizing walked total db with
  | nil =>
    rw [migrateTargets] at h
    split at h
    · cases h
    · cases h
      exact ⟨hCells, fun _ => by rwa [List.append_nil]⟩
  | cons target rest ih =>
    obtain ⟨table, column⟩ := target
    rw [migrateTargets] at h
    split at h
    · cases h
    · split at h
      · cases h
      · rename_i tally₁ db₁ hOne
        refine ⟨(ih (migrating_one hCells hOne) h).1, fun hRun => ?_⟩
        rw [List.append_cons]
        exact (ih (migrating_one_complete hRun hCells hOne) h).2 hRun

theorem migrateOne_complete (cipher : Cipher Key) (key : Key) (hRun : run.Complete) (table column : String) (db : Database) :
    ∃ result, migrateOne cipher key run table column db = .ok result := by
  have hRows : ∀ (rows : List Row) (acc : MigrationTally × Database), ∃ result,
      rows.foldlM (fun acc row => migrateRow cipher key run table column row acc) acc =
        .ok result := by
    intro rows
    induction rows with
    | nil => exact fun acc => ⟨acc, rfl⟩
    | cons row rest ih =>
      intro acc
      rw [List.foldlM_cons, migrateRow, hRun.uninterrupted]
      exact ih _
  exact hRows _ _

theorem migrateTargets_complete (cipher : Cipher Key) (key : Key) (hRun : run.Complete)
    (targets : List (String × String)) (total : MigrationTally) (db : Database) :
    ∃ result, migrateTargets cipher key run targets total db = .ok result := by
  induction targets generalizing total db with
  | nil =>
    rw [migrateTargets, hRun.uninterrupted]
    exact ⟨_, rfl⟩
  | cons target rest ih =>
    obtain ⟨table, column⟩ := target
    obtain ⟨⟨tally, db'⟩, hOne⟩ := migrateOne_complete cipher key hRun table column db
    rw [migrateTargets, hRun.uninterrupted]
    simp only [Bool.false_eq_true, if_false, hOne]
    exact ih _ _

end Targets

theorem migrate_snd (cipher : Cipher Key) (key : Key) (run : MigrationRun) (script : Script)
    (db : Database) :
    (migrate cipher key run script db).2 =
      match migrateTargets cipher key run script.targets ⟨0, 0, 0, []⟩ db with
      | .ok (_, db') => db'
      | .error _ => db := by
  rw [migrate, Eff.bind_apply, withConn]
  cases migrateTargets cipher key run script.targets ⟨0, 0, 0, []⟩ db with
  | error e => rfl
  | ok result => rfl

variable {columns walked : List (String × String)}

theorem migrating_migrate (hCells : Cells (Migrating cipher key columns walked) plain db) :
    Cells (Migrating cipher key columns walked) plain (migrate cipher key run script db).2 := by
  rw [migrate_snd]
  split
  · exact (migrateTargets_ok hCells ‹_›).1
  · exact hCells

theorem migrating_migrate_complete (hRun : run.Complete)
    (hCells : Cells (Migrating cipher key columns walked) plain db) :
    Cells (Migrating cipher key columns (walked ++ script.targets)) plain
      (migrate cipher key run script db).2 := by
  obtain ⟨⟨tally, db'⟩, hTargets⟩ :=
    migrateTargets_complete cipher key hRun script.targets ⟨0, 0, 0, []⟩ db
  rw [migrate_snd, hTargets]
  exact (migrateTargets_ok hCells hTargets).2 hRun

/-- The database after the given runs. -/
def afterMigrations (cipher : Cipher Key) (key : Key) (runs : List (Script × MigrationRun))
    (db : Database) : Database :=
  runs.foldl (fun db run => (migrate cipher key run.2 run.1 db).2) db

theorem migrating_afterMigrations (runs : List (Script × MigrationRun))
    (hCells : Cells (Migrating cipher key columns walked) plain db) :
    Cells (Migrating cipher key columns walked) plain (afterMigrations cipher key runs db) := by
  induction runs generalizing db with
  | nil => exact hCells
  | cons run rest ih => exact ih (migrating_migrate hCells)

theorem afterMigrations_append (runs more : List (Script × MigrationRun)) (db : Database) :
    afterMigrations cipher key (runs ++ more) db =
      afterMigrations cipher key more (afterMigrations cipher key runs db) :=
  List.foldl_append ..

theorem migrating_of_complete {runs : List (Script × MigrationRun)}
    (hComplete : ∃ run, (script, run) ∈ runs ∧ run.Complete)
    (hCells : Cells (Migrating cipher key columns []) plain db) :
    Cells (Migrating cipher key columns script.targets) plain
      (afterMigrations cipher key runs db) := by
  obtain ⟨run, hMem, hRun⟩ := hComplete
  obtain ⟨before, after, rfl⟩ := List.append_of_mem hMem
  rw [afterMigrations_append]
  exact migrating_afterMigrations after
    (migrating_migrate_complete hRun (migrating_afterMigrations before hCells))

/-! ## What the migration achieves -/

/-- The columns of all scripts. -/
def migratedColumns : List (String × String) :=
  Script.ldapPasswords.targets ++ Script.nasSecrets.targets ++ Script.remainingSecrets.targets

theorem Script.targets_subset (script : Script) : ∀ x ∈ script.targets, x ∈ migratedColumns := by
  cases script with
  | ldapPasswords => decide
  | nasSecrets => decide
  | remainingSecrets => decide

/-- Every value of the columns is an original plaintext, or encrypts it under the key. -/
def Contents (cipher : Cipher Key) (key : Key) (plain db : Database) : Prop :=
  Cells (fun t c p v => (t, c) ∈ migratedColumns → Stored cipher key p v) plain db

/-- The values of the script's columns decrypt to the original plaintexts, apart from
plaintexts in the form of a ciphertext. -/
def Migrated (cipher : Cipher Key) (key : Key) (script : Script) (plain db : Database) : Prop :=
  Cells (fun t c p v => (t, c) ∈ script.targets →
    cipher.decrypt key v = .ok p ∨ (v = p ∧ ∃ text, p = some text ∧ Recognised text)) plain db

theorem decrypt_encrypt (nonce : Nonce) (p : Option String) :
    cipher.decrypt key (cipher.encrypt key nonce p) = .ok p := by
  cases p with
  | none => rfl
  | some text =>
    rw [Cipher.encrypt, Option.map_some, Cipher.decrypt, if_neg (sealed_ne_empty key nonce text),
      opened_sealed]
    rfl

theorem Stored.decrypt {p v : Option String} (hStored : Stored cipher key p v)
    (hFinished : Finished v) :
    cipher.decrypt key v = .ok p ∨ (v = p ∧ ∃ text, p = some text ∧ Recognised text) := by
  rcases hStored with rfl | ⟨nonce, rfl⟩
  · rcases hFinished with rfl | rfl | hForm
    · exact .inl rfl
    · exact .inl rfl
    · cases v with
      | none => cases hForm
      | some text => exact .inr ⟨rfl, text, rfl, (isEncrypted_iff text).mp hForm⟩
  · exact .inl (decrypt_encrypt nonce p)

theorem Database.ext_rows {db db' : Database} (h : ∀ t, db'.rows t = db.rows t) : db' = db := by
  cases db
  cases db'
  simp only [Database.mk.injEq]
  funext t
  exact h t

/-- What is finished is not written again. -/
theorem migrateTargets_finished {targets : List (String × String)} {total : MigrationTally}
    (hFinished : ∀ t, ∀ row ∈ db.rows t, ∀ c, (t, c) ∈ targets → Finished (row.value c))
    (h : migrateTargets cipher key run targets total db = .ok (tally', db')) : db' = db := by
  induction targets generalizing total db with
  | nil =>
    rw [migrateTargets] at h
    split at h
    · cases h
    · cases h
      rfl
  | cons target rest ih =>
    obtain ⟨table, column⟩ := target
    rw [migrateTargets] at h
    split at h
    · cases h
    · split at h
      · cases h
      · rename_i tally₁ db₁ hOne
        obtain ⟨hRows, hOther⟩ := migrateOne_rows hOne
        have hSame : db₁ = db := by
          refine Database.ext_rows fun t => ?_
          by_cases ht : t = table
          · subst ht
            rw [hRows]
            conv_rhs => rw [← List.map_id (db.rows t)]
            apply List.map_congr_left
            intro row hRow
            exact Row.set_unchanged
              ((hFinished t row hRow column List.mem_cons_self).migratedValue row.id)
          · exact hOther t ht
        subst hSame
        exact ih (fun t row hRow c hMem => hFinished t row hRow c (List.mem_cons_of_mem _ hMem)) h

theorem finished_of_migrating (hCells : Cells (Migrating cipher key columns walked) plain db) :
    ∀ t, ∀ row ∈ db.rows t, ∀ c, (t, c) ∈ walked → Finished (row.value c) := by
  intro t
  have hRows : List.Forall₂ (fun row' row => (∀ c, (t, c) ∈ walked → Finished (row'.value c)) ∧
      row'.id = row.id) (db.rows t) (plain.rows t) :=
    ((hCells t).imp fun _ _ h => ⟨fun c => (h.2 c).2, h.1⟩).flip
  exact ((List.forall₂_and_left _ _).mp hRows).1

/-- Runs of the scripts lose nothing. Once a script was run to its end, the values of its
columns decrypt to the original plaintexts, but for plaintexts in the form of a ciphertext,
which stay as they are; and no further run of it changes anything. -/
theorem migration_decrypts (cipher : Cipher Key) (key : Key) (plain db : Database)
    (hContents : Contents cipher key plain db) (runs : List (Script × MigrationRun)) :
    Contents cipher key plain (afterMigrations cipher key runs db) ∧
      ∀ script, (∃ run, (script, run) ∈ runs ∧ run.Complete) →
        Migrated cipher key script plain (afterMigrations cipher key runs db) ∧
        ∀ run, (migrate cipher key run script (afterMigrations cipher key runs db)).2 =
          afterMigrations cipher key runs db := by
  have hStart : Cells (Migrating cipher key migratedColumns []) plain db := fun t =>
    (hContents t).imp fun _ _ h => ⟨h.1, fun c => ⟨h.2 c, fun hNone => nomatch hNone⟩⟩
  constructor
  · intro t
    exact (migrating_afterMigrations runs hStart t).imp fun _ _ h => ⟨h.1, fun c => (h.2 c).1⟩
  · intro script hComplete
    have hDone := migrating_of_complete hComplete hStart
    constructor
    · intro t
      refine (hDone t).imp fun _ _ h => ⟨h.1, fun c hMem => ?_⟩
      exact ((h.2 c).1 (script.targets_subset _ hMem)).decrypt ((h.2 c).2 hMem)
    · intro run
      rw [migrate_snd]
      split
      · exact migrateTargets_finished (finished_of_migrating hDone) ‹_›
      · rfl

/-! ## Two passwords -/

def bindPassword (value : String) : Database where
  rows t :=
    if t = "ldap_servers" then
      [⟨"1", fun c => if c = "bind_password_encrypted" then some value else none⟩]
    else []
  primaryKey t := by
    split
    · exact List.nodup_singleton _
    · exact List.nodup_nil

def completeMigration : MigrationRun :=
  ⟨false, fun _ _ _ => zeroNonce, fun _ _ _ => false, fun _ => false⟩

theorem completeMigration_complete : completeMigration.Complete :=
  ⟨rfl, fun _ _ _ => rfl, fun _ => rfl⟩

theorem contents_bindPassword (value : String) :
    Contents tagCipher 7 (bindPassword value) (bindPassword value) :=
  cells_refl fun _ _ _ _ _ => .inl rfl

theorem hunter2_migrated :
    Migrated tagCipher 7 .ldapPasswords (bindPassword "hunter2")
      (afterMigrations tagCipher 7 [(.ldapPasswords, completeMigration)]
        (bindPassword "hunter2")) :=
  ((migration_decrypts tagCipher 7 _ _ (contents_bindPassword "hunter2")
    [(.ldapPasswords, completeMigration)]).2 .ldapPasswords
      ⟨completeMigration, List.mem_cons_self, completeMigration_complete⟩).1

/-- A password that decodes to the version byte and 28 more bytes. -/
def shapedPassword : String := "AQAAAAAAAAAAAAAAAAAAAAAAAAAAAAAAAAAAAAA"

theorem isEncrypted_shapedPassword : isEncrypted (some shapedPassword) = true := by
  decide +kernel

/-- The password is taken for a ciphertext; it stays as it is, and does not decrypt. -/
theorem shapedPassword_skipped :
    Contents tagCipher 7 (bindPassword shapedPassword) (bindPassword shapedPassword) ∧
      completeMigration.Complete ∧
      ¬ Cells (fun t c p v => (t, c) ∈ migratedColumns → tagCipher.decrypt 7 v = .ok p)
        (bindPassword shapedPassword)
        (afterMigrations tagCipher 7 [(.ldapPasswords, completeMigration)]
          (bindPassword shapedPassword)) := by
  refine ⟨contents_bindPassword _, completeMigration_complete, fun hCells => ?_⟩
  have hFinished : ∀ t, ∀ row ∈ (bindPassword shapedPassword).rows t, ∀ c,
      (t, c) ∈ Script.ldapPasswords.targets → Finished (row.value c) := by
    intro t row hRow c hMem
    cases List.mem_singleton.mp hMem
    obtain rfl := List.mem_singleton.mp hRow
    exact .inr (.inr isEncrypted_shapedPassword)
  have hSame : afterMigrations tagCipher 7 [(.ldapPasswords, completeMigration)]
      (bindPassword shapedPassword) = bindPassword shapedPassword := by
    change (migrate tagCipher 7 completeMigration .ldapPasswords _).2 = _
    rw [migrate_snd]
    split
    · exact migrateTargets_finished hFinished ‹_›
    · rfl
  rw [hSame] at hCells
  have hServer := hCells "ldap_servers"
  have hRow := (List.forall₂_cons.mp hServer).1.2 "bind_password_encrypted" (by decide)
  have hTag : tagCipher.decrypt 7 (some shapedPassword) = .error .invalidTag := by decide +kernel
  change tagCipher.decrypt 7 (some shapedPassword) = _ at hRow
  rw [hTag] at hRow
  cases hRow

end OpenRadiusWeb.Secrets
