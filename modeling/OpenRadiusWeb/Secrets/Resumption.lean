import OpenRadiusWeb.Secrets.Walk

/-! # Interrupted rotations resumed

Every run leaves a value as it was or under the new key with the same plaintext, so a value
is told apart by trial decryption. A complete run then settles all columns of the script's
list. The SSH passwords of network devices are not on it.
-/

namespace OpenRadiusWeb.Secrets

open Effects (Eff)

variable {Key : Type} {cipher : Cipher Key} {old new : Key} {run : RotationRun}
  {db db' : Database} {table column : String} {tally tally' : Tally}

/-! ## One column -/

/-- What a run makes of a value of the given row. -/
def rotatedValue (cipher : Cipher Key) (old new : Key) (run : RotationRun)
    (table column id : String) : Option String → Option String
  | none => none
  | some ct =>
    if ct = "" then some ct
    else
      match cipher.decrypt old (some ct) with
      | .ok (some plaintext) =>
        if run.dryRun then some ct
        else cipher.encrypt new (run.nonce table column id) (some plaintext)
      | _ => some ct

def rotatedRow (cipher : Cipher Key) (old new : Key) (run : RotationRun) (table column : String)
    (row : Row) : Row :=
  row.set column (rotatedValue cipher old new run table column row.id (row.value column))

/-- The loop body writes the row under its key, or finds it as it is to be. -/
theorem rotateRow_db {row : Row}
    (h : rotateRow cipher old new run table column row (tally, db) = .ok (tally', db')) :
    Writes table column (rotatedRow cipher old new run table column) row db db' := by
  simp only [rotateRow] at h
  by_cases hStop : run.interrupted (.row table column row.id) = true
  · rw [if_pos hStop] at h
    cases h
  · rw [if_neg hStop] at h
    have hResult := Except.ok.inj h
    cases hValue : row.value column with
    | none =>
      simp only [hValue] at hResult
      cases hResult
      exact .inl ⟨rfl, Row.set_unchanged (by rw [hValue]; rfl)⟩
    | some ct =>
      simp only [hValue] at hResult
      by_cases hEmpty : ct = ""
      · rw [if_pos hEmpty] at hResult
        cases hResult
        exact .inl ⟨rfl, Row.set_unchanged (by simp [hValue, rotatedValue, hEmpty])⟩
      · rw [if_neg hEmpty] at hResult
        cases hDecrypt : cipher.decrypt old (some ct) with
        | error e =>
          have hSame : rotatedRow cipher old new run table column row = row :=
            Row.set_unchanged (by simp [hValue, rotatedValue, hEmpty, hDecrypt])
          simp only [hDecrypt] at hResult
          split at hResult
          · cases hResult
            exact .inl ⟨rfl, hSame⟩
          · cases hResult
            exact .inl ⟨rfl, hSame⟩
        | ok plaintext =>
          cases plaintext with
          | none =>
            simp only [hDecrypt] at hResult
            cases hResult
            exact .inl ⟨rfl, Row.set_unchanged (by simp [hValue, rotatedValue, hEmpty, hDecrypt])⟩
          | some plaintext =>
            simp only [hDecrypt] at hResult
            cases hDry : run.dryRun with
            | true =>
              simp only [hDry, if_true] at hResult
              cases hResult
              exact .inl ⟨rfl, Row.set_unchanged (by simp [hValue, rotatedValue, hDecrypt, hDry])⟩
            | false =>
              simp only [hDry] at hResult
              cases hResult
              refine .inr ⟨_, rfl, ?_⟩
              simp [rotatedRow, hValue, rotatedValue, hEmpty, hDecrypt, hDry]

theorem rotateTable_rows
    (h : rotateTable cipher old new run table column db = .ok (tally', db')) :
    db'.rows table = (db.rows table).map (rotatedRow cipher old new run table column) ∧
      ∀ t, t ≠ table → db'.rows t = db.rows t :=
  foldlM_rows (fun _ _ _ hRow => rotateRow_db hRow) [] rfl h

/-! ## Values through a run -/

theorem Cells.rotateTable {R Q : String → String → Option String → Option String → Prop}
    {db₀ : Database} (hCells : Cells R db₀ db)
    (h : rotateTable cipher old new run table column db = .ok (tally', db'))
    (hHere : ∀ id v₀ v, R table column v₀ v →
      Q table column v₀ (rotatedValue cipher old new run table column id v))
    (hElse : ∀ t c v₀ v, ¬ (t = table ∧ c = column) → R t c v₀ v → Q t c v₀ v) :
    Cells Q db₀ db' := by
  obtain ⟨hRows, hOther⟩ := rotateTable_rows h
  exact hCells.walk hRows hOther hHere hElse

/-- A value under the old key, and one under the new key with the same plaintext. -/
def Moved (cipher : Cipher Key) (old new : Key) (v₀ v : Option String) : Prop :=
  ∃ ct text ct', v₀ = some ct ∧ ct ≠ "" ∧ cipher.opened old ct = .ok text ∧
    v = some ct' ∧ ct' ≠ "" ∧ cipher.opened new ct' = .ok text

theorem decrypt_ok {key : Key} {ct text : String} (hNonempty : ct ≠ "")
    (h : cipher.decrypt key (some ct) = .ok (some text)) : cipher.opened key ct = .ok text := by
  rw [Cipher.decrypt, if_neg hNonempty] at h
  cases hOpened : cipher.opened key ct with
  | error e =>
    rw [hOpened] at h
    cases h
  | ok text' =>
    rw [hOpened] at h
    cases h
    rfl

theorem decrypt_opened {key : Key} {ct text : String} (hNonempty : ct ≠ "")
    (h : cipher.opened key ct = .ok text) : cipher.decrypt key (some ct) = .ok (some text) := by
  rw [Cipher.decrypt, if_neg hNonempty, h]
  rfl

/-- Walking over a value leaves it, or decrypts it under the old key and moves it. -/
theorem rotatedValue_cases (cipher : Cipher Key) (old new : Key) (run : RotationRun)
    (table column id : String) (v : Option String) :
    rotatedValue cipher old new run table column id v = v ∨
      Moved cipher old new v (rotatedValue cipher old new run table column id v) := by
  cases v with
  | none => exact .inl rfl
  | some ct =>
    by_cases hEmpty : ct = ""
    · exact .inl (if_pos hEmpty)
    · simp only [rotatedValue, if_neg hEmpty]
      split
      · rename_i text hDecrypt
        split
        · exact .inl rfl
        · exact .inr ⟨ct, text, _, rfl, hEmpty, decrypt_ok hEmpty hDecrypt, rfl,
            sealed_ne_empty _ _ _, opened_sealed _ _ _⟩
      · exact .inl rfl

theorem Moved.rotatedValue {v₀ v : Option String} (h : Moved cipher old new v₀ v) (id : String) :
    Moved cipher old new v₀ (rotatedValue cipher old new run table column id v) := by
  rcases rotatedValue_cases cipher old new run table column id v with hSame | hMoved
  · rwa [hSame]
  · obtain ⟨ct, text, ct', hFrom, hNonempty, hOld, rfl, hNonempty', hNew⟩ := h
    obtain ⟨_, text', ct'', hAgain, -, hOld', hTo, hNonempty'', hNew'⟩ := hMoved
    cases hAgain
    obtain rfl := opened_unique hOld' hNew
    rw [hOld'] at hNew
    cases hNew
    exact ⟨ct, _, ct'', hFrom, hNonempty, hOld, hTo, hNonempty'', hNew'⟩

/-! ## Runs -/

/-- Any number of runs leave a value as it was, or moved if its column is on the list. -/
def Stage (cipher : Cipher Key) (old new : Key) (t c : String) (v₀ v : Option String) : Prop :=
  v = v₀ ∨ ((t, c) ∈ encryptedColumns ∧ Moved cipher old new v₀ v)

/-- A value has made it to the new key, or there was none. -/
def Settled (cipher : Cipher Key) (old new : Key) (v₀ v : Option String) : Prop :=
  (v₀ = none ∧ v = none) ∨ (v₀ = some "" ∧ v = some "") ∨ Moved cipher old new v₀ v

/-- A value that is neither null nor empty decrypts. -/
def Readable (cipher : Cipher Key) (key : Key) (v : Option String) : Prop :=
  ∀ ct, v = some ct → ct ≠ "" → ∃ text, cipher.opened key ct = .ok text

/-- How far the values are when the given columns were walked through. -/
def Progress (cipher : Cipher Key) (old new : Key) (walked : List (String × String))
    (t c : String) (v₀ v : Option String) : Prop :=
  Stage cipher old new t c v₀ v ∧
    ((t, c) ∈ walked → Readable cipher old v₀ → Settled cipher old new v₀ v)

theorem Stage.rotatedValue {v₀ v : Option String} (h : Stage cipher old new table column v₀ v)
    (hMem : (table, column) ∈ encryptedColumns) (id : String) :
    Stage cipher old new table column v₀
      (rotatedValue cipher old new run table column id v) := by
  rcases h with rfl | ⟨-, hMoved⟩
  · exact (rotatedValue_cases _ _ _ _ _ _ id v).imp_right fun hMoved => ⟨hMem, hMoved⟩
  · exact .inr ⟨hMem, hMoved.rotatedValue id⟩

theorem settled_rotatedValue {v₀ v : Option String} (hDry : run.dryRun = false)
    (h : Stage cipher old new table column v₀ v) (hReadable : Readable cipher old v₀)
    (id : String) :
    Settled cipher old new v₀ (rotatedValue cipher old new run table column id v) := by
  rcases h with rfl | ⟨-, hMoved⟩
  · cases v with
    | none => exact .inl ⟨rfl, rfl⟩
    | some ct =>
      by_cases hEmpty : ct = ""
      · subst hEmpty
        exact .inr (.inl ⟨rfl, rfl⟩)
      · obtain ⟨text, hText⟩ := hReadable ct rfl hEmpty
        refine .inr (.inr ⟨ct, text, cipher.sealed new (run.nonce table column id) text, rfl, hEmpty,
          hText, ?_, sealed_ne_empty _ _ _, opened_sealed _ _ _⟩)
        simp [Secrets.rotatedValue, hEmpty, decrypt_opened hEmpty hText, hDry, Cipher.encrypt]
  · exact .inr (.inr (hMoved.rotatedValue id))

theorem rotateRow_error {row : Row} {acc : Tally × Database} {e : Interrupted}
    (h : rotateRow cipher old new run table column row acc = .error e) :
    ∃ p, run.interrupted p = true := by
  obtain ⟨tally, db⟩ := acc
  simp only [rotateRow] at h
  by_cases hStop : run.interrupted (.row table column row.id) = true
  · exact ⟨_, hStop⟩
  · rw [if_neg hStop] at h
    cases h

theorem foldlM_error {rows : List Row} {acc : Tally × Database} {e : Interrupted}
    (h : rows.foldlM (fun acc row => rotateRow cipher old new run table column row acc) acc =
      .error e) : ∃ p, run.interrupted p = true := by
  induction rows generalizing acc with
  | nil => cases h
  | cons row rest ih =>
    rw [List.foldlM_cons] at h
    cases hRow : rotateRow cipher old new run table column row acc with
    | error e => exact rotateRow_error hRow
    | ok next =>
      rw [hRow] at h
      exact ih h

theorem rotateColumn_error {e : Interrupted}
    (h : rotateColumn cipher old new run table column db = .error e) :
    ∃ p, run.interrupted p = true := by
  unfold rotateColumn at h
  split at h
  · rename_i hTable
    exact foldlM_error hTable
  · split at h
    · rename_i hCommit
      exact ⟨_, hCommit⟩
    · cases h

theorem rotateColumn_ok {result : Tally × Database}
    (h : rotateColumn cipher old new run table column db = .ok result) :
    rotateTable cipher old new run table column db = .ok result := by
  unfold rotateColumn at h
  split at h
  · cases h
  · rename_i hTable
    split at h
    · cases h
    · rwa [← h]

theorem rotateColumns_cons (cipher : Cipher Key) (old new : Key) (run : RotationRun)
    (table column : String) (rest : List (String × String)) (total : Tally) (db : Database) :
    (∃ e, rotateColumns cipher old new run ((table, column) :: rest) total db = (.error e, db) ∧
        ∃ p, run.interrupted p = true) ∨
      ∃ tally db', rotateTable cipher old new run table column db = .ok (tally, db') ∧
        rotateColumns cipher old new run ((table, column) :: rest) total db =
          rotateColumns cipher old new run rest (total.add tally) db' := by
  rw [rotateColumns]
  by_cases hStart : run.interrupted (.table table column) = true
  · rw [if_pos hStart]
    exact .inl ⟨_, rfl, _, hStart⟩
  · rw [if_neg hStart, Eff.bind_apply, withConn]
    cases hBody : rotateColumn cipher old new run table column db with
    | error e => exact .inl ⟨e, rfl, rotateColumn_error hBody⟩
    | ok result => exact .inr ⟨result.1, result.2, rotateColumn_ok hBody, rfl⟩

/-- A run that may be interrupted. -/
theorem stage_rotateColumns {db₀ : Database} {columns : List (String × String)}
    (hColumns : ∀ x ∈ columns, x ∈ encryptedColumns) : ∀ {total : Tally} {db : Database},
    Cells (Stage cipher old new) db₀ db →
      Cells (Stage cipher old new) db₀ (rotateColumns cipher old new run columns total db).2 := by
  induction columns with
  | nil => exact fun hCells => hCells
  | cons x rest ih =>
    intro total db hCells
    obtain ⟨table, column⟩ := x
    have hMem := hColumns _ List.mem_cons_self
    rcases rotateColumns_cons cipher old new run table column rest total db with
      ⟨e, hStopped, -⟩ | ⟨tally, db', hTable, hGo⟩
    · rw [hStopped]
      exact hCells
    · rw [hGo]
      apply ih fun x hx => hColumns x (List.mem_cons_of_mem _ hx)
      exact hCells.rotateTable hTable (fun id v₀ v h => h.rotatedValue hMem id)
        fun _ _ _ _ _ h => h

/-- A run that nothing interrupts, and that writes. -/
structure RotationRun.Complete (run : RotationRun) : Prop where
  writes : run.dryRun = false
  skips : run.skipUndecryptable = true
  uninterrupted : ∀ p, run.interrupted p = false

/-- A complete run settles every column it walks through. -/
theorem progress_rotateColumns {db₀ : Database} {columns : List (String × String)}
    (hColumns : ∀ x ∈ columns, x ∈ encryptedColumns) (hRun : run.Complete) :
    ∀ {walked : List (String × String)} {total : Tally} {db : Database},
      Cells (Progress cipher old new walked) db₀ db →
      Cells (Progress cipher old new (walked ++ columns)) db₀
        (rotateColumns cipher old new run columns total db).2 := by
  induction columns with
  | nil =>
    intro walked total db hCells
    rwa [List.append_nil]
  | cons x rest ih =>
    intro walked total db hCells
    obtain ⟨table, column⟩ := x
    have hMem := hColumns _ List.mem_cons_self
    rcases rotateColumns_cons cipher old new run table column rest total db with
      ⟨-, -, p, hStop⟩ | ⟨tally, db', hTable, hGo⟩
    · rw [hRun.uninterrupted p] at hStop
      cases hStop
    · rw [hGo, List.append_cons]
      apply ih fun x hx => hColumns x (List.mem_cons_of_mem _ hx)
      refine hCells.rotateTable hTable (fun id v₀ v h => ⟨h.1.rotatedValue hMem id, ?_⟩) ?_
      · exact fun _ hReadable => settled_rotatedValue hRun.writes h.1 hReadable id
      · intro t c v₀ v hOther h
        refine ⟨h.1, fun hWalked => h.2 ?_⟩
        rcases List.mem_append.mp hWalked with hBefore | hNow
        · exact hBefore
        · cases List.mem_singleton.mp hNow
          exact (hOther ⟨rfl, rfl⟩).elim

theorem main_snd : (main cipher old new run db).2 =
    (rotateColumns cipher old new run encryptedColumns ⟨0, 0, []⟩ db).2 := by
  rw [main, Eff.bind_apply]
  split
  · rename_i hResult
    rw [hResult]
    rfl
  · rename_i hResult
    rw [hResult]

/-- The database after the given runs. -/
def afterRuns (cipher : Cipher Key) (old new : Key) (runs : List RotationRun) (db : Database) :
    Database :=
  runs.foldl (fun db run => (main cipher old new run db).2) db

theorem stage_afterRuns {db₀ : Database} (runs : List RotationRun)
    (hCells : Cells (Stage cipher old new) db₀ db) :
    Cells (Stage cipher old new) db₀ (afterRuns cipher old new runs db) := by
  induction runs generalizing db with
  | nil => exact hCells
  | cons run rest ih =>
    apply ih
    change Cells (Stage cipher old new) db₀ (main cipher old new run db).2
    rw [main_snd]
    exact stage_rotateColumns (fun _ h => h) hCells

/-! ## The columns of the script and of the writers -/

theorem written_of_encrypted (h : (table, column) ∈ encryptedColumns) : Written table column := by
  simp only [encryptedColumns, List.mem_cons, List.not_mem_nil, or_false, Prod.mk.injEq] at h
  rcases h with ⟨rfl, rfl⟩ | ⟨rfl, rfl⟩ | ⟨rfl, rfl⟩ | ⟨rfl, rfl⟩ | ⟨rfl, rfl⟩ | ⟨rfl, rfl⟩
  · exact ⟨.insertLdapServer none, _, List.mem_cons_self, rfl, rfl⟩
  · exact ⟨.insertNasClient "", _, List.mem_cons_self, rfl, rfl⟩
  · exact ⟨.insertCert none, _, List.mem_cons_self, rfl, rfl⟩
  · exact ⟨.insertRealm none, _, List.mem_cons_self, rfl, rfl⟩
  · exact ⟨.insertNetworkDevice none none, _, List.mem_cons_self, rfl, rfl⟩
  · exact ⟨.migrateRemainingSecret 3 "", _, List.mem_cons_self, rfl, rfl⟩

/-- The column that the script leaves out. -/
theorem written_cases (h : Written table column) :
    (table, column) ∈ encryptedColumns ∨
      (table = "network_devices" ∧ column = "ssh_password_encrypted") := by
  obtain ⟨write, binding, hMem, rfl, rfl⟩ := h
  cases write with
  | insertNetworkDevice snmpCommunity sshPassword =>
    simp only [SecretWrite.bindings, List.mem_cons, List.not_mem_nil, or_false] at hMem
    have hSnmp : ("network_devices", "snmp_community_encrypted") ∈ encryptedColumns := by decide
    rcases hMem with rfl | rfl
    · exact .inl hSnmp
    · exact .inr ⟨rfl, rfl⟩
  | migrateRemainingSecret target current =>
    simp only [SecretWrite.bindings, List.mem_singleton] at hMem
    subst hMem
    have hTargets : ∀ target, remainingTargets target ∈ encryptedColumns := by decide
    exact .inl (hTargets target)
  | _ =>
    simp only [SecretWrite.bindings, List.mem_singleton] at hMem
    subst hMem
    exact .inl (by simp [encryptedColumns])

theorem written_sshPassword : Written "network_devices" "ssh_password_encrypted" :=
  ⟨.insertNetworkDevice none none, _, List.mem_cons_of_mem _ List.mem_cons_self, rfl, rfl⟩

/-! ## What a rotation achieves -/

/-- Every value that `encrypt_secret` has written decrypts under the key. -/
def EncryptedUnder (cipher : Cipher Key) (key : Key) (db : Database) : Prop :=
  ∀ t, ∀ row ∈ db.rows t, ∀ c, Written t c → Readable cipher key (row.value c)

/-- Every value that `encrypt_secret` has written has made it to the new key. -/
def Rotated (cipher : Cipher Key) (old new : Key) (db db' : Database) : Prop :=
  Cells (fun t c v v' => Written t c → Settled cipher old new v v') db db'

/-- No network device has an SSH password. -/
def NoSshPassword (db : Database) : Prop :=
  ∀ row ∈ db.rows "network_devices", row.value "ssh_password_encrypted" = none ∨
    row.value "ssh_password_encrypted" = some ""

theorem afterRuns_append (runs : List RotationRun) (last : RotationRun) (db : Database) :
    afterRuns cipher old new (runs ++ [last]) db =
      (main cipher old new last (afterRuns cipher old new runs db)).2 := by
  simp [afterRuns]

theorem progress_afterRuns (runs : List RotationRun) {last : RotationRun} (hLast : last.Complete) :
    Cells (Progress cipher old new encryptedColumns) db
      (afterRuns cipher old new (runs ++ [last]) db) := by
  have hStart : Cells (Stage cipher old new) db db := cells_refl fun _ _ _ _ => .inl rfl
  have hStage : Cells (Progress cipher old new []) db (afterRuns cipher old new runs db) :=
    fun t => (stage_afterRuns runs hStart t).imp fun _ _ h =>
      ⟨h.1, fun c => ⟨h.2 c, fun hNone => nomatch hNone⟩⟩
  rw [afterRuns_append, main_snd]
  exact progress_rotateColumns (fun _ h => h) hLast hStage

theorem sshPassword_left {v₀ v : Option String} (hKeys : old ≠ new)
    (hStage : Stage cipher old new "network_devices" "ssh_password_encrypted" v₀ v)
    (hSettled : Settled cipher old new v₀ v) : v₀ = none ∨ v₀ = some "" := by
  have hNotListed : ("network_devices", "ssh_password_encrypted") ∉ encryptedColumns := by decide
  rcases hStage with rfl | ⟨hListed, -⟩
  · rcases hSettled with ⟨hNone, -⟩ | ⟨hEmpty, -⟩ | ⟨ct, text, ct', hFrom, -, hOld, hTo, -, hNew⟩
    · exact .inl hNone
    · exact .inr hEmpty
    · rw [hFrom] at hTo
      cases hTo
      exact absurd (opened_unique hOld hNew) hKeys
  · exact absurd hListed hNotListed

theorem settled_of_same {v₀ v : Option String} (hReadable : Readable cipher old v₀)
    (hStage : Stage cipher old old table column v₀ v) : Settled cipher old old v₀ v := by
  rcases hStage with rfl | ⟨-, hMoved⟩
  · cases v with
    | none => exact .inl ⟨rfl, rfl⟩
    | some ct =>
      by_cases hEmpty : ct = ""
      · exact .inr (.inl ⟨congrArg some hEmpty, congrArg some hEmpty⟩)
      · obtain ⟨text, hText⟩ := hReadable ct rfl hEmpty
        exact .inr (.inr ⟨ct, text, ct, rfl, hEmpty, hText, rfl, hEmpty, hText⟩)
  · exact .inr (.inr hMoved)

theorem settled_of_nothing {v₀ v : Option String} (hNothing : v₀ = none ∨ v₀ = some "")
    (hStage : Stage cipher old new table column v₀ v) : Settled cipher old new v₀ v := by
  rcases hStage with rfl | ⟨-, hMoved⟩
  · exact hNothing.imp (fun h => ⟨h, h⟩) fun h => .inl ⟨h, h⟩
  · exact .inr (.inr hMoved)

theorem noSshPassword_of_rotated {runs : List RotationRun} {last : RotationRun}
    (hLast : last.Complete) (hKeys : old ≠ new)
    (hRotated : Rotated cipher old new db (afterRuns cipher old new (runs ++ [last]) db)) :
    NoSshPassword db := by
  have hBoth := (progress_afterRuns runs hLast).and hRotated "network_devices"
  have hRows : List.Forall₂ (fun row row' => (row.value "ssh_password_encrypted" = none ∨
      row.value "ssh_password_encrypted" = some "") ∧ row'.id = row.id)
      (db.rows "network_devices")
      ((afterRuns cipher old new (runs ++ [last]) db).rows "network_devices") :=
    hBoth.imp fun row row' h => ⟨sshPassword_left hKeys (h.2 _).1.1
      ((h.2 _).2 written_sshPassword), h.1⟩
  exact ((List.forall₂_and_left _ _).mp hRows).1

/-- A complete run after any number of interrupted ones rotates everything if and only if no
network device has an SSH password, or the keys are the same. -/
theorem resumed_rotation_complete (cipher : Cipher Key) (old new : Key) (db : Database)
    (hOld : EncryptedUnder cipher old db) (runs : List RotationRun) (last : RotationRun)
    (hLast : last.Complete) :
    Rotated cipher old new db (afterRuns cipher old new (runs ++ [last]) db) ↔
      old = new ∨ NoSshPassword db := by
  constructor
  · intro hRotated
    by_cases hKeys : old = new
    · exact .inl hKeys
    · exact .inr (noSshPassword_of_rotated hLast hKeys hRotated)
  · intro hCondition t
    have hProgress : Cells (Progress cipher old new encryptedColumns) db
        (afterRuns cipher old new (runs ++ [last]) db) := progress_afterRuns runs hLast
    have hReadable := (List.forall₂_and_left _ _).mpr ⟨hOld t, hProgress t⟩
    have hPlain := (List.forall₂_and_left _ _).mpr ⟨fun row hRow => hRow, hReadable⟩
    refine hPlain.imp fun row row' h => ⟨h.2.2.1, fun c hWritten => ?_⟩
    obtain ⟨hRow, hReadableRow, -, hValues⟩ := h
    rcases written_cases hWritten with hMem | ⟨rfl, rfl⟩
    · exact (hValues c).2 hMem (hReadableRow c hWritten)
    · rcases hCondition with rfl | hNone
      · exact settled_of_same (hReadableRow _ hWritten) (hValues _).1
      · exact settled_of_nothing (hNone row hRow) (hValues _).1

/-! ## An SSH password -/

/-- A table with the one row that a call has written under the key. -/
def writtenOnce (key : UInt8) (table : String) (write : SecretWrite) : Database where
  rows t :=
    if t = table then
      [⟨"1", fun c => (write.bindings.find? fun b => b.column = c).bind fun b =>
        tagCipher.encrypt key zeroNonce b.plaintext⟩]
    else []
  primaryKey t := by
    split
    · exact List.nodup_singleton _
    · exact List.nodup_nil

theorem encryptedUnder_writtenOnce (key : UInt8) (table : String) (write : SecretWrite) :
    EncryptedUnder tagCipher key (writtenOnce key table write) := by
  intro t row hRow c _ ct hValue _
  simp only [writtenOnce] at hRow
  split at hRow
  · obtain rfl := List.mem_singleton.mp hRow
    simp only [Option.bind_eq_some_iff] at hValue
    obtain ⟨binding, -, hBinding⟩ := hValue
    obtain ⟨text, -, rfl⟩ := Option.map_eq_some_iff.mp hBinding
    exact ⟨text, opened_sealed key zeroNonce text⟩
  · cases hRow

def completeRun : RotationRun := ⟨false, true, fun _ _ _ => zeroNonce, fun _ => false⟩

theorem completeRun_complete : completeRun.Complete := ⟨rfl, rfl, fun _ => rfl⟩

/-- A run that ends before the second column. -/
def interruptedRun : RotationRun where
  dryRun := false
  skipUndecryptable := false
  nonce _ _ _ := zeroNonce
  interrupted
    | .table "radius_nas_clients" _ => true
    | _ => false

theorem nas_secret_rotated :
    Rotated tagCipher 1 2
      (writtenOnce 1 "radius_nas_clients" (.insertNasClient "testing123"))
      (afterRuns tagCipher 1 2 ([interruptedRun] ++ [completeRun])
        (writtenOnce 1 "radius_nas_clients" (.insertNasClient "testing123"))) :=
  (resumed_rotation_complete tagCipher 1 2 _ (encryptedUnder_writtenOnce _ _ _) [interruptedRun]
    completeRun completeRun_complete).mpr (.inr fun _ hRow => nomatch hRow)

/-- The SSH password of a network device is still under the old key. -/
theorem ssh_password_not_rotated :
    EncryptedUnder tagCipher 1
      (writtenOnce 1 "network_devices" (.insertNetworkDevice none (some "admin"))) ∧
      ¬ Rotated tagCipher 1 2
        (writtenOnce 1 "network_devices" (.insertNetworkDevice none (some "admin")))
        (afterRuns tagCipher 1 2 ([] ++ [completeRun])
          (writtenOnce 1 "network_devices" (.insertNetworkDevice none (some "admin")))) := by
  refine ⟨encryptedUnder_writtenOnce _ _ _, fun hRotated => ?_⟩
  have hNone := noSshPassword_of_rotated completeRun_complete (by decide) hRotated _
    List.mem_cons_self
  rcases hNone with hNone | hEmpty
  · cases hNone
  · exact sealed_ne_empty _ _ _ (Option.some.inj hEmpty)

end OpenRadiusWeb.Secrets
