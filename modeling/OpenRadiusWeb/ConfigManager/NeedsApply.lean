import OpenRadiusWeb.ConfigManager.StoredHash

/-! # The flag of the gateway

The gateway shows `needs_apply` when a recorded hash differs from the hash that was last applied.
The watcher writes both columns in one upsert, after a success and after a failure alike. What
`apply_configs` does to the table is a sequence of such upserts.
-/

namespace OpenRadiusWeb.ConfigManager

open Effects Transcript

/-- The `needs_apply` of `get_config_status`. -/
def needsApply (configs : List ConfigRow) : Bool :=
  configs.any fun c => c.configHash != "" && some c.configHash != c.lastAppliedHash

/-- The outcome of an attempt, as `_save_config_state` is called with it. -/
structure Attempt where
  configType : String
  configName : String
  content : String
  configHash : String
  /-- The status is applied when there is none. -/
  error : Option Exc
  outcome : SaveOutcome

namespace Attempt

variable (a : Attempt)

def key : String × String := (a.configType, a.configName)

def status : Status := if a.error = none then .applied else .error

def row : ConfigRow := appliedRow a.content a.configHash a.status a.error

def save : Eff World Exc Unit :=
  saveConfigState a.outcome a.configType a.configName a.content a.configHash a.status a.error

/-- The upsert for the row is committed. -/
def recordedAt (key : String × String) : Bool := a.outcome.commits && decide (a.key = key)

end Attempt

/-- The world after the attempts were recorded one after the other. -/
def recorded (history : List Attempt) (w : World) : World :=
  history.foldl (fun w a => (a.save w).2) w

def mostRecent (history : List Attempt) (key : String × String) : Option Attempt :=
  (history.filter fun a => a.recordedAt key).getLast?

/-- The rows `list_config_status` reads under the tenant of the watcher, in some order. -/
def Lists (rows : List ConfigRow) (w : World) : Prop :=
  ∀ row, row ∈ rows ↔ ∃ key, w.freeradiusConfig key = some row

/-! ## What is recorded -/

theorem save_world (a : Attempt) (w : World) : (a.save w).2 =
    { w with freeradiusConfig := savedRows a.outcome w.freeradiusConfig a.key a.row } := by
  rw [Attempt.save, saveConfigState_apply]
  rfl

theorem mostRecent_append (history : List Attempt) (a : Attempt) (key : String × String) :
    mostRecent (history ++ [a]) key =
      if a.recordedAt key then some a else mostRecent history key := by
  rw [mostRecent, List.filter_append]
  cases hKey : a.recordedAt key with
  | true =>
    rw [List.filter_cons_of_pos (by exact hKey), List.filter_nil, List.getLast?_concat]
    rfl
  | false =>
    rw [List.filter_cons_of_neg (by simp [hKey]), List.filter_nil, List.append_nil]
    rfl

/-- The row is that of the most recent attempt. -/
theorem recorded_row (history : List Attempt) (w : World) (key : String × String) :
    (recorded history w).freeradiusConfig key =
      match mostRecent history key with
      | some a => some a.row
      | none => w.freeradiusConfig key := by
  induction history using List.reverseRecOn with
  | nil => rfl
  | append_singleton history a ih =>
    rw [mostRecent_append, recorded, List.foldl_append, List.foldl_cons, List.foldl_nil, save_world,
      ← recorded, savedRows, Attempt.recordedAt]
    cases a.outcome.commits with
    | false => simpa using ih
    | true =>
      by_cases hKey : a.key = key
      · rw [← hKey]
        simp [Function.update_self]
      · simpa [hKey, Function.update_of_ne (Ne.symm hKey)] using ih

theorem needsApply_of_equal {rows : List ConfigRow}
    (h : ∀ row ∈ rows, row.lastAppliedHash = some row.configHash) : needsApply rows = false := by
  rw [needsApply, List.any_eq_false]
  intro row hRow
  simp [h row hRow]

theorem needsApply_recorded {history : List Attempt} {d : Disk} {rows : List ConfigRow}
    (hRows : Lists rows (recorded history (unrecorded d))) : needsApply rows = false := by
  refine needsApply_of_equal fun row hRow => ?_
  obtain ⟨key, hKey⟩ := (hRows row).mp hRow
  rw [recorded_row] at hKey
  cases hRecent : mostRecent history key with
  | none =>
    rw [hRecent] at hKey
    cases hKey
  | some a =>
    rw [hRecent] at hKey
    cases hKey
    rfl

/-! ## Runs of `apply_configs` -/

/-- The table changes by recorded attempts. -/
def ByAttempts (w w' : World) : Prop :=
  ∃ history, w'.freeradiusConfig = (recorded history w).freeradiusConfig

theorem ByAttempts.refl (w : World) : ByAttempts w w := ⟨[], rfl⟩

theorem recorded_congr (history : List Attempt) {w w' : World}
    (h : w.freeradiusConfig = w'.freeradiusConfig) :
    (recorded history w).freeradiusConfig = (recorded history w').freeradiusConfig := by
  funext key
  rw [recorded_row, recorded_row, h]

theorem ByAttempts.trans (w w' w'' : World) (h : ByAttempts w w') (h' : ByAttempts w' w'') :
    ByAttempts w w'' := by
  obtain ⟨history, hFirst⟩ := h
  obtain ⟨history', hSecond⟩ := h'
  refine ⟨history ++ history', ?_⟩
  rw [hSecond, recorded_congr history' hFirst, recorded, recorded, recorded, List.foldl_append]

theorem ByAttempts.of_disk {w w' : World} (h : w'.freeradiusConfig = w.freeradiusConfig) :
    ByAttempts w w' := ⟨[], h⟩

/-- The computation changes the table by recorded attempts only. -/
def Recording {α : Type} (x : Eff World Exc α) : Prop := Eff.Along ByAttempts x

namespace Recording

variable {α β : Type}

theorem pure (a : α) : Recording (Pure.pure a : Eff World Exc α) := Eff.along_pure ByAttempts.refl a

theorem lift (x : Except Exc α) : Recording (Eff.lift x : Eff World Exc α) :=
  Eff.along_lift ByAttempts.refl x

theorem raiseIf (e : Option Exc) : Recording (ConfigManager.raiseIf e) := lift _

theorem bind {x : Eff World Exc α} {f : α → Eff World Exc β} (hx : Recording x)
    (hf : ∀ a, Recording (f a)) : Recording (x >>= f) := Eff.along_bind ByAttempts.trans hx hf

theorem attempt {x : Eff World Exc α} {handler : Exc → Eff World Exc α} (hx : Recording x)
    (hHandler : ∀ e, Recording (handler e)) : Recording (Eff.attempt x handler) :=
  Eff.along_attempt ByAttempts.trans hx hHandler

theorem save (a : Attempt) : Recording a.save := fun _ => ⟨[a], rfl⟩

theorem writeFile (o : WriteOutcome) (path content : String) :
    Recording (ConfigManager.writeFile o path content) := fun _ => .of_disk rfl

theorem getStoredHash (o : ReadOutcome) (configType configName : String) :
    Recording (ConfigManager.getStoredHash o configType configName) :=
  bind (raiseIf o.raised) fun _ => bind (Eff.along_get ByAttempts.refl) fun _ => pure _

theorem writeCertFiles (m : Manager) (r : Reads) (makedirsFails : Option Exc)
    (outcomes : Nat → WriteOutcome) : Recording (m.writeCertFiles r makedirsFails outcomes) := by
  refine bind (lift _) fun certs => bind (lift _) fun servers => bind (raiseIf _) fun _ => ?_
  intro w
  refine .of_disk ?_
  rw [runSteps_world]

theorem refreshCertificates (m : Manager) (c : Call) : Recording (m.refreshCertificates c) := by
  refine bind (lift _) fun certHash => bind (getStoredHash _ _ _) fun storedCertHash => ?_
  split
  · exact pure _
  · refine bind (writeCertFiles m _ _ _) fun _ => bind ?_ fun _ => pure _
    exact save ⟨"certificates", "_cert_files", "", certHash, none, c.save "_cert_files" .applied⟩

theorem writeConfig (m : Manager) (c : Call) (results : Dict ConfigResult) (filename content : String) :
    Recording (m.writeConfig c results filename content) := by
  refine attempt (bind (writeFile _ _ _) fun _ => bind ?_ fun _ => pure _) fun e =>
    bind ?_ fun _ => pure _
  · exact save ⟨configTypeOf filename, filename, content, m.computeHash content, none,
      c.save filename .applied⟩
  · exact save ⟨configTypeOf filename, filename, content, m.computeHash content, some e,
      c.save filename .error⟩

theorem applyConfigs (m : Manager) (c : Call) : Recording (m.applyConfigs c) := by
  refine bind (attempt (refreshCertificates m c) fun e => pure _) fun certificates => ?_
  cases m.generateAllConfigs c.toReads with
  | error e => exact pure _
  | ok configs =>
    refine Eff.along_foldlM ByAttempts.refl ByAttempts.trans (fun results config => ?_) _ _
    refine bind (getStoredHash _ _ _) fun storedHash => ?_
    split
    · exact pure _
    · exact writeConfig m c results config.1 config.2

end Recording

theorem transcript_recorded (m : Manager) (d : Disk) (calls : List Call) :
    ∀ e ∈ transcript m.applyConfigs (unrecorded d) calls, ByAttempts (unrecorded d) e.post := by
  intro e he
  have hInv := Transcript.invariant (ByAttempts (unrecorded d)) (fun _ _ => True)
    (fun w c h _ => ByAttempts.trans _ w _ h (Recording.applyConfigs m c w)) (.refl (unrecorded d))
    (fun _ _ => trivial) e he
  exact hInv.2

theorem needsApply_run (m : Manager) (d : Disk) (calls : List Call) :
    ∀ e ∈ transcript m.applyConfigs (unrecorded d) calls, ∀ rows, Lists rows e.post →
      needsApply rows = false := by
  intro e he rows hRows
  obtain ⟨history, hTable⟩ := transcript_recorded m d calls e he
  have hLists : Lists rows (recorded history (unrecorded d)) := by
    intro row
    rw [hRows row, hTable]
  exact needsApply_recorded hLists

/-! ## The flag and the attempts -/

/-- The most recent attempt of no file failed. -/
def NoneFailed (history : List Attempt) : Prop :=
  ∀ key a, mostRecent history key = some a → a.error = none

/-- The flag is up when the most recent attempt of some file failed, and down when that of
every file succeeded. -/
structure FlagCorrect (history : List Attempt) (rows : List ConfigRow) : Prop where
  failed : ¬NoneFailed history → needsApply rows = true
  succeeded : NoneFailed history → needsApply rows = false

/-- The flag tells the truth exactly after histories in which no most recent attempt failed. -/
theorem flagCorrect_iff (history : List Attempt) (d : Disk) {rows : List ConfigRow}
    (hRows : Lists rows (recorded history (unrecorded d))) :
    FlagCorrect history rows ↔ NoneFailed history := by
  have hDown := needsApply_recorded hRows
  constructor
  · intro h
    by_contra hFailed
    rw [h.failed hFailed] at hDown
    cases hDown
  · exact fun h => ⟨fun hNot => absurd h hNot, fun _ => hDown⟩

/-- The attempt of `deniedCall` for `clients.conf`. -/
def deniedAttempt : Attempt :=
  ⟨"clients", "clients.conf", plainClients, plainManager.computeHash plainClients,
    some "[Errno 13] Permission denied", ⟨true, none⟩⟩

theorem lists_denied : Lists [deniedAttempt.row] (recorded [deniedAttempt] (unrecorded fun _ => none)) := by
  intro row
  rw [List.mem_singleton]
  constructor
  · rintro rfl
    exact ⟨deniedAttempt.key, by rw [recorded_row]; rfl⟩
  · rintro ⟨key, hRow⟩
    rw [recorded_row] at hRow
    by_cases hKey : deniedAttempt.key = key
    · have hRecent : mostRecent [deniedAttempt] key = some deniedAttempt := by
        rw [← hKey]
        rfl
      rw [hRecent] at hRow
      exact (Option.some.inj hRow).symm
    · have hRecent : mostRecent [deniedAttempt] key = none := by
        simp [mostRecent, Attempt.recordedAt, hKey]
      rw [hRecent] at hRow
      cases hRow

theorem flag_down_after_failure :
    Lists [deniedAttempt.row] (recorded [deniedAttempt] (unrecorded fun _ => none)) ∧
      ¬FlagCorrect [deniedAttempt] [deniedAttempt.row] := by
  refine ⟨lists_denied, fun h => ?_⟩
  have hFailed : ¬NoneFailed [deniedAttempt] := by
    intro hNone
    have hError := hNone deniedAttempt.key deniedAttempt rfl
    cases hError
  have hUp := h.failed hFailed
  rw [needsApply_recorded lists_denied] at hUp
  cases hUp

theorem flagCorrect_iff_denied :
    FlagCorrect [deniedAttempt] [deniedAttempt.row] ↔ NoneFailed [deniedAttempt] :=
  flagCorrect_iff [deniedAttempt] (fun _ => none) lists_denied

end OpenRadiusWeb.ConfigManager
