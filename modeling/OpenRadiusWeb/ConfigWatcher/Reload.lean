import OpenRadiusWeb.ConfigManager.Idempotence

/-! # Reloading the server

`apply_and_reload` sends a HUP when the statuses of its own call say that something
was applied. What the server needs to load may come from an earlier call whose HUP
failed or that stopped half way. The server is the disk it last loaded; a signal
that is delivered makes it load the disk as it is then.
-/

namespace OpenRadiusWeb.ConfigWatcher

open Effects Transcript ConfigManager

structure Radiusd where
  world : World
  loaded : Disk

/-- The signal through the docker SDK. A failed one may have been delivered. -/
inductive SdkOutcome
  | killed
  | importError
  | fails (delivered : Bool)

/-- The signal through the docker command line. -/
inductive CliOutcome
  | killed
  | calledProcessError
  | timeoutExpired (delivered : Bool)
  | fileNotFound
  | raises (e : Exc)

structure Signal where
  sdk : SdkOutcome
  cli : CliOutcome

def load : Eff Radiusd Exc Unit := Eff.modify fun s => { s with loaded := s.world.disk }

def loadIf (delivered : Bool) : Eff Radiusd Exc Unit := if delivered then load else pure ()

def reloadThroughCli (cli : CliOutcome) : Eff Radiusd Exc Bool :=
  match cli with
  | .killed => do load; return true
  | .calledProcessError => return false
  | .timeoutExpired delivered => do loadIf delivered; return false
  | .fileNotFound => return false
  | .raises e => Eff.raise e

def reloadFreeradius (signal : Signal) : Eff Radiusd Exc Bool :=
  match signal.sdk with
  | .killed => do load; return true
  | .importError => reloadThroughCli signal.cli
  | .fails delivered => do loadIf delivered; reloadThroughCli signal.cli

/-- The result of a call; an entry without a hash has an empty one. -/
def reloadResult (reloadOk : Bool) : ConfigResult :=
  if reloadOk then ⟨.ok, "", none⟩ else ⟨.error, "", some "HUP signal failed"⟩

def skippedResult (result : Dict ConfigResult) : ConfigResult :=
  ⟨.skipped, "", some (if ∃ entry ∈ result, entry.2.status = .unchanged then "No configs changed"
    else "No configs applied")⟩

def errorResult (e : Exc) : Dict ConfigResult := [("_error", ⟨.error, "", some e⟩)]

/-- `apply_and_reload` returns a result in every case. -/
def applyAndReload (m : Manager) (input : Call × Signal) (s : Radiusd) :
    Dict ConfigResult × Radiusd :=
  match m.applyConfigs input.1 s.world with
  | (.error e, w) => (errorResult e, { s with world := w })
  | (.ok result, w) =>
    if ∃ entry ∈ result, entry.2.status = .applied then
      match reloadFreeradius input.2 { s with world := w } with
      | (.error e, s') => (errorResult e, s')
      | (.ok reloadOk, s') => (result.set "_reload" (reloadResult reloadOk), s')
    else (result.set "_reload" (skippedResult result), { s with world := w })

/-- The server runs exactly the files on disk. -/
def Current (s : Radiusd) : Prop := s.loaded = s.world.disk

/-! ## The signal -/

theorem reloadThroughCli_true {cli : CliOutcome} {s s' : Radiusd}
    (h : reloadThroughCli cli s = (.ok true, s')) : Current s' := by
  cases cli with
  | killed =>
    cases h
    rfl
  | calledProcessError => cases h
  | timeoutExpired delivered => cases delivered <;> cases h
  | fileNotFound => cases h
  | raises e => cases h

theorem reloadFreeradius_true {signal : Signal} {s s' : Radiusd}
    (h : reloadFreeradius signal s = (.ok true, s')) : Current s' := by
  obtain ⟨sdk, cli⟩ := signal
  cases sdk with
  | killed =>
    cases h
    rfl
  | importError => exact reloadThroughCli_true h
  | fails delivered =>
    obtain ⟨_, s₁, -, hCli⟩ := Eff.ok_of_bind h
    exact reloadThroughCli_true hCli

/-! ## One call -/

theorem noError_of_set {result : Dict ConfigResult} {entry : ConfigResult}
    (hNew : "_reload" ∉ Dict.keys result) (h : NoError (result.set "_reload" entry)) :
    NoError result ∧ entry.status ≠ .error := by
  rw [Dict.set_of_notMem hNew] at h
  constructor
  · intro e he
    exact h e (List.mem_append_left _ he)
  · exact h ("_reload", entry) (List.mem_append_right _ List.mem_cons_self)

/-- A call that reports no error leaves the server current exactly when it found it
current or found a stored hash that is not current. -/
theorem applyAndReload_current {m : Manager} {input : Call × Signal} {s s' : Radiusd}
    {result : Dict ConfigResult} (h : applyAndReload m input s = (result, s'))
    (hNoError : NoError result) :
    Current s' ↔ Current s ∨ m.Changes input.1 s.world := by
  rw [applyAndReload] at h
  rcases hApply : m.applyConfigs input.1 s.world with ⟨e | applied, w⟩
  · rw [hApply] at h
    cases h
    exact (hNoError _ List.mem_cons_self rfl).elim
  · rw [hApply] at h
    obtain ⟨hNew, hKind⟩ := Manager.applyConfigs_noError hApply
    by_cases hSome : SomeApplied applied
    · simp only [if_pos (show ∃ entry ∈ applied, entry.2.status = .applied from hSome)] at h
      rcases hReload : reloadFreeradius input.2 { s with world := w } with ⟨e | reloadOk, s₁⟩
      · rw [hReload] at h
        cases h
        exact (hNoError _ List.mem_cons_self rfl).elim
      · rw [hReload] at h
        cases h
        obtain ⟨hNoError', hStatus⟩ := noError_of_set hNew hNoError
        have hChanges : m.Changes input.1 s.world := by
          rcases hKind hNoError' with ⟨-, hAll, -⟩ | ⟨-, hChanges⟩
          · obtain ⟨entry, hMem, hApplied⟩ := hSome
            have := hAll entry hMem
            rw [hApplied] at this
            cases this
          · exact hChanges
        cases reloadOk with
        | false => exact (hStatus rfl).elim
        | true =>
          constructor
          · intro _
            exact .inr hChanges
          · intro _
            exact reloadFreeradius_true hReload
    · simp only [if_neg (show ¬∃ entry ∈ applied, entry.2.status = .applied from hSome)] at h
      cases h
      rcases hKind (noError_of_set hNew hNoError).1 with ⟨rfl, -, hNone⟩ | ⟨hApplied, -⟩
      · simp [Current, hNone]
      · exact (hSome hApplied).elim

/-! ## Runs -/

theorem current_of_noError {m : Manager} {s : Radiusd} (hs : Current s)
    {inputs : List (Call × Signal)}
    (hNoError : ∀ e ∈ transcript (applyAndReload m) s inputs, NoError e.output) :
    ∀ e ∈ transcript (applyAndReload m) s inputs, Current e.post := by
  have hStep : ∀ e ∈ transcript (applyAndReload m) s inputs,
      NoError (applyAndReload m e.input e.pre).1 := by
    intro e he
    rw [mem_transcript_step he]
    exact hNoError e he
  intro e he
  exact (Transcript.invariant Current (fun s input => NoError (applyAndReload m input s).1)
    (fun s input h hOk => (applyAndReload_current rfl hOk).mpr (.inl h)) hs hStep e he).2

/-- Over every run, the calls that report no error leave the server current exactly when
each of them finds it current or finds something to apply. -/
theorem applyAndReload_run (m : Manager) (s : Radiusd) (inputs : List (Call × Signal)) :
    (∀ e ∈ transcript (applyAndReload m) s inputs, NoError e.output → Current e.post) ↔
    ∀ e ∈ transcript (applyAndReload m) s inputs, NoError e.output →
      Current e.pre ∨ m.Changes e.input.1 e.pre.world := by
  constructor
  · intro h e he hNoError
    exact (applyAndReload_current (mem_transcript_step he) hNoError).mp (h e he hNoError)
  · intro h e he hNoError
    exact (applyAndReload_current (mem_transcript_step he) hNoError).mpr (h e he hNoError)

/-- Neither way of sending the HUP works. -/
def lostSignal : Signal := ⟨.importError, .fileNotFound⟩

/-- The HUP of the first call is lost, and the second call finds everything unchanged,
reports no error and sends none. -/
theorem stale_after_lost_signal : ¬∀ (m : Manager) (d : Disk) (inputs : List (Call × Signal)),
    ∀ e ∈ transcript (applyAndReload m) ⟨unrecorded d, d⟩ inputs,
      NoError e.output → Current e.post := by
  intro hAll
  obtain ⟨results, w, results', hFirst, hSecond, hUnchanged, hRecorded⟩ :=
    Manager.applyConfigs_idempotent plainCall_faultFree
      (unrecorded_faithful plainManager fun _ => none) (plainCall_clean (unrecorded fun _ => none)).readable
      trivial plain_generateAllConfigs
  have hFaithful := (Manager.applyConfigs_faithful
    (unrecorded_faithful plainManager fun _ => none) (plainCall_clean (unrecorded fun _ => none))).1
  rw [hFirst] at hFaithful
  have hDisk := hFaithful.files "clients.conf" (by decide) plainClients
    (hRecorded ("clients.conf", plainClients) (by simp))
  have hStepFirst : (applyAndReload plainManager (plainCall, lostSignal)
      ⟨unrecorded fun _ => none, fun _ => none⟩).2 = ⟨w, fun _ => none⟩ := by
    simp only [applyAndReload, hFirst]
    split <;> rfl
  have hNotApplied : ¬∃ entry ∈ results', entry.2.status = .applied := by
    rintro ⟨entry, hMem, hApplied⟩
    rw [hUnchanged entry hMem] at hApplied
    cases hApplied
  have hStepSecond : applyAndReload plainManager (plainCall, lostSignal) ⟨w, fun _ => none⟩ =
      (results'.set "_reload" (skippedResult results'), ⟨w, fun _ => none⟩) := by
    simp only [applyAndReload, hSecond, if_neg hNotApplied]
  have hTranscript : (⟨⟨w, fun _ => none⟩, (plainCall, lostSignal),
      results'.set "_reload" (skippedResult results'), ⟨w, fun _ => none⟩⟩ :
        Entry Radiusd (Call × Signal) (Dict ConfigResult)) ∈
      transcript (applyAndReload plainManager) ⟨unrecorded fun _ => none, fun _ => none⟩
        [(plainCall, lostSignal), (plainCall, lostSignal)] := by
    simp [transcript, hStepFirst, hStepSecond]
  have hNoError : NoError (results'.set "_reload" (skippedResult results')) := by
    refine Dict.forall_mem_set (p := fun e : ConfigResult => e.status ≠ .error) ?_ _ (by simp [skippedResult])
    intro entry hMem
    rw [hUnchanged entry hMem]
    simp
  have hCurrent : (fun _ => none : Disk) = w.disk := hAll _ _ _ _ hTranscript hNoError
  rw [← hCurrent] at hDisk
  cases hDisk

end OpenRadiusWeb.ConfigWatcher
