import OpenRadiusWeb.ConfigWatcher.Requests
import OpenRadiusWeb.Lib.Announcement
import OpenRadiusWeb.Lib.Transcript

/-! # The files follow the database

The machine is one of writers that announce their changes and of a reader that answers each
announcement. When the watcher reads the database for requests that are over, the files are
those of the committed rows whenever everything is at rest; a message that is answered while
its request is still open is lost.
-/

namespace OpenRadiusWeb.ConfigWatcher

open ConfigManager (Manager Call Database Faithful Applies UpToDate)
open Certificates (PyException)
open ReadCommitted (Keyed LetsCommit Issued Ended)
open Announcement (Reader)

/-- The calls of the watcher succeed. -/
def Succeeds (d : Deployment) (s : State) : Label → Prop
  | .write call => ∀ db, s.watcher = .read db → Applies d.manager { call with db := db }
  | _ => True

/-- The watcher reads the database for requests that are over. -/
def InTime (s : State) : Label → Prop
  | .read => ∀ i, s.watcher = .acked (some i) → Ended s.requests i
  | _ => True

/-- What a reader of announcements is doing while the watcher is in the phase. -/
def Phase.reader : Phase → Reader Database
  | .idle => .idle
  | .received message => .taken message
  | .acked message => .taken message
  | .read db => .copied db

/-- The requests announce their changes and the watcher brings them out. -/
structure Simulates (d : Deployment) (s : State) (a : Announcement.State Database) : Prop where
  store : a.store = d.database s
  stream : a.stream = s.stream
  reader : a.reader = s.watcher.reader
  ended : ∀ i, a.ended i ↔ Ended s.requests i
  announces : ∀ i, (s.requests.proc i).phase.Issues publishes (a.announced i)
  keyed : Keyed s.requests
  faithful : Faithful d.manager s.files
  copy : s.watcher = .idle → UpToDate d.manager a.copy s.files

/-- A state that the reader's invariant describes. -/
def Inv (d : Deployment) (s : State) : Prop :=
  ∃ a, Simulates d s a ∧ Announcement.Inv a

variable {d : Deployment} {s : State} {a : Announcement.State Database}

/-- A step publishes what its transaction issues, and nothing else. -/
theorem published_cases (d : Deployment) (s : Requests) (l : ReadCommitted.Label PyException) :
    (d.published s l = [] ∧ ∀ i, l = .step i → ¬Issued d.env publishes s i) ∨
      ∃ i c next, l = .step i ∧ (s.proc i).phase = .running (.call c next) ∧
        d.published s l = [some i] := by
  cases l with
  | step i =>
    by_cases hIssues : ∃ c next, (s.proc i).phase = .running (.call c next) ∧
        (publishes c && d.reaches i s.clock c) = true
    · obtain ⟨c, next, hPhase, hReaches⟩ := hIssues
      refine .inr ⟨i, c, next, rfl, hPhase, ?_⟩
      simp only [Deployment.published, hPhase, if_pos hReaches]
    · refine .inl ⟨?_, ?_⟩
      · simp only [Deployment.published]
        split
        · rename_i c next hPhase
          exact if_neg fun hReaches => hIssues ⟨c, next, hPhase, hReaches⟩
        · rfl
      · rintro _ ⟨⟩ ⟨c, next, a, hPhase, hKind, hOk⟩
        have hOk : d.external i s.clock c = .ok a := hOk
        exact hIssues ⟨c, next, hPhase, by simp [hKind, Deployment.reaches, hOk]⟩
  | fail i e => exact .inl ⟨rfl, fun _ h => nomatch h⟩
  | die i e => exact .inl ⟨rfl, fun _ h => nomatch h⟩

/-- The writer of a step that ends its transaction is over. -/
theorem Simulates.settle (h : Simulates d s a) {l : ReadCommitted.Label PyException}
    {a' : Announcement.State Database} (hSteps : Announcement.Steps a a')
    (hStore : a'.store = d.database (d.step (.request l) s).2)
    (hStream : a'.stream = s.stream ++ d.published s.requests l) (hReader : a'.reader = a.reader)
    (hCopy : a'.copy = a.copy) (hOver : ∀ j, j ≠ l.transaction → (a'.ended j ↔ a.ended j))
    (hEnded : a'.ended l.transaction →
      Ended (ReadCommitted.step d.env l s.requests).2 l.transaction)
    (hAnnounces : ∀ j, ((ReadCommitted.step d.env l s.requests).2.proc j).phase.Issues publishes
      (a'.announced j)) :
    ∃ a'', Announcement.Steps a a'' ∧ Simulates d (d.step (.request l) s).2 a'' := by
  have hKeyed := h.keyed.step d.env l
  have hOther : ∀ j, j ≠ l.transaction →
      (a'.ended j ↔ Ended (ReadCommitted.step d.env l s.requests).2 j) := by
    intro j hj
    rw [hOver j hj, h.ended j, Ended, Ended, ReadCommitted.proc_step hj]
  by_cases hEnds : Ended (ReadCommitted.step d.env l s.requests).2 l.transaction
  · refine ⟨a'.stop l.transaction, hSteps.tail (.stop _), ⟨hStore, hStream, hReader.trans h.reader,
      fun j => ?_, hAnnounces, hKeyed, h.faithful, fun hIdle => ?_⟩⟩
    · by_cases hj : j = l.transaction
      · subst hj
        exact iff_of_true (.inl rfl) hEnds
      · exact ((or_iff_right hj).trans (hOther j hj))
    · exact (congrArg (UpToDate d.manager · s.files) hCopy).mpr (h.copy hIdle)
  · refine ⟨a', hSteps, ⟨hStore, hStream, hReader.trans h.reader, fun j => ?_, hAnnounces, hKeyed,
      h.faithful, fun hIdle => ?_⟩⟩
    · by_cases hj : j = l.transaction
      · subst hj
        exact iff_of_false (fun hOver => hEnds (hEnded hOver)) hEnds
      · exact hOther j hj
    · rw [hCopy]
      exact h.copy hIdle

/-- A step of the requests, seen by the reader. -/
theorem Simulates.request (h : Simulates d s a) (l : ReadCommitted.Label PyException) :
    ∃ a', Announcement.Steps a a' ∧ Simulates d (d.step (.request l) s).2 a' := by
  have hOver : ∀ i, a.ended i → Ended (ReadCommitted.step d.env l s.requests).2 i := fun i hi =>
    Ended.step ((h.ended i).mp hi) l
  have hIssues := fun i => ReadCommitted.issues_step d.env statement_of_publishes l
    (h.announces i)
  rcases published_cases d s.requests l with
    ⟨hNone, hNotIssued⟩ | ⟨i, c, next, rfl, hPhase, hSome⟩
  · have hKept : ∀ j, ((ReadCommitted.step d.env l s.requests).2.proc j).phase.Issues publishes
        (a.announced j) := fun j =>
      (hIssues j).mono (Or.rec id fun hNow => absurd hNow.2 (hNotIssued j hNow.1))
    have hStream : a.stream = s.stream ++ d.published s.requests l := by
      rw [hNone, List.append_nil]
      exact h.stream
    by_cases hCommits : LetsCommit s.requests l
    · cases l with
      | fail i e => exact hCommits.elim
      | die i e => exact hCommits.elim
      | step i =>
        obtain ⟨hOpen, u, hPhase⟩ := hCommits
        have hAnnounced : a.announced i := by
          have hHere := h.announces i
          rw [hPhase] at hHere
          exact hHere
        have hNotOver : ¬a.ended i := by
          intro hi
          obtain ⟨r, hEnded⟩ := (h.ended i).mp hi
          rw [hPhase] at hEnded
          cases hEnded
        exact h.settle (.single (.commit i (d.database (d.step (.request (.step i)) s).2) hNotOver
          hAnnounced)) rfl hStream rfl rfl (fun j hj => or_iff_right hj)
          (fun _ => ReadCommitted.ended_of_commits ⟨hOpen, u, hPhase⟩) hKept
    · have hRows := ReadCommitted.committedRows_step d.env h.keyed hCommits
      refine h.settle .refl ?_ hStream rfl rfl (fun j _ => Iff.rfl) (hOver _) hKept
      rw [h.store, Deployment.database, Deployment.database]
      exact congrArg d.unwritten.database hRows.symm
  · have hCommits : ¬LetsCommit s.requests (.step i) := by
      rintro ⟨-, u, hReturns⟩
      rw [hPhase] at hReturns
      cases hReturns
    have hRows := ReadCommitted.committedRows_step d.env h.keyed hCommits
    refine h.settle (.single (.announce i)) ?_ ?_ rfl rfl (fun j _ => Iff.rfl) (hOver _) fun j => ?_
    · change a.store = _
      rw [h.store, Deployment.database, Deployment.database]
      exact congrArg d.unwritten.database hRows.symm
    · rw [hSome, ← h.stream]
      rfl
    · refine (hIssues j).mono (Or.rec .inr ?_)
      rintro ⟨hSame, -⟩
      cases hSame
      exact .inl rfl

/-- A step of the machine is a step of the reader and the writers. -/
theorem Simulates.step (h : Simulates d s a) {l : Label} (hSucceeds : Succeeds d s l)
    (hInTime : InTime s l) : ∃ a', Announcement.Steps a a' ∧ Simulates d (d.step l s).2 a' := by
  cases l with
  | request l => exact h.request l
  | receive k =>
    simp only [Deployment.step]
    split
    · rename_i message hIdle hMessage
      have hReader : a.reader = .idle := by rw [h.reader, hIdle]; rfl
      have hStream : a.stream = s.stream.take k ++ message :: s.stream.drop (k + 1) := by
        rw [h.stream, ← (List.getElem?_eq_some_iff.mp hMessage).2]
        simp
      refine ⟨_, .single (.take _ _ message hReader hStream), h.store, ?_, rfl, h.ended, h.announces,
        h.keyed, h.faithful, fun hNotIdle => nomatch hNotIdle⟩
      exact (List.eraseIdx_eq_take_drop_succ _ _).symm
    · exact ⟨a, .refl, h⟩
  | ack =>
    simp only [Deployment.step]
    split
    · rename_i message hReceived
      refine ⟨a, .refl, { h with reader := ?_, copy := fun hIdle => nomatch hIdle }⟩
      rw [h.reader, hReceived]
      rfl
    · exact ⟨a, .refl, h⟩
  | read =>
    simp only [Deployment.step]
    split
    · rename_i message hAcked
      have hReader : a.reader = .taken message := by rw [h.reader, hAcked]; rfl
      refine ⟨_, .single (.copy message hReader fun i hi => ?_), h.store, h.stream, ?_, h.ended,
        h.announces, h.keyed, h.faithful, fun hIdle => nomatch hIdle⟩
      · exact (h.ended i).mpr (hInTime i (hi ▸ hAcked))
      · exact congrArg Reader.copied h.store
    · exact ⟨a, .refl, h⟩
  | write call =>
    simp only [Deployment.step]
    split
    · rename_i db hRead
      have hReader : a.reader = .copied db := by rw [h.reader, hRead]; rfl
      obtain ⟨hFaithful, hUpToDate⟩ := Manager.applyConfigs_upToDate (hSucceeds db hRead) h.faithful
      exact ⟨_, .single (.finish db hReader), h.store, h.stream, rfl, h.ended, h.announces, h.keyed,
        hFaithful, fun _ => hUpToDate⟩
    · exact ⟨a, .refl, h⟩

theorem Inv.step (h : Inv d s) {l : Label} (hSucceeds : Succeeds d s l) (hInTime : InTime s l) :
    Inv d (d.step l s).2 := by
  obtain ⟨a, hSimulates, hInv⟩ := h
  obtain ⟨a', hSteps, hSimulates'⟩ := hSimulates.step hSucceeds hInTime
  exact ⟨a', hSimulates', hInv.steps hSteps⟩

theorem keyed_initial (rows : List Row) (backlog : Nat) (files : ConfigManager.World) :
    Keyed (d.initial rows backlog files).requests := by
  intro k hk
  refine ⟨List.find?_eq_none.mpr fun row hRow hSame => ?_, rfl⟩
  exact hk (List.mem_map.mpr ⟨row, hRow, of_decide_eq_true hSame⟩)

theorem inv_initial (rows : List Row) (backlog : Nat) {files : ConfigManager.World}
    (hFaithful : Faithful d.manager files) : Inv d (d.initial rows backlog files) := by
  refine ⟨{
    store := d.database (d.initial rows backlog files)
    copy := d.database (d.initial rows backlog files)
    stream := List.replicate backlog none
    reader := .taken none
    announced := fun _ => False
    ended := fun _ => False }, ?_, .start ⟨none, rfl⟩ fun _ h => h⟩
  refine ⟨rfl, rfl, rfl, fun i => ?_, fun i => issues_program d.codec (d.request i) False,
    keyed_initial rows backlog files, hFaithful, fun hIdle => nomatch hIdle⟩
  refine iff_of_false id ?_
  rintro ⟨r, hEnded⟩
  cases hEnded

open Transcript (transcript)

open ConfigManager (plainManager plainCall unrecorded unrecorded_faithful)

def storedCa (isActive : Bool) : Certificates.Certificate where
  id := "c1"
  certType := "ca"
  name := "Root"
  commonName := none
  notBefore := none
  notAfter := none
  keySize := none
  subjectAltNames := none
  pemData := "PEM"
  keyPemEncrypted := none
  chainPem := none
  isActive := isActive
  imported := true
  enabled := true
  tenantId := "T1"

/-- Every request activates the one CA. -/
def activating : Deployment where
  manager := plainManager
  unwritten := ⟨fun _ => none, [], [], []⟩
  codec := ⟨fun _ => none, fun _ => ⟨"ValueError", ""⟩, rfl⟩
  request _ := .activateCert ⟨"admin", "T1"⟩ "c1"
  external _ _ c := match c with
    | .inl (.publishFreeradiusApplyForCert _ _) => .ok ()
    | _ => .error ⟨"RuntimeError", ""⟩
  delivered _ _ := false
  newKey clock := toString clock
  uniqueViolation := ⟨"IntegrityError", ""⟩
  failedTransaction := ⟨"InternalError", ""⟩

abbrev inactiveCa : State :=
  activating.initial [.inl (storedCa false)] 0 (unrecorded fun _ => none)

def firstApply : List Label := [.read, .write plainCall]

/-- The activation, up to its message. -/
def activation : List Label := List.replicate 7 (.request (.step 0))

def committing : List Label := [.request (.step 0)]

theorem applies_plain (isActive : Bool) : Applies plainManager
    { plainCall with db := activating.unwritten.database [.inl (storedCa isActive)] } := by
  refine ⟨⟨fun _ => rfl, rfl, fun _ => rfl, fun _ => rfl, fun _ => rfl, fun _ _ => rfl⟩, ?_, ?_⟩
  · cases isActive
    · exact ⟨by decide, by decide, by decide⟩
    · exact ⟨by decide, by decide, by decide⟩
  · refine ⟨fun c hc hServer => ?_, List.forall_mem_nil _, List.forall_mem_nil _,
      List.forall_mem_nil _⟩
    obtain ⟨hStored, -⟩ := List.mem_filter.mp (Sorting.mem_sortBy.mp hc)
    obtain rfl := List.mem_singleton.mp hStored
    exact absurd hServer (show "ca" ≠ "server" by decide)

open Transcript (final)

theorem files_of_apply (d : Deployment) {s : State} (message : Option Nat)
    (hAcked : s.watcher = .acked message) (call : Call) :
    (final d.step s [.read, .write call]).files = d.apply (d.database s) call s.files := by
  simp [final, Deployment.step, hAcked]

theorem files_of_request (d : Deployment) (s : State) (l : ReadCommitted.Label PyException) :
    (final d.step s [.request l]).files = s.files := rfl

/-- The watcher has answered the message before the activation commits. -/
def readEarly : List Label :=
  firstApply ++ activation ++ [.receive 0, .ack] ++ [.read, .write plainCall]

theorem early_rows :
    activating.database (final activating.step inactiveCa (readEarly ++ committing)) =
    activating.unwritten.database [.inl (storedCa true)] := rfl

theorem early_files : (final activating.step inactiveCa readEarly).files =
    activating.apply (activating.unwritten.database [.inl (storedCa false)]) plainCall
      (activating.apply (activating.unwritten.database [.inl (storedCa false)]) plainCall
        (unrecorded fun _ => none)) := by
  rw [readEarly, Transcript.final_append, files_of_apply activating (some 0) rfl]
  have hRows : activating.database
      (final activating.step inactiveCa (firstApply ++ activation ++ [.receive 0, .ack])) =
      activating.unwritten.database [.inl (storedCa false)] := rfl
  rw [hRows]
  have hFiles : (final activating.step inactiveCa
      (firstApply ++ activation ++ [.receive 0, .ack])).files =
      (final activating.step inactiveCa firstApply).files := rfl
  rw [hFiles, firstApply, files_of_apply activating none rfl]
  rfl

theorem early_atRest :
    activating.AtRest (final activating.step inactiveCa (readEarly ++ committing)) := by
  refine ⟨fun i hInFlight => ?_, rfl, rfl⟩
  cases i with
  | zero => exact hInFlight.2 _ rfl
  | succ i => exact hInFlight.1 rfl

theorem succeeds_of_read {d : Deployment} {s : State} {call : Call} {db : Database}
    (hRead : s.watcher = .read db) (h : Applies d.manager { call with db := db }) :
    Succeeds d s (.write call) := by
  intro db' hRead'
  obtain rfl : db = db' := Phase.read.inj (hRead.symm.trans hRead')
  exact h

theorem inTime_of_start {s : State} (hAcked : s.watcher = .acked none) : InTime s .read := by
  intro i hAcked'
  cases Phase.acked.inj (hAcked.symm.trans hAcked')

theorem inTime_of_ended {s : State} (i : Nat) (hAcked : s.watcher = .acked (some i))
    (h : Ended s.requests i) : InTime s .read := by
  intro j hAcked'
  obtain rfl : i = j := Option.some.inj (Phase.acked.inj (hAcked.symm.trans hAcked'))
  exact h

theorem early_succeeds : ∀ e ∈ transcript activating.step inactiveCa (readEarly ++ committing),
    Succeeds activating e.pre e.input := by
  intro e he
  simp only [readEarly, firstApply, activation, committing, List.replicate, List.cons_append,
    List.nil_append, transcript, List.mem_cons, List.not_mem_nil, or_false] at he
  rcases he with rfl | rfl | rfl | rfl | rfl | rfl | rfl | rfl | rfl | rfl | rfl | rfl | rfl | rfl
  all_goals first | trivial | exact succeeds_of_read rfl (applies_plain false)

def caPath : Paths.Path := Paths.resolve (Paths.join plainManager.certDir "ca.pem")

/-- No apply of the run finds a certificate to write. -/
theorem early_caPath : (final activating.step inactiveCa readEarly).files.disk caPath = none := by
  have hOne : ∀ files, Faithful plainManager files →
      Faithful plainManager
        (activating.apply (activating.unwritten.database [.inl (storedCa false)]) plainCall files) ∧
      (activating.apply (activating.unwritten.database [.inl (storedCa false)]) plainCall
        files).disk caPath = files.disk caPath := by
    intro files hFaithful
    refine ⟨(Manager.applyConfigs_upToDate (applies_plain false) hFaithful).1, ?_⟩
    exact Manager.applyConfigs_certFile (applies_plain false) hFaithful rfl
      (ConfigManager.certFile_of_pem plainManager.certDir "ca")
  obtain ⟨hFaithful, hFirst⟩ := hOne _ (unrecorded_faithful plainManager fun _ => none)
  rw [early_files, (hOne _ hFaithful).2, hFirst]
  rfl

theorem early_committed_caPath :
    (final activating.step inactiveCa (readEarly ++ committing)).files.disk caPath = none := by
  rw [Transcript.final_append, committing, files_of_request, early_caPath]

/-- The same activation, read after its commit. -/
def readLate : List Label :=
  firstApply ++ activation ++ committing ++ [.receive 0, .ack] ++ [.read, .write plainCall]

end OpenRadiusWeb.ConfigWatcher
