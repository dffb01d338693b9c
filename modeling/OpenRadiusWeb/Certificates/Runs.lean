import OpenRadiusWeb.Certificates.Steps

/-! # Runs of interleaved requests

In every run whose deletions and deactivations are in order, at most one certificate of a
type is active, a type that has an active certificate keeps one, and none is deleted while
it is active. A deletion that follows an activation by another request breaks this.
-/

namespace OpenRadiusWeb.Certificates

open ReadCommitted (Slot Dead Keyed)
open Transcript (transcript final)

variable {env : GatewayEnv} {s : World} {i : Nat} {labels : List Label}

/-- What a step leaves of the active certificates. -/
structure Lasts (s s' : World) : Prop where
  active : ∀ T y, HasActive s T y → HasActive s' T y
  undeleted : ∀ k row, (s.slot k).committed = some row → row.isActive = true →
    (s'.slot k).committed ≠ none

theorem lasts_of_committed {s' : World}
    (h : ∀ k, (s'.slot k).committed = (s.slot k).committed) : Lasts s s' where
  active T y hHas := (hasActive_congr h).mpr hHas
  undeleted k row hRow _ := by simp [h, hRow]

theorem Inv.lasts_advance (hInv : Inv s) (env : GatewayEnv) (i : Nat) :
    Lasts s (ReadCommitted.advance env.readCommitted i s) := by
  by_cases hCommits : ReadCommitted.Commits s i
  · obtain ⟨hOpen, u, hPhase⟩ := hCommits
    obtain ⟨K, hCommitting⟩ := hInv.committing hOpen hPhase
    obtain ⟨u', hGoes, -⟩ := hCommitting.goes
    have hAdvance : ReadCommitted.advance env.readCommitted i s =
        (s.commit i).setPhase i (.ended (.ok u)) := by
      simp only [ReadCommitted.advance, hPhase, hOpen]
      rfl
    rw [hAdvance]
    refine ⟨fun T y hHas => ?_, fun k row hRow hActive => ?_⟩
    · exact commits_commit.hasActive hCommitting.settled hHas
    · exact commits_commit.spares hGoes.spares hRow hActive
  · exact lasts_of_committed (ReadCommitted.committed_advance hInv.typed.keyed hCommits)

theorem Inv.lasts_step (hInv : Inv s) (env : GatewayEnv) (l : Label) : Lasts s (env.step l s).2 := by
  cases l with
  | step i =>
    have hAdvance := hInv.lasts_advance env i
    exact ⟨hAdvance.active, hAdvance.undeleted⟩
  | fail i e => exact lasts_of_committed fun k => ReadCommitted.committed_failNow e k
  | die i e => exact lasts_of_committed fun k => ReadCommitted.committed_finish e k

theorem knows_nothing (hNone : ∀ k, (s.slot k).own i = none) : Knows s i Known.nothing where
  used _ _ _ hk := nomatch hk
  kindCommitted _ _ _ hk := nomatch hk
  kindOwn _ _ _ hk := nomatch hk
  dead _ _ _ hk := nomatch hk
  inserted _ hk := nomatch hk
  made k version hOwn := by
    rw [hNone k] at hOwn
    cases hOwn
  active _ _ hk := nomatch hk
  unwritten _ := hNone

/-- Before the first step. -/
theorem inv_initial {clock : Nat} {rows : List Certificate}
    (hSingle : AtMostOne (env.initial clock rows)) : Inv (env.initial clock rows) where
  typed := by
    refine ⟨fun k hk => ⟨?_, rfl⟩, fun k row hRow => ?_, fun k j row hRow => ?_,
      fun k j row row' _ hRow => ?_⟩
    · apply List.find?_eq_none.mpr
      intro row hRow hSame
      exact hk (List.mem_map.mpr ⟨row, hRow, of_decide_eq_true hSame⟩)
    · have hFound : rows.find? (fun c => c.id = k) = some row := hRow
      simpa using List.find?_some hFound
    · cases hRow
    · cases hRow
  stands j := by
    refine .inl ⟨Known.nothing, Disciplined.program env.lib (env.request j),
      knows_nothing fun _ => rfl, ?_, ?_, ?_⟩
    · intro k row _ _ hOwn
      cases hOwn
    · intro T y _
      refine .inl fun k version hOwn => ?_
      cases hOwn
    · intro T y a hArmed
      cases hArmed
  ordered := by
    intro j l T y a b _ hAims
    have hDisciplined := Disciplined.program env.lib (env.request j)
    obtain ⟨row, hOwn, -⟩ := aims_running hDisciplined rfl rfl hAims
    cases hOwn
  single := hSingle

/-- What a run does to the active certificates. -/
structure OneActive (env : GatewayEnv) (s : World) (labels : List Label) : Prop where
  single : ∀ e ∈ transcript env.step s labels, AtMostOne e.pre ∧ AtMostOne e.post
  persists : ∀ before after, labels = before ++ after → ∀ T y,
    HasActive (final env.step s before) T y → HasActive (final env.step s labels) T y
  undeleted : ∀ e ∈ transcript env.step s labels, ∀ k row, (e.pre.slot k).committed = some row →
    row.isActive = true → (e.post.slot k).committed ≠ none

theorem Inv.final (hInv : Inv s)
    (hOrderly : ∀ e ∈ transcript env.step s labels, Orderly e.pre e.input) :
    Inv (final env.step s labels) :=
  Transcript.final_invariant Inv (fun e => Orderly e.pre e.input)
    (fun _ _ hInv hOrderly => hInv.step hOrderly) hInv hOrderly

theorem Inv.hasActive_final (hInv : Inv s)
    (hOrderly : ∀ e ∈ transcript env.step s labels, Orderly e.pre e.input) {T y : String}
    (hHas : HasActive s T y) : HasActive (Transcript.final env.step s labels) T y := by
  have hKept : Inv (Transcript.final env.step s labels) ∧
      HasActive (Transcript.final env.step s labels) T y :=
    Transcript.final_invariant (fun s => Inv s ∧ HasActive s T y)
      (fun e => Orderly e.pre e.input)
      (fun _ l h hOrderly => ⟨h.1.step hOrderly, (h.1.lasts_step env l).active T y h.2⟩)
      ⟨hInv, hHas⟩ hOrderly
  exact hKept.2

/-- Every run from a table with at most one active certificate of a type, whose deletions
and deactivations are in order, keeps it that way. -/
theorem runs_oneActive (env : GatewayEnv) (clock : Nat) (rows : List Certificate)
    (labels : List Label) (hSingle : AtMostOne (env.initial clock rows))
    (hOrderly : ∀ e ∈ transcript env.step (env.initial clock rows) labels,
      Orderly e.pre e.input) : OneActive env (env.initial clock rows) labels := by
  have hInv := inv_initial hSingle
  have hAround := Transcript.invariant Inv Orderly (fun _ _ h => h.step) hInv hOrderly
  refine ⟨fun e he => ?_, ?_, fun e he => ?_⟩
  · obtain ⟨hPre, hPost⟩ := hAround e he
    exact ⟨hPre.single, hPost.single⟩
  · rintro before after rfl T y hHas
    rw [Transcript.transcript_append] at hOrderly
    have hMiddle := hInv.final fun e he => hOrderly e (List.mem_append_left _ he)
    rw [Transcript.final_append]
    exact hMiddle.hasActive_final (fun e he => hOrderly e (List.mem_append_right _ he)) hHas
  · intro k row hRow hActive
    have hLasts := ((hAround e he).1.lasts_step env e.input).undeleted k row hRow hActive
    have hStep : (env.step e.input e.pre).2 = e.post :=
      congrArg Prod.snd (Transcript.mem_transcript_step he)
    rwa [hStep] at hLasts

/-! ## A deletion that comes too late -/

def storedCert (id : String) (isActive : Bool) : Certificate where
  id := id
  certType := "server"
  name := "radius-" ++ id
  commonName := none
  notBefore := none
  notAfter := none
  keySize := none
  subjectAltNames := none
  pemData := "PEM " ++ id
  keyPemEncrypted := none
  chainPem := none
  isActive := isActive
  imported := true
  enabled := true
  tenantId := "T1"

/-- Request 0 deletes the certificate that every other request activates. -/
def deleteAndActivate : GatewayEnv where
  lib := ⟨fun _ => false, fun _ => "20250101", fun _ => ""⟩
  request
    | 0 => .deleteCert ⟨"admin", "T1"⟩ "b"
    | _ => .activateCert ⟨"admin", "T1"⟩ "b"
  external _ _ c := match c with
    | .publishFreeradiusApplyForCert _ _ => .ok ()
    | _ => .error ⟨"RuntimeError", ""⟩
  newId clock := toString clock
  uniqueViolation := ⟨"IntegrityError", ""⟩
  failedTransaction := ⟨"InternalError", ""⟩

abbrev oneOfTwoActive : World :=
  deleteAndActivate.initial 0 [storedCert "a" true, storedCert "b" false]

theorem single_oneOfTwoActive : AtMostOne oneOfTwoActive := by
  have hOnly : ∀ T y k, ActiveIn oneOfTwoActive T y k → k = "a" := by
    rintro T y k ⟨row, hRow, -, hActive⟩
    have hFound : [storedCert "a" true, storedCert "b" false].find? (fun c => c.id = k) = some row :=
      hRow
    have hMem := List.mem_of_find?_eq_some hFound
    have hId := List.find?_some hFound
    simp only [List.mem_cons, List.not_mem_nil, or_false] at hMem
    rcases hMem with rfl | rfl
    · exact (of_decide_eq_true hId).symm
    · cases hActive
  intro T y k k' hk hk'
  exact (hOnly T y k hk).trans (hOnly T y k' hk').symm

theorem delete_alone_oneActive : OneActive deleteAndActivate oneOfTwoActive
    [.step 0, .step 0, .step 0, .step 0, .step 0] := by
  apply runs_oneActive _ _ _ _ single_oneOfTwoActive
  intro e he
  simp only [transcript, List.mem_cons, List.not_mem_nil, or_false] at he
  rcases he with rfl | rfl | rfl | rfl | rfl
  · trivial
  · trivial
  · intro _ row hRow
    obtain rfl : storedCert "b" false = row := Option.some.inj hRow
    rfl
  · trivial
  · trivial

/-- The deletion looks the certificate up, and the activation then runs to its end. -/
def activatedMeanwhile : List Label :=
  [.step 0, .step 1, .step 1, .step 1, .step 1, .step 1, .step 1, .step 1, .step 1, .step 0,
    .step 0, .step 0]

/-- The deletion goes on and commits. -/
theorem late_delete_removes_active :
    AtMostOne oneOfTwoActive ∧
      ¬ OneActive deleteAndActivate oneOfTwoActive (activatedMeanwhile ++ [.step 0]) := by
  refine ⟨single_oneOfTwoActive, fun h => ?_⟩
  have hActive : ((final deleteAndActivate.step oneOfTwoActive activatedMeanwhile).slot
      "b").committed = some (storedCert "b" true) := by
    decide +kernel
  have hNone : ((final deleteAndActivate.step oneOfTwoActive
      (activatedMeanwhile ++ [.step 0])).slot "b").committed = none := by
    decide +kernel
  exact h.undeleted _ (Transcript.last_mem_transcript _ _ _) "b" _ hActive rfl hNone

end OpenRadiusWeb.Certificates
