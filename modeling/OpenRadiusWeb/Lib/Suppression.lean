import OpenRadiusWeb.Lib.Dict

/-! # Reports that are not repeated

A table keeps when each key was last reported, and a key that was reported recently is not
reported again. Forgetting entries that are no longer recent changes no answer, then or later.
-/

namespace Suppression

variable {τ : Type}

/-- A key at a time, and whether it was reported. -/
structure Said (τ : Type) where
  time : τ
  key : String
  reported : Bool

/-- The answers to one key after another, each with the table of the one before. -/
def said (answer : τ → String → Dict τ → Bool × Dict τ) : Dict τ → List (τ × String) → List (Said τ)
  | _, [] => []
  | table, (now, key) :: packets =>
    ⟨now, key, (answer now key table).1⟩ :: said answer (answer now key table).2 packets

theorem packets_of_said (answer : τ → String → Dict τ → Bool × Dict τ) (table : Dict τ)
    (packets : List (τ × String)) :
    (said answer table packets).map (fun s => (s.time, s.key)) = packets := by
  induction packets generalizing table with
  | nil => rfl
  | cons p packets ih =>
    obtain ⟨time, key⟩ := p
    rw [said, List.map_cons, ih]

variable [LE τ]

/-- Which earlier time is recent; what is not recent does not become so. -/
structure Window (τ : Type) [LE τ] where
  recent : τ → τ → Bool
  expires : ∀ now now' last, now ≤ now' → recent now last = false → recent now' last = false

variable (w : Window τ) (clean : τ → Dict τ → Dict τ)

/-- Whether the key is reported, and the table afterwards. -/
def report (now : τ) (key : String) (table : Dict τ) : Bool × Dict τ :=
  match table.get? key with
  | none => (true, clean now (table.set key now))
  | some last =>
    if w.recent now last = true then (false, table) else (true, clean now (table.set key now))

/-- The table as it is, without forgetting. -/
def keep (_ : τ) (table : Dict τ) : Dict τ := table

/-- Only entries that are not recent are forgotten. -/
structure Forgets : Prop where
  nodup : ∀ now table, (Dict.keys table).Nodup → (Dict.keys (clean now table)).Nodup
  old : ∀ now table key, (Dict.keys table).Nodup → (clean now table).get? key = table.get? key ∨
    (clean now table).get? key = none ∧ ∀ last, table.get? key = some last → w.recent now last = false

/-- The table is the full one but for entries that are no longer recent. -/
structure Agree (now : τ) (table full : Dict τ) : Prop where
  nodup : (Dict.keys table).Nodup
  old : ∀ key, table.get? key = full.get? key ∨
    table.get? key = none ∧ ∀ last, full.get? key = some last → w.recent now last = false

section Forgetting

variable {w clean} {now now' : τ} {table full : Dict τ} {key : String}

theorem Agree.later (h : Agree w now table full) (hNow : now ≤ now') : Agree w now' table full := by
  refine ⟨h.nodup, fun key => ?_⟩
  rcases h.old key with hSame | ⟨hNone, hOld⟩
  · exact .inl hSame
  · exact .inr ⟨hNone, fun last hLast => w.expires now now' last hNow (hOld last hLast)⟩

theorem Agree.set (h : Agree w now table full) (key : String) (value : τ) :
    Agree w now (table.set key value) (full.set key value) := by
  refine ⟨Dict.nodup_keys_set h.nodup key value, fun k => ?_⟩
  rcases eq_or_ne k key with rfl | hOther
  · rw [Dict.get?_set_self, Dict.get?_set_self]
    exact .inl rfl
  · rw [Dict.get?_set_of_ne _ _ hOther, Dict.get?_set_of_ne _ _ hOther]
    exact h.old k

theorem Agree.forget (h : Agree w now table full) (hClean : Forgets w clean) :
    Agree w now (clean now table) full := by
  refine ⟨hClean.nodup now table h.nodup, fun key => ?_⟩
  rcases hClean.old now table key h.nodup with hSame | ⟨hNone, hOld⟩
  · rw [hSame]
    exact h.old key
  · refine .inr ⟨hNone, fun last hLast => ?_⟩
    rcases h.old key with hSame | ⟨-, hOldFull⟩
    · exact hOld last (hSame.trans hLast)
    · exact hOldFull last hLast

/-- One answer is the same, and the tables still agree. -/
theorem report_of_agree (hClean : Forgets w clean) (h : Agree w now table full) (key : String) :
    (report w clean now key table).1 = (report w keep now key full).1 ∧
      Agree w now (report w clean now key table).2 (report w keep now key full).2 := by
  have hNext := (h.set key now).forget hClean
  rw [report, report]
  rcases h.old key with hSame | ⟨hNone, hOld⟩
  · rw [hSame]
    cases full.get? key with
    | none => exact ⟨rfl, hNext⟩
    | some last =>
      simp only
      split
      · exact ⟨rfl, h⟩
      · exact ⟨rfl, hNext⟩
  · rw [hNone]
    cases hFull : full.get? key with
    | none => exact ⟨rfl, hNext⟩
    | some last =>
      simp only [hOld last hFull]
      exact ⟨rfl, hNext⟩

/-- The answers are those of a table that never forgets. -/
theorem said_of_agree (hClean : Forgets w clean) {packets : List (τ × String)}
    (hSorted : packets.Pairwise fun p q => p.1 ≤ q.1) (hNow : ∀ p ∈ packets, now ≤ p.1)
    (h : Agree w now table full) : said (report w clean) table packets = said (report w keep) full packets := by
  induction packets generalizing now table full with
  | nil => rfl
  | cons p packets ih =>
    obtain ⟨time, key⟩ := p
    rw [List.pairwise_cons] at hSorted
    obtain ⟨hAnswer, hNext⟩ := report_of_agree hClean (h.later (hNow _ List.mem_cons_self)) key
    rw [said, said, hAnswer, ih hSorted.2 hSorted.1 hNext]

end Forgetting

/-! ## The answers of a table that never forgets -/

section Keeping

variable {w} {table : Dict τ}

theorem le_of_said {answer : τ → String → Dict τ → Bool × Dict τ} {now : τ}
    {packets : List (τ × String)} (hNow : ∀ p ∈ packets, now ≤ p.1)
    {s : Said τ} (h : s ∈ said answer table packets) : now ≤ s.time := by
  have hMem := List.mem_map_of_mem (f := fun s : Said τ => (s.time, s.key)) h
  rw [packets_of_said] at hMem
  exact hNow _ hMem

theorem not_recent_of_report {now last : τ} {key : String} (h : table.get? key = some last)
    (hReport : (report w keep now key table).1 = true) : w.recent now last = false := by
  rw [report, h] at hReport
  cases hRecent : w.recent now last with
  | false => rfl
  | true => simp [hRecent] at hReport

theorem recent_of_not_report {now : τ} {key : String} (hReport : (report w keep now key table).1 = false) :
    ∃ last, table.get? key = some last ∧ w.recent now last = true := by
  rw [report] at hReport
  cases hGet : table.get? key with
  | none => simp [hGet] at hReport
  | some last =>
    cases hRecent : w.recent now last with
    | false => simp [hGet, hRecent] at hReport
    | true => exact ⟨last, rfl, hRecent⟩

theorem table_of_report (now : τ) (key : String) (table : Dict τ) :
    (report w keep now key table).2 =
      if (report w keep now key table).1 = true then table.set key now else table := by
  rw [report]
  cases table.get? key with
  | none => rfl
  | some last =>
    simp only
    split <;> rfl

/-- What is reported of a key later is not recent to what the table has of it. -/
theorem not_recent_of_reported {packets : List (τ × String)}
    (hSorted : packets.Pairwise fun p q => p.1 ≤ q.1) {key : String} {last : τ}
    (h : table.get? key = some last) :
    ∀ s ∈ said (report w keep) table packets,
      s.key = key → s.reported = true → w.recent s.time last = false := by
  induction packets generalizing table last with
  | nil => exact fun s hMem => absurd hMem List.not_mem_nil
  | cons p packets ih =>
    obtain ⟨now, k⟩ := p
    rw [List.pairwise_cons] at hSorted
    rw [said, List.forall_mem_cons]
    constructor
    · rintro rfl hReport
      exact not_recent_of_report h hReport
    · intro s hMem hKey hReported
      rw [table_of_report] at hMem
      split at hMem
      next hReport =>
        rcases eq_or_ne key k with rfl | hOther
        · have hNow := le_of_said hSorted.1 hMem
          exact w.expires now s.time last hNow (not_recent_of_report h hReport)
        · exact ih hSorted.2 ((Dict.get?_set_of_ne _ _ hOther).trans h) s hMem hKey hReported
      next => exact ih hSorted.2 h s hMem hKey hReported

theorem reports_apart {packets : List (τ × String)} (hSorted : packets.Pairwise fun p q => p.1 ≤ q.1) :
    (said (report w keep) table packets).Pairwise fun a b =>
      a.key = b.key → a.reported = true → b.reported = true → w.recent b.time a.time = false := by
  induction packets generalizing table with
  | nil => exact List.Pairwise.nil
  | cons p packets ih =>
    obtain ⟨now, key⟩ := p
    rw [List.pairwise_cons] at hSorted
    rw [said, List.pairwise_cons]
    refine ⟨?_, ih hSorted.2⟩
    intro b hMem hKey hReport hReported
    rw [table_of_report, if_pos hReport] at hMem
    exact not_recent_of_reported hSorted.2 (Dict.get?_set_self _ _ _) b hMem hKey.symm hReported

/-- Every entry of the table is a report that was made. -/
def Made (table : Dict τ) (before : List (Said τ)) : Prop :=
  ∀ key last, table.get? key = some last → (⟨last, key, true⟩ : Said τ) ∈ before

theorem Made.next {before : List (Said τ)} (h : Made table before) (now : τ) (key : String) :
    Made (report w keep now key table).2 (before ++ [⟨now, key, (report w keep now key table).1⟩]) := by
  intro k last hGet
  rw [table_of_report] at hGet
  split at hGet
  next hReport =>
    rcases eq_or_ne k key with rfl | hOther
    · rw [Dict.get?_set_self] at hGet
      cases hGet
      rw [hReport]
      exact List.mem_append_right _ List.mem_cons_self
    · rw [Dict.get?_set_of_ne _ _ hOther] at hGet
      exact List.mem_append_left _ (h k last hGet)
  next => exact List.mem_append_left _ (h k last hGet)

/-- What is not reported follows a recent report of its key. -/
theorem report_before {packets : List (τ × String)} {before made after : List (Said τ)} {s : Said τ}
    (h : Made table made) (hSaid : said (report w keep) table packets = before ++ s :: after)
    (hSuppressed : s.reported = false) :
    ∃ r ∈ made ++ before, r.reported = true ∧ r.key = s.key ∧ w.recent s.time r.time = true := by
  induction packets generalizing table made before with
  | nil => simp [said] at hSaid
  | cons p packets ih =>
    obtain ⟨now, key⟩ := p
    rw [said] at hSaid
    cases before with
    | nil =>
      obtain ⟨rfl, -⟩ := List.cons.inj hSaid
      obtain ⟨last, hGet, hRecent⟩ := recent_of_not_report hSuppressed
      exact ⟨_, List.mem_append_left _ (h key last hGet), rfl, rfl, hRecent⟩
    | cons b before =>
      obtain ⟨rfl, hRest⟩ := List.cons.inj hSaid
      obtain ⟨r, hMem, hReport⟩ := ih (h.next now key) hRest
      rw [List.append_assoc, List.singleton_append] at hMem
      exact ⟨r, hMem, hReport⟩

end Keeping

end Suppression
