import OpenRadiusWeb.Lib.Doubles
import OpenRadiusWeb.Lib.Suppression
import Mathlib.Tactic.Linarith

/-! # The passive monitor's table of seen MACs

`_should_report` keeps the last report of each MAC and cleans its table when it is large. Time
differences and timestamps are doubles, so the table is cleaned by rounded values.
-/

namespace OpenRadiusWeb.PassiveMonitor

open Suppression

/-- A UTC datetime, as its microseconds from the epoch; the years are 1 to 9999. -/
structure Datetime where
  micros : ℤ
  low : -62135596800000000 ≤ micros
  high : micros ≤ 253402300799999999

instance : LE Datetime := ⟨fun a b => a.micros ≤ b.micros⟩

instance (a b : Datetime) : Decidable (a ≤ b) := inferInstanceAs (Decidable (a.micros ≤ b.micros))

/-- `total_seconds()` of a difference of microseconds. -/
def totalSeconds (micros : ℤ) : ℚ := Doubles.round (micros / 10 ^ 6)

/-- `timestamp()`: the seconds from the epoch. -/
def timestamp (v : Datetime) : ℚ := totalSeconds v.micros

def dedupSeconds : ℕ := 60

def cutoff (now : Datetime) : ℚ := Doubles.round (timestamp now - dedupSeconds * 2)

/-- `(now - last_seen).total_seconds() < self._dedup_seconds`. -/
def seenRecently (now lastSeen : Datetime) : Bool :=
  decide (totalSeconds (now.micros - lastSeen.micros) < dedupSeconds)

/-- The periodic cleanup of old entries. -/
def cleanup (now : Datetime) (seenMacs : Dict Datetime) : Dict Datetime :=
  if 10000 < seenMacs.length then seenMacs.filter fun item => decide (cutoff now < timestamp item.2)
  else seenMacs

def shouldReport (now : Datetime) (mac : String) (seenMacs : Dict Datetime) : Bool × Dict Datetime :=
  let lastSeen := seenMacs.get? mac
  if (lastSeen.any fun lastSeen => seenRecently now lastSeen) = true then (false, seenMacs)
  else (true, cleanup now (seenMacs.set mac now))

/-- `_should_report` with a table that is never cleaned. -/
def shouldReportUncleaned (now : Datetime) (mac : String) (seenMacs : Dict Datetime) :
    Bool × Dict Datetime :=
  let lastSeen := seenMacs.get? mac
  if (lastSeen.any fun lastSeen => seenRecently now lastSeen) = true then (false, seenMacs)
  else (true, seenMacs.set mac now)

/-! ## What rounding leaves of the times -/

theorem abs_totalSeconds_sub_le (micros : ℤ) :
    |totalSeconds micros - micros / 10 ^ 6| ≤ |(micros : ℚ) / 10 ^ 6| / 2 ^ 52 :=
  Doubles.abs_round_sub_le _

/-- No difference is rounded across the sixty seconds. -/
theorem totalSeconds_lt_iff (micros : ℤ) : totalSeconds micros < dedupSeconds ↔ micros < 60 * 10 ^ 6 := by
  have hError := abs_le.mp (abs_totalSeconds_sub_le micros)
  rw [dedupSeconds]
  push_cast
  constructor
  · intro hLt
    by_contra hFar
    rcases (not_lt.mp hFar).eq_or_lt with rfl | hMore
    · have hSixty : totalSeconds (60 * 10 ^ 6) = 60 := by
        have hRound : Doubles.round (60 : ℕ) = (60 : ℕ) := Doubles.round_natCast (by norm_num)
        have hWhole : ((60 * 10 ^ 6 : ℤ) : ℚ) / 10 ^ 6 = (60 : ℕ) := by norm_num
        rw [totalSeconds, hWhole, hRound]
        rfl
      exact hLt.ne hSixty
    · have hMicros : (60000001 : ℚ) ≤ micros := by
        exact_mod_cast (by omega : (60000001 : ℤ) ≤ micros)
      rw [abs_of_nonneg (by positivity)] at hError
      linarith [hError.1]
  · intro hLt
    have hMicros : (micros : ℚ) ≤ 59999999 := by
      exact_mod_cast (by omega : micros ≤ 59999999)
    rcases abs_cases ((micros : ℚ) / 10 ^ 6) with ⟨hAbs, -⟩ | ⟨hAbs, -⟩ <;>
      · rw [hAbs] at hError
        linarith [hError.2]

theorem abs_timestamp_sub_le (v : Datetime) : |timestamp v - v.micros / 10 ^ 6| ≤ 1 := by
  have hLow : (-62135596800000000 : ℚ) ≤ v.micros := by exact_mod_cast v.low
  have hHigh : (v.micros : ℚ) ≤ 253402300799999999 := by exact_mod_cast v.high
  have hAbs : |(v.micros : ℚ) / 10 ^ 6| ≤ 253402300800 := abs_le.mpr ⟨by linarith, by linarith⟩
  have hError := abs_totalSeconds_sub_le v.micros
  rw [timestamp]
  linarith

theorem cutoff_le (now : Datetime) : cutoff now ≤ now.micros / 10 ^ 6 - 117 := by
  have hTime := abs_le.mp (abs_timestamp_sub_le now)
  have hLow : (-62135596800000000 : ℚ) ≤ now.micros := by exact_mod_cast now.low
  have hHigh : (now.micros : ℚ) ≤ 253402300799999999 := by exact_mod_cast now.high
  have hError := Doubles.abs_round_sub_le (timestamp now - (dedupSeconds : ℚ) * 2)
  have hSixty : (dedupSeconds : ℚ) = 60 := by norm_num [dedupSeconds]
  have hAbs : |timestamp now - (dedupSeconds : ℚ) * 2| ≤ 253402300921 := by
    rw [hSixty]
    exact abs_le.mpr ⟨by linarith [hTime.1], by linarith [hTime.2]⟩
  have hUp : cutoff now - (timestamp now - (dedupSeconds : ℚ) * 2) ≤ 1 := by
    have hSmall : |timestamp now - (dedupSeconds : ℚ) * 2| / 2 ^ 52 ≤ 1 := by
      rw [div_le_one (by positivity)]
      linarith
    exact ((abs_le.mp hError).2).trans hSmall
  rw [hSixty] at hUp
  linarith [hTime.2]

/-- Cleaning keeps every entry of the last sixty seconds. -/
theorem cutoff_lt_timestamp {now v : Datetime} (h : now.micros - v.micros < 60 * 10 ^ 6) :
    cutoff now < timestamp v := by
  have hTime := abs_le.mp (abs_timestamp_sub_le v)
  have hNear : (now.micros : ℚ) - v.micros < 60 * 10 ^ 6 := by exact_mod_cast h
  linarith [cutoff_le now, hTime.1]

/-! ## The table -/

/-- A MAC is recent for sixty seconds. -/
def window : Window Datetime where
  recent := seenRecently
  expires now now' last hNow hOld := by
    rw [seenRecently, decide_eq_false_iff_not, totalSeconds_lt_iff, not_lt] at hOld ⊢
    have hLater : now.micros ≤ now'.micros := hNow
    omega

theorem recent_iff (now last : Datetime) :
    window.recent now last = true ↔ now.micros - last.micros < 60 * 10 ^ 6 := by
  have hRecent : window.recent now last = decide (totalSeconds (now.micros - last.micros) < dedupSeconds) := rfl
  rw [hRecent, decide_eq_true_iff, totalSeconds_lt_iff]

theorem cleanup_forgets : Forgets window cleanup := by
  constructor
  · intro now table hNodup
    rw [cleanup]
    split
    · exact hNodup.sublist (List.filter_sublist.map Prod.fst)
    · exact hNodup
  · intro now table mac hNodup
    rw [cleanup]
    split
    · rw [Dict.get?_filter hNodup]
      cases hGet : table.get? mac with
      | none => exact .inl rfl
      | some last =>
        rw [Option.filter_some]
        split
        next => exact .inl rfl
        next hCut =>
          refine .inr ⟨rfl, ?_⟩
          intro last' hLast
          cases hLast
          rw [Bool.eq_false_iff, Ne, recent_iff]
          exact fun hNear => hCut (decide_eq_true (cutoff_lt_timestamp hNear))
    · exact .inl rfl

theorem shouldReport_eq : shouldReport = report window cleanup := by
  funext now mac seenMacs
  rw [shouldReport, report]
  cases seenMacs.get? mac with
  | none => rfl
  | some last => rfl

theorem shouldReportUncleaned_eq : shouldReportUncleaned = report window keep := by
  funext now mac seenMacs
  rw [shouldReportUncleaned, report]
  cases seenMacs.get? mac with
  | none => rfl
  | some last => rfl

/-- Over every capture the answers are those of the table that is never cleaned: two reports of
a MAC are sixty seconds apart, and what is suppressed follows a report less than sixty seconds ago. -/
theorem capture_deduplicated {packets : List (Datetime × String)}
    (hSorted : packets.Pairwise fun p q => p.1 ≤ q.1) :
    said shouldReport [] packets = said shouldReportUncleaned [] packets ∧
      ((said shouldReport [] packets).Pairwise fun a b =>
        a.key = b.key → a.reported = true → b.reported = true → 60 * 10 ^ 6 ≤ b.time.micros - a.time.micros) ∧
      ∀ before packet after, said shouldReport [] packets = before ++ packet :: after →
        packet.reported = false →
        ∃ r ∈ before, r.reported = true ∧ r.key = packet.key ∧ packet.time.micros - r.time.micros < 60 * 10 ^ 6 := by
  have hSame : said shouldReport [] packets = said shouldReportUncleaned [] packets := by
    rw [shouldReport_eq, shouldReportUncleaned_eq]
    cases packets with
    | nil => rfl
    | cons p packets =>
      have hAgree : Agree window p.1 ([] : Dict Datetime) [] := ⟨List.nodup_nil, fun _ => .inl rfl⟩
      refine said_of_agree cleanup_forgets hSorted (fun q hMem => ?_) hAgree
      rw [List.mem_cons] at hMem
      rcases hMem with rfl | hMem
      · exact Int.le_refl q.1.micros
      · exact (List.pairwise_cons.mp hSorted).1 q hMem
  refine ⟨hSame, ?_, ?_⟩
  · rw [hSame, shouldReportUncleaned_eq]
    refine (reports_apart hSorted).imp fun {a b} hApart hKey hA hB => ?_
    rw [← not_lt, ← recent_iff, Bool.not_eq_true]
    exact hApart hKey hA hB
  · intro before packet after hSaid hSuppressed
    rw [hSame, shouldReportUncleaned_eq] at hSaid
    have hMade : Made ([] : Dict Datetime) [] := fun mac last hGet => absurd hGet (by simp)
    obtain ⟨r, hMem, hReported, hKey, hRecent⟩ := report_before hMade hSaid hSuppressed
    exact ⟨r, hMem, hReported, hKey, (recent_iff _ _).mp hRecent⟩

/-- One MAC at the epoch, half a minute later and after a minute. -/
def minute : List (Datetime × String) := [
  (⟨0, by decide, by decide⟩, "aa:bb:cc:dd:ee:ff"), (⟨30000000, by decide, by decide⟩, "aa:bb:cc:dd:ee:ff"),
  (⟨60000000, by decide, by decide⟩, "aa:bb:cc:dd:ee:ff")]

theorem capture_deduplicated_minute :
    said shouldReport [] minute = said shouldReportUncleaned [] minute ∧
      ((said shouldReport [] minute).Pairwise fun a b =>
        a.key = b.key → a.reported = true → b.reported = true → 60 * 10 ^ 6 ≤ b.time.micros - a.time.micros) ∧
      ∀ before packet after, said shouldReport [] minute = before ++ packet :: after →
        packet.reported = false →
        ∃ r ∈ before, r.reported = true ∧ r.key = packet.key ∧ packet.time.micros - r.time.micros < 60 * 10 ^ 6 :=
  capture_deduplicated (by decide)

end OpenRadiusWeb.PassiveMonitor
