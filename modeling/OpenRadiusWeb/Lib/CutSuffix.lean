import Mathlib.Data.List.Nodup
import Mathlib.Data.List.Infix

/-! # Names that grow by a suffix

A name is succeeded by itself with a suffix, and cut before the suffix where that would exceed a
width. The names of such a line grow until they have the width. From there on they differ in the
suffix alone.
-/

namespace CutSuffix

variable {α : Type}

def append (width : Nat) (x s : List α) : List α := x.take (width - s.length) ++ s

/-- The line that the name begins: the name, and what each suffix in turn makes of it. -/
def line (width : Nat) (x : List α) (ss : List (List α)) : List (List α) :=
  ss.scanl (append width) x

variable {width m : Nat} {x y s t : List α} {ss : List (List α)}

@[simp] theorem line_nil : line width x [] = [x] := List.scanl_nil

@[simp] theorem line_cons : line width x (s :: ss) = x :: line width (append width x s) ss :=
  List.scanl_cons

theorem length_append (hs : s.length ≤ width) :
    (append width x s).length = min width (x.length + s.length) := by
  rw [append, List.length_append, List.length_take]
  omega

theorem append_append (hx : width ≤ x.length) (hs : s.length ≤ width) (hst : s.length = t.length) :
    append width (append width x s) t = append width x t := by
  have hCut : (x.take (width - s.length)).length = width - t.length := by
    rw [List.length_take]
    omega
  rw [append, append, List.take_left' hCut, hst, append]

theorem eq_append_iff (hx : x.length = width) :
    x = append width x s ↔ s <:+ x := by
  constructor
  · intro h
    rw [h]
    exact List.suffix_append _ _
  · intro h
    rw [List.suffix_iff_eq_drop, hx] at h
    calc
      x = x.take (width - s.length) ++ x.drop (width - s.length) := (List.take_append_drop _ _).symm
      _ = append width x s := by rw [← h, append]

theorem length_le_of_mem (hs : ∀ s ∈ ss, s.length ≤ width) (hy : y ∈ line width x ss) :
    min width x.length ≤ y.length := by
  induction ss generalizing x with
  | nil =>
    rw [line_nil, List.mem_singleton] at hy
    rw [hy]
    exact Nat.min_le_right _ _
  | cons s ss ih =>
    have hLength : (append width x s).length = min width (x.length + s.length) :=
      length_append (hs s List.mem_cons_self)
    rw [line_cons, List.mem_cons] at hy
    rcases hy with rfl | hy
    · exact Nat.min_le_right _ _
    · have hNext := ih (fun t ht => hs t (List.mem_cons_of_mem s ht)) hy
      omega

/-- A line of names that have the width. -/
theorem mem_line_iff (hm : m ≤ width) (hs : ∀ s ∈ ss, s.length = m) (hx : x.length = width) :
    y ∈ line width x ss ↔ y = x ∨ ∃ s ∈ ss, y = append width x s := by
  induction ss generalizing x with
  | nil => simp
  | cons s ss ih =>
    have hFirst : s.length = m := hs s List.mem_cons_self
    have hLength : (append width x s).length = width := by
      rw [length_append (by omega)]
      omega
    have hSame : ∀ t ∈ ss, append width (append width x s) t = append width x t := by
      intro t ht
      have := hs t (List.mem_cons_of_mem s ht)
      exact append_append (by omega) (by omega) (by omega)
    rw [line_cons, List.mem_cons, ih (fun t ht => hs t (List.mem_cons_of_mem s ht)) hLength]
    simp only [List.mem_cons, exists_eq_or_imp]
    refine or_congr Iff.rfl (or_congr Iff.rfl (exists_congr fun t => and_congr_right fun ht => ?_))
    rw [hSame t ht]

/-- A name comes back when it has the width and the suffix of a later one. -/
theorem mem_rest_iff (hPos : 0 < m) (hm : m ≤ width) (hs : ∀ t ∈ s :: ss, t.length = m)
    (hx : x.length ≤ width) :
    x ∈ line width (append width x s) ss ↔ x.length = width ∧ ∃ t ∈ s :: ss, t <:+ x := by
  have hFirst : s.length = m := hs s List.mem_cons_self
  have hRest : ∀ t ∈ ss, t.length = m := fun t ht => hs t (List.mem_cons_of_mem s ht)
  have hLength : (append width x s).length = min width (x.length + s.length) :=
    length_append (by omega)
  constructor
  · intro hMem
    have hLonger := length_le_of_mem (fun t ht => (hRest t ht).trans_le hm) hMem
    have hFull : x.length = width := by omega
    refine ⟨hFull, ?_⟩
    rw [mem_line_iff hm hRest (by omega)] at hMem
    rcases hMem with hEq | ⟨t, ht, hEq⟩
    · exact ⟨s, List.mem_cons_self, (eq_append_iff hFull).mp hEq⟩
    · have hWidth := hRest t ht
      rw [append_append (by omega) (by omega) (by omega)] at hEq
      exact ⟨t, List.mem_cons_of_mem s ht, (eq_append_iff hFull).mp hEq⟩
  · rintro ⟨hFull, t, ht, hSuffix⟩
    have hEq := (eq_append_iff hFull).mpr hSuffix
    rw [mem_line_iff hm hRest (by omega)]
    rcases List.mem_cons.mp ht with rfl | ht
    · exact .inl hEq
    · have hWidth := hRest t ht
      refine .inr ⟨t, ht, ?_⟩
      rw [append_append (by omega) (by omega) (by omega)]
      exact hEq

/-- No name comes twice when the suffixes differ from where the names have the width. -/
theorem nodup_line_iff (hPos : 0 < m) (hm : m ≤ width) (hs : ∀ s ∈ ss, s.length = m)
    (hx : x.length ≤ width) :
    (line width x ss).Nodup ↔
      (ss.drop ((width - 1 - x.length) / m)).Nodup ∧
        (x.length = width → ∀ s ∈ ss, ¬ s <:+ x) := by
  induction ss generalizing x with
  | nil => simp
  | cons s ss ih =>
    have hFirst : s.length = m := hs s List.mem_cons_self
    have hLength : (append width x s).length = min width (x.length + s.length) :=
      length_append (by omega)
    rw [line_cons, List.nodup_cons, mem_rest_iff hPos hm hs hx,
      ih (fun t ht => hs t (List.mem_cons_of_mem s ht)) (by omega)]
    by_cases hCut : x.length + m < width
    · have hShort : x.length ≠ width := by omega
      have hNext : (append width x s).length ≠ width := by omega
      have hCount : (width - 1 - x.length) / m =
          (width - 1 - (append width x s).length) / m + 1 := by
        rw [Nat.div_eq_sub_div hPos (by omega)]
        congr 2
        omega
      rw [hCount, List.drop_succ_cons]
      simp [hShort, hNext]
    · have hNow : (width - 1 - x.length) / m = 0 := Nat.div_eq_of_lt (by omega)
      have hNext : (append width x s).length = width := by omega
      have hNone : (width - 1 - (append width x s).length) / m = 0 := Nat.div_eq_of_lt (by omega)
      have hSuffix : ∀ t ∈ ss, (t <:+ append width x s ↔ t = s) := by
        intro t ht
        have hSame : t.length = s.length := (hs t (List.mem_cons_of_mem s ht)).trans hFirst.symm
        constructor
        · intro h
          exact (List.suffix_of_suffix_length_le h (List.suffix_append _ _) hSame.le).eq_of_length
            hSame
        · rintro rfl
          exact List.suffix_append _ _
      rw [hNow, hNone, List.drop_zero, List.drop_zero, List.nodup_cons]
      constructor
      · rintro ⟨hFresh, hNodup, hApart⟩
        refine ⟨⟨?_, hNodup⟩, fun hFull t ht h => hFresh ⟨hFull, t, ht, h⟩⟩
        intro hMem
        exact hApart hNext s hMem ((hSuffix s hMem).mpr rfl)
      · rintro ⟨⟨hNew, hNodup⟩, hApart⟩
        refine ⟨fun ⟨hFull, t, ht, h⟩ => hApart hFull t ht h, hNodup, fun _ t ht h => ?_⟩
        rw [(hSuffix t ht).mp h] at ht
        exact hNew ht

end CutSuffix
