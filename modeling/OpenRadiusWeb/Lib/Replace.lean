import Mathlib.Data.List.Infix
import Mathlib.Data.List.Basic

/-! # Replacing a word

A text is cut at the occurrences of a word, found from the left and without overlap, and another
word is put at the cuts. When the text was itself made by putting words at marks, the cuts are the
marks and perhaps others: the word can arise from what stands beside a mark.
-/

namespace Replace

variable {α : Type}

/-- The word `v` at each mark. -/
def fill (v : List α) (ys : List (Option α)) : List α := ys.flatMap fun y => y.elim v fun x => [x]

@[simp] theorem fill_nil (v : List α) : fill v [] = [] := rfl

@[simp] theorem fill_none (v : List α) (ys : List (Option α)) : fill v (none :: ys) = v ++ fill v ys := rfl

@[simp] theorem fill_some (v : List α) (x : α) (ys : List (Option α)) :
    fill v (some x :: ys) = x :: fill v ys := rfl

@[simp] theorem fill_append (v : List α) (ys zs : List (Option α)) :
    fill v (ys ++ zs) = fill v ys ++ fill v zs := List.flatMap_append

@[simp] theorem fill_map_some (v xs : List α) : fill v (xs.map some) = xs := by
  induction xs with
  | nil => rfl
  | cons x xs ih => rw [List.map_cons, fill_some, ih]

variable {w : List α}

section Cut

variable [DecidableEq α]

/-- The text behind `k` letters that belong to the last occurrence; an occurrence is marked by
`none`. -/
def cutFrom (w : List α) : Nat → List α → List (Option α)
  | _, [] => []
  | k + 1, _ :: xs => cutFrom w k xs
  | 0, x :: xs =>
    if w <+: x :: xs then none :: cutFrom w (w.length - 1) xs else some x :: cutFrom w 0 xs

def cut (w : List α) (xs : List α) : List (Option α) := cutFrom w 0 xs

/-- `s.replace(w, v)`, for a word that is not empty. -/
def replace (w v : List α) (xs : List α) : List α := fill v (cut w xs)

/-- Only the whole word is both a beginning and an end of it. -/
def Unbordered (w : List α) : Prop := ∀ i, 0 < i → i < w.length → ¬w.drop i <+: w

instance (w : List α) : Decidable (Unbordered w) :=
  decidable_of_iff (∀ i ∈ List.range w.length, 0 < i → ¬w.drop i <+: w)
    ⟨fun h i hPos hLess => h i (List.mem_range.mpr hLess) hPos,
      fun h i hMem hPos => h i hPos (List.mem_range.mp hMem)⟩

theorem cutFrom_drop (k : Nat) (xs : List α) : cutFrom w k xs = cut w (xs.drop k) := by
  induction xs generalizing k with
  | nil => cases k <;> rfl
  | cons x xs ih =>
    cases k with
    | zero => rfl
    | succ k => exact ih k

theorem cut_append (hw : w ≠ []) (rest : List α) : cut w (w ++ rest) = none :: cut w rest := by
  obtain ⟨a, v, rfl⟩ := List.exists_cons_of_ne_nil hw
  rw [List.cons_append, cut, cutFrom, if_pos ⟨rest, rfl⟩, cutFrom_drop]
  simp

theorem cut_cons {x : α} {xs : List α} (h : ¬w <+: x :: xs) :
    cut w (x :: xs) = some x :: cut w xs := by
  rw [cut, cutFrom, if_neg h, cut]

theorem fill_cut (hw : w ≠ []) (xs : List α) : fill w (cut w xs) = xs := by
  induction hn : xs.length using Nat.strong_induction_on generalizing xs with
  | _ n ih =>
    cases xs with
    | nil => rfl
    | cons x xs =>
      by_cases h : w <+: x :: xs
      · obtain ⟨rest, hRest⟩ := h
        have hLess : rest.length < n := by
          have hSum := congrArg List.length hRest
          have hPos := List.length_pos_iff.mpr hw
          simp only [List.length_append] at hSum
          omega
        rw [← hRest, cut_append hw, fill_none, ih _ hLess rest rfl]
      · rw [cut_cons h, fill_some, ih xs.length (by simp at hn; omega) xs rfl]

/-- Renaming the letters does not move the cuts. -/
theorem cut_map {β : Type} [DecidableEq β] {f : α → β} (hf : Function.Injective f) (w xs : List α) :
    cut (w.map f) (xs.map f) = (cut w xs).map (Option.map f) := by
  have hFrom : ∀ k, cutFrom (w.map f) k (xs.map f) = (cutFrom w k xs).map (Option.map f) := by
    induction xs with
    | nil =>
      intro k
      cases k <;> rfl
    | cons x xs ih =>
      intro k
      cases k with
      | succ k => exact ih k
      | zero =>
        have hPrefix : w.map f <+: (x :: xs).map f ↔ w <+: x :: xs := List.prefix_map_iff_of_injective hf
        rw [List.map_cons] at hPrefix
        rw [List.map_cons, cutFrom, cutFrom]
        by_cases h : w <+: x :: xs
        · rw [if_pos h, if_pos (hPrefix.mpr h), List.length_map, ih]
          rfl
        · rw [if_neg h, if_neg (mt hPrefix.mp h), ih]
          rfl
  exact hFrom 0

end Cut

/-! ## Cutting a text with marks -/

/-- The second text has the marks of the first and `n` more, each at an occurrence of the word. -/
inductive Finds (w : List α) : List (Option α) → List (Option α) → Nat → Prop
  | nil : Finds w [] [] 0
  | letter {ys zs : List (Option α)} {n : Nat} (x : α) (h : Finds w ys zs n) :
    Finds w (some x :: ys) (some x :: zs) n
  | mark {ys zs : List (Option α)} {n : Nat} (h : Finds w ys zs n) : Finds w (none :: ys) (none :: zs) n
  | new {ys zs : List (Option α)} {n : Nat} (h : Finds w ys zs n) :
    Finds w (w.map some ++ ys) (none :: zs) (n + 1)

/-- A word that begins a text at a letter is spelled by letters: it cannot reach into a mark. -/
theorem letters_of_prefix (hBorder : Unbordered w) {x : α} {ys : List (Option α)}
    (h : w <+: fill w (some x :: ys)) : ∃ zs, some x :: ys = w.map some ++ zs := by
  -- along the word: `w.drop k` is still to be spelled, and it is a proper end of the word
  have hSpell : ∀ k, 0 < k → k ≤ w.length → ∀ ys, w.drop k <+: fill w ys →
      ∃ zs, ys = (w.drop k).map some ++ zs := by
    intro k hPos hLe
    induction hn : w.length - k generalizing k with
    | zero =>
      intro ys _
      rw [List.drop_eq_nil_of_le (by omega)]
      exact ⟨ys, rfl⟩
    | succ n ih =>
      intro ys hPrefix
      have hLess : k < w.length := by omega
      cases ys with
      | nil =>
        have hNil := List.prefix_nil.mp hPrefix
        rw [List.drop_eq_nil_iff] at hNil
        omega
      | cons y ys =>
        cases y with
        | none =>
          have hEnd : w.drop k <+: w :=
            List.prefix_of_prefix_length_le hPrefix ⟨fill w ys, rfl⟩ (by simp)
          exact absurd hEnd (hBorder k hPos hLess)
        | some y =>
          rw [fill_some, List.drop_eq_getElem_cons hLess, List.cons_prefix_cons] at hPrefix
          obtain ⟨rfl, hTail⟩ := hPrefix
          obtain ⟨zs, rfl⟩ := ih (k + 1) (by omega) (by omega) (by omega) ys hTail
          refine ⟨zs, ?_⟩
          rw [List.drop_eq_getElem_cons hLess]
          rfl
  cases w with
  | nil => exact ⟨_, rfl⟩
  | cons a v =>
    rw [fill_some, List.cons_prefix_cons] at h
    obtain ⟨rfl, hTail⟩ := h
    obtain ⟨zs, rfl⟩ := hSpell 1 (by omega) (by simp) ys hTail
    exact ⟨zs, rfl⟩

theorem finds_cut [DecidableEq α] (hw : w ≠ []) (hBorder : Unbordered w) (ys : List (Option α)) :
    ∃ n, Finds w ys (cut w (fill w ys)) n := by
  induction hn : ys.length using Nat.strong_induction_on generalizing ys with
  | _ n ih =>
    cases ys with
    | nil => exact ⟨0, .nil⟩
    | cons y ys =>
      rw [List.length_cons] at hn
      cases y with
      | none =>
        obtain ⟨m, hFinds⟩ := ih ys.length (by omega) ys rfl
        rw [fill_none, cut_append hw]
        exact ⟨m, hFinds.mark⟩
      | some x =>
        by_cases hPrefix : w <+: fill w (some x :: ys)
        · obtain ⟨zs, hZs⟩ := letters_of_prefix hBorder hPrefix
          have hLess : zs.length < n := by
            have hSum := congrArg List.length hZs
            have hPos := List.length_pos_iff.mpr hw
            simp only [List.length_cons, List.length_append, List.length_map] at hSum
            omega
          obtain ⟨m, hFinds⟩ := ih zs.length hLess zs rfl
          rw [hZs, fill_append, fill_map_some, cut_append hw]
          exact ⟨m + 1, hFinds.new⟩
        · obtain ⟨m, hFinds⟩ := ih ys.length (by omega) ys rfl
          rw [fill_some] at hPrefix ⊢
          rw [cut_cons hPrefix]
          exact ⟨m, hFinds.letter x⟩

namespace Finds

variable {ys zs : List (Option α)} {n : Nat}

theorem eq_of_zero (h : Finds w ys zs n) (hn : n = 0) : zs = ys := by
  induction h with
  | nil => rfl
  | letter x h ih => rw [ih hn]
  | mark h ih => rw [ih hn]
  | new h ih => cases hn

theorem count [DecidableEq α] (h : Finds w ys zs n) (v : List α) (a : α) :
    (fill v zs).count a + n * w.count a = (fill v ys).count a + n * v.count a := by
  induction h with
  | nil => simp
  | letter x h ih =>
    simp only [fill_some, List.count_cons]
    omega
  | mark h ih =>
    simp only [fill_none, List.count_append]
    omega
  | new h ih =>
    simp only [fill_none, fill_append, fill_map_some, List.count_append, Nat.add_mul, Nat.one_mul]
    omega

theorem length (h : Finds w ys zs n) (v : List α) :
    (fill v zs).length + n * w.length = (fill v ys).length + n * v.length := by
  induction h with
  | nil => simp
  | letter x h ih =>
    simp only [fill_some, List.length_cons]
    omega
  | mark h ih =>
    simp only [fill_none, List.length_append]
    omega
  | new h ih =>
    simp only [fill_none, fill_append, fill_map_some, List.length_append, Nat.add_mul, Nat.one_mul]
    omega

/-- With a word of the same length the texts are aligned, so the two words agree where a mark is
new. -/
theorem eq_of_fill (h : Finds w ys zs n) {v : List α} (hLength : v.length = w.length)
    (hFill : fill v zs = fill v ys) : zs = ys ∨ v = w := by
  induction h with
  | nil => exact .inl rfl
  | letter x h ih =>
    obtain hSame | hWord := ih (List.cons.inj hFill).2
    · exact .inl (by rw [hSame])
    · exact .inr hWord
  | mark h ih =>
    obtain hSame | hWord := ih (List.append_cancel_left hFill)
    · exact .inl (by rw [hSame])
    · exact .inr hWord
  | new h ih =>
    rw [fill_none, fill_append, fill_map_some] at hFill
    exact .inr (List.append_inj hFill hLength).1

theorem fill_eq_iff (h : Finds w ys zs n) (hw : w ≠ []) {v : List α} (hText : fill w zs = fill w ys) :
    fill v zs = fill v ys ↔ zs = ys ∨ v = w := by
  constructor
  · intro hFill
    have hLengths := h.length v
    rw [hFill] at hLengths
    obtain rfl | hPos := Nat.eq_zero_or_pos n
    · exact .inl (h.eq_of_zero rfl)
    · exact h.eq_of_fill (Nat.eq_of_mul_eq_mul_left hPos (Nat.add_left_cancel hLengths).symm) hFill
  · rintro (rfl | rfl)
    · rfl
    · exact hText

end Finds

end Replace
