import Mathlib.Data.List.Sort
import Mathlib.Data.Prod.Lex
import Mathlib.Order.WithBot

/-! # Sorting by a key

`ORDER BY` and `sorted(key=...)` are one stable insertion sort by a key. Text is
compared by code points, integers by value, and a `NULL` after every integer.
-/

namespace Sorting

variable {α β : Type} [LinearOrder β]

/-- `sorted(xs, key=key)`. -/
def sortBy (key : α → β) (xs : List α) : List α :=
  xs.insertionSort fun a b => key a ≤ key b

/-- The ascending order of a nullable column. -/
def nullsLast : Option Int → WithTop Int
  | none => ⊤
  | some n => n

theorem sortBy_perm (key : α → β) (xs : List α) : (sortBy key xs).Perm xs :=
  List.perm_insertionSort _ xs

theorem pairwise_sortBy (key : α → β) (xs : List α) :
    (sortBy key xs).Pairwise fun a b => key a ≤ key b := by
  have : Std.Total fun a b => key a ≤ key b := ⟨fun a b => le_total (key a) (key b)⟩
  have : IsTrans α fun a b => key a ≤ key b := ⟨fun _ _ _ => le_trans⟩
  exact List.pairwise_insertionSort _ xs

theorem mem_sortBy {key : α → β} {xs : List α} {x : α} : x ∈ sortBy key xs ↔ x ∈ xs :=
  (sortBy_perm key xs).mem_iff

theorem sortBy_sortBy (key : α → β) (xs : List α) : sortBy key (sortBy key xs) = sortBy key xs :=
  (pairwise_sortBy key xs).insertionSort_eq

/-! ## Stability -/

theorem filter_sortBy (key : α → β) (xs : List α) (k : β) :
    (sortBy key xs).filter (fun x => key x = k) = xs.filter fun x => key x = k := by
  have hTies : (xs.filter fun x => key x = k).Pairwise fun a b => key a ≤ key b := by
    refine List.Pairwise.imp_of_mem (fun ha hb _ => ?_) (List.pairwise_of_forall fun _ _ => trivial)
    have hA := of_decide_eq_true (List.mem_filter.mp ha).2
    have hB := of_decide_eq_true (List.mem_filter.mp hb).2
    exact (hA.trans hB.symm).le
  have hSub : (xs.filter fun x => key x = k).Sublist (sortBy key xs) := by
    have : Std.Total fun a b => key a ≤ key b := ⟨fun a b => le_total (key a) (key b)⟩
    have : IsTrans α fun a b => key a ≤ key b := ⟨fun _ _ _ => le_trans⟩
    exact List.sublist_insertionSort hTies List.filter_sublist
  have hFilter := hSub.filter fun x => key x = k
  rw [List.filter_filter] at hFilter
  simp only [Bool.and_self] at hFilter
  exact (hFilter.eq_of_length ((sortBy_perm key xs).filter _).length_eq.symm).symm

theorem mem_iff_of_filters {key : α → β} {xs ys : List α}
    (h : ∀ k, (xs.filter fun x => key x = k) = ys.filter fun x => key x = k) {x : α} : x ∈ xs ↔ x ∈ ys := by
  have hBoth : x ∈ (xs.filter fun y => key y = key x) ↔ x ∈ ys.filter fun y => key y = key x := by
    rw [h (key x)]
  simpa [List.mem_filter] using hBoth

/-- Lists in the order of the key are determined by the elements with each key. -/
theorem eq_of_filters {key : α → β} {xs ys : List α} (hx : xs.Pairwise fun a b => key a ≤ key b)
    (hy : ys.Pairwise fun a b => key a ≤ key b)
    (h : ∀ k, (xs.filter fun x => key x = k) = ys.filter fun x => key x = k) : xs = ys := by
  induction xs generalizing ys with
  | nil =>
    cases ys with
    | nil => rfl
    | cons y ys => exact absurd ((mem_iff_of_filters h).mpr List.mem_cons_self) List.not_mem_nil
  | cons x xs ih =>
    cases ys with
    | nil => exact absurd ((mem_iff_of_filters h).mp List.mem_cons_self) List.not_mem_nil
    | cons y ys =>
      have hLe : key x ≤ key y := by
        obtain hSame | hIn := List.mem_cons.mp ((mem_iff_of_filters h).mpr List.mem_cons_self)
        · rw [hSame]
        · exact List.rel_of_pairwise_cons hx hIn
      have hGe : key y ≤ key x := by
        obtain hSame | hIn := List.mem_cons.mp ((mem_iff_of_filters h).mp List.mem_cons_self)
        · rw [hSame]
        · exact List.rel_of_pairwise_cons hy hIn
      have hKey : key x = key y := le_antisymm hLe hGe
      have hHere := h (key x)
      rw [List.filter_cons_of_pos (by simp), List.filter_cons_of_pos (by simp [hKey])] at hHere
      obtain ⟨rfl, -⟩ := List.cons.inj hHere
      refine congrArg (x :: ·) (ih hx.of_cons hy.of_cons fun k => ?_)
      have hAll := h k
      rw [List.filter_cons, List.filter_cons] at hAll
      split at hAll
      · exact (List.cons.inj hAll).2
      · exact hAll

/-- The sorted lists look the same exactly if the elements with each key do, in their order. -/
theorem map_sortBy_eq_iff {γ : Type} (f : α → γ) (key : γ → β) (xs ys : List α) :
    (sortBy (fun x => key (f x)) xs).map f = (sortBy (fun x => key (f x)) ys).map f ↔
      ∀ k, (xs.filter fun x => key (f x) = k).map f = (ys.filter fun x => key (f x) = k).map f := by
  have hFilter : ∀ (zs : List α) (k : β), ((sortBy (fun x => key (f x)) zs).map f).filter (fun c => key c = k) =
      (zs.filter fun x => key (f x) = k).map f := by
    intro zs k
    rw [List.filter_map, ← filter_sortBy (fun x => key (f x)) zs k]
    rfl
  have hSorted : ∀ zs : List α, ((sortBy (fun x => key (f x)) zs).map f).Pairwise fun a b => key a ≤ key b :=
    fun zs => List.pairwise_map.mpr (pairwise_sortBy (fun x => key (f x)) zs)
  constructor
  · intro h k
    rw [← hFilter, ← hFilter, h]
  · intro h
    refine eq_of_filters (hSorted xs) (hSorted ys) fun k => ?_
    rw [hFilter, hFilter, h]

end Sorting
