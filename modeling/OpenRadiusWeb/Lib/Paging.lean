import Mathlib.Data.List.Nodup
import Mathlib.Data.List.Sort
import Mathlib.Data.List.Perm.Lattice
import Mathlib.Order.WithBot

/-! # Pages of an ordered list

`ORDER BY` leaves open how rows that compare equal are arranged, and every page is a query of its
own. The pages together are the rows, whatever is chosen on each page, exactly when rows that
compare equal lie on one page.
-/

namespace Paging

variable {α : Type}

/-- What `ORDER BY` compares by. -/
structure SortOrder (α : Type) where
  le : α → α → Prop
  decidable : DecidableRel le
  total : ∀ a b, le a b ∨ le b a
  trans : ∀ a b c, le a b → le b c → le a c

instance (o : SortOrder α) : DecidableRel o.le := o.decidable

namespace SortOrder

variable (o : SortOrder α)

/-- Ascending by a key. -/
def byKey {κ : Type} [LinearOrder κ] (key : α → κ) : SortOrder α where
  le a b := key a ≤ key b
  decidable _ _ := inferInstance
  total a b := le_total (key a) (key b)
  trans _ _ _ := le_trans

/-- `DESC`. -/
def reversed : SortOrder α where
  le a b := o.le b a
  decidable a b := o.decidable b a
  total a b := o.total b a
  trans a b c hab hbc := o.trans c b a hbc hab

theorem refl (a : α) : o.le a a := (o.total a a).elim id id

/-- The list is an arrangement of the rows. -/
structure Arranges (rows out : List α) : Prop where
  perm : out.Perm rows
  sorted : out.Pairwise o.le

def sort (rows : List α) : List α := rows.insertionSort o.le

theorem arranges_sort (rows : List α) : o.Arranges rows (o.sort rows) where
  perm := List.perm_insertionSort _ rows
  sorted := by
    have : Std.Total o.le := ⟨o.total⟩
    have : IsTrans α o.le := ⟨o.trans⟩
    exact List.pairwise_insertionSort _ rows

/-- The rows that come before `x` in every arrangement. -/
def before (rows : List α) (x : α) : Nat := rows.countP fun y => ¬ o.le x y

/-- The rows that come before `x` in some arrangement, and `x` itself. -/
def upTo (rows : List α) (x : α) : Nat := rows.countP fun y => o.le y x

variable {o} {rows out : List α} {x : α}

theorem Arranges.before_eq (h : o.Arranges rows out) (x : α) : o.before rows x = o.before out x :=
  (h.perm.countP_eq _).symm

theorem Arranges.upTo_eq (h : o.Arranges rows out) (x : α) : o.upTo rows x = o.upTo out x :=
  (h.perm.countP_eq _).symm

/-- Where a row stands in an arrangement. -/
theorem position {front back : List α} (h : (front ++ x :: back).Pairwise o.le) :
    o.before (front ++ x :: back) x ≤ front.length ∧ front.length < o.upTo (front ++ x :: back) x := by
  rw [List.pairwise_append, List.pairwise_cons] at h
  obtain ⟨-, ⟨hBack, -⟩, hFront⟩ := h
  constructor
  · have hNone : (x :: back).countP (fun y => ¬ o.le x y) = 0 := by
      rw [List.countP_eq_zero]
      intro y hy
      rcases List.mem_cons.mp hy with rfl | hy
      · simp [o.refl y]
      · simp [hBack y hy]
    rw [before, List.countP_append, hNone]
    exact List.countP_le_length
  · have hAll : front.countP (fun y => o.le y x) = front.length := by
      rw [List.countP_eq_length]
      intro y hy
      exact decide_eq_true (hFront y hy x List.mem_cons_self)
    rw [upTo, List.countP_append, hAll, List.countP_cons_of_pos (by simp [o.refl x])]
    omega

/-- What stands there in another arrangement is equal under the order. -/
theorem tied_of_position {y : α} {front back : List α} (h : (front ++ y :: back).Pairwise o.le)
    (hBefore : o.before (front ++ y :: back) x ≤ front.length)
    (hUpTo : front.length < o.upTo (front ++ y :: back) x) : o.le x y ∧ o.le y x := by
  rw [List.pairwise_append, List.pairwise_cons] at h
  obtain ⟨-, ⟨hBack, -⟩, hFront⟩ := h
  constructor
  · by_contra hNot
    have hAll : front.countP (fun z => ¬ o.le x z) = front.length := by
      rw [List.countP_eq_length]
      intro z hz
      exact decide_eq_true fun hLe => hNot (o.trans x z y hLe (hFront z hz y List.mem_cons_self))
    rw [before, List.countP_append, hAll, List.countP_cons_of_pos (by simp [hNot])] at hBefore
    omega
  · by_contra hNot
    have hNone : (y :: back).countP (fun z => o.le z x) = 0 := by
      rw [List.countP_eq_zero]
      intro z hz hLe
      rw [decide_eq_true_eq] at hLe
      rcases List.mem_cons.mp hz with rfl | hz
      · exact hNot hLe
      · exact hNot (o.trans y z x (hBack z hz) hLe)
    rw [upTo, List.countP_append, hNone] at hUpTo
    have hLength : front.countP (fun z => o.le z x) ≤ front.length := List.countP_le_length
    omega

end SortOrder

/-! ## Pages -/

/-- `LIMIT size OFFSET k * size`. -/
def page (size k : Nat) (out : List α) : List α := (out.drop (k * size)).take size

/-- The number of pages. -/
def pageCount (total size : Nat) : Nat := if total > 0 then (total + size - 1) / size else 0

/-- It is the least number of pages that cover the total. -/
theorem pageCount_le_iff {size : Nat} (hSize : 0 < size) (total n : Nat) :
    pageCount total size ≤ n ↔ total ≤ n * size := by
  rw [pageCount]
  split_ifs with hTotal
  · rw [← Nat.lt_succ_iff, Nat.div_lt_iff_lt_mul hSize, Nat.succ_mul]
    omega
  · omega

theorem lt_pageCount_iff {size : Nat} (hSize : 0 < size) (total n : Nat) :
    n < pageCount total size ↔ n * size < total := by
  have h := pageCount_le_iff hSize total n
  omega

theorem mem_page_iff {size : Nat} (hSize : 0 < size) {k : Nat} {out : List α} {x : α} :
    x ∈ page size k out ↔ ∃ front back, out = front ++ x :: back ∧ front.length / size = k := by
  constructor
  · intro h
    obtain ⟨front, back, hPage⟩ := List.append_of_mem h
    have hOut : out = (out.take (k * size) ++ front) ++ x :: (back ++ (out.drop (k * size)).drop size) := by
      conv_lhs => rw [← List.take_append_drop (k * size) out, ← List.take_append_drop size (out.drop (k * size))]
      rw [page] at hPage
      rw [hPage]
      simp
    refine ⟨_, _, hOut, ?_⟩
    have hFront : front.length < size := by
      have hLength := congrArg List.length hPage
      rw [page, List.length_take, List.length_append, List.length_cons] at hLength
      omega
    have hTake : (out.take (k * size)).length = k * size := by
      rw [List.length_take, Nat.min_eq_left]
      by_contra hShort
      rw [page, List.drop_eq_nil_of_le (by omega), List.take_nil] at h
      cases h
    rw [List.length_append, hTake, Nat.add_comm, Nat.add_mul_div_right _ _ hSize, Nat.div_eq_of_lt hFront,
      Nat.zero_add]
  · rintro ⟨front, back, rfl, hDiv⟩
    have hLow : k * size ≤ front.length := hDiv ▸ Nat.div_mul_le_self _ _
    have hHigh : front.length < (k + 1) * size := by
      rw [← Nat.div_lt_iff_lt_mul hSize, hDiv]
      exact Nat.lt_succ_self k
    rw [page, List.drop_append_of_le_length hLow, List.take_append, List.length_drop]
    rw [Nat.succ_mul] at hHigh
    obtain ⟨n, hRoom⟩ : ∃ n, size - (front.length - k * size) = n + 1 :=
      ⟨_, Nat.succ_pred_eq_of_pos (by omega) |>.symm⟩
    rw [hRoom, List.take_succ_cons]
    exact List.mem_append_right _ List.mem_cons_self

/-- The pages one after another, each from an arrangement of its own. -/
def concatPages (size n : Nat) (outs : Nat → List α) : List α :=
  (List.range n).flatMap fun k => page size k (outs k)

/-- Rows that are equal under the order lie on one page. -/
def OnePage (o : SortOrder α) (size : Nat) (rows : List α) : Prop :=
  ∀ x ∈ rows, o.before rows x / size = (o.upTo rows x - 1) / size

section Complete

variable {o : SortOrder α} {size : Nat} {rows out : List α} {x : α}

/-- With ties on one page, the page of a row does not depend on the arrangement. -/
theorem mem_page_of_onePage (hSize : 0 < size) (hTies : OnePage o size rows) (h : o.Arranges rows out) {k : Nat} :
    x ∈ page size k out ↔ x ∈ rows ∧ o.before rows x / size = k := by
  have hPage : ∀ {front back : List α}, out = front ++ x :: back →
      front.length / size = o.before rows x / size := by
    rintro front back rfl
    obtain ⟨hLow, hHigh⟩ := SortOrder.position h.sorted
    rw [← h.before_eq] at hLow
    rw [← h.upTo_eq] at hHigh
    have hMem : x ∈ rows := h.perm.mem_iff.mp (List.mem_append_right _ List.mem_cons_self)
    have hSame := hTies x hMem
    have hDivLow := Nat.div_le_div_right (c := size) hLow
    have hDivHigh := Nat.div_le_div_right (c := size) (Nat.le_sub_one_of_lt hHigh)
    omega
  rw [mem_page_iff hSize]
  constructor
  · rintro ⟨front, back, hOut, hDiv⟩
    refine ⟨h.perm.mem_iff.mp ?_, (hPage hOut).symm.trans hDiv⟩
    rw [hOut]
    exact List.mem_append_right _ List.mem_cons_self
  · rintro ⟨hMem, hDiv⟩
    obtain ⟨front, back, hOut⟩ := List.append_of_mem (h.perm.mem_iff.mpr hMem)
    exact ⟨front, back, hOut, (hPage hOut).trans hDiv⟩

theorem before_lt_length (hMem : x ∈ rows) : o.before rows x < rows.length := by
  have hLe : o.before rows x ≤ rows.length := List.countP_le_length
  refine lt_of_le_of_ne hLe fun hAll => ?_
  have hNot := of_decide_eq_true (List.countP_eq_length.mp hAll x hMem)
  exact hNot (o.refl x)

/-- The pages are the rows, whatever the arrangements, when ties lie on one page. -/
theorem concatPages_perm (hSize : 0 < size) (hRows : rows.Nodup) (hTies : OnePage o size rows)
    {outs : Nat → List α} (h : ∀ k < pageCount rows.length size, o.Arranges rows (outs k)) :
    (concatPages size (pageCount rows.length size) outs).Perm rows := by
  have hNodup : (concatPages size (pageCount rows.length size) outs).Nodup := by
    rw [concatPages, List.nodup_flatMap]
    constructor
    · intro k hk
      have hOut : (outs k).Nodup := (h k (List.mem_range.mp hk)).perm.nodup_iff.mpr hRows
      exact (hOut.sublist (List.drop_sublist _ _)).sublist (List.take_sublist _ _)
    · refine List.nodup_range.imp_of_mem fun {k l} hk hl hNe => ?_
      intro x hx hx'
      rw [mem_page_of_onePage hSize hTies (h k (List.mem_range.mp hk))] at hx
      rw [mem_page_of_onePage hSize hTies (h l (List.mem_range.mp hl))] at hx'
      exact hNe (hx.2.symm.trans hx'.2)
  rw [List.perm_ext_iff_of_nodup hNodup hRows]
  intro x
  rw [concatPages, List.mem_flatMap]
  constructor
  · rintro ⟨k, hk, hx⟩
    exact ((mem_page_of_onePage hSize hTies (h k (List.mem_range.mp hk))).mp hx).1
  · intro hx
    have hCount : o.before rows x / size < pageCount rows.length size := by
      rw [lt_pageCount_iff hSize]
      exact (Nat.div_mul_le_self _ _).trans_lt (before_lt_length hx)
    exact ⟨_, List.mem_range.mpr hCount, (mem_page_of_onePage hSize hTies (h _ hCount)).mpr ⟨hx, rfl⟩⟩

theorem SortOrder.Arranges.swap {u v : α} {front back : List α} (h : o.Arranges rows (front ++ u :: v :: back))
    (hTied : o.le v u) : o.Arranges rows (front ++ v :: u :: back) where
  perm := (List.Perm.append_left front (List.Perm.swap u v back)).trans h.perm
  sorted := by
    have hSorted := h.sorted
    rw [List.pairwise_append, List.pairwise_cons, List.pairwise_cons] at hSorted
    obtain ⟨hFront, ⟨hU, hV, hBack⟩, hAcross⟩ := hSorted
    rw [List.pairwise_append, List.pairwise_cons, List.pairwise_cons]
    rw [List.forall_mem_cons] at hU
    refine ⟨hFront, ⟨List.forall_mem_cons.mpr ⟨hTied, hV⟩, hU.2, hBack⟩, fun y hy z hz => hAcross y hy z ?_⟩
    simp only [List.mem_cons] at hz ⊢
    tauto

theorem not_nodup_of_two_pages {n k l : Nat} {outs : Nat → List α} (hkl : k < l) (hl : l < n)
    (hx : x ∈ page size k (outs k)) (hx' : x ∈ page size l (outs l)) : ¬ (concatPages size n outs).Nodup := by
  intro hNodup
  rw [concatPages, List.nodup_flatMap, List.pairwise_iff_getElem] at hNodup
  have hApart := hNodup.2 k l (by rw [List.length_range]; omega) (by rw [List.length_range]; exact hl) hkl
  rw [List.getElem_range, List.getElem_range] at hApart
  exact hApart hx hx'

/-- Two of the rows that are equal lie on either side of the end of a page. -/
theorem exists_astride (hSize : 0 < size) (h : o.Arranges rows out) (hNot : ¬ OnePage o size rows) :
    ∃ k front u v back, out = front ++ u :: v :: back ∧ front.length + 1 = (k + 1) * size ∧ o.le v u := by
  simp only [OnePage, not_forall] at hNot
  obtain ⟨x, hx, hNe⟩ := hNot
  have hSize' : o.before rows x < o.upTo rows x := by
    obtain ⟨front, back, hOut⟩ := List.append_of_mem (h.perm.mem_iff.mpr hx)
    have hSorted := h.sorted
    rw [hOut] at hSorted
    obtain ⟨hLow, hHigh⟩ := SortOrder.position hSorted
    rw [← hOut, ← h.before_eq] at hLow
    rw [← hOut, ← h.upTo_eq] at hHigh
    omega
  -- the end of the page of the first of them, counted in rows
  obtain ⟨m, hm⟩ : ∃ m, m + 1 = (o.before rows x / size + 1) * size :=
    ⟨_, Nat.succ_pred_eq_of_pos (Nat.mul_pos (Nat.succ_pos _) hSize)⟩
  have hFirst : o.before rows x ≤ m := by
    have hDiv := Nat.lt_div_mul_add hSize (a := o.before rows x)
    rw [Nat.succ_mul] at hm
    omega
  have hLast : m + 1 < o.upTo rows x := by
    have hLe : o.before rows x / size ≤ (o.upTo rows x - 1) / size := Nat.div_le_div_right (by omega)
    have hNext : o.before rows x / size + 1 ≤ (o.upTo rows x - 1) / size := by omega
    have hMul := (Nat.le_div_iff_mul_le hSize).mp hNext
    omega
  have hLength : m + 1 < out.length := by
    have hCount : o.upTo rows x ≤ rows.length := List.countP_le_length
    rw [h.perm.length_eq]
    omega
  obtain ⟨front, u, v, back, hFront, hOut⟩ :
      ∃ front u v back, front.length = m ∧ out = front ++ u :: v :: back := by
    refine ⟨out.take m, out[m], out[m + 1], out.drop (m + 2), List.length_take_of_le (by omega), ?_⟩
    rw [← List.drop_eq_getElem_cons, ← List.drop_eq_getElem_cons, List.take_append_drop]
  have hTied : ∀ {front back : List α} {y : α}, out = front ++ y :: back → m ≤ front.length →
      front.length ≤ m + 1 → o.le x y ∧ o.le y x := by
    intro front back y hOut hLow hHigh
    have hSorted := h.sorted
    have hBefore := h.before_eq x
    have hUpTo := h.upTo_eq x
    rw [hOut] at hSorted hBefore hUpTo
    exact SortOrder.tied_of_position hSorted (by omega) (by omega)
  have hOut' : out = (front ++ [u]) ++ v :: back := by rw [hOut, List.append_assoc, List.singleton_append]
  have hU := hTied hOut (by omega) (by omega)
  have hV := hTied hOut' (by simp [hFront]) (by simp [hFront])
  exact ⟨o.before rows x / size, front, u, v, back, hOut, by omega, o.trans v x u hV.2 hU.1⟩

/-- Where rows that are equal lie on two pages, some arrangements give a row twice. -/
theorem exists_not_perm (hSize : 0 < size) (hRows : rows.Nodup) (hNot : ¬ OnePage o size rows) :
    ∃ outs, (∀ k, o.Arranges rows (outs k)) ∧
      ¬ (concatPages size (pageCount rows.length size) outs).Perm rows := by
  have hSort := o.arranges_sort rows
  obtain ⟨k, front, u, v, back, hOut, hEnd, hTied⟩ := exists_astride hSize hSort hNot
  rw [hOut] at hSort
  have hSwap := hSort.swap hTied
  refine ⟨fun n => if n ≤ k then front ++ u :: v :: back else front ++ v :: u :: back, ?_, ?_⟩
  · intro n
    beta_reduce
    split
    · exact hSort
    · exact hSwap
  · intro hPerm
    have hLength := hSort.perm.length_eq
    simp only [List.length_append, List.length_cons] at hLength
    have hSucc : (k + 1) * size < rows.length := by omega
    refine not_nodup_of_two_pages (x := u) (Nat.lt_succ_self k) ((lt_pageCount_iff hSize _ _).mpr hSucc) ?_ ?_
      (hPerm.nodup_iff.mpr hRows)
    · rw [if_pos le_rfl, mem_page_iff hSize]
      refine ⟨front, v :: back, rfl, ?_⟩
      rw [Nat.div_eq_iff hSize]
      rw [Nat.succ_mul] at hEnd
      omega
    · rw [if_neg (by omega), mem_page_iff hSize]
      refine ⟨front ++ [v], back, by simp, ?_⟩
      rw [List.length_append, List.length_singleton, hEnd, Nat.mul_div_cancel _ hSize]

/-! ## Rows that become fewer -/

theorem concatPages_congr {n : Nat} {outs outs' : Nat → List α} (h : ∀ k < n, outs k = outs' k) :
    concatPages size n outs = concatPages size n outs' :=
  List.flatMap_congr fun k hk => by rw [h k (List.mem_range.mp hk)]

theorem concatPages_succ (n : Nat) (outs : Nat → List α) :
    concatPages size (n + 1) outs = concatPages size n outs ++ page size n (outs n) := by
  rw [concatPages, List.range_succ, List.flatMap_append, List.flatMap_singleton, ← concatPages]

theorem length_concatPages_le (n : Nat) (outs : Nat → List α) : (concatPages size n outs).length ≤ n * size := by
  induction n with
  | zero => simp [concatPages]
  | succ n ih =>
    have hPage : (page size n (outs n)).length ≤ size := List.length_take_le _ _
    rw [concatPages_succ, List.length_append, Nat.succ_mul]
    omega

/-- Rows that are gone when the last page is asked for are missing. -/
theorem not_perm_of_fewer {outs : Nat → List α} {n : Nat}
    (hLast : n * size < rows.length) (hFewer : (outs n).length < rows.length) :
    ¬ (concatPages size (n + 1) outs).Perm rows := by
  intro hPerm
  have hLength := hPerm.length_eq
  have hFront : (concatPages size n outs).length ≤ n * size := length_concatPages_le n outs
  have hPage : (page size n (outs n)).length ≤ (outs n).length - n * size := by
    rw [page, List.length_take, List.length_drop]
    omega
  rw [concatPages_succ, List.length_append] at hLength
  omega

/-- The pages of rows that may become fewer from one query to the next are the first rows,
whatever the arrangements, exactly when the rows stay and ties lie on one page. -/
theorem concatPages_perm_iff (hSize : 0 < size) {rows : Nat → List α} (hRows : (rows 0).Nodup)
    (hShrink : ∀ k, (rows (k + 1)).Sublist (rows k)) :
    (∀ outs : Nat → List α, (∀ k, o.Arranges (rows k) (outs k)) →
        (concatPages size (pageCount (rows 0).length size) outs).Perm (rows 0)) ↔
      (∀ k < pageCount (rows 0).length size, rows k = rows 0) ∧ OnePage o size (rows 0) := by
  have hAntitone : ∀ {i j : Nat}, i ≤ j → (rows j).Sublist (rows i) := by
    intro i j hij
    induction hij with
    | refl => exact List.Sublist.refl _
    | step _ ih => exact (hShrink _).trans ih
  constructor
  · intro hAll
    have hStay : ∀ k < pageCount (rows 0).length size, rows k = rows 0 := by
      intro k hk
      obtain ⟨n, hn⟩ := Nat.exists_eq_succ_of_ne_zero (Nat.ne_of_gt (Nat.zero_lt_of_lt hk))
      have hLast : (rows n).length = (rows 0).length := by
        by_contra hNe
        have hFewer := lt_of_le_of_ne (hAntitone (Nat.zero_le n)).length_le hNe
        have hPerm := hAll (fun k => o.sort (rows k)) fun k => o.arranges_sort (rows k)
        rw [hn] at hPerm
        refine not_perm_of_fewer ((lt_pageCount_iff hSize _ _).mp (by omega)) ?_ hPerm
        rw [(o.arranges_sort (rows n)).perm.length_eq]
        exact hFewer
      refine (hAntitone (Nat.zero_le k)).eq_of_length ?_
      have hLow := (hAntitone (show k ≤ n by omega)).length_le
      have hHigh := (hAntitone (Nat.zero_le k)).length_le
      omega
    refine ⟨hStay, ?_⟩
    by_contra hNot
    obtain ⟨outs, hOuts, hPerm⟩ := exists_not_perm hSize hRows hNot
    let outs' : Nat → List α := fun k => if k < pageCount (rows 0).length size then outs k else o.sort (rows k)
    have hSame : ∀ k < pageCount (rows 0).length size, outs' k = outs k := fun k hk => if_pos hk
    refine hPerm ((concatPages_congr hSame) ▸ hAll outs' fun k => ?_)
    by_cases hk : k < pageCount (rows 0).length size
    · rw [hSame k hk, hStay k hk]
      exact hOuts k
    · have hRest : outs' k = o.sort (rows k) := if_neg hk
      rw [hRest]
      exact o.arranges_sort (rows k)
  · rintro ⟨hStay, hTies⟩ outs hOuts
    refine concatPages_perm hSize hRows hTies fun k hk => ?_
    rw [← hStay k hk]
    exact hOuts k

theorem onePage_of_antisymm {rows : List α} (hSize : 0 < size) (hRows : rows.Nodup)
    (h : ∀ x ∈ rows, ∀ y ∈ rows, o.le x y → o.le y x → x = y) : OnePage o size rows := by
  by_contra hNot
  have hSort := o.arranges_sort rows
  obtain ⟨k, front, u, v, back, hOut, -, hTied⟩ := exists_astride hSize hSort hNot
  rw [hOut] at hSort
  have hSorted := hSort.sorted
  have hNodup := hSort.perm.nodup_iff.mpr hRows
  rw [List.pairwise_append, List.pairwise_cons] at hSorted
  have hMem : ∀ y ∈ u :: v :: back, y ∈ rows := fun y hy => hSort.perm.mem_iff.mp (List.mem_append_right _ hy)
  have hSame := h u (hMem u (by simp)) v (hMem v (by simp)) (hSorted.2.1.1 v List.mem_cons_self) hTied
  rw [hSame, List.nodup_append, List.nodup_cons] at hNodup
  exact hNodup.2.1.1 List.mem_cons_self

end Complete

end Paging
