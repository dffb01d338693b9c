import Mathlib.Data.List.Nodup

/-! # Rows that are inserted or merged

INSERT ... ON CONFLICT (key) DO UPDATE on a table of rows, some of which have no key: such a row
conflicts with none. What many such statements leave of a row is the last value that each of its
columns was given.
-/

namespace Upsert

/-! ## The last value given -/

section LastGiven

variable {α β : Type} {f : α → Option β}

/-- The last value that is not null. -/
def lastGiven (f : α → Option β) (xs : List α) : Option β := (xs.filterMap f).getLast?

theorem lastGiven_append (xs ys : List α) :
    lastGiven f (xs ++ ys) = (lastGiven f ys).or (lastGiven f xs) := by
  rw [lastGiven, List.filterMap_append, List.getLast?_append]
  rfl

theorem lastGiven_singleton (x : α) : lastGiven f [x] = f x := by
  rw [lastGiven]
  cases h : f x with
  | none => rw [List.filterMap_cons_none h]; rfl
  | some y => rw [List.filterMap_cons_some h]; rfl

theorem lastGiven_cons (x : α) (xs : List α) :
    lastGiven f (x :: xs) = (lastGiven f xs).or (f x) := by
  rw [← List.singleton_append, lastGiven_append, lastGiven_singleton]

theorem lastGiven_again (xs ys : List α) : lastGiven f (xs ++ ys ++ ys) = lastGiven f (xs ++ ys) := by
  rw [lastGiven_append (xs ++ ys), lastGiven_append xs, ← Option.or_assoc, Option.or_self]

end LastGiven

/-! ## One statement -/

/-- The key on which rows of a table conflict, and the row that DO UPDATE makes of the excluded row
and the existing one; the key is not updated. -/
structure Rule (R κ : Type) where
  key : R → Option κ
  merge : R → R → R
  key_merge : ∀ excluded existing, key (merge excluded existing) = key existing

namespace Rule

variable {R κ : Type} [DecidableEq κ] (u : Rule R κ)

def lookup (k : κ) (rows : List R) : Option R := rows.find? fun r => decide (u.key r = some k)

/-- The row that is inserted or updated, and the table afterwards. -/
def upsert (row : R) (rows : List R) : R × List R :=
  match (u.key row).bind fun k => u.lookup k rows with
  | some existing =>
    (u.merge row existing, rows.map fun r => if u.key r = u.key row then u.merge row r else r)
  | none => (row, rows ++ [row])

variable {u} {row : R} {rows : List R} {k : κ}

theorem key_of_lookup {r : R} (h : u.lookup k rows = some r) : u.key r = some k :=
  of_decide_eq_true (List.find?_some (p := fun r => decide (u.key r = some k)) h)

theorem mem_of_lookup {r : R} (h : u.lookup k rows = some r) : r ∈ rows := List.mem_of_find?_eq_some h

theorem lookup_isSome_of_mem {r : R} (h : r ∈ rows) (hKey : u.key r = some k) :
    ∃ r', u.lookup k rows = some r' := by
  rw [← Option.isSome_iff_exists, lookup, List.find?_isSome]
  exact ⟨r, h, decide_eq_true hKey⟩

theorem upsert_of_some {existing : R} (hKey : u.key row = some k)
    (h : u.lookup k rows = some existing) :
    u.upsert row rows =
      (u.merge row existing, rows.map fun r => if u.key r = u.key row then u.merge row r else r) := by
  rw [upsert, hKey, Option.bind_some, h]

theorem upsert_of_none (h : ∀ k, u.key row = some k → u.lookup k rows = none) :
    u.upsert row rows = (row, rows ++ [row]) := by
  rw [upsert]
  cases hKey : u.key row with
  | none => rfl
  | some k => rw [Option.bind_some, h k hKey]

/-- A statement updates the row of its key or inserts its own. -/
theorem upsert_cases (row : R) (rows : List R) :
    (∃ k existing, u.key row = some k ∧ u.lookup k rows = some existing ∧ u.upsert row rows =
      (u.merge row existing, rows.map fun r => if u.key r = u.key row then u.merge row r else r)) ∨
    ((∀ k, u.key row = some k → u.lookup k rows = none) ∧ u.upsert row rows = (row, rows ++ [row])) := by
  cases hKey : u.key row with
  | none =>
    refine .inr ⟨?_, upsert_of_none ?_⟩
    · intro k h
      cases h
    · intro k h
      rw [hKey] at h
      cases h
  | some k =>
    cases hLookup : u.lookup k rows with
    | some existing =>
      refine .inl ⟨k, existing, rfl, hLookup, ?_⟩
      rw [upsert_of_some hKey hLookup, hKey]
    | none =>
      refine .inr ⟨?_, upsert_of_none ?_⟩
      · rintro _ ⟨⟩
        exact hLookup
      · intro k' hKey'
        rw [hKey] at hKey'
        cases hKey'
        exact hLookup

theorem upsert_fst (hKey : u.key row = some k) :
    (u.upsert row rows).1 = ((u.lookup k rows).map (u.merge row)).getD row := by
  cases hLookup : u.lookup k rows with
  | some existing => rw [upsert_of_some hKey hLookup]; rfl
  | none =>
    rw [upsert_of_none]
    · rfl
    · intro k' hKey'
      rw [hKey] at hKey'
      cases hKey'
      exact hLookup

/-- The row of the key is the one that was stored. -/
theorem lookup_upsert (hKey : u.key row = some k) :
    u.lookup k (u.upsert row rows).2 = some (u.upsert row rows).1 := by
  rcases upsert_cases (u := u) row rows with ⟨k', existing, hKey', hLookup, hUpsert⟩ | ⟨hNone, hUpsert⟩
  · rw [hKey] at hKey'
    cases hKey'
    have hSame : ∀ r, u.key (if u.key r = u.key row then u.merge row r else r) = u.key r := by
      intro r
      split
      · exact u.key_merge row r
      · rfl
    rw [hUpsert, lookup, List.find?_map]
    simp only [Function.comp_def, hSame]
    rw [lookup] at hLookup
    rw [hLookup, Option.map_some, if_pos ((key_of_lookup hLookup).trans hKey.symm)]
  · have hAbsent := hNone k hKey
    rw [lookup] at hAbsent
    rw [hUpsert, lookup, List.find?_append, hAbsent, Option.none_or, List.find?_singleton,
      if_pos (decide_eq_true hKey)]

/-- Rows that do not conflict stay as they are. -/
theorem filter_upsert_of_other {q : R → Bool} (hq : ∀ r, u.key r = u.key row → q r = false) :
    (u.upsert row rows).2.filter q = rows.filter q := by
  rcases upsert_cases (u := u) row rows with ⟨k, existing, -, -, hUpsert⟩ | ⟨-, hUpsert⟩
  · rw [hUpsert]
    clear hUpsert
    simp only
    induction rows with
    | nil => rfl
    | cons r rows ih =>
      rw [List.map_cons, List.filter_cons, List.filter_cons, ih]
      split
      next hKey =>
        have hMerged : q (u.merge row r) = false := hq _ ((u.key_merge row r).trans hKey)
        rw [hMerged, hq r hKey]
        rfl
      next => rfl
  · rw [hUpsert, List.filter_append, List.filter_cons, hq row rfl]
    exact List.append_nil _

theorem lookup_upsert_of_ne (h : u.key row ≠ some k) :
    u.lookup k (u.upsert row rows).2 = u.lookup k rows := by
  have hFilter : (u.upsert row rows).2.filter (fun r => decide (u.key r = some k)) =
      rows.filter fun r => decide (u.key r = some k) :=
    filter_upsert_of_other fun r hKey => decide_eq_false (hKey ▸ h)
  rw [lookup, lookup, ← List.head?_filter, ← List.head?_filter, hFilter]

/-- A column that is not updated. -/
theorem map_upsert {β : Type} {g : R → β}
    (hg : ∀ excluded existing, g (u.merge excluded existing) = g existing)
    (row : R) (rows : List R) :
    (u.upsert row rows).2.map g = rows.map g ∨
      (u.upsert row rows).1 = row ∧ (u.upsert row rows).2.map g = rows.map g ++ [g row] := by
  rcases upsert_cases (u := u) row rows with ⟨k, existing, -, -, hUpsert⟩ | ⟨-, hUpsert⟩
  · left
    rw [hUpsert, List.map_map]
    refine List.map_congr_left fun r _ => ?_
    rw [Function.comp_apply]
    split
    · exact hg row r
    · rfl
  · right
    rw [hUpsert, List.map_append]
    exact ⟨rfl, rfl⟩

/-- Every key is that of one row. -/
def Unique (rows : List R) : Prop := (rows.filterMap u.key).Nodup

theorem Unique.upsert (h : u.Unique rows) (row : R) : u.Unique (u.upsert row rows).2 := by
  rcases upsert_cases (u := u) row rows with ⟨k, existing, -, -, hUpsert⟩ | ⟨hNone, hUpsert⟩
  · have hKeys : (u.upsert row rows).2.filterMap u.key = rows.filterMap u.key := by
      rw [hUpsert, List.filterMap_map]
      refine List.filterMap_congr fun r _ => ?_
      rw [Function.comp_apply]
      split
      · exact u.key_merge row r
      · rfl
    rw [Unique, hKeys]
    exact h
  · rw [Unique, hUpsert, List.filterMap_append]
    cases hKey : u.key row with
    | none =>
      rw [List.filterMap_cons_none hKey, List.filterMap_nil, List.append_nil]
      exact h
    | some k =>
      rw [List.filterMap_cons_some hKey, List.filterMap_nil]
      rw [← List.concat_eq_append]
      refine List.Nodup.concat (fun hMem => ?_) h
      obtain ⟨r, hRow, hSame⟩ := List.mem_filterMap.mp hMem
      obtain ⟨r', hFound⟩ := lookup_isSome_of_mem hRow hSame
      rw [hNone k hKey] at hFound
      cases hFound

theorem Unique.filter (h : u.Unique rows) {r : R} (hLookup : u.lookup k rows = some r) :
    rows.filter (fun r => decide (u.key r = some k)) = [r] := by
  induction rows with
  | nil => cases hLookup
  | cons x rows ih =>
    rw [lookup, List.find?_cons] at hLookup
    rw [List.filter_cons]
    cases hKey : decide (u.key x = some k) with
    | true =>
      rw [hKey] at hLookup
      cases hLookup
      rw [Unique, List.filterMap_cons_some (of_decide_eq_true hKey), List.nodup_cons] at h
      rw [if_pos rfl, List.filter_eq_nil_iff.mpr]
      intro y hMem hSame
      exact h.1 (List.mem_filterMap.mpr ⟨y, hMem, of_decide_eq_true hSame⟩)
    | false =>
      rw [hKey] at hLookup
      rw [if_neg Bool.false_ne_true]
      refine ih ?_ hLookup
      exact h.sublist ((List.sublist_cons_self x rows).filterMap u.key)

/-! ## One statement after another -/

def upsertAll (u : Rule R κ) (new : List R) (rows : List R) : List R :=
  new.foldl (fun rows row => (u.upsert row rows).2) rows

theorem upsertAll_cons (row : R) (new rows : List R) :
    u.upsertAll (row :: new) rows = u.upsertAll new (u.upsert row rows).2 := rfl

theorem filter_upsertAll {q : R → Bool} {new : List R}
    (hq : ∀ row ∈ new, ∀ r, u.key r = u.key row → q r = false) (rows : List R) :
    (u.upsertAll new rows).filter q = rows.filter q := by
  induction new generalizing rows with
  | nil => rfl
  | cons row new ih =>
    rw [List.forall_mem_cons] at hq
    rw [upsertAll_cons, ih hq.2, filter_upsert_of_other hq.1]

theorem lookup_upsertAll_of_ne {new : List R} (h : ∀ row ∈ new, u.key row ≠ some k) (rows : List R) :
    u.lookup k (u.upsertAll new rows) = u.lookup k rows := by
  induction new generalizing rows with
  | nil => rfl
  | cons row new ih =>
    rw [List.forall_mem_cons] at h
    rw [upsertAll_cons, ih h.2, lookup_upsert_of_ne h.1]

theorem Unique.upsertAll (h : u.Unique rows) (new : List R) : u.Unique (u.upsertAll new rows) := by
  induction new generalizing rows with
  | nil => exact h
  | cons row new ih => exact ih (h.upsert row)

/-- A column that is overwritten has the last value given for the key. -/
theorem lookup_upsertAll {β : Type} {v : R → β}
    (hv : ∀ excluded existing, v (u.merge excluded existing) = v excluded)
    (k : κ) (new rows : List R) :
    (u.lookup k (u.upsertAll new rows)).map v =
      (lastGiven (fun r => if u.key r = some k then some (v r) else none) new).or
        ((u.lookup k rows).map v) := by
  induction new generalizing rows with
  | nil => rfl
  | cons row new ih =>
    rw [upsertAll_cons, ih, lastGiven_cons, Option.or_assoc]
    congr 1
    split
    next hKey =>
      rw [lookup_upsert hKey, upsert_fst hKey]
      cases u.lookup k rows with
      | none => rfl
      | some existing => exact congrArg some (hv row existing)
    next hKey => rw [lookup_upsert_of_ne hKey, Option.none_or]

end Rule

end Upsert
