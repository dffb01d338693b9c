import OpenRadiusWeb.Secrets.Rotation

/-! # Walking over a column

A script selects the rows of a table and writes some of them back under their keys. Since keys
are unique, such a walk is a map over the rows.
-/

namespace OpenRadiusWeb.Secrets

variable {ε T : Type} {table column : String} {db db' : Database}

@[simp] theorem Row.set_id (row : Row) (column : String) (v : Option String) :
    (row.set column v).id = row.id := rfl

@[simp] theorem Row.set_value_self (row : Row) (column : String) (v : Option String) :
    (row.set column v).value column = v := Function.update_self ..

theorem Row.set_value_other {row : Row} {column c : String} {v : Option String} (h : c ≠ column) :
    (row.set column v).value c = row.value c := Function.update_of_ne h ..

theorem Row.set_unchanged {row : Row} {column : String} {v : Option String}
    (h : v = row.value column) : row.set column v = row := by
  simp [Row.set, h]

theorem setValue_other {rows : List Row} {id : String} {v : Option String}
    (h : id ∉ rows.map Row.id) :
    rows.map (fun row => if row.id = id then row.set column v else row) = rows := by
  conv_rhs => rw [← List.map_id rows]
  apply List.map_congr_left
  intro row hRow
  have hOther : row.id ≠ id := fun hSame => h (List.mem_map.mpr ⟨row, hRow, hSame⟩)
  exact if_neg hOther

theorem setValue_rows {row : Row} {done rest : List Row} {v : Option String}
    (hRows : db.rows table = done ++ row :: rest) :
    (db.setValue table column row.id v).rows table = done ++ row.set column v :: rest := by
  have hKeys := db.primaryKey table
  rw [hRows, List.map_append, List.map_cons, List.nodup_middle, List.nodup_cons,
    List.mem_append, not_or] at hKeys
  obtain ⟨⟨hDone, hRest⟩, -⟩ := hKeys
  have hUpdated : (db.setValue table column row.id v).rows table =
      (db.rows table).map (fun r => if r.id = row.id then r.set column v else r) := if_pos rfl
  rw [hUpdated, hRows, List.map_append, List.map_cons, setValue_other hDone,
    setValue_other hRest, if_pos rfl]

/-- What a step of a walk does to the database: nothing, when `g` leaves the row alone, or to
write the row under its key as `g` says. -/
def Writes (table column : String) (g : Row → Row) (row : Row) (db db' : Database) : Prop :=
  (db' = db ∧ g row = row) ∨
    ∃ v, db' = db.setValue table column row.id v ∧ g row = row.set column v

theorem foldlM_rows {f : T × Database → Row → Except ε (T × Database)} {g : Row → Row}
    (hStep : ∀ row acc acc', f acc row = .ok acc' → Writes table column g row acc.2 acc'.2)
    {rest : List Row} : ∀ (done : List Row) {acc acc' : T × Database},
    acc.2.rows table = done ++ rest → rest.foldlM f acc = .ok acc' →
    acc'.2.rows table = done ++ rest.map g ∧ ∀ t, t ≠ table → acc'.2.rows t = acc.2.rows t := by
  induction rest with
  | nil =>
    intro done acc acc' hRows h
    cases h
    exact ⟨hRows, fun _ _ => rfl⟩
  | cons row rest ih =>
    intro done acc acc' hRows h
    rw [List.foldlM_cons] at h
    obtain ⟨next, hRow, hRest⟩ := Except.ok_of_bind h
    have hHere : next.2.rows table = done ++ g row :: rest ∧
        ∀ t, t ≠ table → next.2.rows t = acc.2.rows t := by
      rcases hStep row acc next hRow with ⟨hSame, hRowSame⟩ | ⟨v, hWritten, hSet⟩
      · rw [hSame, hRowSame]
        exact ⟨hRows, fun _ _ => rfl⟩
      · rw [hWritten, hSet]
        exact ⟨setValue_rows hRows, fun t ht => if_neg ht⟩
    obtain ⟨hRowsHere, hElse⟩ := hHere
    rw [List.append_cons] at hRowsHere
    obtain ⟨hAfter, hOther⟩ := ih _ hRowsHere hRest
    refine ⟨?_, fun t ht => (hOther t ht).trans (hElse t ht)⟩
    rw [hAfter, List.map_cons, ← List.append_cons]

/-! ## Values through a run -/

/-- The rows stay, and each of their values changes as `R` says. -/
def Cells (R : String → String → Option String → Option String → Prop) (db db' : Database) : Prop :=
  ∀ t, List.Forall₂ (fun row row' => row'.id = row.id ∧ ∀ c, R t c (row.value c) (row'.value c))
    (db.rows t) (db'.rows t)

theorem cells_refl {R : String → String → Option String → Option String → Prop}
    (h : ∀ t, ∀ row ∈ db.rows t, ∀ c, R t c (row.value c) (row.value c)) : Cells R db db := fun t =>
  List.forall₂_same.mpr fun row hRow => ⟨rfl, h t row hRow⟩

/-- What holds of the values before a column is walked through holds of them after, if the
walk keeps it. -/
theorem Cells.walk {R Q : String → String → Option String → Option String → Prop}
    {db₀ : Database} {g : String → Option String → Option String} (hCells : Cells R db₀ db)
    (hRows : db'.rows table =
      (db.rows table).map fun row => row.set column (g row.id (row.value column)))
    (hOther : ∀ t, t ≠ table → db'.rows t = db.rows t)
    (hHere : ∀ id v₀ v, R table column v₀ v → Q table column v₀ (g id v))
    (hElse : ∀ t c v₀ v, ¬ (t = table ∧ c = column) → R t c v₀ v → Q t c v₀ v) :
    Cells Q db₀ db' := by
  intro t
  by_cases ht : t = table
  · subst ht
    rw [hRows, List.forall₂_map_right_iff]
    refine (hCells t).imp fun row₀ row hRow => ⟨hRow.1, fun c => ?_⟩
    by_cases hc : c = column
    · subst hc
      rw [Row.set_value_self]
      exact hHere row.id _ _ (hRow.2 c)
    · rw [Row.set_value_other hc]
      exact hElse t c _ _ (fun hSame => hc hSame.2) (hRow.2 c)
  · rw [hOther t ht]
    exact (hCells t).imp fun row₀ row hRow =>
      ⟨hRow.1, fun c => hElse t c _ _ (fun hSame => ht hSame.1) (hRow.2 c)⟩

theorem Cells.and {R Q : String → String → Option String → Option String → Prop}
    (hR : Cells R db db') (hQ : Cells Q db db') :
    Cells (fun t c v v' => R t c v v' ∧ Q t c v v') db db' := by
  intro t
  have hLeft := hR t
  have hRight := hQ t
  generalize db.rows t = rows at hLeft hRight
  generalize db'.rows t = rows' at hLeft hRight
  induction hLeft with
  | nil => exact .nil
  | cons hRow _ ih =>
    cases hRight with
    | cons hRow' hRest =>
      exact .cons ⟨hRow.1, fun c => ⟨hRow.2 c, hRow'.2 c⟩⟩ (ih hRest)

end OpenRadiusWeb.Secrets
