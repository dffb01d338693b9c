import OpenRadiusWeb.Lib.Program

/-! # A database session

The statements of a session run in one transaction. A statement that fails aborts it: every
later statement fails, and the commit at the end keeps nothing. A session that ends by an
exception is rolled back.
-/

open Effects (Eff)

/-- A transaction under way over databases `δ`. -/
structure Session (δ : Type) where
  committed : δ
  working : δ
  aborted : Bool

namespace Session

variable {δ ε α : Type}

def start (db : δ) : Session δ := ⟨db, db, false⟩

/-- A statement, answered by `failed` in an aborted transaction. -/
def execute (failed : ε) (statement : δ → Except ε (α × δ)) : Eff (Session δ) ε α := fun s =>
  if s.aborted then (.error failed, s)
  else
    match statement s.working with
    | .ok (a, working) => (.ok a, { s with working := working })
    | .error e => (.error e, { s with aborted := true })

/-- What a commit makes permanent. -/
def result (s : Session δ) : δ := if s.aborted then s.committed else s.working

/-- `async with session: ...`: commit after the body, roll back on an exception. -/
def transact (x : Eff (Session δ) ε α) (db : δ) : Except ε α × δ :=
  match x (start db) with
  | (.ok a, s) => (.ok a, s.result)
  | (.error e, _) => (.error e, db)

@[simp] theorem execute_aborted {failed : ε} {statement : δ → Except ε (α × δ)} {s : Session δ}
    (h : s.aborted = true) : execute failed statement s = (.error failed, s) := by
  rw [execute, if_pos h]

theorem execute_ok {failed : ε} {statement : δ → Except ε (α × δ)} {s : Session δ}
    (h : s.aborted = false) {a : α} {working : δ} (hOk : statement s.working = .ok (a, working)) :
    execute failed statement s = (.ok a, { s with working := working }) := by
  simp [execute, h, hOk]

theorem execute_error {failed : ε} {statement : δ → Except ε (α × δ)} {s : Session δ}
    (h : s.aborted = false) {e : ε} (hError : statement s.working = .error e) :
    execute failed statement s = (.error e, { s with aborted := true }) := by
  simp [execute, h, hError]

theorem execute_eq_ok {failed : ε} {statement : δ → Except ε (α × δ)} {s s' : Session δ} {a : α}
    (h : execute failed statement s = (.ok a, s')) :
    s.aborted = false ∧ ∃ working, statement s.working = .ok (a, working) ∧
      s' = { s with working := working } := by
  unfold execute at h
  by_cases hAborted : s.aborted = true
  · rw [if_pos hAborted] at h
    cases h
  · rw [if_neg hAborted] at h
    cases hStatement : statement s.working with
    | error e =>
      rw [hStatement] at h
      cases h
    | ok r =>
      rw [hStatement] at h
      cases h
      exact ⟨eq_false_of_ne_true hAborted, r.2, rfl, rfl⟩

theorem transact_error {x : Eff (Session δ) ε α} {db db' : δ} {e : ε}
    (h : transact x db = (.error e, db')) : db' = db := by
  unfold transact at h
  split at h
  · cases h
  · cases h
    rfl

theorem transact_ok {x : Eff (Session δ) ε α} {db db' : δ} {a : α}
    (h : transact x db = (.ok a, db')) : ∃ s, x (start db) = (.ok a, s) ∧ db' = s.result := by
  unfold transact at h
  split at h
  · cases h
    exact ⟨_, by assumption, rfl⟩
  · cases h

end Session

/-! ## Statements on one table -/

/-- A statement on a table with rows `R`, answered by an `α`. -/
inductive SqlAction (R α : Type)
  | select (p : R → Bool) (answer : List R → α)
  /-- UPDATE, or DELETE of the rows that `f` maps to nothing; answered by the new rows. -/
  | update (p : R → Bool) (f : R → Option R) (answer : List R → α)
  /-- INSERT of the row made from a generated key. -/
  | insert (row : String → R) (answer : R → α)
  /-- INSERT into a table that nothing here reads. -/
  | append (answer : α)

/-- A statement on its own; a row that clashes with one of the table is refused. -/
def SqlAction.perform {R ε α : Type} (clashes : R → R → Bool) (clash : ε) (newKey : String) :
    SqlAction R α → List R → Except ε (α × List R)
  | .select p answer, rows => .ok (answer (rows.filter p), rows)
  | .update p f answer, rows =>
    .ok (answer ((rows.filter p).filterMap f),
      rows.filterMap fun row => if p row then f row else some row)
  | .insert row answer, rows =>
    if rows.any (clashes (row newKey)) then .error clash
    else .ok (answer (row newKey), rows ++ [row newKey])
  | .append answer, rows => .ok (answer, rows)
