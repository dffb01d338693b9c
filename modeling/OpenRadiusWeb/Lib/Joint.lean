import OpenRadiusWeb.Lib.Session

/-! # Two interfaces side by side

A program over the commands of one interface is one over the commands of both, and a
statement on one table is one on both that leaves the rows of the other alone.
-/

namespace Program

variable {κ κ' : Type} {ρ : κ → Type} {ρ' : κ' → Type} {ε α β : Type}

def left : Program κ ρ ε α → Program (κ ⊕ κ') (Sum.elim ρ ρ') ε α
  | .ret a => .ret a
  | .raise e => .raise e
  | .call c next => .call (.inl c) fun r => (next r).left

def right : Program κ' ρ' ε α → Program (κ ⊕ κ') (Sum.elim ρ ρ') ε α
  | .ret a => .ret a
  | .raise e => .raise e
  | .call c next => .call (.inr c) fun r => (next r).right

variable {kind : κ → Bool} {kind' : κ' → Bool} {before : Prop}

theorem Issues.left {p : Program κ ρ ε α} (h : p.Issues kind before) :
    (p.left : Program (κ ⊕ κ') (Sum.elim ρ ρ') ε α).Issues (Sum.elim kind kind') before := by
  induction p generalizing before with
  | ret a => exact h
  | raise e => trivial
  | call c next ih => exact fun r => ih r (h r)

theorem Issues.right {p : Program κ' ρ' ε α} (h : p.Issues kind' before) :
    (p.right : Program (κ ⊕ κ') (Sum.elim ρ ρ') ε α).Issues (Sum.elim kind kind') before := by
  induction p generalizing before with
  | ret a => exact h
  | raise e => trivial
  | call c next ih => exact fun r => ih r (h r)

end Program

/-! ## Statements -/

namespace SqlAction

variable {R S α : Type}

def left : SqlAction R α → SqlAction (R ⊕ S) α
  | .select p answer => .select (Sum.elim p fun _ => false) fun rows =>
      answer (rows.filterMap Sum.getLeft?)
  | .update p f answer =>
    .update (Sum.elim p fun _ => false) (Sum.elim (fun r => (f r).map .inl) fun s => some (.inr s))
      fun rows => answer (rows.filterMap Sum.getLeft?)
  | .insert row answer =>
    -- the row that was made is never of the other table
    .insert (fun key => .inl (row key)) (Sum.elim answer fun _ => answer (row ""))
  | .append answer => .append answer

def right : SqlAction S α → SqlAction (R ⊕ S) α
  | .select p answer => .select (Sum.elim (fun _ => false) p) fun rows =>
      answer (rows.filterMap Sum.getRight?)
  | .update p f answer =>
    .update (Sum.elim (fun _ => false) p) (Sum.elim (fun r => some (.inl r)) fun s => (f s).map .inr)
      fun rows => answer (rows.filterMap Sum.getRight?)
  | .insert row answer =>
    .insert (fun key => .inr (row key)) (Sum.elim (fun _ => answer (row "")) answer)
  | .append answer => .append answer

end SqlAction
