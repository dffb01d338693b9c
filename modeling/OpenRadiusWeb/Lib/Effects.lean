import Mathlib.Logic.Basic

/-! # Computations whose effects survive an exception

A program that writes files, rows or packets and then raises leaves what it has
already written behind. `Eff` keeps the state of a raising computation, unlike a
state transformer over `Except`. The rules below say what sequencing and a handler do
with a run that returned and with one that raised.
-/

theorem Except.ok_of_bind {ε α β : Type} {x : Except ε α} {f : α → Except ε β} {b : β}
    (h : x >>= f = .ok b) : ∃ a, x = .ok a ∧ f a = .ok b := by
  cases x with
  | error e => cases h
  | ok a => exact ⟨a, rfl, h⟩

theorem Except.exists_ok_bind {ε α β : Type} {x : Except ε α} {f : α → Except ε β} :
    (∃ b, x >>= f = .ok b) ↔ ∃ a, x = .ok a ∧ ∃ b, f a = .ok b := by
  constructor
  · rintro ⟨b, h⟩
    obtain ⟨a, ha, hb⟩ := Except.ok_of_bind h
    exact ⟨a, ha, b, hb⟩
  · rintro ⟨a, rfl, b, hb⟩
    exact ⟨b, hb⟩

theorem Except.bind_succeeds {ε α β : Type} {x : Except ε α} {f : α → Except ε β} (h : ∃ a, x = .ok a)
    (hNext : ∀ a, ∃ b, f a = .ok b) : ∃ b, x >>= f = .ok b := by
  obtain ⟨a, ha⟩ := h
  exact Except.exists_ok_bind.mpr ⟨a, ha, hNext a⟩

theorem Except.exists_ok_bind_pure {ε α β : Type} {x : Except ε α} {g : α → β} :
    (∃ b, (x >>= fun a => pure (g a)) = .ok b) ↔ ∃ a, x = .ok a := by
  rw [Except.exists_ok_bind]
  exact exists_congr fun a => and_iff_left ⟨g a, rfl⟩

theorem Except.error_ne_ok {ε α : Type} {e : ε} {a : α} : (.error e : Except ε α) ≠ .ok a := by
  intro h
  cases h

theorem Except.error_not_ok {ε α : Type} {e : ε} : ¬∃ a, (.error e : Except ε α) = .ok a := by
  rintro ⟨a, h⟩
  exact error_ne_ok h

theorem Except.mapM_ok {ε α β : Type} {f : α → Except ε β} {g : α → β} {xs : List α}
    (h : ∀ x ∈ xs, f x = .ok (g x)) : xs.mapM f = .ok (xs.map g) := by
  induction xs with
  | nil => rfl
  | cons x xs ih =>
    rw [List.forall_mem_cons] at h
    rw [List.mapM_cons, h.1, ih h.2]
    rfl

theorem Except.ok_of_mapM {ε α β : Type} {f : α → Except ε β} {xs : List α} {ys : List β}
    (h : xs.mapM f = .ok ys) : ∀ x ∈ xs, ∃ y, f x = .ok y := by
  induction xs generalizing ys with
  | nil => exact List.forall_mem_nil _
  | cons x xs ih =>
    rw [List.mapM_cons] at h
    obtain ⟨y, hHead, h⟩ := Except.ok_of_bind h
    obtain ⟨zs, hTail, -⟩ := Except.ok_of_bind h
    exact List.forall_mem_cons.mpr ⟨⟨y, hHead⟩, ih hTail⟩

namespace Effects

/-- A computation over the state `σ` that returns an `α` or raises an `ε`. -/
def Eff (σ ε α : Type) : Type := σ → Except ε α × σ

namespace Eff

variable {σ ε α β : Type}

instance : Monad (Eff σ ε) where
  pure a := fun s => (.ok a, s)
  bind x f := fun s =>
    match x s with
    | (.ok a, s') => f a s'
    | (.error e, s') => (.error e, s')

def raise (e : ε) : Eff σ ε α := fun s => (.error e, s)

/-- `try x except e: handler e`. -/
def attempt (x : Eff σ ε α) (handler : ε → Eff σ ε α) : Eff σ ε α := fun s =>
  match x s with
  | (.ok a, s') => (.ok a, s')
  | (.error e, s') => handler e s'

def get : Eff σ ε σ := fun s => (.ok s, s)

def modify (f : σ → σ) : Eff σ ε Unit := fun s => (.ok (), f s)

/-- A pure computation that may raise. -/
def lift (x : Except ε α) : Eff σ ε α := fun s => (x, s)

@[simp] theorem pure_apply (a : α) (s : σ) : (pure a : Eff σ ε α) s = (.ok a, s) := rfl

theorem bind_apply (x : Eff σ ε α) (f : α → Eff σ ε β) (s : σ) :
    (x >>= f) s = match x s with
      | (.ok a, s') => f a s'
      | (.error e, s') => (.error e, s') := rfl

@[simp] theorem raise_apply (e : ε) (s : σ) : (raise e : Eff σ ε α) s = (.error e, s) := rfl

@[simp] theorem get_apply (s : σ) : (get : Eff σ ε σ) s = (.ok s, s) := rfl

@[simp] theorem modify_apply (f : σ → σ) (s : σ) :
    (modify f : Eff σ ε Unit) s = (.ok (), f s) := rfl

@[simp] theorem lift_apply (x : Except ε α) (s : σ) : (lift x : Eff σ ε α) s = (x, s) := rfl

theorem bind_of_ok {x : Eff σ ε α} {f : α → Eff σ ε β} {s s' : σ} {a : α}
    (h : x s = (.ok a, s')) : (x >>= f) s = f a s' := by
  rw [bind_apply, h]

theorem bind_of_error {x : Eff σ ε α} {f : α → Eff σ ε β} {s s' : σ} {e : ε}
    (h : x s = (.error e, s')) : (x >>= f) s = (.error e, s') := by
  rw [bind_apply, h]

theorem attempt_of_ok {x : Eff σ ε α} {handler : ε → Eff σ ε α} {s s' : σ} {a : α}
    (h : x s = (.ok a, s')) : attempt x handler s = (.ok a, s') := by
  rw [attempt, h]

theorem attempt_of_error {x : Eff σ ε α} {handler : ε → Eff σ ε α} {s s' : σ} {e : ε}
    (h : x s = (.error e, s')) : attempt x handler s = handler e s' := by
  rw [attempt, h]

theorem ok_of_bind {x : Eff σ ε α} {f : α → Eff σ ε β} {s s' : σ} {b : β}
    (h : (x >>= f) s = (.ok b, s')) : ∃ a m, x s = (.ok a, m) ∧ f a m = (.ok b, s') := by
  rw [bind_apply] at h
  rcases hx : x s with ⟨a | a, m⟩
  · rw [hx] at h
    cases h
  · exact ⟨a, m, rfl, by rwa [hx] at h⟩

/-! ## What every run does to the state -/

/-- Every run takes the state along the relation, whether it returns or raises. -/
def Along (R : σ → σ → Prop) (x : Eff σ ε α) : Prop := ∀ s, R s (x s).2

section Along

variable {R : σ → σ → Prop} (hRefl : ∀ s, R s s)
  (hTrans : ∀ s s' s'', R s s' → R s' s'' → R s s'')

include hRefl in
theorem along_pure (a : α) : Along R (pure a : Eff σ ε α) := hRefl

include hRefl in
theorem along_lift (x : Except ε α) : Along R (lift x : Eff σ ε α) := hRefl

include hRefl in
theorem along_get : Along R (get : Eff σ ε σ) := hRefl

include hTrans in
theorem along_bind {x : Eff σ ε α} {f : α → Eff σ ε β} (hx : Along R x) (hf : ∀ a, Along R (f a)) :
    Along R (x >>= f) := by
  intro s
  have hFirst := hx s
  rcases hRun : x s with ⟨e | a, s'⟩ <;> rw [hRun] at hFirst
  · rw [bind_of_error hRun]
    exact hFirst
  · rw [bind_of_ok hRun]
    exact hTrans s s' _ hFirst (hf a s')

include hTrans in
theorem along_attempt {x : Eff σ ε α} {handler : ε → Eff σ ε α} (hx : Along R x)
    (hHandler : ∀ e, Along R (handler e)) : Along R (attempt x handler) := by
  intro s
  have hFirst := hx s
  rcases hRun : x s with ⟨e | a, s'⟩ <;> rw [hRun] at hFirst
  · rw [attempt_of_error hRun]
    exact hTrans s s' _ hFirst (hHandler e s')
  · rw [attempt_of_ok hRun]
    exact hFirst

include hRefl hTrans in
theorem along_foldlM {f : β → α → Eff σ ε β} (hf : ∀ b a, Along R (f b a)) (xs : List α) (b : β) :
    Along R (xs.foldlM f b) := by
  induction xs generalizing b with
  | nil => exact along_pure hRefl b
  | cons x xs ih =>
    rw [List.foldlM_cons]
    exact along_bind hTrans (hf b x) ih

end Along

end Eff

end Effects
