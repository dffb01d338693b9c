import OpenRadiusWeb.Lib.Effects

/-! # Programs as the commands they issue

A program issues one command after another and goes on with their answers; a command
that fails answers with an exception. The same program can be run to its end in one go
or step by step among others, so what is said of its commands holds of both.
-/

open Effects (Eff)

/-- Commands of type `κ`, where `c` is answered by a `ρ c`. -/
inductive Program (κ : Type) (ρ : κ → Type) (ε α : Type)
  | ret (a : α)
  | raise (e : ε)
  | call (c : κ) (next : Except ε (ρ c) → Program κ ρ ε α)

namespace Program

variable {κ : Type} {ρ : κ → Type} {ε α β σ : Type}

def bind : Program κ ρ ε α → (α → Program κ ρ ε β) → Program κ ρ ε β
  | .ret a, f => f a
  | .raise e, _ => .raise e
  | .call c next, f => .call c fun r => (next r).bind f

instance : Monad (Program κ ρ ε) where
  pure := .ret
  bind := bind

/-- `try p except e: handler e`. -/
def attempt : Program κ ρ ε α → (ε → Program κ ρ ε α) → Program κ ρ ε α
  | .ret a, _ => .ret a
  | .raise e, handler => handler e
  | .call c next, handler => .call c fun r => (next r).attempt handler

/-- Issue a command and let its exception through. -/
def command (c : κ) : Program κ ρ ε (ρ c) :=
  .call c fun
    | .ok a => .ret a
    | .error e => .raise e

/-- The same program, with each of its commands labelled. -/
def tag {τ : Type} (t : τ) : Program κ ρ ε α → Program (τ × κ) (fun c => ρ c.2) ε α
  | .ret a => .ret a
  | .raise e => .raise e
  | .call c next => .call (t, c) fun r => (next r).tag t

@[simp] theorem pure_eq (a : α) : (pure a : Program κ ρ ε α) = .ret a := rfl

@[simp] theorem ret_bind (a : α) (f : α → Program κ ρ ε β) : (.ret a : Program κ ρ ε α) >>= f = f a :=
  rfl

@[simp] theorem raise_bind (e : ε) (f : α → Program κ ρ ε β) :
    (.raise e : Program κ ρ ε α) >>= f = .raise e := rfl

@[simp] theorem call_bind (c : κ) (next : Except ε (ρ c) → Program κ ρ ε α)
    (f : α → Program κ ρ ε β) : .call c next >>= f = .call c fun r => next r >>= f := rfl

theorem bind_assoc {γ : Type} (p : Program κ ρ ε α) (f : α → Program κ ρ ε β)
    (g : β → Program κ ρ ε γ) : (p >>= f) >>= g = p >>= fun a => f a >>= g := by
  induction p with
  | ret a => rfl
  | raise e => rfl
  | call c next ih => exact congrArg (call c) (funext ih)

theorem tag_bind {τ : Type} (t : τ) (p : Program κ ρ ε α) (f : α → Program κ ρ ε β) :
    (p >>= f).tag t = p.tag t >>= fun a => (f a).tag t := by
  induction p with
  | ret a => rfl
  | raise e => rfl
  | call c next ih => exact congrArg (call (t, c)) (funext ih)

/-- Run to the end: `exec` says what a command does to the state. -/
def run (exec : (c : κ) → Eff σ ε (ρ c)) : Program κ ρ ε α → Eff σ ε α
  | .ret a => fun s => (.ok a, s)
  | .raise e => fun s => (.error e, s)
  | .call c next => fun s =>
    let (r, s') := exec c s
    (next r).run exec s'

variable {exec : (c : κ) → Eff σ ε (ρ c)}

@[simp] theorem run_ret (a : α) (s : σ) : (ret a : Program κ ρ ε α).run exec s = (.ok a, s) := rfl

@[simp] theorem run_raise (e : ε) (s : σ) :
    (raise e : Program κ ρ ε α).run exec s = (.error e, s) := rfl

@[simp] theorem run_command (c : κ) (s : σ) :
    (command c : Program κ ρ ε (ρ c)).run exec s = exec c s := by
  rcases h : exec c s with ⟨e | a, s'⟩ <;> simp [command, run, h]

theorem run_bind (p : Program κ ρ ε α) (f : α → Program κ ρ ε β) (s : σ) :
    (p >>= f).run exec s = match p.run exec s with
      | (.ok a, s') => (f a).run exec s'
      | (.error e, s') => (.error e, s') := by
  induction p generalizing s with
  | ret a => rfl
  | raise e => rfl
  | call c next ih => exact ih _ _

theorem run_bind_ok {p : Program κ ρ ε α} {f : α → Program κ ρ ε β} {s s'' : σ} {b : β}
    (h : (p >>= f).run exec s = (.ok b, s'')) :
    ∃ a s', p.run exec s = (.ok a, s') ∧ (f a).run exec s' = (.ok b, s'') := by
  rw [run_bind] at h
  rcases hp : p.run exec s with ⟨e | a, s'⟩
  · rw [hp] at h
    cases h
  · rw [hp] at h
    exact ⟨a, s', rfl, h⟩

theorem run_attempt (p : Program κ ρ ε α) (handler : ε → Program κ ρ ε α) (s : σ) :
    (p.attempt handler).run exec s = match p.run exec s with
      | (.ok a, s') => (.ok a, s')
      | (.error e, s') => (handler e).run exec s' := by
  induction p generalizing s with
  | ret a => rfl
  | raise e => rfl
  | call c next ih => exact ih _ _

theorem run_tag {τ : Type} {exec : (c : τ × κ) → Eff σ ε (ρ c.2)} (t : τ) (p : Program κ ρ ε α)
    (s : σ) : (p.tag t).run exec s = p.run (fun c => exec (t, c)) s := by
  induction p generalizing s with
  | ret a => rfl
  | raise e => rfl
  | call c next ih => exact ih _ _

/-! ## Answers at large -/

/-- The program may end with this result when its commands are answered as they may be. -/
def Returns (answers : (c : κ) → Except ε (ρ c) → Prop) : Program κ ρ ε α → α → Prop
  | .ret a, b => a = b
  | .raise _, _ => False
  | .call c next, b => ∃ r, answers c r ∧ (next r).Returns answers b

variable {answers : (c : κ) → Except ε (ρ c) → Prop}

@[simp] theorem returns_ret {a b : α} : (ret a : Program κ ρ ε α).Returns answers b ↔ a = b := Iff.rfl

@[simp] theorem returns_raise {e : ε} {b : α} :
    (raise e : Program κ ρ ε α).Returns answers b ↔ False := Iff.rfl

@[simp] theorem returns_command {c : κ} {a : ρ c} :
    (command c : Program κ ρ ε (ρ c)).Returns answers a ↔ answers c (.ok a) := by
  constructor
  · rintro ⟨e | b, hAnswer, hEnd⟩
    · cases hEnd
    · cases hEnd
      exact hAnswer
  · intro hAnswer
    exact ⟨.ok a, hAnswer, rfl⟩

theorem returns_bind {p : Program κ ρ ε α} {f : α → Program κ ρ ε β} {b : β} :
    (p >>= f).Returns answers b ↔ ∃ a, p.Returns answers a ∧ (f a).Returns answers b := by
  induction p with
  | ret a =>
    constructor
    · intro h
      exact ⟨a, rfl, h⟩
    · rintro ⟨_, rfl, h⟩
      exact h
  | raise e =>
    constructor
    · intro h
      cases h
    · rintro ⟨_, h, -⟩
      cases h
  | call c next ih =>
    constructor
    · rintro ⟨r, hAnswer, h⟩
      obtain ⟨a, hNext, h⟩ := (ih r).mp h
      exact ⟨a, ⟨r, hAnswer, hNext⟩, h⟩
    · rintro ⟨a, ⟨r, hAnswer, hNext⟩, h⟩
      exact ⟨r, hAnswer, (ih r).mpr ⟨a, hNext, h⟩⟩

theorem returns_of_run (hExec : ∀ c s, answers c (exec c s).1) {p : Program κ ρ ε α} {s : σ} {a : α}
    (h : (p.run exec s).1 = .ok a) : p.Returns answers a := by
  induction p generalizing s with
  | ret b =>
    cases h
    rfl
  | raise e => cases h
  | call c next ih => exact ⟨(exec c s).1, hExec c s, ih _ h⟩

/-! ## Commands that no end of a program misses -/

/-- Every way to a result goes by a command of the kind that returned, or one was issued
before. -/
def Issues (kind : κ → Bool) (before : Prop) : Program κ ρ ε α → Prop
  | .ret _ => before
  | .raise _ => True
  | .call c next => ∀ r, (next r).Issues kind (before ∨ (kind c = true ∧ ∃ a, r = .ok a))

variable {kind : κ → Bool} {before before' : Prop}

theorem Issues.mono (h : before → before') {p : Program κ ρ ε α} (hp : p.Issues kind before) :
    p.Issues kind before' := by
  induction p generalizing before before' with
  | ret a => exact h hp
  | raise e => trivial
  | call c next ih => exact fun r => ih r (Or.imp_left h) (hp r)

theorem issues_of_done (p : Program κ ρ ε α) : p.Issues kind True := by
  induction p with
  | ret a => trivial
  | raise e => trivial
  | call c next ih => exact fun r => (ih r).mono .inl

theorem Issues.bind {p : Program κ ρ ε α} (hp : p.Issues kind before) (f : α → Program κ ρ ε β) :
    (p >>= f).Issues kind before := by
  induction p generalizing before with
  | ret a => exact (issues_of_done (f a)).mono fun _ => hp
  | raise e => trivial
  | call c next ih => exact fun r => ih r (hp r)

/-- Only the last part counts. -/
theorem issues_bind_last (p : Program κ ρ ε α) {f : α → Program κ ρ ε β}
    (hf : ∀ a, (f a).Issues kind before) : (p >>= f).Issues kind before := by
  induction p generalizing before with
  | ret a => exact hf a
  | raise e => trivial
  | call c next ih => exact fun r => ih r fun a => (hf a).mono .inl

theorem issues_command {c : κ} (h : kind c = true) :
    (command c : Program κ ρ ε (ρ c)).Issues kind before := by
  intro r
  cases r with
  | ok a => exact .inr ⟨h, a, rfl⟩
  | error e => trivial

end Program
