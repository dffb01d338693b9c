import Mathlib.Data.List.Basic

/-! # Computations that leave a trace

A program that sends messages and then raises has still sent them. `Traced` pairs the
events of a computation with its result; a raising computation keeps the events it
emitted before. The events of a loop are those of its turns, up to and including the
first turn that raises.
-/

/-- Events of type `η` and a result of type `α`, or an exception of type `ε`. -/
structure Traced (η ε α : Type) where
  events : List η
  result : Except ε α

namespace Traced

variable {η ε α β : Type}

instance : Monad (Traced η ε) where
  pure a := ⟨[], .ok a⟩
  bind x f :=
    match x with
    | ⟨events, .error e⟩ => ⟨events, .error e⟩
    | ⟨events, .ok a⟩ =>
      match f a with
      | ⟨events', result⟩ => ⟨events ++ events', result⟩

def emit (e : η) : Traced η ε Unit := ⟨[e], .ok ()⟩

def raise (e : ε) : Traced η ε α := ⟨[], .error e⟩

def lift (x : Except ε α) : Traced η ε α := ⟨[], x⟩

/-- `try x except e: handler e`, keeping the events of `x`. -/
def attempt (x : Traced η ε α) (handler : ε → Traced η ε α) : Traced η ε α :=
  match x with
  | ⟨events, .ok a⟩ => ⟨events, .ok a⟩
  | ⟨events, .error e⟩ => ⟨events ++ (handler e).events, (handler e).result⟩

@[simp] theorem pure_events (a : α) : (pure a : Traced η ε α).events = [] := rfl

@[simp] theorem pure_result (a : α) : (pure a : Traced η ε α).result = .ok a := rfl

@[simp] theorem emit_events (e : η) : (emit e : Traced η ε Unit).events = [e] := rfl

@[simp] theorem emit_result (e : η) : (emit e : Traced η ε Unit).result = .ok () := rfl

@[simp] theorem lift_events (x : Except ε α) : (lift x : Traced η ε α).events = [] := rfl

@[simp] theorem lift_result (x : Except ε α) : (lift x : Traced η ε α).result = x := rfl

theorem bind_of_ok {x : Traced η ε α} {a : α} (f : α → Traced η ε β) (h : x.result = .ok a) :
    x >>= f = ⟨x.events ++ (f a).events, (f a).result⟩ := by
  obtain ⟨events, result⟩ := x
  cases h
  rfl

theorem bind_of_error {x : Traced η ε α} {e : ε} (f : α → Traced η ε β)
    (h : x.result = .error e) : x >>= f = ⟨x.events, .error e⟩ := by
  obtain ⟨events, result⟩ := x
  cases h
  rfl

@[simp] theorem lift_ok_bind (a : α) (f : α → Traced η ε β) : lift (.ok a) >>= f = f a := by
  rw [bind_of_ok f rfl]
  rfl

@[simp] theorem lift_error_bind (e : ε) (f : α → Traced η ε β) :
    lift (.error e) >>= f = raise e := bind_of_error f rfl

theorem lift_bind_events {x : Traced η ε α} {y : α → Except ε β} :
    (x >>= fun a => lift (y a)).events = x.events := by
  cases hx : x.result with
  | error e => rw [bind_of_error _ hx]
  | ok a =>
    rw [bind_of_ok _ hx]
    exact List.append_nil x.events

theorem ok_of_bind {x : Traced η ε α} {f : α → Traced η ε β} {b : β}
    (h : (x >>= f).result = .ok b) : ∃ a, x.result = .ok a ∧ (f a).result = .ok b := by
  cases hx : x.result with
  | error e =>
    rw [bind_of_error f hx] at h
    cases h
  | ok a =>
    rw [bind_of_ok f hx] at h
    exact ⟨a, rfl, h⟩

theorem mem_events_bind {x : Traced η ε α} {f : α → Traced η ε β} {e : η}
    (h : e ∈ (x >>= f).events) : e ∈ x.events ∨ ∃ a, x.result = .ok a ∧ e ∈ (f a).events := by
  cases hx : x.result with
  | error err =>
    rw [bind_of_error f hx] at h
    exact .inl h
  | ok a =>
    rw [bind_of_ok f hx] at h
    obtain hHead | hTail := List.mem_append.mp h
    · exact .inl hHead
    · exact .inr ⟨a, rfl, hTail⟩

/-- Does the computation raise? -/
def raises (x : Traced η ε α) : Bool :=
  match x.result with
  | .ok _ => false
  | .error _ => true

theorem raises_eq_false {x : Traced η ε α} : x.raises = false ↔ ∃ a, x.result = .ok a := by
  unfold raises
  cases x.result <;> simp

end Traced

/-! ## Schedules

A computation that works through steps stops at the first step that fails. What it sent
by then is what the steps up to and including that one sent.
-/

/-- What one step does when it is reached: a step may send and then fail. -/
structure Step where
  sends : Bool
  fails : Bool

namespace Step

def quiet : Step := ⟨false, false⟩

def failing : Step := ⟨false, true⟩

/-- The steps of a pure computation: one that fails if it raises. -/
def ofResult {ε α : Type} : Except ε α → List Step
  | .ok _ => []
  | .error _ => [failing]

/-- Does some step fail? -/
def anyFails (steps : List Step) : Bool := steps.any Step.fails

/-- Is something sent by the first failing step or before it? -/
def anySent : List Step → Bool
  | [] => false
  | s :: rest => s.sends || (!s.fails && anySent rest)

theorem anyFails_append (s t : List Step) : anyFails (s ++ t) = (anyFails s || anyFails t) :=
  List.any_append

theorem anySent_append (s t : List Step) :
    anySent (s ++ t) = (anySent s || (!anyFails s && anySent t)) := by
  induction s with
  | nil => simp [anySent, anyFails]
  | cons x s ih =>
    simp only [List.cons_append, anySent, ih, anyFails, List.any_cons]
    cases x.sends <;> cases x.fails <;> rfl

end Step

namespace Traced

variable {η ε α β : Type} {sent : η → Bool}

/-- The computation fails and sends as its schedule says. -/
structure Follows (sent : η → Bool) (x : Traced η ε α) (steps : List Step) : Prop where
  raises : x.raises = Step.anyFails steps
  sends : x.events.any sent = Step.anySent steps

theorem Follows.bind {x : Traced η ε α} {f : α → Traced η ε β} {s t : List Step}
    (hx : Follows sent x s) (hf : ∀ a, x.result = .ok a → Follows sent (f a) t) :
    Follows sent (x >>= f) (s ++ t) := by
  cases hResult : x.result with
  | error e =>
    have hRaises : Step.anyFails s = true := by
      rw [← hx.raises, Traced.raises, hResult]
    rw [bind_of_error f hResult]
    exact ⟨by rw [Step.anyFails_append, hRaises]; rfl,
      by rw [Step.anySent_append, hRaises, hx.sends]; simp⟩
  | ok a =>
    have hRaises : Step.anyFails s = false := by
      rw [← hx.raises, Traced.raises, hResult]
    have hNext := hf a hResult
    rw [bind_of_ok f hResult]
    refine ⟨?_, ?_⟩
    · rw [Step.anyFails_append, hRaises, Bool.false_or]
      exact hNext.raises
    · rw [Step.anySent_append, hRaises, List.any_append, hx.sends, hNext.sends]
      simp

theorem follows_pure (a : α) : Follows sent (pure a : Traced η ε α) [] := ⟨rfl, rfl⟩

/-- The computation fails as its schedule says, and if the schedule sends nothing then the
events are as `Q` wants them. -/
structure Keeps (Q : List η → Prop) (x : Traced η ε α) (steps : List Step) : Prop where
  raises : x.raises = Step.anyFails steps
  clean : Step.anySent steps = false → Q x.events

theorem Keeps.bind {Q : List η → Prop} (hQ : ∀ a b, Q a → Q b → Q (a ++ b))
    {x : Traced η ε α} {f : α → Traced η ε β} {s t : List Step} (hx : Keeps Q x s)
    (hf : ∀ a, x.result = .ok a → Keeps Q (f a) t) : Keeps Q (x >>= f) (s ++ t) := by
  cases hResult : x.result with
  | error e =>
    have hRaises : Step.anyFails s = true := by
      rw [← hx.raises, Traced.raises, hResult]
    rw [bind_of_error f hResult]
    refine ⟨by rw [Step.anyFails_append, hRaises]; rfl, fun h => hx.clean ?_⟩
    rw [Step.anySent_append, Bool.or_eq_false_iff] at h
    exact h.1
  | ok a =>
    have hRaises : Step.anyFails s = false := by
      rw [← hx.raises, Traced.raises, hResult]
    have hNext := hf a hResult
    rw [bind_of_ok f hResult]
    refine ⟨?_, fun h => ?_⟩
    · rw [Step.anyFails_append, hRaises, Bool.false_or]
      exact hNext.raises
    · rw [Step.anySent_append, hRaises, Bool.or_eq_false_iff] at h
      exact hQ _ _ (hx.clean h.1) (hNext.clean (by simpa using h.2))

theorem keeps_lift {Q : List η → Prop} (hNil : Q []) (x : Except ε α) :
    Keeps Q (lift x : Traced η ε α) (Step.ofResult x) := by
  cases x <;> exact ⟨rfl, fun _ => hNil⟩

/-- What `g` reads off the events, in order, is part of `out`. -/
def Emits {κ : Type} (g : η → Option κ) (x : Traced η ε α) (out : List κ) : Prop :=
  (x.events.filterMap g).Sublist out

theorem Emits.bind {κ : Type} {g : η → Option κ} {x : Traced η ε α} {f : α → Traced η ε β}
    {s t : List κ} (hx : Emits g x s) (hf : ∀ a, x.result = .ok a → Emits g (f a) t) :
    Emits g (x >>= f) (s ++ t) := by
  unfold Emits
  cases hResult : x.result with
  | error e =>
    rw [bind_of_error f hResult]
    exact hx.trans (List.sublist_append_left s t)
  | ok a =>
    rw [bind_of_ok f hResult, List.filterMap_append]
    exact hx.append (hf a hResult)

theorem emits_lift {κ : Type} (g : η → Option κ) (x : Except ε α) :
    Emits g (lift x : Traced η ε α) [] := List.nil_sublist _

theorem follows_lift (x : Except ε α) :
    Follows sent (lift x : Traced η ε α) (Step.ofResult x) := by
  cases x <;> exact ⟨rfl, rfl⟩

end Traced
