import Mathlib.Logic.Basic
import Mathlib.Data.List.Forall2

/-! # Transcripts of a state machine

A run of a machine is recorded entry by entry: the state before the step, the input,
the output and the state after. An invariant that one admissible step preserves holds
before and after every entry of a run whose steps are all admissible.
-/

namespace Transcript

variable {σ ι ο : Type}

structure Entry (σ ι ο : Type) where
  pre : σ
  input : ι
  output : ο
  post : σ

def transcript (step : ι → σ → ο × σ) : σ → List ι → List (Entry σ ι ο)
  | _, [] => []
  | s, i :: is =>
    ⟨s, i, (step i s).1, (step i s).2⟩ :: transcript step (step i s).2 is

/-- The state a run ends in. -/
def final (step : ι → σ → ο × σ) : σ → List ι → σ
  | s, [] => s
  | s, i :: is => final step (step i s).2 is

variable {step : ι → σ → ο × σ}

theorem mem_transcript_step {s : σ} {is : List ι} {e : Entry σ ι ο}
    (h : e ∈ transcript step s is) : step e.input e.pre = (e.output, e.post) := by
  induction is generalizing s with
  | nil => cases h
  | cons i is ih =>
    rcases List.mem_cons.mp h with rfl | h
    · rfl
    · exact ih h

theorem mem_transcript_input {s : σ} {is : List ι} {e : Entry σ ι ο}
    (h : e ∈ transcript step s is) : e.input ∈ is := by
  induction is generalizing s with
  | nil => cases h
  | cons i is ih =>
    rcases List.mem_cons.mp h with rfl | h
    · exact List.mem_cons_self
    · exact List.mem_cons_of_mem _ (ih h)

theorem invariant (Inv : σ → Prop) (Admissible : σ → ι → Prop)
    (hstep : ∀ s i, Inv s → Admissible s i → Inv (step i s).2)
    {s : σ} (hs : Inv s) {is : List ι}
    (hadm : ∀ e ∈ transcript step s is, Admissible e.pre e.input) :
    ∀ e ∈ transcript step s is, Inv e.pre ∧ Inv e.post := by
  induction is generalizing s with
  | nil => intro e he; cases he
  | cons i is ih =>
    have hnext := hstep s i hs (hadm _ List.mem_cons_self)
    intro e he
    rcases List.mem_cons.mp he with rfl | he
    · exact ⟨hs, hnext⟩
    · exact ih hnext (fun e he => hadm e (List.mem_cons_of_mem _ he)) e he

theorem transcript_append (s : σ) (is js : List ι) :
    transcript step s (is ++ js) = transcript step s is ++ transcript step (final step s is) js := by
  induction is generalizing s with
  | nil => rfl
  | cons i is ih => exact congrArg (List.cons _) (ih _)

theorem final_append (s : σ) (is js : List ι) :
    final step s (is ++ js) = final step (final step s is) js := by
  induction is generalizing s with
  | nil => rfl
  | cons i is ih => exact ih _

theorem last_mem_transcript (s : σ) (is : List ι) (i : ι) :
    ⟨final step s is, i, (step i (final step s is)).1, final step s (is ++ [i])⟩ ∈
      transcript step s (is ++ [i]) := by
  rw [transcript_append, final_append]
  exact List.mem_append_right _ List.mem_cons_self

theorem final_invariant (Inv : σ → Prop) (Admissible : Entry σ ι ο → Prop)
    (hstep : ∀ s i, Inv s → Admissible ⟨s, i, (step i s).1, (step i s).2⟩ → Inv (step i s).2)
    {s : σ} (hs : Inv s) {is : List ι} (hadm : ∀ e ∈ transcript step s is, Admissible e) :
    Inv (final step s is) := by
  induction is generalizing s with
  | nil => exact hs
  | cons i is ih =>
    exact ih (hstep s i hs (hadm _ List.mem_cons_self))
      fun e he => hadm e (List.mem_cons_of_mem _ he)

theorem invariant_count (Inv : Nat → σ → Prop) (counts : Entry σ ι ο → Bool)
    (Admissible : Entry σ ι ο → Prop)
    (hstep : ∀ n s i, Inv n s → Admissible ⟨s, i, (step i s).1, (step i s).2⟩ →
      Inv (n + if counts ⟨s, i, (step i s).1, (step i s).2⟩ then 1 else 0) (step i s).2)
    {n : Nat} {s : σ} (hs : Inv n s) {is : List ι}
    (hadm : ∀ e ∈ transcript step s is, Admissible e) :
    Inv (n + (transcript step s is).countP counts) (final step s is) := by
  induction is generalizing n s with
  | nil => exact hs
  | cons i is ih =>
    have hnext := hstep n s i hs (hadm _ List.mem_cons_self)
    have hrest := ih hnext fun e he => hadm e (List.mem_cons_of_mem _ he)
    rw [transcript, List.countP_cons, Nat.add_comm (List.countP _ _), ← Nat.add_assoc]
    exact hrest

/-! ## Two runs side by side -/

/-- Related inputs on related states give the same output each time. -/
theorem unwinding {R : σ → σ → Prop} {Q : ι → ι → Prop}
    (hstep : ∀ s s' i i', R s s' → Q i i' →
      (step i' s').1 = (step i s).1 ∧ R (step i s).2 (step i' s').2)
    {s s' : σ} (hs : R s s') {is is' : List ι} (his : List.Forall₂ Q is is') :
    (transcript step s' is').map Entry.output = (transcript step s is).map Entry.output ∧
      R (final step s is) (final step s' is') := by
  induction his generalizing s s' with
  | nil => exact ⟨rfl, hs⟩
  | cons hHead hTail ih =>
    obtain ⟨hOutput, hNext⟩ := hstep _ _ _ _ hs hHead
    obtain ⟨hOutputs, hEnd⟩ := ih hNext
    refine ⟨?_, hEnd⟩
    rw [transcript, transcript, List.map_cons, List.map_cons, hOutput, hOutputs]

end Transcript
