import Mathlib.Logic.Relation

/-! # Changes that are announced

Writers change a store, and each announces its change in a stream before it ends. A reader
takes the announcements one at a time and answers each by copying the store. If the writer
of an announcement is over when the reader looks at the store, no change is missed: the copy
is the store whenever the reader is idle and the stream is empty.
-/

namespace Announcement

variable {σ : Type}

inductive Reader (σ : Type)
  | idle
  /-- It holds an announcement, of no writer when it starts of its own accord. -/
  | taken (writer : Option Nat)
  /-- It has looked at the store. -/
  | copied (x : σ)

structure State (σ : Type) where
  store : σ
  copy : σ
  stream : List (Option Nat)
  reader : Reader σ
  announced : Nat → Prop
  ended : Nat → Prop

namespace State

variable (s : State σ)

def announce (i : Nat) : State σ :=
  { s with
    stream := s.stream ++ [some i]
    announced := fun j => j = i ∨ s.announced j }

def stop (i : Nat) : State σ := { s with ended := fun j => j = i ∨ s.ended j }

def commit (i : Nat) (x : σ) : State σ := { s.stop i with store := x }

end State

/-- A writer commits what it has announced; the reader waits for the writer to be over. -/
inductive Step (s : State σ) : State σ → Prop
  | announce (i : Nat) : Step s (s.announce i)
  | stop (i : Nat) : Step s (s.stop i)
  | commit (i : Nat) (x : σ) (hOpen : ¬s.ended i) (hAnnounced : s.announced i) : Step s (s.commit i x)
  | take (before after : List (Option Nat)) (writer : Option Nat) (hIdle : s.reader = .idle)
      (hStream : s.stream = before ++ writer :: after) :
    Step s { s with stream := before ++ after, reader := .taken writer }
  | copy (writer : Option Nat) (hTaken : s.reader = .taken writer)
      (hOver : ∀ i, writer = some i → s.ended i) :
    Step s { s with reader := .copied s.store }
  | finish (x : σ) (hCopied : s.reader = .copied x) :
    Step s { s with copy := x, reader := .idle }

abbrev Steps : State σ → State σ → Prop := Relation.ReflTransGen Step

/-- What the reader has or brings out is the store. -/
def Reader.Current (store copy : σ) : Reader σ → Prop
  | idle => copy = store
  | taken _ => True
  | copied x => x = store

/-- The announcement of an open writer is still to be answered, and only an announcement
stands between the copy and the store. -/
structure Inv (s : State σ) : Prop where
  pending : ∀ i, s.announced i → ¬s.ended i → some i ∈ s.stream ∨ s.reader = .taken (some i)
  current : s.stream = [] → s.reader.Current s.store s.copy

theorem Inv.step {s s' : State σ} (h : Inv s) (hStep : Step s s') : Inv s' := by
  cases hStep with
  | announce i =>
    refine ⟨fun j hAnnounced hOpen => ?_, fun hEmpty => absurd hEmpty (by simp [State.announce])⟩
    rcases hAnnounced with rfl | hAnnounced
    · exact .inl (List.mem_append_right _ List.mem_cons_self)
    · exact (h.pending j hAnnounced hOpen).imp_left (List.mem_append_left _)
  | stop i =>
    exact ⟨fun j hAnnounced hOpen => h.pending j hAnnounced fun hOver => hOpen (.inr hOver),
      h.current⟩
  | commit i x hOpen hAnnounced =>
    refine ⟨fun j hAnnounced hOpen => h.pending j hAnnounced fun hOver => hOpen (.inr hOver),
      fun hEmpty => ?_⟩
    -- the announcement of this writer is not answered yet
    rcases h.pending i hAnnounced hOpen with hMem | hTaken
    · rw [show s.stream = [] from hEmpty] at hMem
      cases hMem
    · change Reader.Current x s.copy s.reader
      rw [hTaken]
      trivial
  | take before after writer hIdle hStream =>
    refine ⟨fun j hAnnounced hOpen => ?_, fun _ => trivial⟩
    rcases h.pending j hAnnounced hOpen with hMem | hTaken
    · rw [hStream, List.mem_append, List.mem_cons] at hMem
      rcases hMem with hMem | rfl | hMem
      · exact .inl (List.mem_append_left _ hMem)
      · exact .inr rfl
      · exact .inl (List.mem_append_right _ hMem)
    · rw [hIdle] at hTaken
      cases hTaken
  | copy writer hTaken hOver =>
    refine ⟨fun j hAnnounced hOpen => ?_, fun _ => rfl⟩
    rcases h.pending j hAnnounced hOpen with hMem | hSame
    · exact .inl hMem
    · rw [hTaken] at hSame
      cases hSame
      exact absurd (hOver j rfl) hOpen
  | finish x hCopied =>
    refine ⟨fun j hAnnounced hOpen => ?_, fun hEmpty => ?_⟩
    · rcases h.pending j hAnnounced hOpen with hMem | hTaken
      · exact .inl hMem
      · rw [hCopied] at hTaken
        cases hTaken
    · have hCurrent := h.current hEmpty
      rw [hCopied] at hCurrent
      exact hCurrent

theorem Inv.steps {s s' : State σ} (h : Inv s) (hSteps : Steps s s') : Inv s' := by
  induction hSteps with
  | refl => exact h
  | tail _ hStep ih => exact ih.step hStep

/-- A reader about to look at the store, before any writer has announced a change. -/
theorem Inv.start {s : State σ} (hReader : ∃ writer, s.reader = .taken writer)
    (hNone : ∀ i, ¬s.announced i) : Inv s := by
  obtain ⟨writer, hTaken⟩ := hReader
  refine ⟨fun i hAnnounced => absurd hAnnounced (hNone i), fun _ => ?_⟩
  rw [hTaken]
  trivial

theorem Inv.copy_eq_store {s : State σ} (h : Inv s) (hIdle : s.reader = .idle)
    (hEmpty : s.stream = []) : s.copy = s.store := by
  have hCurrent := h.current hEmpty
  rwa [hIdle] at hCurrent

end Announcement
