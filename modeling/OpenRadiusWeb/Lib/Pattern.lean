import Mathlib.Data.List.Basic
import Mathlib.Data.List.Forall2

/-! # Patterns of character classes

A pattern is a row of classes, each taken once or as often as can be. It is matched with
backtracking, the longest repetition first, and a text is searched from the left for matches
that do not overlap. Where a repetition is followed by a class apart from its own there is
nothing to go back for: a text has one match at most, found by reading on.
-/

namespace Pattern

variable {α : Type}

inductive Item (α : Type)
  | one (p : α → Bool)
  | many (p : α → Bool)

/-- As many of the class as can be, one less each time what follows does not match. -/
def repeatThen {β : Type} (p : α → Bool) (next : List α → Option β) : List α → Option (List α × β)
  | [] => (next []).map fun b => ([], b)
  | c :: cs =>
    if p c then
      ((repeatThen p next cs).map fun r => (c :: r.1, r.2)).or ((next (c :: cs)).map fun b => ([], b))
    else (next (c :: cs)).map fun b => ([], b)

/-- The part that each item takes, and what is left of the text. -/
def matchItems : List (Item α) → List α → Option (List (List α) × List α)
  | [], cs => some ([], cs)
  | .one _ :: _, [] => none
  | .one p :: items, c :: cs =>
    if p c then (matchItems items cs).map fun r => ([c] :: r.1, r.2) else none
  | .many p :: items, cs =>
    (repeatThen p (matchItems items) cs).map fun r => (r.1 :: r.2.1, r.2.2)

/-- `re.sub` from the left, with the first `skip` characters inside a match already replaced. -/
def subFrom (items : List (Item α)) (repl : List (List α) → List α) : Nat → List α → List α
  | _, [] => []
  | skip + 1, _ :: cs => subFrom items repl skip cs
  | 0, c :: cs =>
    match matchItems items (c :: cs) with
    | some (parts, _) => repl parts ++ subFrom items repl (parts.flatten.length - 1) cs
    | none => c :: subFrom items repl 0 cs

def sub (items : List (Item α)) (repl : List (List α) → List α) (cs : List α) : List α :=
  subFrom items repl 0 cs

/-- What an item can take. -/
def Fits : Item α → List α → Prop
  | .one p, part => ∃ c, part = [c] ∧ p c = true
  | .many p, part => ∀ c ∈ part, p c = true

/-- A repetition is followed by a single class apart from its own. -/
def Decided : List (Item α) → Prop
  | [] => True
  | .one _ :: items => Decided items
  | .many p :: items =>
    (∃ q rest, items = .one q :: rest ∧ ∀ c, p c = true → q c = false) ∧ Decided items

/-! ## What a match takes -/

theorem repeatThen_eq {β : Type} {p : α → Bool} {next : List α → Option β}
    (hNext : ∀ c cs, p c = true → next (c :: cs) = none) (cs : List α) :
    repeatThen p next cs = (next (cs.dropWhile p)).map fun b => (cs.takeWhile p, b) := by
  induction cs with
  | nil => rfl
  | cons c cs ih =>
    rw [repeatThen]
    by_cases hc : p c = true
    · rw [if_pos hc, ih, hNext c cs hc, List.takeWhile_cons_of_pos hc, List.dropWhile_cons_of_pos hc]
      cases next (cs.dropWhile p) <;> rfl
    · rw [if_neg hc, List.takeWhile_cons_of_neg hc, List.dropWhile_cons_of_neg hc]

theorem repeatThen_sound {β : Type} {p : α → Bool} {next : List α → Option β} {cs part : List α} {b : β}
    (h : repeatThen p next cs = some (part, b)) :
    (∀ c ∈ part, p c = true) ∧ ∃ rest, cs = part ++ rest ∧ next rest = some b := by
  induction cs generalizing part with
  | nil =>
    obtain ⟨b', hNext, hPart⟩ := Option.map_eq_some_iff.mp h
    cases hPart
    exact ⟨List.forall_mem_nil _, [], rfl, hNext⟩
  | cons c cs ih =>
    have hStop : ∀ {part : List α}, (next (c :: cs)).map (fun b => (([] : List α), b)) = some (part, b) →
        (∀ c ∈ part, p c = true) ∧ ∃ rest, c :: cs = part ++ rest ∧ next rest = some b := by
      intro part h
      obtain ⟨b', hNext, hPart⟩ := Option.map_eq_some_iff.mp h
      cases hPart
      exact ⟨List.forall_mem_nil _, c :: cs, rfl, hNext⟩
    rw [repeatThen] at h
    split at h
    · rename_i hc
      rcases Option.or_eq_some_iff.mp h with h | ⟨-, h⟩
      · obtain ⟨⟨part', b'⟩, hRest, hPart⟩ := Option.map_eq_some_iff.mp h
        cases hPart
        obtain ⟨hAll, rest, rfl, hNext⟩ := ih hRest
        exact ⟨List.forall_mem_cons.mpr ⟨hc, hAll⟩, rest, rfl, hNext⟩
      · exact hStop h
    · exact hStop h

theorem matchItems_sound {items : List (Item α)} {cs rest : List α} {parts : List (List α)}
    (h : matchItems items cs = some (parts, rest)) :
    List.Forall₂ Fits items parts ∧ cs = parts.flatten ++ rest := by
  induction items generalizing cs parts with
  | nil =>
    cases h
    exact ⟨.nil, rfl⟩
  | cons item items ih =>
    cases item with
    | one p =>
      cases cs with
      | nil => cases h
      | cons c cs =>
        rw [matchItems] at h
        split at h
        · rename_i hc
          obtain ⟨⟨parts', rest'⟩, hRest, hParts⟩ := Option.map_eq_some_iff.mp h
          cases hParts
          obtain ⟨hFits, rfl⟩ := ih hRest
          exact ⟨.cons ⟨c, rfl, hc⟩ hFits, rfl⟩
        · cases h
    | many p =>
      obtain ⟨⟨part, parts', rest'⟩, hRepeat, hParts⟩ := Option.map_eq_some_iff.mp h
      cases hParts
      obtain ⟨hAll, more, rfl, hNext⟩ := repeatThen_sound hRepeat
      obtain ⟨hFits, rfl⟩ := ih hNext
      exact ⟨.cons hAll hFits, by simp⟩

theorem matchItems_many {p : α → Bool} {items : List (Item α)} (h : Decided (.many p :: items)) (cs : List α) :
    matchItems (.many p :: items) cs =
      (matchItems items (cs.dropWhile p)).map fun r => (cs.takeWhile p :: r.1, r.2) := by
  obtain ⟨⟨q, rest, rfl, hApart⟩, -⟩ := h
  have hNext : ∀ c cs, p c = true → matchItems (.one q :: rest) (c :: cs) = none := by
    intro c cs hc
    rw [matchItems, hApart c hc]
    rfl
  rw [matchItems, repeatThen_eq hNext, Option.map_map]
  rfl

/-- A text that can be cut into parts is matched, and in this way. -/
theorem matchItems_complete {items : List (Item α)} {parts : List (List α)} (hDecided : Decided items)
    (h : List.Forall₂ Fits items parts) (rest : List α) :
    matchItems items (parts.flatten ++ rest) = some (parts, rest) := by
  induction h with
  | nil => rfl
  | @cons item part items parts hFits hRest ih =>
    cases item with
    | one p =>
      obtain ⟨c, rfl, hc⟩ := hFits
      rw [List.flatten_cons, List.singleton_append, List.cons_append, matchItems, if_pos hc, ih hDecided]
      rfl
    | many p =>
      have hTail := ih hDecided.2
      obtain ⟨q, more, rfl, hApart⟩ := hDecided.1
      cases hRest with
      | cons hFirst hMore =>
        obtain ⟨c, rfl, hc⟩ := hFirst
        have hNot : ¬ p c = true := fun hp => by rw [hApart c hp] at hc; cases hc
        rw [matchItems_many hDecided, List.flatten_cons, List.append_assoc,
          List.takeWhile_append_of_pos hFits, List.dropWhile_append_of_pos hFits]
        rw [List.flatten_cons, List.singleton_append, List.cons_append] at hTail ⊢
        rw [List.takeWhile_cons_of_neg hNot, List.dropWhile_cons_of_neg hNot, List.append_nil, hTail]
        rfl

/-! ## Reading on -/

/-- How far a text is a match: to its end, not at all, or as far as the text goes. -/
inductive Outcome (α : Type)
  | found (rest : List α)
  | failed
  | unread (items : List (Item α))

def Outcome.rest? : Outcome α → Option (List α)
  | .found rest => some rest
  | .failed => none
  | .unread _ => none

def step : List (Item α) → α → Option (List (Item α))
  | [], _ => none
  | .one p :: items, c => if p c then some items else none
  | .many p :: items, c => if p c then some (.many p :: items) else step items c

def run : List α → List (Item α) → Outcome α
  | cs, [] => .found cs
  | [], item :: items => .unread (item :: items)
  | c :: cs, item :: items =>
    match step (item :: items) c with
    | none => .failed
    | some items' => run cs items'

theorem run_nil (cs : List α) : run cs ([] : List (Item α)) = .found cs := by
  cases cs <;> rfl

theorem run_one {p : α → Bool} {c : α} (h : p c = true) (cs : List α) (items : List (Item α)) :
    run (c :: cs) (.one p :: items) = run cs items := by
  rw [run, step, if_pos h]

theorem run_one_of_not {p : α → Bool} {c : α} (h : p c = false) (cs : List α) (items : List (Item α)) :
    run (c :: cs) (.one p :: items) = .failed := by
  rw [run, step, h]
  rfl

theorem run_many_skip {p q : α → Bool} {c : α} (h : p c = false) (cs : List α) (items : List (Item α)) :
    run (c :: cs) (.many p :: .one q :: items) = run (c :: cs) (.one q :: items) := by
  rw [run, step, h]
  rfl

theorem run_many {p : α → Bool} {part : List α} (h : ∀ c ∈ part, p c = true) (cs : List α)
    (items : List (Item α)) : run (part ++ cs) (.many p :: items) = run cs (.many p :: items) := by
  induction part with
  | nil => rfl
  | cons c part ih =>
    rw [List.forall_mem_cons] at h
    rw [List.cons_append, run, step, if_pos h.1]
    exact ih h.2

/-- Reading on finds the match that backtracking finds. -/
theorem rest?_run {items : List (Item α)} (h : Decided items) (cs : List α) :
    (run cs items).rest? = (matchItems items cs).map Prod.snd := by
  induction items generalizing cs with
  | nil => cases cs <;> rfl
  | cons item items ih =>
    cases item with
    | one p =>
      cases cs with
      | nil => rfl
      | cons c cs =>
        rw [matchItems]
        by_cases hc : p c = true
        · rw [run_one hc, if_pos hc, ih h, Option.map_map]
          rfl
        · rw [run_one_of_not (Bool.eq_false_iff.mpr hc), if_neg hc]
          rfl
    | many p =>
      rw [matchItems_many h, Option.map_map]
      obtain ⟨⟨q, rest, rfl, -⟩, hRest⟩ := h
      induction cs with
      | nil => rfl
      | cons c cs ihText =>
        by_cases hc : p c = true
        · rw [List.dropWhile_cons_of_pos hc, ← List.singleton_append, run_many (by simpa using hc), ihText]
          cases matchItems (.one q :: rest) (cs.dropWhile p) <;> rfl
        · rw [run_many_skip (Bool.eq_false_iff.mpr hc), List.dropWhile_cons_of_neg hc, ih hRest]
          cases matchItems (.one q :: rest) (c :: cs) <;> rfl

/-- What more text makes of an outcome. -/
def Outcome.more (ys : List α) : Outcome α → Outcome α
  | .found rest => .found (rest ++ ys)
  | .failed => .failed
  | .unread items => run ys items

theorem run_append (xs ys : List α) (items : List (Item α)) :
    run (xs ++ ys) items = (run xs items).more ys := by
  induction xs generalizing items with
  | nil =>
    cases items with
    | nil => rw [run_nil, run_nil]; rfl
    | cons item items => rfl
  | cons c xs ih =>
    cases items with
    | nil => rfl
    | cons item items =>
      rw [List.cons_append, run, run]
      cases step (item :: items) c with
      | none => rfl
      | some items' => exact ih items'

theorem step_suffix {items items' : List (Item α)} {c : α} (h : step items c = some items') :
    items' <:+ items := by
  induction items with
  | nil => cases h
  | cons item items ih =>
    cases item with
    | one p =>
      rw [step] at h
      split at h
      · cases h
        exact List.suffix_cons _ _
      · cases h
    | many p =>
      rw [step] at h
      split at h
      · cases h
        exact List.suffix_rfl
      · exact (ih h).trans (List.suffix_cons _ _)

theorem unread_suffix {cs : List α} {items items' : List (Item α)} (h : run cs items = .unread items') :
    items' <:+ items := by
  induction cs generalizing items with
  | nil =>
    cases items with
    | nil => cases h
    | cons item items =>
      cases h
      exact List.suffix_rfl
  | cons c cs ih =>
    cases items with
    | nil => cases h
    | cons item items =>
      rw [run] at h
      cases hStep : step (item :: items) c with
      | none => rw [hStep] at h; cases h
      | some next =>
        rw [hStep] at h
        exact (ih h).trans (step_suffix hStep)

/-! ## Where matches begin -/

/-- A match begins with the text. -/
def Begins (items : List (Item α)) (cs : List α) : Prop := ∃ parts rest, matchItems items cs = some (parts, rest)

theorem begins_iff {items : List (Item α)} (h : Decided items) {cs : List α} :
    Begins items cs ↔ ∃ rest, run cs items = .found rest := by
  have hRest := rest?_run h cs
  constructor
  · rintro ⟨parts, rest, hMatch⟩
    rw [hMatch] at hRest
    cases hRun : run cs items with
    | found rest' => exact ⟨rest', rfl⟩
    | failed => rw [hRun] at hRest; cases hRest
    | unread items' => rw [hRun] at hRest; cases hRest
  · rintro ⟨rest, hRun⟩
    rw [hRun] at hRest
    obtain ⟨⟨parts, rest'⟩, hMatch, -⟩ := Option.map_eq_some_iff.mp hRest.symm
    exact ⟨parts, rest', hMatch⟩

/-- No match begins in `before`, when `rest` follows it. -/
def Quiet (items : List (Item α)) (before rest : List α) : Prop :=
  ∀ s, s <:+ before → s ≠ [] → ¬ Begins items (s ++ rest)

theorem quiet_cons {items : List (Item α)} {c : α} {before rest : List α} :
    Quiet items (c :: before) rest ↔ ¬ Begins items (c :: before ++ rest) ∧ Quiet items before rest := by
  constructor
  · intro h
    exact ⟨h _ List.suffix_rfl (List.cons_ne_nil _ _), fun s hs => h s (hs.trans (List.suffix_cons _ _))⟩
  · rintro ⟨hHere, hRest⟩ s hs hSome
    rcases List.suffix_cons_iff.mp hs with rfl | hs
    · exact hHere
    · exact hRest s hs hSome

/-- Wherever the reading of a match stands when it comes to `m`, it ends there, or it fails there and
fails at `m'` as well. -/
def Masks (items : List (Item α)) (m m' : List α) : Prop :=
  ∀ state, state <:+ items → (∃ rest, run m state = .found rest) ∨ run m' state = .failed

/-- No match begins before what masks one. -/
theorem Masks.quiet {items : List (Item α)} {m m' before rest : List α} (hDecided : Decided items)
    (hMasks : Masks items m m') (h : Quiet items before (m ++ rest)) (rest' : List α) :
    Quiet items before (m' ++ rest') := by
  intro s hs hSome hBegins
  have hNot := h s hs hSome
  rw [begins_iff hDecided] at hBegins hNot
  rw [run_append] at hBegins hNot
  cases hRun : run s items with
  | found more => exact hNot ⟨_, by rw [hRun]; rfl⟩
  | failed =>
    obtain ⟨more, hFound⟩ := hBegins
    rw [hRun] at hFound
    cases hFound
  | unread state =>
    rw [hRun, Outcome.more, run_append] at hBegins hNot
    rcases hMasks state (unread_suffix hRun) with ⟨more, hFound⟩ | hFailed
    · exact hNot ⟨_, by rw [hFound]; rfl⟩
    · obtain ⟨more, hFound⟩ := hBegins
      rw [hFailed] at hFound
      cases hFound

/-! ## Replacing every match -/

section Sub

variable {items : List (Item α)} {repl : List (List α) → List α}

theorem subFrom_drop (skip : Nat) (cs : List α) :
    subFrom items repl skip cs = sub items repl (cs.drop skip) := by
  induction cs generalizing skip with
  | nil => cases skip <;> rfl
  | cons c cs ih =>
    cases skip with
    | zero => rfl
    | succ skip => exact ih skip

theorem sub_of_not_begins {c : α} {cs : List α} (h : ¬ Begins items (c :: cs)) :
    sub items repl (c :: cs) = c :: sub items repl cs := by
  rw [sub, subFrom]
  split
  · rename_i parts rest hMatch
    exact (h ⟨parts, rest, hMatch⟩).elim
  · rfl

theorem sub_quiet {before rest : List α} (h : Quiet items before rest) :
    sub items repl (before ++ rest) = before ++ sub items repl rest := by
  induction before with
  | nil => rfl
  | cons c before ih =>
    rw [quiet_cons] at h
    have hHere : ¬ Begins items (c :: (before ++ rest)) := h.1
    rw [List.cons_append, sub_of_not_begins hHere, ih h.2]
    rfl

theorem sub_match (hDecided : Decided items) {parts : List (List α)} (h : List.Forall₂ Fits items parts)
    (hSome : parts.flatten ≠ []) (rest : List α) :
    sub items repl (parts.flatten ++ rest) = repl parts ++ sub items repl rest := by
  have hMatch := matchItems_complete hDecided h rest
  obtain ⟨c, cs, hText⟩ := List.exists_cons_of_ne_nil hSome
  rw [hText, List.cons_append] at hMatch ⊢
  rw [sub, subFrom, hMatch]
  simp only
  rw [subFrom_drop, hText, List.length_cons, Nat.add_sub_cancel, List.drop_left]

/-- A match and the text before it. -/
structure Occurrence (α : Type) where
  before : List α
  parts : List (List α)

/-- A text put together from the matches found in it. -/
def written (occurrences : List (Occurrence α)) (last : List α) : List α :=
  occurrences.foldr (fun o rest => o.before ++ (o.parts.flatten ++ rest)) last

def replaced (repl : List (List α) → List α) (occurrences : List (Occurrence α)) (last : List α) : List α :=
  occurrences.foldr (fun o rest => o.before ++ (repl o.parts ++ rest)) last

/-- The occurrences are the matches found from the left. -/
def Reads (items : List (Item α)) : List (Occurrence α) → List α → Prop
  | [], last => Quiet items last []
  | o :: occurrences, last => List.Forall₂ Fits items o.parts ∧
    Quiet items o.before (o.parts.flatten ++ written occurrences last) ∧ Reads items occurrences last

theorem sub_written (hDecided : Decided items)
    (hSome : ∀ parts, List.Forall₂ Fits items parts → parts.flatten ≠ [])
    {occurrences : List (Occurrence α)} {last : List α} (h : Reads items occurrences last) :
    sub items repl (written occurrences last) = replaced repl occurrences last := by
  induction occurrences with
  | nil =>
    have hQuiet : sub items repl (last ++ []) = last ++ [] := sub_quiet h
    rwa [List.append_nil] at hQuiet
  | cons o occurrences ih =>
    obtain ⟨hFits, hQuiet, hRest⟩ := h
    calc sub items repl (o.before ++ (o.parts.flatten ++ written occurrences last))
        = o.before ++ sub items repl (o.parts.flatten ++ written occurrences last) := sub_quiet hQuiet
      _ = o.before ++ (repl o.parts ++ replaced repl occurrences last) := by
        rw [sub_match hDecided hFits (hSome _ hFits), ih hRest]

/-- Every text is put together from the matches found in it. -/
theorem exists_reads (hSome : ∀ parts, List.Forall₂ Fits items parts → parts.flatten ≠ []) (cs : List α) :
    ∃ occurrences last, Reads items occurrences last ∧ written occurrences last = cs := by
  have hBounded : ∀ n (cs : List α), cs.length ≤ n →
      ∃ occurrences last, Reads items occurrences last ∧ written occurrences last = cs := by
    intro n
    induction n with
    | zero =>
      intro cs hLength
      obtain rfl := List.length_eq_zero_iff.mp (Nat.le_zero.mp hLength)
      exact ⟨[], [], fun s hs hNe => (hNe (List.suffix_nil.mp hs)).elim, rfl⟩
    | succ n ih =>
      intro cs hLength
      by_cases hBegins : Begins items cs
      · obtain ⟨parts, rest, hMatch⟩ := hBegins
        obtain ⟨hFits, rfl⟩ := matchItems_sound hMatch
        have hShort := List.length_pos_of_ne_nil (hSome _ hFits)
        rw [List.length_append] at hLength
        obtain ⟨occurrences, last, hReads, rfl⟩ := ih rest (by omega)
        exact ⟨⟨[], parts⟩ :: occurrences, last,
          ⟨hFits, fun s hs hNe => (hNe (List.suffix_nil.mp hs)).elim, hReads⟩, rfl⟩
      · cases cs with
        | nil => exact ⟨[], [], fun s hs hNe => (hNe (List.suffix_nil.mp hs)).elim, rfl⟩
        | cons c cs =>
          rw [List.length_cons] at hLength
          obtain ⟨occurrences, last, hReads, rfl⟩ := ih cs (by omega)
          cases occurrences with
          | nil =>
            refine ⟨[], c :: last, quiet_cons.mpr ⟨?_, hReads⟩, rfl⟩
            rw [List.append_nil]
            exact hBegins
          | cons o occurrences =>
            exact ⟨⟨c :: o.before, o.parts⟩ :: occurrences, last,
              ⟨hReads.1, quiet_cons.mpr ⟨hBegins, hReads.2.1⟩, hReads.2.2⟩, rfl⟩
  exact hBounded _ cs (Nat.le_refl _)

/-- A replacement by parts of its own that fit, mask the match and are replaced by themselves. -/
structure Masking (items : List (Item α)) (repl : List (List α) → List α)
    (mask : List (List α) → List (List α)) : Prop where
  decided : Decided items
  some : ∀ parts, List.Forall₂ Fits items parts → parts.flatten ≠ []
  repl : ∀ parts, List.Forall₂ Fits items parts → repl parts = (mask parts).flatten
  fits : ∀ parts, List.Forall₂ Fits items parts → List.Forall₂ Fits items (mask parts)
  masks : ∀ parts, List.Forall₂ Fits items parts → Masks items parts.flatten (mask parts).flatten
  twice : ∀ parts, List.Forall₂ Fits items parts → mask (mask parts) = mask parts

namespace Masking

variable {mask : List (List α) → List (List α)}

def occurrence (mask : List (List α) → List (List α)) (o : Occurrence α) : Occurrence α :=
  ⟨o.before, mask o.parts⟩

theorem reads (h : Masking items repl mask) {occurrences : List (Occurrence α)} {last : List α}
    (hReads : Reads items occurrences last) : Reads items (occurrences.map (occurrence mask)) last := by
  induction occurrences with
  | nil => exact hReads
  | cons o occurrences ih =>
    obtain ⟨hParts, hQuiet, hRest⟩ := hReads
    exact ⟨h.fits _ hParts, (h.masks _ hParts).quiet h.decided hQuiet _, ih hRest⟩

theorem replaced_eq (h : Masking items repl mask) {occurrences : List (Occurrence α)} {last : List α}
    (hReads : Reads items occurrences last) :
    replaced repl occurrences last = written (occurrences.map (occurrence mask)) last := by
  induction occurrences with
  | nil => rfl
  | cons o occurrences ih =>
    obtain ⟨hParts, -, hRest⟩ := hReads
    have hWritten := ih hRest
    simp only [replaced, written, List.map_cons, List.foldr_cons, occurrence] at hWritten ⊢
    rw [hWritten, h.repl _ hParts]

/-- A masking replacement is made once and for all. -/
theorem sub_sub (h : Masking items repl mask) (cs : List α) :
    sub items repl (sub items repl cs) = sub items repl cs := by
  obtain ⟨occurrences, last, hReads, rfl⟩ := exists_reads h.some cs
  have hTwice : (occurrences.map (occurrence mask)).map (occurrence mask) =
      occurrences.map (occurrence mask) := by
    rw [List.map_map]
    refine List.map_congr_left fun o ho => ?_
    have hParts : List.Forall₂ Fits items o.parts := by
      induction occurrences with
      | nil => cases ho
      | cons first occurrences ih =>
        rcases List.mem_cons.mp ho with rfl | ho
        · exact hReads.1
        · exact ih hReads.2.2 ho
    rw [Function.comp_apply, occurrence, occurrence, h.twice _ hParts]
  rw [sub_written h.decided h.some hReads, h.replaced_eq hReads,
    sub_written h.decided h.some (h.reads hReads), h.replaced_eq (h.reads hReads), hTwice]

end Masking

end Sub

end Pattern
