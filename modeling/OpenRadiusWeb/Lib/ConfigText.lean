import OpenRadiusWeb.Lib.Text
import Mathlib.Data.List.TakeWhile

/-! # Configuration texts of lines

A text of sections and pairs, one to a line, as FreeRADIUS reads it. A value between double quotes
ends at the first quote that no backslash takes, on the line where it began. What a backslash or a
percent sign stands for is left to the dialect.
-/

namespace ConfigText

/-- What a value is when it is expanded. -/
inductive Part
  | char (c : Char)
  | expansion (text : List Char)
  deriving DecidableEq

inductive Value
  | bare (text : List Char)
  | quoted (text : List Char)
  deriving DecidableEq

inductive Event
  /-- `kind name {`, or `kind {`. -/
  | opened (words : List (List Char))
  | closed
  | pair (attr : List Char) (value : Value)
  deriving DecidableEq

def nameChar (c : Char) : Bool := c.isAlphanum || c == '_' || c == '-'

def special : List Char := [' ', '\t', '\n', '"', '#', '\x7b', '\x7d', '=']

structure Dialect where
  wordChar : Char → Bool
  /-- What a backslash before the text stands for, and how many letters it takes. -/
  escape : List Char → Char × Nat
  /-- The same for a percent sign. -/
  expansion : List Char → Part × Nat
  nameChar_word : ∀ c, nameChar c = true → wordChar c = true
  special_not_word : ∀ c ∈ special, wordChar c = false
  escape_takes : ∀ text, 0 < (escape text).2
  expansion_takes : ∀ text, 0 < (expansion text).2

def blank (c : Char) : Bool := c == ' ' || c == '\t'

/-- Nothing, or a comment. -/
def atEnd (rest : List Char) : Bool :=
  match rest.dropWhile blank with
  | [] => true
  | c :: _ => c == '#'

namespace Dialect

variable (d : Dialect)

/-- The value up to the closing quote and what is behind it, when an escape has still so many
letters to take. -/
def readQuoted : Nat → List Char → Option (List Char × List Char)
  | _, [] => none
  | n + 1, _ :: rest => readQuoted n rest
  | 0, c :: rest =>
    if c = '"' then some ([], rest)
    else if c = '\\' then
      (readQuoted (d.escape rest).2 rest).map fun r => ((d.escape rest).1 :: r.1, r.2)
    else (readQuoted 0 rest).map fun r => (c :: r.1, r.2)

def expandFrom : Nat → List Char → Option (List Part)
  | 0, [] => some []
  | _ + 1, [] => none
  | n + 1, _ :: rest => expandFrom n rest
  | 0, c :: rest =>
    if c = '%' then (expandFrom (d.expansion rest).2 rest).map ((d.expansion rest).1 :: ·)
    else (expandFrom 0 rest).map (.char c :: ·)

/-- The parts of a value that is expanded. -/
def expand (text : List Char) : Option (List Part) := d.expandFrom 0 text

/-- The word in front, and what is behind it and the blanks. -/
def word (text : List Char) : List Char × List Char :=
  (text.takeWhile d.wordChar, (text.dropWhile d.wordChar).dropWhile blank)

def readValue : List Char → Option (Value × List Char)
  | [] => none
  | c :: rest =>
    if c = '"' then (d.readQuoted 0 rest).map fun r => (.quoted r.1, r.2)
    else if (d.word (c :: rest)).1 = [] then none
    else some (.bare (d.word (c :: rest)).1, (d.word (c :: rest)).2)

/-- The brace that opens a section. -/
def readOpen (words : List (List Char)) : List Char → Option (List Event)
  | [] => none
  | c :: rest => if c = '\x7b' ∧ atEnd rest = true then some [.opened words] else none

/-- What follows the first word of a line. -/
def readAfter (first : List Char) : List Char → Option (List Event)
  | [] => none
  | c :: rest =>
    if c = '=' then
      (d.readValue (rest.dropWhile blank)).bind fun r =>
        if atEnd r.2 = true then some [.pair first r.1] else none
    else if c = '\x7b' then readOpen [first] (c :: rest)
    else if (d.word (c :: rest)).1 = [] then none
    else readOpen [first, (d.word (c :: rest)).1] (d.word (c :: rest)).2

def readLine (line : List Char) : Option (List Event) :=
  match line.dropWhile blank with
  | [] => some []
  | c :: rest =>
    if c = '#' then some []
    else if c = '\x7d' then if atEnd rest = true then some [.closed] else none
    else if (d.word (c :: rest)).1 = [] then none
    else d.readAfter (d.word (c :: rest)).1 (d.word (c :: rest)).2

def readText (text : List Char) : Option (List Event) :=
  ((text.splitOn '\n').mapM d.readLine).map List.flatten

end Dialect

/-- A text that is itself between double quotes on a line. -/
def Plain (v : List Char) : Prop := '"' ∉ v ∧ '\\' ∉ v ∧ '\n' ∉ v

instance (v : List Char) : Decidable (Plain v) := inferInstanceAs (Decidable (_ ∧ _ ∧ _))

variable {d : Dialect} {v w t rest : List Char} {n : Nat}

/-! ## Quoted values -/

theorem readQuoted_plain (hQuote : '"' ∉ v) (hBackslash : '\\' ∉ v) :
    d.readQuoted 0 (v ++ '"' :: rest) = some (v, rest) := by
  induction v with
  | nil => rfl
  | cons c v ih =>
    rw [List.mem_cons, not_or] at hQuote hBackslash
    rw [List.cons_append, Dialect.readQuoted, if_neg fun h => hQuote.1 h.symm,
      if_neg fun h => hBackslash.1 h.symm, ih hQuote.2 hBackslash.2, Option.map_some]

/-- The value is shorter than what it is read from. -/
theorem readQuoted_length (h : d.readQuoted n t = some (w, rest)) : w.length + 1 + n ≤ t.length := by
  induction t generalizing n w with
  | nil =>
    rw [Dialect.readQuoted] at h
    cases h
  | cons c t ih =>
    rw [List.length_cons]
    cases n with
    | succ n =>
      rw [Dialect.readQuoted] at h
      have := ih h
      omega
    | zero =>
      rw [Dialect.readQuoted] at h
      split at h
      · cases h
        rw [List.length_nil]
        omega
      · split at h
        · obtain ⟨⟨w', rest'⟩, hRead, hEq⟩ := Option.map_eq_some_iff.mp h
          simp only [Prod.mk.injEq] at hEq
          obtain ⟨rfl, rfl⟩ := hEq
          have hTakes := d.escape_takes t
          have := ih hRead
          rw [List.length_cons]
          omega
        · obtain ⟨⟨w', rest'⟩, hRead, hEq⟩ := Option.map_eq_some_iff.mp h
          simp only [Prod.mk.injEq] at hEq
          obtain ⟨rfl, rfl⟩ := hEq
          have := ih hRead
          rw [List.length_cons]
          omega

theorem readQuoted_self (h : d.readQuoted 0 (v ++ ['"']) = some (v, rest)) : '"' ∉ v ∧ '\\' ∉ v := by
  induction v with
  | nil => exact ⟨List.not_mem_nil, List.not_mem_nil⟩
  | cons c v ih =>
    rw [List.cons_append, Dialect.readQuoted] at h
    split at h
    · cases h
    · rename_i hQuote
      split at h
      · obtain ⟨⟨w', rest'⟩, hRead, hEq⟩ := Option.map_eq_some_iff.mp h
        have hTakes := d.escape_takes (v ++ ['"'])
        simp only [Prod.mk.injEq, List.cons.injEq] at hEq
        obtain ⟨⟨-, rfl⟩, rfl⟩ := hEq
        have hLength := readQuoted_length hRead
        rw [List.length_append, List.length_singleton] at hLength
        omega
      · rename_i hBackslash
        obtain ⟨⟨w', rest'⟩, hRead, hEq⟩ := Option.map_eq_some_iff.mp h
        simp only [Prod.mk.injEq, List.cons.injEq] at hEq
        obtain ⟨⟨-, rfl⟩, rfl⟩ := hEq
        obtain ⟨hQuotes, hBackslashes⟩ := ih hRead
        exact ⟨fun hMem => (List.mem_cons.mp hMem).elim (fun e => hQuote e.symm) hQuotes,
          fun hMem => (List.mem_cons.mp hMem).elim (fun e => hBackslash e.symm) hBackslashes⟩

/-! ## Expanded values -/

theorem expandFrom_length {parts : List Part} (h : d.expandFrom n t = some parts) :
    parts.length + n ≤ t.length := by
  induction t generalizing n parts with
  | nil =>
    cases n with
    | zero =>
      cases h
      exact Nat.le_refl 0
    | succ n => cases h
  | cons c t ih =>
    rw [List.length_cons]
    cases n with
    | succ n =>
      rw [Dialect.expandFrom] at h
      have := ih h
      omega
    | zero =>
      rw [Dialect.expandFrom] at h
      split at h
      · obtain ⟨parts', hRest, rfl⟩ := Option.map_eq_some_iff.mp h
        have hTakes := d.expansion_takes t
        have := ih hRest
        rw [List.length_cons]
        omega
      · obtain ⟨parts', hRest, rfl⟩ := Option.map_eq_some_iff.mp h
        have := ih hRest
        rw [List.length_cons]
        omega

/-- A value is its own expansion when it has no percent sign. -/
theorem expand_eq_self_iff : d.expand v = some (v.map Part.char) ↔ '%' ∉ v := by
  rw [Dialect.expand]
  induction v with
  | nil => exact ⟨fun _ => List.not_mem_nil, fun _ => rfl⟩
  | cons c v ih =>
    rw [Dialect.expandFrom, List.map_cons, List.mem_cons, not_or]
    split
    · rename_i hPercent
      refine ⟨fun h => ?_, fun h => absurd hPercent.symm h.1⟩
      obtain ⟨parts, hRest, hEq⟩ := Option.map_eq_some_iff.mp h
      have hTakes := d.expansion_takes v
      have hLength := expandFrom_length hRest
      rw [(List.cons.inj hEq).2, List.length_map] at hLength
      omega
    · rename_i hPercent
      constructor
      · intro h
        obtain ⟨parts, hRest, hEq⟩ := Option.map_eq_some_iff.mp h
        rw [(List.cons.inj hEq).2] at hRest
        exact ⟨fun e => hPercent e.symm, ih.mp hRest⟩
      · intro h
        rw [ih.mpr h.2, Option.map_some]

/-! ## Words -/

theorem word_append (hWord : ∀ c ∈ w, d.wordChar c = true)
    (hRest : ∀ c ∈ rest.head?, d.wordChar c = false) :
    d.word (w ++ rest) = (w, rest.dropWhile blank) := by
  have hTake : rest.takeWhile d.wordChar = [] := by
    cases rest with
    | nil => rfl
    | cons c rest => exact List.takeWhile_cons_of_neg (by rw [hRest c rfl]; decide)
  have hDrop : rest.dropWhile d.wordChar = rest := by
    cases rest with
    | nil => rfl
    | cons c rest => exact List.dropWhile_cons_of_neg (by rw [hRest c rfl]; decide)
  rw [Dialect.word, List.takeWhile_append_of_pos hWord, List.dropWhile_append_of_pos hWord, hTake,
    hDrop, List.append_nil]

/-- A name as the generated lines have it. -/
def IsName (w : List Char) : Prop := w ≠ [] ∧ ∀ c ∈ w, nameChar c = true

instance (w : List Char) : Decidable (IsName w) := inferInstanceAs (Decidable (_ ∧ _))

theorem dropWhile_indent (n : Nat) (hText : ∀ c ∈ t.head?, blank c = false) :
    (List.replicate n ' ' ++ t).dropWhile blank = t := by
  rw [List.dropWhile_append_of_pos fun c hc => by rw [List.eq_of_mem_replicate hc]; decide]
  cases t with
  | nil => rfl
  | cons c t => exact List.dropWhile_cons_of_neg (by rw [hText c rfl]; decide)

theorem nameChar_ne {c : Char} (h : nameChar c = true) : ∀ s ∈ special, c ≠ s := by
  have hNone : ∀ s ∈ special, nameChar s = false := by decide
  intro s hs hEq
  rw [hEq, hNone s hs] at h
  cases h

theorem blank_nameChar {c : Char} (h : nameChar c = true) : blank c = false := by
  rw [blank, Bool.or_eq_false_iff, beq_eq_false_iff_ne, beq_eq_false_iff_ne]
  exact ⟨nameChar_ne h ' ' (by decide), nameChar_ne h '\t' (by decide)⟩

theorem readLine_name (hName : IsName w) (n : Nat) (hRest : ∀ c ∈ rest.head?, d.wordChar c = false) :
    d.readLine (List.replicate n ' ' ++ (w ++ rest)) = d.readAfter w (rest.dropWhile blank) := by
  have hWord : d.word (w ++ rest) = (w, rest.dropWhile blank) :=
    word_append (fun c hc => d.nameChar_word c (hName.2 c hc)) hRest
  obtain ⟨c, w', rfl⟩ := List.exists_cons_of_ne_nil hName.1
  have hFirst := nameChar_ne (hName.2 c List.mem_cons_self)
  have hNotBlank : ∀ a ∈ (c :: w' ++ rest).head?, blank a = false := by
    rintro a ⟨⟩
    exact blank_nameChar (hName.2 c List.mem_cons_self)
  rw [Dialect.readLine, dropWhile_indent n hNotBlank]
  rw [List.cons_append] at hWord ⊢
  simp only [if_neg (hFirst '#' (by decide)), if_neg (hFirst '\x7d' (by decide)), hWord,
    if_neg (List.cons_ne_nil c w')]

/-! ## Texts -/

theorem readText_of_notMem (h : '\n' ∉ t) : d.readText t = d.readLine t := by
  rw [Dialect.readText, List.splitOn_eq_singleton h, List.mapM_cons, List.mapM_nil]
  cases d.readLine t with
  | none => rfl
  | some events => exact congrArg some (List.append_nil events)

theorem readText_append (a b : List Char) :
    d.readText (a ++ '\n' :: b) =
      (d.readText a).bind fun xs => (d.readText b).map fun ys => xs ++ ys := by
  rw [Dialect.readText, List.splitOn_append_cons_self, List.mapM_append]
  unfold Dialect.readText
  cases (a.splitOn '\n').mapM d.readLine with
  | none => rfl
  | some xs =>
    cases (b.splitOn '\n').mapM d.readLine with
    | none => rfl
    | some ys => exact congrArg some List.flatten_append

@[simp] theorem readText_nil : d.readText [] = some [] := rfl

/-! ## Generated lines -/

inductive Line
  | empty
  | comment (indent : Nat) (text : List Char)
  | opens (indent : Nat) (kind : List Char)
  | opensNamed (indent : Nat) (kind name : List Char)
  | closes (indent : Nat)
  | bare (indent : Nat) (attr value : List Char)
  | quoted (indent : Nat) (attr value : List Char)
  deriving DecidableEq

namespace Line

def text : Line → List Char
  | .empty => []
  | .comment n text => List.replicate n ' ' ++ '#' :: text
  | .opens n kind => List.replicate n ' ' ++ (kind ++ [' ', '\x7b'])
  | .opensNamed n kind name => List.replicate n ' ' ++ (kind ++ ' ' :: (name ++ [' ', '\x7b']))
  | .closes n => List.replicate n ' ' ++ ['\x7d']
  | .bare n attr value => List.replicate n ' ' ++ (attr ++ ' ' :: '=' :: ' ' :: value)
  | .quoted n attr value =>
    List.replicate n ' ' ++ (attr ++ ' ' :: '=' :: ' ' :: '"' :: (value ++ ['"']))

/-- What the line is to be read as. -/
def events : Line → List Event
  | .empty | .comment .. => []
  | .opens _ kind => [.opened [kind]]
  | .opensNamed _ kind name => [.opened [kind, name]]
  | .closes _ => [.closed]
  | .bare _ attr value => [.pair attr (.bare value)]
  | .quoted _ attr value => [.pair attr (.quoted value)]

/-- What a template fixes of a line. -/
def Fixed : Line → Prop
  | .empty | .comment .. | .closes _ => True
  | .opens _ kind => IsName kind
  | .opensNamed _ kind name => IsName kind ∧ ∃ c ∈ name.head?, nameChar c = true
  | .bare _ attr value => IsName attr ∧ IsName value
  | .quoted _ attr _ => IsName attr

/-- What the values of a line must be like for it to be read so. -/
def Sound (d : Dialect) : Line → Prop
  | .comment _ text => '\n' ∉ text
  | .opensNamed _ _ name => ∀ c ∈ name, d.wordChar c = true
  | .quoted _ _ value => Plain value
  | _ => True

end Line

theorem notMem_replicate {c : Char} (h : c ≠ ' ') (n : Nat) : c ∉ List.replicate n ' ' :=
  fun hMem => h (List.eq_of_mem_replicate hMem)

theorem IsName.newline (h : IsName w) : '\n' ∉ w :=
  fun hMem => nameChar_ne (h.2 _ hMem) '\n' (by decide) rfl

theorem readLine_pair (hName : IsName w) (n : Nat) (t : List Char) :
    d.readLine (List.replicate n ' ' ++ (w ++ ' ' :: '=' :: ' ' :: '"' :: t)) =
      (d.readQuoted 0 t).bind fun r =>
        if atEnd r.2 = true then some [.pair w (.quoted r.1)] else none := by
  rw [readLine_name hName n (by rintro c ⟨⟩; exact d.special_not_word _ (by decide))]
  change d.readAfter w ('=' :: ' ' :: '"' :: t) = _
  rw [Dialect.readAfter, if_pos rfl]
  change (d.readValue ('"' :: t)).bind _ = _
  rw [Dialect.readValue, if_pos rfl]
  cases d.readQuoted 0 t <;> rfl

theorem readLine_pair_some {xs : List Event} (hName : IsName w)
    (h : d.readLine (List.replicate n ' ' ++ (w ++ ' ' :: '=' :: ' ' :: '"' :: t)) = some xs) :
    ∃ u rest, d.readQuoted 0 t = some (u, rest) ∧ xs = [.pair w (.quoted u)] := by
  rw [readLine_pair hName] at h
  obtain ⟨⟨u, rest⟩, hRead, h⟩ := Option.bind_eq_some_iff.mp h
  split at h
  · cases h
    exact ⟨u, rest, hRead, rfl⟩
  · cases h

/-- A section whose name is whatever word stands in the text. -/
theorem readLine_section_some {xs : List Event} (hName : IsName w)
    (hText : ∃ c ∈ t.head?, nameChar c = true)
    (h : d.readLine (List.replicate n ' ' ++ (w ++ ' ' :: t)) = some xs) :
    xs = [.opened [w, t.takeWhile d.wordChar]] := by
  obtain ⟨c, hc, hChar⟩ := hText
  cases t with
  | nil => cases hc
  | cons a t =>
    cases hc
    have hNe := nameChar_ne hChar
    have hDrop : (' ' :: c :: t).dropWhile blank = c :: t := by
      rw [List.dropWhile_cons_of_pos (by decide), List.dropWhile_cons_of_neg (by rw [blank_nameChar hChar]; decide)]
    rw [readLine_name hName n (by rintro c ⟨⟩; exact d.special_not_word _ (by decide)), hDrop,
      Dialect.readAfter, if_neg (hNe '=' (by decide)), if_neg (hNe '\x7b' (by decide))] at h
    split at h
    · cases h
    · rw [Dialect.readOpen.eq_def] at h
      split at h
      · cases h
      · split at h
        · cases h
          rfl
        · cases h

namespace Line

theorem readText_quoted {attr : List Char} {xs : List Event} (hName : IsName attr)
    (h : d.readText (quoted n attr v).text = some xs) :
    ∃ u ys, xs = .pair attr (.quoted u) :: ys ∧ (u = v → Plain v) := by
  have hFront : '\n' ∉ List.replicate n ' ' ++ (attr ++ [' ', '=', ' ', '"']) := by
    rw [List.mem_append, List.mem_append, not_or, not_or]
    exact ⟨notMem_replicate (by decide) n, hName.newline, by decide⟩
  by_cases hNewline : '\n' ∈ v
  · obtain ⟨v₀, v₁, rfl, hFirst⟩ := List.eq_append_cons_of_mem hNewline
    have hText : (quoted n attr (v₀ ++ '\n' :: v₁)).text =
        List.replicate n ' ' ++ (attr ++ ' ' :: '=' :: ' ' :: '"' :: v₀) ++ '\n' :: (v₁ ++ ['"']) := by
      simp only [text, List.append_assoc, List.cons_append]
    have hLine : '\n' ∉ List.replicate n ' ' ++ (attr ++ ' ' :: '=' :: ' ' :: '"' :: v₀) := by
      have hMem := not_or.mpr ⟨hFront, hFirst⟩
      rwa [← List.mem_append, List.append_assoc, List.append_assoc] at hMem
    rw [hText, readText_append, readText_of_notMem hLine] at h
    obtain ⟨first, hRead, h⟩ := Option.bind_eq_some_iff.mp h
    obtain ⟨ys, -, rfl⟩ := Option.map_eq_some_iff.mp h
    obtain ⟨u, rest, hQuoted, rfl⟩ := readLine_pair_some hName hRead
    refine ⟨u, ys, rfl, fun hSame => ?_⟩
    have hLength := readQuoted_length hQuoted
    rw [hSame, List.length_append, List.length_cons] at hLength
    omega
  · have hLine : '\n' ∉ (quoted n attr v).text := by
      have hMem : '\n' ∉ (List.replicate n ' ' ++ (attr ++ [' ', '=', ' ', '"'])) ++ (v ++ ['"']) := by
        rw [List.mem_append, List.mem_append (s := v), not_or, not_or]
        exact ⟨hFront, hNewline, by decide⟩
      rwa [List.append_assoc, List.append_assoc] at hMem
    rw [readText_of_notMem hLine] at h
    obtain ⟨u, rest, hQuoted, rfl⟩ := readLine_pair_some hName h
    refine ⟨u, [], rfl, fun hSame => ?_⟩
    rw [hSame] at hQuoted
    obtain ⟨hQuotes, hBackslashes⟩ := readQuoted_self hQuoted
    exact ⟨hQuotes, hBackslashes, hNewline⟩

theorem readText_opensNamed {kind name : List Char} {xs : List Event} (hKind : IsName kind)
    (hName : ∃ c ∈ name.head?, nameChar c = true)
    (h : d.readText (opensNamed n kind name).text = some xs) :
    ∃ u ys, xs = .opened [kind, u] :: ys ∧ ∀ c ∈ u, d.wordChar c = true := by
  have hFront : '\n' ∉ List.replicate n ' ' ++ (kind ++ [' ']) := by
    rw [List.mem_append, List.mem_append, not_or, not_or]
    exact ⟨notMem_replicate (by decide) n, hKind.newline, by decide⟩
  by_cases hNewline : '\n' ∈ name
  · obtain ⟨u, v, rfl, hFirst⟩ := List.eq_append_cons_of_mem hNewline
    have hText : (opensNamed n kind (u ++ '\n' :: v)).text =
        List.replicate n ' ' ++ (kind ++ ' ' :: u) ++ '\n' :: (v ++ [' ', '\x7b']) := by
      simp only [text, List.append_assoc, List.cons_append]
    have hLine : '\n' ∉ List.replicate n ' ' ++ (kind ++ ' ' :: u) := by
      have hMem := not_or.mpr ⟨hFront, hFirst⟩
      rwa [← List.mem_append, List.append_assoc, List.append_assoc] at hMem
    have hHead : ∃ c ∈ u.head?, nameChar c = true := by
      cases u with
      | nil =>
        obtain ⟨c, ⟨⟩, hChar⟩ := hName
        exact absurd hChar (by decide)
      | cons a u => exact hName
    rw [hText, readText_append, readText_of_notMem hLine] at h
    obtain ⟨first, hRead, h⟩ := Option.bind_eq_some_iff.mp h
    obtain ⟨ys, -, rfl⟩ := Option.map_eq_some_iff.mp h
    rw [readLine_section_some hKind hHead hRead]
    exact ⟨_, ys, rfl, fun c hc => List.mem_takeWhile_imp hc⟩
  · have hLine : '\n' ∉ (opensNamed n kind name).text := by
      have hMem : '\n' ∉ (List.replicate n ' ' ++ (kind ++ [' '])) ++ (name ++ [' ', '\x7b']) := by
        rw [List.mem_append, List.mem_append (s := name), not_or, not_or]
        exact ⟨hFront, hNewline, by decide⟩
      rwa [List.append_assoc, List.append_assoc] at hMem
    have hHead : ∃ c ∈ (name ++ [' ', '\x7b']).head?, nameChar c = true := by
      cases name with
      | nil =>
        obtain ⟨c, hc, -⟩ := hName
        cases hc
      | cons a name => exact hName
    rw [readText_of_notMem hLine] at h
    rw [readLine_section_some hKind hHead h]
    exact ⟨_, [], rfl, fun c hc => List.mem_takeWhile_imp hc⟩

theorem newline_notMem {line : Line} (hFixed : line.Fixed) (hSound : line.Sound d) :
    '\n' ∉ line.text := by
  have hIndent (n : Nat) : '\n' ∉ List.replicate n ' ' := notMem_replicate (by decide) n
  cases line with
  | empty => exact List.not_mem_nil
  | comment n remark =>
    rw [text, List.mem_append, List.mem_cons]
    exact not_or.mpr ⟨hIndent n, not_or.mpr ⟨by decide, hSound⟩⟩
  | opens n kind =>
    rw [text, List.mem_append, List.mem_append]
    exact not_or.mpr ⟨hIndent n, not_or.mpr ⟨IsName.newline hFixed, by decide⟩⟩
  | opensNamed n kind name =>
    have hName : '\n' ∉ name := fun hMem => by
      have hWord := hSound _ hMem
      rw [d.special_not_word '\n' (by decide)] at hWord
      cases hWord
    rw [text, List.mem_append, List.mem_append, List.mem_cons, List.mem_append]
    exact not_or.mpr ⟨hIndent n, not_or.mpr ⟨hFixed.1.newline,
      not_or.mpr ⟨by decide, not_or.mpr ⟨hName, by decide⟩⟩⟩⟩
  | closes n =>
    rw [text, List.mem_append]
    exact not_or.mpr ⟨hIndent n, by decide⟩
  | bare n attr value =>
    rw [text, List.mem_append, List.mem_append]
    refine not_or.mpr ⟨hIndent n, not_or.mpr ⟨hFixed.1.newline, fun hMem => ?_⟩⟩
    rw [List.mem_cons, List.mem_cons, List.mem_cons] at hMem
    have hValue := hFixed.2.newline
    revert hMem
    simp only [hValue, or_false]
    decide
  | quoted n attr value =>
    rw [text, List.mem_append, List.mem_append]
    refine not_or.mpr ⟨hIndent n, not_or.mpr ⟨IsName.newline hFixed, fun hMem => ?_⟩⟩
    rw [List.mem_cons, List.mem_cons, List.mem_cons, List.mem_cons, List.mem_append] at hMem
    have hValue := hSound.2.2
    revert hMem
    simp only [hValue, false_or]
    decide

/-- A line with sound values is read as it is meant. -/
theorem readText_of_sound {line : Line} (hFixed : line.Fixed) (hSound : line.Sound d) :
    d.readText line.text = some line.events := by
  rw [readText_of_notMem (newline_notMem hFixed hSound)]
  have hBlank : ∀ c ∈ ([' ', '\x7b'] : List Char).head?, d.wordChar c = false := by
    rintro c ⟨⟩
    exact d.special_not_word _ (by decide)
  cases line with
  | empty => rfl
  | comment n text =>
    rw [Line.text, Dialect.readLine, dropWhile_indent n (by rintro c ⟨⟩; decide)]
    rfl
  | opens n kind =>
    rw [Line.text, readLine_name hFixed n hBlank]
    rfl
  | opensNamed n kind name =>
    obtain ⟨hKind, c, hc, hChar⟩ := hFixed
    cases name with
    | nil => cases hc
    | cons a name =>
      cases hc
      have hNe := nameChar_ne hChar
      have hNotBlank := blank_nameChar hChar
      have hWord : d.word (c :: (name ++ [' ', '\x7b'])) = (c :: name, ['\x7b']) :=
        word_append hSound hBlank
      rw [Line.text, readLine_name hKind n (by rintro c ⟨⟩; exact d.special_not_word _ (by decide)),
        List.dropWhile_cons_of_pos (by decide), List.cons_append,
        List.dropWhile_cons_of_neg (by rw [hNotBlank]; decide), Dialect.readAfter,
        if_neg (hNe '=' (by decide)), if_neg (hNe '\x7b' (by decide)), hWord,
        if_neg (List.cons_ne_nil _ _)]
      rfl
  | closes n =>
    rw [Line.text, Dialect.readLine, dropWhile_indent n (by rintro c ⟨⟩; decide)]
    rfl
  | bare n attr value =>
    obtain ⟨hAttr, hNonempty, hChars⟩ := hFixed
    have hWord : d.word value = (value, []) := by
      have hAll : d.word (value ++ []) = (value, []) :=
        word_append (fun c hc => d.nameChar_word c (hChars c hc)) (by rintro c ⟨⟩)
      rwa [List.append_nil] at hAll
    obtain ⟨c, value, rfl⟩ := List.exists_cons_of_ne_nil hNonempty
    have hNe := nameChar_ne (hChars c List.mem_cons_self)
    have hNotBlank := blank_nameChar (hChars c List.mem_cons_self)
    rw [Line.text, readLine_name hAttr n (by rintro c ⟨⟩; exact d.special_not_word _ (by decide)),
      List.dropWhile_cons_of_pos (by decide), List.dropWhile_cons_of_neg (by decide),
      Dialect.readAfter, if_pos rfl, List.dropWhile_cons_of_pos (by decide),
      List.dropWhile_cons_of_neg (by rw [hNotBlank]; decide), Dialect.readValue,
      if_neg (hNe '"' (by decide)), hWord, if_neg (List.cons_ne_nil _ _)]
    rfl
  | quoted n attr value =>
    rw [Line.text, readLine_pair hFixed, readQuoted_plain hSound.1 hSound.2.1]
    rfl

/-- Whatever its values, a line that is read yields as many events as are meant, or more. -/
theorem length_events_le {line : Line} {xs : List Event} (hFixed : line.Fixed)
    (h : d.readText line.text = some xs) : line.events.length ≤ xs.length := by
  cases line with
  | empty => exact Nat.zero_le _
  | comment n text => exact Nat.zero_le _
  | opensNamed n kind name =>
    obtain ⟨u, ys, rfl, -⟩ := readText_opensNamed hFixed.1 hFixed.2 h
    exact Nat.le_add_left 1 ys.length
  | quoted n attr value =>
    obtain ⟨u, ys, rfl, -⟩ := readText_quoted hFixed h
    exact Nat.le_add_left 1 ys.length
  | opens n kind =>
    cases (readText_of_sound (show (Line.opens n kind).Fixed from hFixed) trivial).symm.trans h
    exact Nat.le_refl _
  | closes n =>
    cases (readText_of_sound (show (Line.closes n).Fixed from hFixed) trivial).symm.trans h
    exact Nat.le_refl _
  | bare n attr value =>
    cases (readText_of_sound (show (Line.bare n attr value).Fixed from hFixed) trivial).symm.trans h
    exact Nat.le_refl _

theorem sound_of_readText {line : Line} (hFixed : line.Fixed) (hEvents : line.events ≠ [])
    (h : d.readText line.text = some line.events) : line.Sound d := by
  cases line with
  | comment n text => exact absurd rfl hEvents
  | opensNamed n kind name =>
    obtain ⟨u, ys, hEq, hWord⟩ := readText_opensNamed hFixed.1 hFixed.2 h
    cases hEq
    exact hWord
  | quoted n attr value =>
    obtain ⟨u, ys, hEq, hPlain⟩ := readText_quoted hFixed h
    cases hEq
    exact hPlain rfl
  | _ => trivial

end Line

/-! ## Texts of generated lines -/

def joined (lines : List Line) : List Char := lines.flatMap fun line => line.text ++ ['\n']

variable {lines : List Line}

theorem joined_cons (line : Line) (lines : List Line) :
    joined (line :: lines) = line.text ++ '\n' :: joined lines := by
  rw [joined, List.flatMap_cons, List.append_assoc]
  rfl

theorem readText_joined_cons (line : Line) (lines : List Line) :
    d.readText (joined (line :: lines)) = (d.readText line.text).bind fun xs =>
      (d.readText (joined lines)).map fun ys => xs ++ ys := by
  rw [joined_cons, readText_append]

theorem length_events_joined_le {xs : List Event} (hFixed : ∀ line ∈ lines, line.Fixed)
    (h : d.readText (joined lines) = some xs) : (lines.flatMap Line.events).length ≤ xs.length := by
  induction lines generalizing xs with
  | nil => exact Nat.zero_le _
  | cons line lines ih =>
    rw [readText_joined_cons] at h
    obtain ⟨first, hFirst, h⟩ := Option.bind_eq_some_iff.mp h
    obtain ⟨rest, hRest, rfl⟩ := Option.map_eq_some_iff.mp h
    rw [List.flatMap_cons, List.length_append, List.length_append]
    have hLine := Line.length_events_le (hFixed line List.mem_cons_self) hFirst
    have hLines := ih (fun l hl => hFixed l (List.mem_cons_of_mem line hl)) hRest
    omega

/-- When nothing is added in all, each line is read as it is meant. -/
theorem readText_of_joined (hFixed : ∀ line ∈ lines, line.Fixed)
    (h : d.readText (joined lines) = some (lines.flatMap Line.events)) :
    ∀ line ∈ lines, d.readText line.text = some line.events := by
  induction lines with
  | nil => exact fun line hMem => absurd hMem List.not_mem_nil
  | cons line lines ih =>
    have hRestFixed : ∀ l ∈ lines, l.Fixed := fun l hl => hFixed l (List.mem_cons_of_mem line hl)
    rw [readText_joined_cons, List.flatMap_cons] at h
    obtain ⟨first, hFirst, h⟩ := Option.bind_eq_some_iff.mp h
    obtain ⟨rest, hRest, hEq⟩ := Option.map_eq_some_iff.mp h
    have hLine := Line.length_events_le (hFixed line List.mem_cons_self) hFirst
    have hLines := length_events_joined_le hRestFixed hRest
    have hTotal := congrArg List.length hEq
    rw [List.length_append, List.length_append] at hTotal
    obtain ⟨rfl, rfl⟩ := List.append_inj hEq (by omega)
    intro l hl
    rcases List.mem_cons.mp hl with rfl | hl
    · exact hFirst
    · exact ih hRestFixed hRest l hl

theorem readText_joined_of_sound (hFixed : ∀ line ∈ lines, line.Fixed)
    (hSound : ∀ line ∈ lines, line.Sound d) :
    d.readText (joined lines) = some (lines.flatMap Line.events) := by
  induction lines with
  | nil => rfl
  | cons line lines ih =>
    rw [readText_joined_cons, Line.readText_of_sound (hFixed line List.mem_cons_self)
      (hSound line List.mem_cons_self), ih (fun l hl => hFixed l (List.mem_cons_of_mem line hl))
      (fun l hl => hSound l (List.mem_cons_of_mem line hl))]
    rfl

end ConfigText
