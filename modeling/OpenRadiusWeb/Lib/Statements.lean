import Mathlib.Data.List.TakeWhile
import Mathlib.Data.List.Basic

/-! # Texts of statements

A configuration text is read line by line. The words of a line stand between blanks, up to the first
that begins with a number sign. A line that ends in an opening brace begins a section, a closing
brace alone ends it, and any other line with words is a statement. Which characters a bare word may
have is left to the lexis.
-/

namespace Statements

abbrev Word : Type := List Char

inductive Statement
  | opens (words : List Word)
  | closes
  | item (words : List Word)
  deriving DecidableEq

def blank (c : Char) : Bool := c == ' ' || c == '\t'

def words (line : List Char) : List Word := (line.splitOnP blank).filter fun w => !w.isEmpty

def isComment (w : Word) : Bool := w.head? == some '#'

def uncommented (ws : List Word) : List Word := ws.takeWhile fun w => !isComment w

def brace : Word := ['\x7b']

def unbrace : Word := ['\x7d']

def classify (ws : List Word) : Option Statement :=
  if ws = [] then none
  else if ws = [unbrace] then some .closes
  else if ws.getLast? = some brace then some (.opens ws.dropLast)
  else some (.item ws)

/-- The characters that every lexis has in its words. -/
def plainChar (c : Char) : Bool := c.isAlphanum || ['_', '-', '.', ':', '+'].contains c

structure Lexis where
  wordChar : Char → Bool
  plain : ∀ c, plainChar c = true → wordChar c = true

namespace Lexis

variable (l : Lexis)

def allows (w : Word) : Bool :=
  w == brace || w == unbrace || w == ['='] || w.all l.wordChar

def readLine (line : List Char) : Option (List Statement) :=
  if (uncommented (words line)).all l.allows then some (classify (uncommented (words line))).toList
  else none

def readText (text : List Char) : Option (List Statement) :=
  ((text.splitOn '\n').mapM l.readLine).map List.flatten

end Lexis

variable {l : Lexis} {w : Word} {ws : List Word} {a b t : List Char} {c : Char}

/-! ## Words -/

theorem mem_splitOnP {p : Char → Bool} (h : w ∈ t.splitOnP p) :
    ∀ c ∈ w, p c = false ∧ c ∈ t := by
  induction t generalizing w with
  | nil =>
    rw [List.splitOnP_nil, List.mem_singleton] at h
    subst h
    exact fun c hc => absurd hc List.not_mem_nil
  | cons x t ih =>
    rw [List.splitOnP_cons_eq_if_modifyHead] at h
    split at h
    · rcases List.mem_cons.mp h with rfl | h
      · exact fun c hc => absurd hc List.not_mem_nil
      · exact fun c hc => ⟨(ih h c hc).1, List.mem_cons_of_mem x (ih h c hc).2⟩
    · rename_i hx
      obtain ⟨first, rest, hSplit⟩ := List.exists_cons_of_ne_nil (List.splitOnP_ne_nil p t)
      rw [hSplit] at h ih
      rcases List.mem_cons.mp h with rfl | h
      · intro c hc
        rcases List.mem_cons.mp hc with rfl | hc
        · exact ⟨Bool.not_eq_true _ ▸ hx, List.mem_cons_self⟩
        · have := ih List.mem_cons_self c hc
          exact ⟨this.1, List.mem_cons_of_mem x this.2⟩
      · have hRest := ih (List.mem_cons_of_mem first h)
        exact fun c hc => ⟨(hRest c hc).1, List.mem_cons_of_mem x (hRest c hc).2⟩

theorem mem_words (h : w ∈ words t) : w ≠ [] ∧ ∀ c ∈ w, blank c = false ∧ c ∈ t := by
  obtain ⟨hMem, hSome⟩ := List.mem_filter.mp h
  refine ⟨?_, mem_splitOnP hMem⟩
  rintro rfl
  cases hSome

@[simp] theorem words_nil : words [] = [] := rfl

theorem words_append (h : blank c = true) : words (a ++ c :: b) = words a ++ words b := by
  rw [words, List.splitOnP_append_cons a b h, List.filter_append]
  rfl

theorem words_blank (h : blank c = true) : words (c :: b) = words b := words_append (a := []) h

theorem words_word (hSome : w ≠ []) (h : ∀ c ∈ w, blank c = false) : words w = [w] := by
  rw [words, List.splitOnP_eq_singleton h, List.filter_cons_of_pos, List.filter_nil]
  cases w with
  | nil => exact absurd rfl hSome
  | cons c w => rfl

theorem words_indent (n : Nat) : words (List.replicate n ' ' ++ t) = words t := by
  induction n with
  | zero => rfl
  | succ n ih =>
    rw [List.replicate_succ, List.cons_append, words_blank rfl, ih]

/-- The first word begins with the first letter that is no blank. -/
theorem words_cons (h : blank c = false) : ∃ w ws, words (c :: t) = (c :: w) :: ws := by
  obtain ⟨first, rest, hSplit⟩ := List.exists_cons_of_ne_nil (List.splitOnP_ne_nil blank t)
  refine ⟨first, rest.filter fun w => !w.isEmpty, ?_⟩
  rw [words, List.splitOnP_cons_eq_if_modifyHead, if_neg (by rw [h]; decide), hSplit,
    List.modifyHead_cons, List.filter_cons_of_pos rfl]

def unwords : List Word → List Char
  | [] => []
  | [w] => w
  | w :: w' :: ws => w ++ ' ' :: unwords (w' :: ws)

theorem words_unwords (ws : List Word) : words (unwords ws) = ws.flatMap words := by
  induction ws with
  | nil => rfl
  | cons w ws ih =>
    cases ws with
    | nil => rw [unwords, List.flatMap_singleton]
    | cons w' ws => rw [unwords, words_append rfl, ih, ← List.flatMap_cons]

/-- A text that is a word of its own. -/
structure IsWord (l : Lexis) (w : Word) : Prop where
  nonempty : w ≠ []
  notComment : isComment w = false
  oneLine : ∀ c ∈ w, blank c = false ∧ c ≠ '\n'
  allowed : l.allows w = true

instance (l : Lexis) (w : Word) : Decidable (IsWord l w) :=
  decidable_of_iff (w ≠ [] ∧ isComment w = false ∧
      w.all (fun c => decide (blank c = false ∧ c ≠ '\n')) = true ∧ l.allows w = true)
    ⟨fun ⟨hSome, hComment, hLine, hAllowed⟩ =>
        ⟨hSome, hComment, fun c hc => of_decide_eq_true (List.all_eq_true.mp hLine c hc), hAllowed⟩,
      fun h => ⟨h.nonempty, h.notComment,
        List.all_eq_true.mpr fun c hc => decide_eq_true (h.oneLine c hc), h.allowed⟩⟩

/-- A text of plain characters. -/
def IsPlain (w : Word) : Prop := w ≠ [] ∧ ∀ c ∈ w, plainChar c = true

instance (w : Word) : Decidable (IsPlain w) :=
  decidable_of_iff (w ≠ [] ∧ w.all plainChar = true) (and_congr_right' List.all_eq_true)

def special : List Char := [' ', '\t', '\n', '#', '\x7b', '\x7d', '=']

theorem ne_special (h : plainChar c = true) : ∀ s ∈ special, c ≠ s := by
  have hNone : special.all (fun s => !plainChar s) = true := by decide
  intro s hs hEq
  have hPlain : plainChar s = false := by simpa using List.all_eq_true.mp hNone s hs
  rw [hEq, hPlain] at h
  cases h

theorem IsPlain.isWord (h : IsPlain w) : IsWord l w where
  nonempty := h.1
  notComment := by
    obtain ⟨c, w, rfl⟩ := List.exists_cons_of_ne_nil h.1
    have hHash := ne_special (h.2 c List.mem_cons_self) '#' (by decide)
    simpa [isComment] using hHash
  oneLine c hc := by
    have hNe := ne_special (h.2 c hc)
    rw [blank, Bool.or_eq_false_iff, beq_eq_false_iff_ne, beq_eq_false_iff_ne]
    exact ⟨⟨hNe ' ' (by decide), hNe '\t' (by decide)⟩, hNe '\n' (by decide)⟩
  allowed := by
    rw [Lexis.allows, List.all_eq_true.mpr fun c hc => l.plain c (h.2 c hc), Bool.or_true]

theorem flatMap_words (h : ∀ w ∈ ws, IsWord l w) : ws.flatMap words = ws := by
  induction ws with
  | nil => rfl
  | cons w ws ih =>
    rw [List.forall_mem_cons] at h
    rw [List.flatMap_cons, words_word h.1.nonempty fun c hc => (h.1.oneLine c hc).1, ih h.2]
    rfl

theorem uncommented_words (h : ∀ w ∈ ws, IsWord l w) : uncommented ws = ws := by
  rw [uncommented, List.takeWhile_eq_self_iff]
  intro w hw
  rw [(h w hw).notComment]
  rfl

/-! ## Lines and texts -/

theorem readText_of_notMem (h : '\n' ∉ t) : l.readText t = l.readLine t := by
  rw [Lexis.readText, List.splitOn_eq_singleton h, List.mapM_cons, List.mapM_nil]
  cases l.readLine t with
  | none => rfl
  | some statements => exact congrArg some (List.append_nil statements)

theorem readText_append (a b : List Char) : l.readText (a ++ '\n' :: b) =
    (l.readText a).bind fun xs => (l.readText b).map fun ys => xs ++ ys := by
  rw [Lexis.readText, List.splitOn_append_cons_self, List.mapM_append]
  unfold Lexis.readText
  cases (a.splitOn '\n').mapM l.readLine with
  | none => rfl
  | some xs =>
    cases (b.splitOn '\n').mapM l.readLine with
    | none => rfl
    | some ys => exact congrArg some List.flatten_append

theorem readText_cons {xs : List Statement} (h : l.readText t = some xs) :
    ∃ line rest first others, t.takeWhile (· ≠ '\n') = line ∧ l.readLine line = some first ∧
      xs = first ++ others ∧ t = line ++ rest := by
  by_cases hLine : '\n' ∈ t
  · obtain ⟨line, rest, rfl, hNot⟩ := List.eq_append_cons_of_mem hLine
    rw [readText_append, readText_of_notMem hNot] at h
    obtain ⟨first, hFirst, h⟩ := Option.bind_eq_some_iff.mp h
    obtain ⟨others, -, rfl⟩ := Option.map_eq_some_iff.mp h
    refine ⟨line, '\n' :: rest, first, others, ?_, hFirst, rfl, rfl⟩
    rw [List.takeWhile_append_of_pos, List.takeWhile_cons_of_neg (by decide), List.append_nil]
    intro c hc
    exact decide_eq_true fun hEq => hNot (hEq ▸ hc)
  · refine ⟨t, [], xs, [], ?_, (readText_of_notMem hLine).symm.trans h, (List.append_nil xs).symm,
      (List.append_nil t).symm⟩
    rw [List.takeWhile_eq_self_iff]
    intro c hc
    exact decide_eq_true fun hEq => hLine (hEq ▸ hc)

/-! ## Generated lines -/

inductive Line
  | empty
  | comment (indent : Nat) (text : List Char)
  | opens (indent : Nat) (words : List Word)
  | closes (indent : Nat)
  | item (indent : Nat) (words : List Word)
  deriving DecidableEq

namespace Line

def text : Line → List Char
  | .empty => []
  | .comment n text => List.replicate n ' ' ++ '#' :: text
  | .opens n words => List.replicate n ' ' ++ unwords (words ++ [brace])
  | .closes n => List.replicate n ' ' ++ unbrace
  | .item n words => List.replicate n ' ' ++ unwords words

/-- What the line is to be read as. -/
def statements : Line → List Statement
  | .empty | .comment .. => []
  | .opens _ words => [.opens words]
  | .closes _ => [.closes]
  | .item _ words => [.item words]

/-- What a generator fixes of a line: the first word, and that a comment stays on its line. -/
def Fixed : Line → Prop
  | .empty | .closes _ => True
  | .comment _ text => '\n' ∉ text
  | .opens _ words | .item _ words => ∃ first ∈ words.head?, IsPlain first

/-- What the values of a line must be like for it to be read so. -/
def Sound (l : Lexis) : Line → Prop
  | .empty | .closes _ | .comment .. => True
  | .opens _ words => ∀ w ∈ words, IsWord l w
  | .item _ words => (∀ w ∈ words, IsWord l w) ∧ words.getLast? ≠ some brace

end Line

theorem notMem_unwords (h : ∀ w ∈ ws, '\n' ∉ w) : '\n' ∉ unwords ws := by
  induction ws with
  | nil => exact List.not_mem_nil
  | cons w ws ih =>
    rw [List.forall_mem_cons] at h
    cases ws with
    | nil => exact h.1
    | cons w' ws =>
      rw [unwords, List.mem_append, List.mem_cons, not_or, not_or]
      exact ⟨h.1, by decide, ih h.2⟩

theorem notMem_replicate (n : Nat) : '\n' ∉ List.replicate n ' ' := by
  intro hMem
  cases List.eq_of_mem_replicate hMem

theorem notMem_indent (n : Nat) (h : '\n' ∉ t) : '\n' ∉ List.replicate n ' ' ++ t := by
  rw [List.mem_append, not_or]
  exact ⟨notMem_replicate n, h⟩

theorem readLine_words (n : Nat) (h : ∀ w ∈ ws, IsWord l w) :
    l.readLine (List.replicate n ' ' ++ unwords ws) = some (classify ws).toList := by
  rw [Lexis.readLine, words_indent, words_unwords, flatMap_words h, uncommented_words h, if_pos]
  exact List.all_eq_true.mpr fun w hw => (h w hw).allowed

theorem isWord_brace : IsWord l brace :=
  ⟨by decide, by decide, List.forall_mem_singleton.mpr ⟨by decide, by decide⟩, rfl⟩

theorem isWord_unbrace : IsWord l unbrace :=
  ⟨by decide, by decide, List.forall_mem_singleton.mpr ⟨by decide, by decide⟩, rfl⟩

theorem exists_classify (h : ws ≠ []) : ∃ s, classify ws = some s := by
  rw [classify, if_neg h]
  split
  · exact ⟨_, rfl⟩
  · split
    · exact ⟨_, rfl⟩
    · exact ⟨_, rfl⟩

theorem classify_opens (ws : List Word) : classify (ws ++ [brace]) = some (.opens ws) := by
  have hLast : (ws ++ [brace]).getLast? = some brace := List.getLast?_concat
  have hNot : ws ++ [brace] ≠ [unbrace] := by
    intro hEq
    rw [hEq] at hLast
    exact absurd hLast (by decide)
  rw [classify, if_neg (List.append_ne_nil_of_right_ne_nil ws (List.cons_ne_nil _ _)), if_neg hNot,
    if_pos hLast, List.dropLast_concat]

theorem classify_item (h : ws ≠ []) (hNot : ws ≠ [unbrace]) (hLast : ws.getLast? ≠ some brace) :
    classify ws = some (.item ws) := by
  rw [classify, if_neg h, if_neg hNot, if_neg hLast]

theorem plain_ne_unbrace (h : IsPlain w) : w ≠ unbrace := by
  rintro rfl
  exact absurd h (by decide)

theorem readText_words (n : Nat) (h : ∀ w ∈ ws, IsWord l w) :
    l.readText (List.replicate n ' ' ++ unwords ws) = some (classify ws).toList := by
  have hLine : '\n' ∉ unwords ws :=
    notMem_unwords fun w hw hMem => ((h w hw).oneLine _ hMem).2 rfl
  rw [readText_of_notMem (notMem_indent n hLine), readLine_words n h]

namespace Line

variable {line : Line}

theorem readText_comment (n : Nat) (h : '\n' ∉ t) : l.readText (comment n t).text = some [] := by
  have hLine : '\n' ∉ '#' :: t := by
    rw [List.mem_cons, not_or]
    exact ⟨by decide, h⟩
  rw [text, readText_of_notMem (notMem_indent n hLine), Lexis.readLine, words_indent]
  have hNone : uncommented (words ('#' :: t)) = [] := by
    obtain ⟨w, ws, hWords⟩ := words_cons (t := t) (show blank '#' = false by decide)
    rw [hWords]
    rfl
  rw [hNone]
  rfl

theorem readText_opens (n : Nat) (h : ∀ w ∈ ws, IsWord l w) :
    l.readText (opens n ws).text = some [.opens ws] := by
  rw [text, readText_words n (List.forall_mem_append.mpr ⟨h, List.forall_mem_singleton.mpr isWord_brace⟩),
    classify_opens]
  rfl

theorem readText_closes (n : Nat) : l.readText (closes n).text = some [.closes] := by
  have hUnbrace : ∀ w ∈ [unbrace], IsWord l w := List.forall_mem_singleton.mpr isWord_unbrace
  exact readText_words n hUnbrace

theorem readText_item (n : Nat) (h : ∀ w ∈ ws, IsWord l w) (hSome : ws ≠ []) (hNot : ws ≠ [unbrace])
    (hLast : ws.getLast? ≠ some brace) : l.readText (item n ws).text = some [.item ws] := by
  rw [text, readText_words n h, classify_item hSome hNot hLast]
  rfl

theorem readText_of_sound (hFixed : line.Fixed) (hSound : line.Sound l) :
    l.readText line.text = some line.statements := by
  cases line with
  | empty => rfl
  | comment n text => exact readText_comment n hFixed
  | opens n ws => exact readText_opens n hSound
  | closes n => exact readText_closes n
  | item n ws =>
    obtain ⟨first, hFirst, hPlain⟩ := hFixed
    refine readText_item n hSound.1 ?_ ?_ hSound.2
    · rintro rfl
      cases hFirst
    · rintro rfl
      cases hFirst
      exact plain_ne_unbrace hPlain rfl

end Line

/-- A line that begins with a plain word is read as one statement that begins with it, and only
what other lines a value adds may follow. -/
theorem readText_headed {n : Nat} {first : Word} {rest : List Char} {xs : List Statement}
    (hPlain : IsPlain first) (hRest : ∀ c ∈ rest.head?, c = ' ')
    (h : l.readText (List.replicate n ' ' ++ (first ++ rest)) = some xs) :
    ∃ ws s others, (∀ w ∈ first :: ws, IsWord l w) ∧ classify (first :: ws) = some s ∧
      xs = s :: others := by
  obtain ⟨line, more, statements, others, hLine, hRead, rfl, hText⟩ := readText_cons h
  have hFirst : IsWord l first := hPlain.isWord
  obtain ⟨ws, hWords⟩ : ∃ ws, words line = first :: ws := by
    have hTake : ∀ u : List Char, '\n' ∉ u → ∀ v : List Char,
        (u ++ v).takeWhile (· ≠ '\n') = u ++ v.takeWhile (· ≠ '\n') := by
      intro u hu v
      refine List.takeWhile_append_of_pos fun c hc => decide_eq_true ?_
      rintro rfl
      exact hu hc
    rw [← hLine, hTake _ (notMem_replicate n),
      hTake first fun hMem => (hFirst.oneLine _ hMem).2 rfl, words_indent]
    cases rest with
    | nil =>
      rw [List.takeWhile_nil, List.append_nil]
      exact ⟨[], words_word hFirst.nonempty fun c hc => (hFirst.oneLine c hc).1⟩
    | cons c rest =>
      obtain rfl := hRest c rfl
      rw [List.takeWhile_cons_of_pos (by decide), words_append rfl,
        words_word hFirst.nonempty fun c hc => (hFirst.oneLine c hc).1]
      exact ⟨_, rfl⟩
  have hHead : uncommented (words line) = first :: uncommented ws := by
    rw [hWords, uncommented, List.takeWhile_cons_of_pos (by rw [hFirst.notComment]; rfl)]
    rfl
  rw [Lexis.readLine] at hRead
  split at hRead
  · rename_i hAllowed
    have hEach : ∀ w ∈ first :: uncommented ws, IsWord l w := by
      intro w hw
      rw [← hHead] at hw
      have hMem : w ∈ words line := (List.takeWhile_sublist _).subset hw
      refine ⟨(mem_words hMem).1, ?_, fun c hc => ⟨((mem_words hMem).2 c hc).1, ?_⟩,
        List.all_eq_true.mp hAllowed w hw⟩
      · simpa using List.mem_takeWhile_imp (p := fun w => !isComment w) hw
      · have hChar := ((mem_words hMem).2 c hc).2
        rw [← hLine] at hChar
        simpa using List.mem_takeWhile_imp hChar
    obtain ⟨s, hs⟩ := exists_classify (List.cons_ne_nil first (uncommented ws))
    rw [hHead, hs] at hRead
    cases hRead
    exact ⟨_, s, others, hEach, hs, rfl⟩
  · cases hRead

theorem unwords_cons (w : Word) (ws : List Word) :
    ∃ rest, unwords (w :: ws) = w ++ rest ∧ ∀ c ∈ rest.head?, c = ' ' := by
  cases ws with
  | nil => exact ⟨[], (List.append_nil w).symm, by rintro c ⟨⟩⟩
  | cons w' ws => exact ⟨' ' :: unwords (w' :: ws), rfl, by rintro c ⟨⟩; rfl⟩

/-- What the words of a line are classified as has all of them. -/
theorem classify_eq_opens {vs : List Word} (h : classify ws = some (.opens vs)) :
    ws = vs ++ [brace] := by
  unfold classify at h
  split at h
  · cases h
  · split at h
    · cases h
    · split at h
      · rename_i hOpen
        cases h
        exact (List.dropLast_append_getLast? brace hOpen).symm
      · cases h

theorem classify_eq_item {vs : List Word} (h : classify ws = some (.item vs)) :
    ws = vs ∧ ws.getLast? ≠ some brace := by
  unfold classify at h
  split at h
  · cases h
  · split at h
    · cases h
    · split at h
      · cases h
      · rename_i hOpen
        cases h
        exact ⟨rfl, hOpen⟩

namespace Line

variable {line : Line}

theorem readText_fixed {xs : List Statement} (hFixed : line.Fixed)
    (h : l.readText line.text = some xs) : line.statements.length ≤ xs.length ∧
      (line.statements ≠ [] → xs = line.statements → line.Sound l) := by
  cases line with
  | empty => exact ⟨Nat.zero_le _, fun hSome => absurd rfl hSome⟩
  | comment n text => exact ⟨Nat.zero_le _, fun hSome => absurd rfl hSome⟩
  | closes n =>
    cases (readText_of_sound (show (Line.closes n).Fixed from trivial) trivial).symm.trans h
    exact ⟨Nat.le_refl _, fun _ _ => trivial⟩
  | opens n ws =>
    obtain ⟨first, hFirst, hPlain⟩ := hFixed
    obtain ⟨ws, rfl⟩ : ∃ tail, ws = first :: tail := by
      cases ws with
      | nil => cases hFirst
      | cons w ws => exact ⟨ws, by cases hFirst; rfl⟩
    obtain ⟨rest, hText, hRest⟩ := unwords_cons first (ws ++ [brace])
    rw [Line.text, List.cons_append, hText] at h
    obtain ⟨vs, s, others, hEach, hs, rfl⟩ := readText_headed hPlain hRest h
    refine ⟨Nat.le_add_left 1 others.length, fun _ hEq => ?_⟩
    cases hEq
    have hWords := classify_eq_opens hs
    rw [hWords] at hEach
    exact fun w hw => hEach w (List.mem_append_left _ hw)
  | item n ws =>
    obtain ⟨first, hFirst, hPlain⟩ := hFixed
    obtain ⟨ws, rfl⟩ : ∃ tail, ws = first :: tail := by
      cases ws with
      | nil => cases hFirst
      | cons w ws => exact ⟨ws, by cases hFirst; rfl⟩
    obtain ⟨rest, hText, hRest⟩ := unwords_cons first ws
    rw [Line.text, hText] at h
    obtain ⟨vs, s, others, hEach, hs, rfl⟩ := readText_headed hPlain hRest h
    refine ⟨Nat.le_add_left 1 others.length, fun _ hEq => ?_⟩
    cases hEq
    obtain ⟨hWords, hLast⟩ := classify_eq_item hs
    rw [hWords] at hEach hLast
    exact ⟨hEach, hLast⟩

end Line

/-! ## Texts of generated lines -/

/-- `"\n".join(lines)`. -/
def joined (lines : List Line) : List Char := ['\n'].intercalate (lines.map Line.text)

variable {lines : List Line}

theorem readText_joined_cons (line : Line) (lines : List Line) :
    l.readText (joined (line :: lines)) = (l.readText line.text).bind fun xs =>
      (l.readText (joined lines)).map fun ys => xs ++ ys := by
  cases lines with
  | nil =>
    have hOne : joined [line] = line.text := by simp [joined]
    have hNone : l.readText (joined []) = some [] := rfl
    rw [hOne, hNone]
    cases l.readText line.text with
    | none => rfl
    | some xs => exact congrArg some (List.append_nil xs).symm
  | cons next lines =>
    have hMore : joined (line :: next :: lines) = line.text ++ '\n' :: joined (next :: lines) := by
      simp [joined, List.intercalate]
    rw [hMore, readText_append]

theorem readText_joined (h : ∀ line ∈ lines, l.readText line.text = some line.statements) :
    l.readText (joined lines) = some (lines.flatMap Line.statements) := by
  induction lines with
  | nil => rfl
  | cons line lines ih =>
    rw [List.forall_mem_cons] at h
    rw [readText_joined_cons, h.1, ih h.2]
    rfl

theorem length_statements_le {xs : List Statement} (hFixed : ∀ line ∈ lines, line.Fixed)
    (h : l.readText (joined lines) = some xs) :
    (lines.flatMap Line.statements).length ≤ xs.length := by
  induction lines generalizing xs with
  | nil => exact Nat.zero_le _
  | cons line lines ih =>
    rw [List.forall_mem_cons] at hFixed
    rw [readText_joined_cons] at h
    obtain ⟨first, hFirst, h⟩ := Option.bind_eq_some_iff.mp h
    obtain ⟨rest, hRest, rfl⟩ := Option.map_eq_some_iff.mp h
    rw [List.flatMap_cons, List.length_append, List.length_append]
    exact Nat.add_le_add (Line.readText_fixed hFixed.1 hFirst).1 (ih hFixed.2 hRest)

/-- A text is read back exactly when the values of its lines are words: a value that adds lines or
takes some away cannot make up for it elsewhere. -/
theorem readText_joined_iff (hFixed : ∀ line ∈ lines, line.Fixed) :
    l.readText (joined lines) = some (lines.flatMap Line.statements) ↔
      ∀ line ∈ lines, line.Sound l := by
  induction lines with
  | nil => exact ⟨fun _ line hMem => absurd hMem List.not_mem_nil, fun _ => rfl⟩
  | cons line lines ih =>
    rw [List.forall_mem_cons] at hFixed
    rw [List.forall_mem_cons, ← ih hFixed.2, readText_joined_cons, List.flatMap_cons]
    constructor
    · intro h
      obtain ⟨first, hFirst, h⟩ := Option.bind_eq_some_iff.mp h
      obtain ⟨rest, hRest, hEq⟩ := Option.map_eq_some_iff.mp h
      have hLine := Line.readText_fixed hFixed.1 hFirst
      have hLines := length_statements_le hFixed.2 hRest
      have hTotal := congrArg List.length hEq
      rw [List.length_append, List.length_append] at hTotal
      obtain ⟨rfl, rfl⟩ := List.append_inj hEq (by omega)
      refine ⟨?_, hRest⟩
      rcases Classical.em (line.statements = []) with hSome | hSome
      · cases line with
        | opens => cases hSome
        | item => cases hSome
        | _ => trivial
      · exact hLine.2 hSome rfl
    · rintro ⟨hSound, hLines⟩
      rw [Line.readText_of_sound hFixed.1 hSound, hLines]
      rfl

/-! ## Sections -/

abbrev Heading : Type := List Word

/-- The headings around what follows a statement, the innermost first. -/
def Statement.inside (stack : List Heading) : Statement → List Heading
  | .opens words => words :: stack
  | .closes => stack.tail
  | .item _ => stack

/-- What the statements of a text give, each under its headings. -/
def scan {α : Type} (f : List Heading → Statement → List α) : List Heading → List Statement → List α
  | _, [] => []
  | stack, s :: rest => f stack s ++ scan f (s.inside stack) rest

/-- Each section of the lines is closed in them. -/
def Balanced (lines : List Line) : Prop :=
  ∀ stack, (lines.flatMap Line.statements).foldl Statement.inside stack = stack

theorem scan_append {α : Type} {f : List Heading → Statement → List α} {stack : List Heading}
    (xs ys : List Statement) :
    scan f stack (xs ++ ys) = scan f stack xs ++ scan f (xs.foldl Statement.inside stack) ys := by
  induction xs generalizing stack with
  | nil => rfl
  | cons s xs ih => rw [List.cons_append, scan, scan, ih, List.foldl_cons, List.append_assoc]

/-- Lines that leave no section open. -/
structure Passage where
  lines : List Line
  balanced : Balanced lines

namespace Passage

def statements (p : Passage) : List Statement := p.lines.flatMap Line.statements

def empty : Passage := ⟨[.empty], fun _ => rfl⟩

def comment (n : Nat) (text : List Char) : Passage := ⟨[.comment n text], fun _ => rfl⟩

def item (n : Nat) (words : List Word) : Passage := ⟨[.item n words], fun _ => rfl⟩

def all (parts : List Passage) : Passage where
  lines := parts.flatMap Passage.lines
  balanced := by
    induction parts with
    | nil => exact fun _ => rfl
    | cons p parts ih =>
      intro stack
      rw [List.flatMap_cons, List.flatMap_append, List.foldl_append, p.balanced, ih]

theorem enclosed_statements (n : Nat) (words : List Word) (body : List Line) :
    (.opens n words :: (body ++ [.closes n])).flatMap Line.statements =
      .opens words :: (body.flatMap Line.statements ++ [.closes]) := by
  rw [List.flatMap_cons, List.flatMap_append]
  rfl

/-- A section with its heading and the brace that closes it. -/
def enclosed (n : Nat) (words : List Word) (parts : List Passage) : Passage where
  lines := .opens n words :: ((all parts).lines ++ [.closes n])
  balanced := by
    intro stack
    rw [enclosed_statements, List.foldl_cons, List.foldl_append, Statement.inside,
      (all parts).balanced]
    rfl

section Scan

variable {α : Type} {f : List Heading → Statement → List α} {stack : List Heading}
  {parts : List Passage} {n : Nat}

def scan (f : List Heading → Statement → List α) (stack : List Heading) (p : Passage) : List α :=
  Statements.scan f stack p.statements

@[simp] theorem scan_empty : scan f stack empty = [] := rfl

@[simp] theorem scan_comment (text : List Char) : scan f stack (comment n text) = [] := rfl

@[simp] theorem scan_item (words : List Word) : scan f stack (item n words) = f stack (.item words) :=
  List.append_nil _

@[simp] theorem scan_all : scan f stack (all parts) = parts.flatMap (scan f stack) := by
  induction parts with
  | nil => rfl
  | cons p parts ih =>
    have hStatements : (p.lines ++ (all parts).lines).flatMap Line.statements =
        p.statements ++ (all parts).statements := List.flatMap_append
    rw [List.flatMap_cons, ← ih, scan]
    change Statements.scan f stack ((p.lines ++ (all parts).lines).flatMap Line.statements) = _
    rw [hStatements, scan_append]
    exact congrArg (fun stack' => _ ++ Statements.scan f stack' _) (p.balanced stack)

@[simp] theorem scan_enclosed (words : List Word) : scan f stack (enclosed n words parts) =
    f stack (.opens words) ++ (parts.flatMap (scan f (words :: stack)) ++ f (words :: stack) .closes) := by
  rw [← scan_all, scan, statements, enclosed, enclosed_statements, Statements.scan, Statement.inside,
    scan_append, (all parts).balanced, Statements.scan, Statements.scan, List.append_nil]
  rfl

end Scan

end Passage

/-! ## Passages that are read -/

/-- The words of the line are words of the lexis. -/
def Line.Legible (l : Lexis) : Line → Prop
  | .empty | .closes _ => True
  | .comment _ text => '\n' ∉ text
  | .opens _ words => ∀ w ∈ words, IsWord l w
  | .item _ words =>
    (∀ w ∈ words, IsWord l w) ∧ words ≠ [] ∧ words ≠ [unbrace] ∧ words.getLast? ≠ some brace

theorem Line.readText_of_legible {l : Lexis} {line : Line} (h : line.Legible l) :
    l.readText line.text = some line.statements := by
  cases line with
  | empty => rfl
  | comment n text => exact readText_comment n h
  | opens n ws => exact readText_opens n h
  | closes n => exact readText_closes n
  | item n ws => exact readText_item n h.1 h.2.1 h.2.2.1 h.2.2.2

namespace Passage

def Legible (l : Lexis) (p : Passage) : Prop := ∀ line ∈ p.lines, line.Legible l

variable {l : Lexis} {parts : List Passage} {n : Nat} {ws : List Word} {t : List Char}

theorem readText_of_legible {p : Passage} (h : p.Legible l) :
    l.readText (joined p.lines) = some p.statements :=
  readText_joined fun line hLine => Line.readText_of_legible (h line hLine)

@[simp] theorem legible_empty : empty.Legible l ↔ True :=
  iff_true_intro (List.forall_mem_singleton.mpr trivial)

@[simp] theorem legible_comment : (comment n t).Legible l ↔ '\n' ∉ t := List.forall_mem_singleton

@[simp] theorem legible_item : (item n ws).Legible l ↔
    (∀ w ∈ ws, IsWord l w) ∧ ws ≠ [] ∧ ws ≠ [unbrace] ∧ ws.getLast? ≠ some brace :=
  List.forall_mem_singleton

@[simp] theorem legible_all : (all parts).Legible l ↔ ∀ p ∈ parts, p.Legible l := by
  constructor
  · exact fun h p hp line hLine => h line (List.mem_flatMap.mpr ⟨p, hp, hLine⟩)
  · intro h line hLine
    obtain ⟨p, hp, hLine⟩ := List.mem_flatMap.mp hLine
    exact h p hp line hLine

@[simp] theorem legible_enclosed : (enclosed n ws parts).Legible l ↔
    (∀ w ∈ ws, IsWord l w) ∧ ∀ p ∈ parts, p.Legible l := by
  rw [← legible_all]
  constructor
  · intro h
    exact ⟨h _ List.mem_cons_self,
      fun line hLine => h line (List.mem_cons_of_mem _ (List.mem_append_left _ hLine))⟩
  · rintro ⟨hWords, hBody⟩ line hLine
    rcases List.mem_cons.mp hLine with rfl | hLine
    · exact hWords
    · rcases List.mem_append.mp hLine with hLine | hLine
      · exact hBody line hLine
      · rw [List.mem_singleton.mp hLine]
        trivial

end Passage

/-! ## Passages inside a section -/

/-- An indented line, in one piece. -/
def Line.Nested : Line → Prop
  | .empty => True
  | .closes n => 0 < n
  | .comment n text => 0 < n ∧ '\n' ∉ text
  | .opens n words | .item n words => 0 < n ∧ ∀ w ∈ words, '\n' ∉ w

theorem blank_head_indent {n : Nat} (h : 0 < n) (t : List Char) :
    (List.replicate n ' ' ++ t).head?.map blank = some true := by
  cases n with
  | zero => exact absurd h (Nat.lt_irrefl 0)
  | succ n => rfl

theorem Line.Nested.text {line : Line} (h : line.Nested) :
    '\n' ∉ line.text ∧ (line.text.head?.map blank).getD true = true := by
  cases line with
  | empty => exact ⟨List.not_mem_nil, rfl⟩
  | closes n => exact ⟨notMem_indent n (by decide), by rw [Line.text, blank_head_indent h]; rfl⟩
  | comment n text =>
    refine ⟨notMem_indent n ?_, by rw [Line.text, blank_head_indent h.1]; rfl⟩
    exact List.not_mem_cons_of_ne_of_not_mem (by decide) h.2
  | opens n words =>
    refine ⟨notMem_indent n (notMem_unwords ?_), by rw [Line.text, blank_head_indent h.1]; rfl⟩
    exact List.forall_mem_append.mpr ⟨h.2, List.forall_mem_singleton.mpr (by decide)⟩
  | item n words => exact ⟨notMem_indent n (notMem_unwords h.2), by rw [Line.text, blank_head_indent h.1]; rfl⟩

namespace Passage

def Nested (p : Passage) : Prop := ∀ line ∈ p.lines, line.Nested

variable {parts : List Passage} {n : Nat} {ws : List Word} {t : List Char}

@[simp] theorem nested_empty : empty.Nested ↔ True := iff_true_intro (List.forall_mem_singleton.mpr trivial)

@[simp] theorem nested_comment : (comment n t).Nested ↔ 0 < n ∧ '\n' ∉ t := List.forall_mem_singleton

@[simp] theorem nested_item : (item n ws).Nested ↔ 0 < n ∧ ∀ w ∈ ws, '\n' ∉ w := List.forall_mem_singleton

@[simp] theorem nested_all : (all parts).Nested ↔ ∀ p ∈ parts, p.Nested := by
  constructor
  · exact fun h p hp line hLine => h line (List.mem_flatMap.mpr ⟨p, hp, hLine⟩)
  · intro h line hLine
    obtain ⟨p, hp, hLine⟩ := List.mem_flatMap.mp hLine
    exact h p hp line hLine

@[simp] theorem nested_enclosed : (enclosed n ws parts).Nested ↔
    0 < n ∧ (∀ w ∈ ws, '\n' ∉ w) ∧ ∀ p ∈ parts, p.Nested := by
  rw [← nested_all]
  constructor
  · intro h
    have hOpens := h _ List.mem_cons_self
    exact ⟨hOpens.1, hOpens.2,
      fun line hLine => h line (List.mem_cons_of_mem _ (List.mem_append_left _ hLine))⟩
  · rintro ⟨hIndent, hWords, hBody⟩ line hLine
    rcases List.mem_cons.mp hLine with rfl | hLine
    · exact ⟨hIndent, hWords⟩
    · rcases List.mem_append.mp hLine with hLine | hLine
      · exact hBody line hLine
      · rw [List.mem_singleton.mp hLine]
        exact hIndent

end Passage

end Statements
