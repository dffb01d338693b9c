import Mathlib.Data.List.Infix
import Mathlib.Data.List.Basic

/-! # Text as a sequence of code points

The string operations the modelled programs use, each on the list of a string's code
points: replacing one character, cutting at a separator, substring tests, stripping
white space. The last part shows when a text joined with separator lines determines
the parts it was joined from.
-/

namespace Text

-- decided along the text: `Char` is finite, and Mathlib would try all characters
instance (priority := 1100) decidableForall (p : Char → Prop) [DecidablePred p] (cs : List Char) :
    Decidable (∀ c ∈ cs, p c) := List.decidableBAll p cs

/-- `s.replace(c, by)` for a one-character `c`. -/
def replaceChar (c : Char) (by' : String) (s : String) : String :=
  String.ofList (s.toList.flatMap fun x => if x = c then by'.toList else [x])

/-- `s.split(c)` for a one-character `c`. -/
def split (c : Char) (s : String) : List String := (s.toList.splitOn c).map String.ofList

/-- `needle in s`. -/
def contains (needle s : String) : Bool := decide (needle.toList <:+: s.toList)

/-- `s[:n]`. -/
def take (n : Nat) (s : String) : String := String.ofList (s.toList.take n)

/-- The characters `str.strip()` removes. -/
def isSpace (c : Char) : Bool :=
  let n := c.toNat
  (9 ≤ n && n ≤ 13) || (28 ≤ n && n ≤ 32) || n == 0x85 || n == 0xa0 || n == 0x1680 ||
    (0x2000 ≤ n && n ≤ 0x200a) || n == 0x2028 || n == 0x2029 || n == 0x202f || n == 0x205f ||
    n == 0x3000

/-- `s.strip()`. -/
def strip (s : String) : String :=
  String.ofList (((s.toList.dropWhile isSpace).reverse.dropWhile isSpace).reverse)

/-- `s.replace(c, "")` for a one-character `c`. -/
def removeChar (c : Char) (s : String) : String := String.ofList (s.toList.filter fun x => x ≠ c)

/-- SQL `LIKE` with the backslash as escape character. -/
def like : List Char → List Char → Bool
  | [], t => t.isEmpty
  | '\\' :: x :: p, t =>
    match t with
    | c :: t => x == c && like p t
    | [] => false
  | x :: p, t =>
    if x = '%' then t.tails.any fun t' => like p t'
    else match t with
      | c :: t => (x = '_' || x == c) && like p t
      | [] => false

/-! ## Lines and separator lines -/

/-- The lines of a text, without their newlines. -/
def lines (s : String) : List (List Char) := s.toList.splitOn '\n'

theorem lines_injective : Function.Injective lines := by
  intro s t h
  have h' := congrArg (['\n'].intercalate) h
  rw [lines, lines, List.intercalate_splitOn, List.intercalate_splitOn] at h'
  exact String.toList_inj.mp h'

/-- The separator that puts the line `mark` between two texts. -/
def separator (mark : List Char) : String := String.ofList ('\n' :: mark ++ ['\n'])

theorem lines_intercalate {mark : List Char} (hMark : '\n' ∉ mark) {parts : List String}
    (hParts : parts ≠ []) :
    lines ((separator mark).intercalate parts) = [mark].intercalate (parts.map lines) := by
  induction parts with
  | nil => exact absurd rfl hParts
  | cons p rest ih =>
    cases rest with
    | nil => simp [lines]
    | cons q rest =>
      have hText : ((separator mark).intercalate (p :: q :: rest)).toList =
          p.toList ++ '\n' :: (mark ++ '\n' :: ((separator mark).intercalate (q :: rest)).toList) := by
        simp [String.intercalate_cons_cons, separator]
      rw [lines, hText, List.splitOn_append_cons_self, List.splitOn_append_cons_self_of_not_mem hMark]
      have hRest := ih (by simp)
      rw [lines] at hRest
      rw [hRest]
      simp [lines]

theorem intercalate_ne_empty {sep p : String} (hp : p ≠ "") (rest : List String) :
    sep.intercalate (p :: rest) ≠ "" := by
  cases rest with
  | nil => simpa using hp
  | cons q rest => simp [String.intercalate_cons_cons, hp]

theorem parts_of_intercalate {mark : List Char} (hMark : '\n' ∉ mark) {ps qs : List String}
    (hps : ps ≠ []) (hqs : qs ≠ []) (hp : ∀ p ∈ ps, mark ∉ lines p) (hq : ∀ q ∈ qs, mark ∉ lines q)
    (h : (separator mark).intercalate ps = (separator mark).intercalate qs) : ps = qs := by
  have hLines := congrArg lines h
  rw [lines_intercalate hMark hps, lines_intercalate hMark hqs] at hLines
  have hSplit := congrArg (List.splitOn mark) hLines
  rw [List.splitOn_intercalate mark (by simpa using hp) (by simpa using hps),
    List.splitOn_intercalate mark (by simpa using hq) (by simpa using hqs)] at hSplit
  exact List.map_injective_iff.mpr lines_injective hSplit

/-- A text cut at its first `c` is determined by the two sides. -/
theorem append_cons_inj_of_not_mem {α : Type} {c : α} {xs xs' ys ys' : List α} (hx : c ∉ xs)
    (hx' : c ∉ xs') (h : xs ++ c :: ys = xs' ++ c :: ys') : xs = xs' ∧ ys = ys' := by
  induction xs generalizing xs' with
  | nil =>
    cases xs' with
    | nil => simpa using h
    | cons x' xs' =>
      have hHead : c = x' := by simpa using congrArg List.head? h
      exact absurd (hHead ▸ List.mem_cons_self) hx'
  | cons x xs ih =>
    cases xs' with
    | nil =>
      have hHead : x = c := by simpa using congrArg List.head? h
      exact absurd (hHead ▸ List.mem_cons_self) hx
    | cons x' xs' =>
      obtain ⟨rfl, hRest⟩ := List.cons.inj h
      obtain ⟨rfl, rfl⟩ := ih (fun m => hx (List.mem_cons_of_mem _ m))
        (fun m => hx' (List.mem_cons_of_mem _ m)) hRest
      exact ⟨rfl, rfl⟩

/-! ## Decimal numerals -/

/-- The number a text of digits stands for. -/
def decimalNat (cs : List Char) : Option Nat :=
  if cs ≠ [] ∧ cs.all Char.isDigit then some (Nat.ofDigitChars 10 cs 0) else none

/-- The integer a decimal numeral stands for. -/
def decimal (s : String) : Option Int :=
  match s.toList with
  | '-' :: cs => (decimalNat cs).map fun n => -(n : Int)
  | cs => (decimalNat cs).map Int.ofNat

theorem decimalNat_repr (n : Nat) : decimalNat n.repr.toList = some n := by
  have hDigits : (Nat.toDigits 10 n).all Char.isDigit = true := by
    rw [List.all_eq_true]
    exact fun c hc => Nat.isDigit_of_mem_toDigits (by decide) (by decide) hc
  rw [decimalNat, Nat.toList_repr, if_pos ⟨Nat.toDigits_ne_nil, hDigits⟩,
    Nat.ofDigitChars_toDigits (by decide) (by decide)]

theorem decimal_toString (n : Int) : decimal (toString n) = some n := by
  cases n with
  | ofNat n =>
    have hText : (toString (Int.ofNat n)).toList = n.repr.toList := rfl
    have hMinus : ∀ cs, n.repr.toList ≠ '-' :: cs := by
      intro cs h
      rw [Nat.toList_repr] at h
      have hDigit := Nat.isDigit_of_mem_toDigits (b := 10) (n := n) (c := '-') (by decide) (by decide)
        (by rw [h]; exact List.mem_cons_self)
      exact absurd hDigit (by decide)
    unfold decimal
    rw [hText]
    split
    · exact absurd ‹_› (hMinus _)
    · rw [decimalNat_repr]
      rfl
  | negSucc n =>
    have hText : (toString (Int.negSucc n)).toList = '-' :: (n + 1).repr.toList := by
      change ("-" ++ (n + 1).repr).toList = _
      simp
    unfold decimal
    rw [hText]
    simp only [decimalNat_repr]
    rfl

end Text
