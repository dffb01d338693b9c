import OpenRadiusWeb.Lib.Text
import Mathlib.Algebra.Order.BigOperators.Group.List
import Mathlib.Algebra.Order.Ring.Nat
import Mathlib.Data.List.TakeWhile

/-! # JSON texts

The grammar of JSON as a relation between a text, the value it begins with and the text that is
left. A text is the list of its characters. What a reading can and cannot give is followed from the
text: the characters it consumes, and the characters that the texts of its value can have.
-/

/-- A JSON value; a member of an object may occur twice. -/
inductive Json
  | null
  | bool (b : Bool)
  | int (n : Int)
  | decimal (numeral : List Char)
  | str (s : List Char)
  | arr (xs : List Json)
  | obj (members : List (List Char × Json))

namespace Json

/-! ## Strings -/

def hexValue (c : Char) : Option Nat :=
  if '0' ≤ c ∧ c ≤ '9' then some (c.toNat - '0'.toNat)
  else if 'a' ≤ c ∧ c ≤ 'f' then some (c.toNat - 'a'.toNat + 10)
  else if 'A' ≤ c ∧ c ≤ 'F' then some (c.toNat - 'A'.toNat + 10)
  else none

/-- The number of four hexadecimal digits. -/
def hex4 (a b c d : Char) : Option Nat := do
  return (((← hexValue a) * 16 + (← hexValue b)) * 16 + (← hexValue c)) * 16 + (← hexValue d)

/-- The escapes of one letter. -/
def escapes : List (Char × Char) :=
  [('"', '"'), ('\\', '\\'), ('/', '/'), ('b', '\x08'), ('f', '\x0c'), ('n', '\n'), ('r', '\r'),
    ('t', '\t')]

/-- A character that stands for itself in a string. -/
def Plain (c : Char) : Prop := c ≠ '"' ∧ c ≠ '\\' ∧ 0x20 ≤ c.toNat

instance : DecidablePred Plain := fun c => by unfold Plain; infer_instance

/-- One character of a string and a way to write it. -/
inductive Piece : List Char → Char → Prop
  | plain {c : Char} (h : Plain c) : Piece [c] c
  | escape {e c : Char} (h : (e, c) ∈ escapes) : Piece ['\\', e] c
  | unicode {a b c d : Char} {n : Nat} (h : hex4 a b c d = some n) (hValid : n.isValidChar) :
      Piece ['\\', 'u', a, b, c, d] (Char.ofNat n)
  | surrogates {a b c d a' b' c' d' : Char} {high low : Nat} (h : hex4 a b c d = some high)
      (h' : hex4 a' b' c' d' = some low) (hHigh : 0xd800 ≤ high ∧ high < 0xdc00)
      (hLow : 0xdc00 ≤ low ∧ low < 0xe000) :
      Piece ['\\', 'u', a, b, c, d, '\\', 'u', a', b', c', d']
        (Char.ofNat (0x10000 + (high - 0xd800) * 0x400 + (low - 0xdc00)))

/-- The rest of a string, up to its closing quote. -/
inductive Body : List Char → List Char → List Char → Prop
  | close {u : List Char} : Body [] ('"' :: u) u
  | piece {p : List Char} {c : Char} {s t u : List Char} (h : Piece p c) (hRest : Body s t u) :
      Body (c :: s) (p ++ t) u

inductive Quoted : List Char → List Char → List Char → Prop
  | mk {s t u : List Char} (h : Body s t u) : Quoted s ('"' :: t) u

/-! ## Numbers -/

/-- An integer has no leading zeros; zero may have a sign. -/
def IntText (cs : List Char) (n : Int) : Prop := cs = (toString n).toList ∨ cs = ['-', '0'] ∧ n = 0

def Digits (cs : List Char) : Prop := cs ≠ [] ∧ ∀ c ∈ cs, c.isDigit = true

/-- A number with a fraction or an exponent. -/
def DecimalText (cs : List Char) : Prop :=
  ∃ (n : Int) (whole fraction exponent : List Char), cs = whole ++ fraction ++ exponent ∧
    IntText whole n ∧ (fraction = [] ∨ ∃ ds, fraction = '.' :: ds ∧ Digits ds) ∧
    (exponent = [] ∨ ∃ e sign ds, exponent = e :: (sign ++ ds) ∧ (e = 'e' ∨ e = 'E') ∧
      (sign = [] ∨ sign = ['+'] ∨ sign = ['-']) ∧ Digits ds) ∧
    (fraction ≠ [] ∨ exponent ≠ [])

/-- The characters of numbers: a number goes on as far as they do. -/
def isNumeric (c : Char) : Bool := c.isDigit || c ∈ ['-', '+', '.', 'e', 'E']

/-! ## Values -/

def isBlank (c : Char) : Bool := c ∈ [' ', '\t', '\n', '\r']

def skip (t : List Char) : List Char := t.dropWhile isBlank

inductive Part
  | value
  | elements
  | members

/-- What a text begins with, as a value: one value, the elements of an array up to its bracket or
the members of an object up to its brace. -/
inductive Reads : Part → Json → List Char → List Char → Prop
  | null {t u : List Char} (h : t = "null".toList ++ u) : Reads .value .null t u
  | true {t u : List Char} (h : t = "true".toList ++ u) : Reads .value (.bool true) t u
  | false {t u : List Char} (h : t = "false".toList ++ u) : Reads .value (.bool false) t u
  | int {n : Int} {t u : List Char} (h : IntText (t.takeWhile isNumeric) n)
      (hRest : t.dropWhile isNumeric = u) : Reads .value (.int n) t u
  | decimal {ds t u : List Char} (h : DecimalText ds) (hToken : t.takeWhile isNumeric = ds)
      (hRest : t.dropWhile isNumeric = u) : Reads .value (.decimal ds) t u
  | str {s t u : List Char} (h : Quoted s t u) : Reads .value (.str s) t u
  | emptyArr {t t' u : List Char} (h : t = '[' :: t') (hClose : skip t' = ']' :: u) :
      Reads .value (.arr []) t u
  | arr {xs : List Json} {t t' u : List Char} (h : t = '[' :: t')
      (hElements : Reads .elements (.arr xs) t' u) : Reads .value (.arr xs) t u
  | emptyObj {t t' u : List Char} (h : t = '{' :: t') (hClose : skip t' = '}' :: u) :
      Reads .value (.obj []) t u
  | obj {ms : List (List Char × Json)} {t t' u : List Char} (h : t = '{' :: t')
      (hMembers : Reads .members (.obj ms) t' u) : Reads .value (.obj ms) t u
  | lastElement {x : Json} {t v u : List Char} (h : Reads .value x (skip t) v)
      (hClose : skip v = ']' :: u) : Reads .elements (.arr [x]) t u
  | element {x : Json} {xs : List Json} {t v v' u : List Char} (h : Reads .value x (skip t) v)
      (hComma : skip v = ',' :: v') (hRest : Reads .elements (.arr xs) v' u) :
      Reads .elements (.arr (x :: xs)) t u
  | lastMember {k : List Char} {x : Json} {t t₁ t₂ v u : List Char} (hKey : Quoted k (skip t) t₁)
      (hColon : skip t₁ = ':' :: t₂) (h : Reads .value x (skip t₂) v)
      (hClose : skip v = '}' :: u) : Reads .members (.obj [(k, x)]) t u
  | member {k : List Char} {x : Json} {ms : List (List Char × Json)} {t t₁ t₂ v v' u : List Char}
      (hKey : Quoted k (skip t) t₁) (hColon : skip t₁ = ':' :: t₂) (h : Reads .value x (skip t₂) v)
      (hComma : skip v = ',' :: v') (hRest : Reads .members (.obj ms) v' u) :
      Reads .members (.obj ((k, x) :: ms)) t u

/-- A whole text is a value. -/
def IsText (t : List Char) (j : Json) : Prop := ∃ u, Reads .value j (skip t) u ∧ skip u = []

/-- The value of a key is the one of its last member. -/
def lookup : List (List Char × Json) → List Char → Option Json
  | [], _ => none
  | (k', x) :: ms, k => (lookup ms k).or (if k' = k then some x else none)

theorem mem_of_lookup {ms : List (List Char × Json)} {k : List Char} {x : Json}
    (h : lookup ms k = some x) : (k, x) ∈ ms := by
  induction ms with
  | nil => cases h
  | cons m ms ih =>
    rw [lookup, Option.or_eq_some_iff] at h
    obtain hRest | ⟨-, hHead⟩ := h
    · exact List.mem_cons_of_mem m (ih hRest)
    · split at hHead
      · rename_i hKey
        cases hHead
        exact hKey ▸ List.mem_cons_self
      · cases hHead

theorem lookup_of_nodup {ms : List (List Char × Json)} (hNodup : (ms.map Prod.fst).Nodup)
    {m : List Char × Json} (h : m ∈ ms) : lookup ms m.1 = some m.2 := by
  induction ms with
  | nil => cases h
  | cons m' ms ih =>
    obtain ⟨hHead, hTail⟩ := List.nodup_cons.mp hNodup
    rw [lookup]
    obtain rfl | hMem := List.mem_cons.mp h
    · cases hRest : lookup ms m.1 with
      | none => rw [Option.none_or, if_pos rfl]
      | some x => exact absurd (List.mem_map_of_mem (f := Prod.fst) (mem_of_lookup hRest)) hHead
    · rw [ih hTail hMem, Option.some_or]

/-! ## What a reading consumes -/

theorem length_skip_le (t : List Char) : (skip t).length ≤ t.length := (List.dropWhile_suffix _).length_le

theorem skip_of_not_blank {c : Char} (h : isBlank c = false) (t : List Char) : skip (c :: t) = c :: t := by
  rw [skip, List.dropWhile_cons_of_neg (by rw [h]; exact Bool.false_ne_true)]

theorem Piece.length_pos {p : List Char} {c : Char} (h : Piece p c) : 0 < p.length := by
  cases h <;> exact Nat.succ_pos _

theorem Body.length_lt {s t u : List Char} (h : Body s t u) : s.length + u.length < t.length := by
  induction h with
  | close => exact (Nat.zero_add _).trans_lt (Nat.lt_succ_self _)
  | piece hPiece _ ih =>
    have hPos := hPiece.length_pos
    rw [List.length_cons, List.length_append]
    omega

theorem Quoted.length_lt {s t u : List Char} (h : Quoted s t u) : s.length + u.length + 1 < t.length := by
  cases h with
  | mk h => exact Nat.succ_lt_succ h.length_lt

theorem exists_digit (n : Int) : ∃ c ∈ (toString n).toList, c.isDigit = true := by
  have hNat : ∀ m : Nat, ∃ c ∈ Nat.toDigits 10 m, c.isDigit = true := by
    intro m
    obtain ⟨c, hc⟩ := List.exists_mem_of_ne_nil _ (@Nat.toDigits_ne_nil m 10)
    exact ⟨c, hc, Nat.isDigit_of_mem_toDigits (by decide) (by decide) hc⟩
  cases n with
  | ofNat m =>
    obtain ⟨c, hc, hDigit⟩ := hNat m
    exact ⟨c, (Nat.toList_repr ▸ hc : c ∈ m.repr.toList), hDigit⟩
  | negSucc m =>
    obtain ⟨c, hc, hDigit⟩ := hNat (m + 1)
    refine ⟨c, ?_, hDigit⟩
    change c ∈ ("-" ++ (m + 1).repr).toList
    rw [String.toList_append, Nat.toList_repr]
    exact List.mem_append_right _ hc

theorem IntText.digit {cs : List Char} {n : Int} (h : IntText cs n) : ∃ c ∈ cs, c.isDigit = true := by
  obtain rfl | ⟨rfl, -⟩ := h
  · exact exists_digit n
  · exact ⟨'0', by decide, by decide⟩

theorem IntText.digits {cs : List Char} {n : Int} (h : IntText cs n) : ∀ c ∈ cs, c.isDigit ∨ c = '-' := by
  have hNat : ∀ m : Nat, ∀ c ∈ m.repr.toList, c.isDigit ∨ c = '-' := by
    intro m c hc
    rw [Nat.toList_repr] at hc
    exact .inl (Nat.isDigit_of_mem_toDigits (by decide) (by decide) hc)
  obtain rfl | ⟨rfl, -⟩ := h
  · cases n with
    | ofNat m => exact hNat m
    | negSucc m =>
      change ∀ c ∈ ("-" ++ (m + 1).repr).toList, c.isDigit ∨ c = '-'
      rw [String.toList_append]
      exact List.forall_mem_append.mpr ⟨by decide, hNat (m + 1)⟩
  · decide

theorem IntText.numeric {cs : List Char} {n : Int} (h : IntText cs n) : ∀ c ∈ cs, isNumeric c = true := by
  intro c hc
  obtain hDigit | rfl := h.digits c hc
  · rw [isNumeric, hDigit, Bool.true_or]
  · decide

theorem DecimalText.digit {cs : List Char} (h : DecimalText cs) : ∃ c ∈ cs, c.isDigit = true := by
  obtain ⟨n, whole, fraction, exponent, rfl, hWhole, -⟩ := h
  obtain ⟨c, hc, hDigit⟩ := hWhole.digit
  exact ⟨c, List.mem_append_left _ (List.mem_append_left _ hc), hDigit⟩

theorem Digits.numeric {cs : List Char} (h : Digits cs) : ∀ c ∈ cs, isNumeric c = true := by
  intro c hc
  rw [isNumeric, h.2 c hc, Bool.true_or]

theorem DecimalText.numeric {cs : List Char} (h : DecimalText cs) : ∀ c ∈ cs, isNumeric c = true := by
  obtain ⟨n, whole, fraction, exponent, rfl, hWhole, hFraction, hExponent, -⟩ := h
  refine List.forall_mem_append.mpr ⟨List.forall_mem_append.mpr ⟨hWhole.numeric, ?_⟩, ?_⟩
  · obtain rfl | ⟨ds, rfl, hDigits⟩ := hFraction
    · nofun
    · exact List.forall_mem_cons.mpr ⟨by decide, hDigits.numeric⟩
  · obtain rfl | ⟨e, sign, ds, rfl, hE, hSign, hDigits⟩ := hExponent
    · nofun
    · refine List.forall_mem_cons.mpr ⟨?_, List.forall_mem_append.mpr ⟨?_, hDigits.numeric⟩⟩
      · obtain rfl | rfl := hE <;> decide
      · obtain rfl | rfl | rfl := hSign <;> decide

theorem length_dropWhile_lt {t : List Char} (h : ∃ c ∈ t.takeWhile isNumeric, c.isDigit = true) :
    (t.dropWhile isNumeric).length < t.length := by
  obtain ⟨c, hc, -⟩ := h
  have hPos := List.length_pos_of_mem hc
  have hLength := congrArg List.length (List.takeWhile_append_dropWhile (p := isNumeric) (l := t))
  rw [List.length_append] at hLength
  omega

theorem Reads.length_lt {part : Part} {j : Json} {t u : List Char} (h : Reads part j t u) :
    u.length < t.length := by
  induction h with
  | null h | true h | false h =>
    rw [h, List.length_append]
    exact Nat.lt_add_of_pos_left (by decide)
  | int h hRest =>
    rw [← hRest]
    exact length_dropWhile_lt h.digit
  | decimal h hToken hRest =>
    rw [← hRest]
    exact length_dropWhile_lt (hToken ▸ h.digit)
  | str h =>
    have := h.length_lt
    omega
  | @emptyArr t t' u h hClose | @emptyObj t t' u h hClose =>
    have := length_skip_le t'
    rw [hClose, List.length_cons] at this
    rw [h, List.length_cons]
    omega
  | arr h _ ih | obj h _ ih =>
    rw [h, List.length_cons]
    omega
  | @lastElement x t v u _ hClose ih =>
    have := length_skip_le t
    have := hClose ▸ length_skip_le v
    rw [List.length_cons] at this
    omega
  | @element x xs t v v' u _ hComma _ ih ihRest =>
    have := length_skip_le t
    have := hComma ▸ length_skip_le v
    rw [List.length_cons] at this
    omega
  | @lastMember k x t t₁ t₂ v u hKey hColon _ hClose ih =>
    have := length_skip_le t
    have := hKey.length_lt
    have hAfterKey := hColon ▸ length_skip_le t₁
    have := length_skip_le t₂
    have hAfterValue := hClose ▸ length_skip_le v
    rw [List.length_cons] at hAfterKey hAfterValue
    omega
  | @member k x ms t t₁ t₂ v v' u hKey hColon _ hComma _ ih ihRest =>
    have := length_skip_le t
    have := hKey.length_lt
    have hAfterKey := hColon ▸ length_skip_le t₁
    have := length_skip_le t₂
    have hAfterValue := hComma ▸ length_skip_le v
    rw [List.length_cons] at hAfterKey hAfterValue
    omega

/-- A number of characters that a value takes at least. -/
def cost : Json → Nat
  | .null => 4
  | .bool b => if b then 4 else 5
  | .int n => (toString n).toList.length
  | .str s => s.length + 2
  | _ => 1

theorem IntText.length_le {cs : List Char} {n : Int} (h : IntText cs n) :
    (toString n).toList.length ≤ cs.length := by
  obtain rfl | ⟨rfl, rfl⟩ := h
  · exact Nat.le_refl _
  · decide

theorem Reads.cost_le {j : Json} {t u : List Char} (h : Reads .value j t u) :
    cost j + u.length ≤ t.length := by
  have hLength := h.length_lt
  cases h with
  | null h | true h | false h =>
    rw [h, List.length_append]
    exact Nat.le_refl _
  | int h hRest =>
    have hToken := congrArg List.length (List.takeWhile_append_dropWhile (p := isNumeric) (l := t))
    have := h.length_le
    rw [List.length_append, hRest] at hToken
    rw [cost]
    omega
  | str h =>
    have := h.length_lt
    rw [cost]
    omega
  | _ => exact (Nat.add_comm 1 u.length).trans_le hLength

/-- A member of an object takes its key in quotes, a colon, its value and a comma or brace. -/
def memberCost (m : List Char × Json) : Nat := m.1.length + 4 + cost m.2

theorem Reads.memberCost_le {ms : List (List Char × Json)} {t u : List Char}
    (h : Reads .members (.obj ms) t u) : (ms.map memberCost).sum + u.length ≤ t.length := by
  generalize hPart : Part.members = part at h
  generalize hObj : Json.obj ms = j at h
  induction h generalizing ms with
  | @lastMember k x t t₁ t₂ v u hKey hColon hValue hClose =>
    cases hObj
    have := length_skip_le t
    have := hKey.length_lt
    have hAfterKey := hColon ▸ length_skip_le t₁
    have := length_skip_le t₂
    have hAfterValue := hClose ▸ length_skip_le v
    have := hValue.cost_le
    rw [List.length_cons] at hAfterKey hAfterValue
    simp only [List.map_cons, List.map_nil, List.sum_cons, List.sum_nil, memberCost]
    omega
  | @member k x ms t t₁ t₂ v v' u hKey hColon hValue hComma _ _ ih =>
    cases hObj
    have := length_skip_le t
    have := hKey.length_lt
    have hAfterKey := hColon ▸ length_skip_le t₁
    have := length_skip_le t₂
    have hAfterValue := hComma ▸ length_skip_le v
    have := hValue.cost_le
    have := ih rfl rfl
    rw [List.length_cons] at hAfterKey hAfterValue
    simp only [List.map_cons, List.sum_cons, memberCost]
    omega
  | _ => cases hPart

/-! ## Strings around a text that is put in as it is -/

theorem hex4_digits {a b c d : Char} {n : Nat} (h : hex4 a b c d = some n) :
    ∀ x ∈ [a, b, c, d], (hexValue x).isSome := by
  unfold hex4 at h
  cases ha : hexValue a <;> cases hb : hexValue b <;> cases hc : hexValue c <;> cases hd : hexValue d <;>
    simp_all

theorem Piece.quote {p : List Char} {c : Char} (h : Piece p c) (hQuote : '"' ∈ p) : p = ['\\', '"'] := by
  have hNoDigit : ¬(hexValue '"').isSome := by decide
  cases h with
  | plain h => exact absurd (List.mem_singleton.mp hQuote).symm h.1
  | escape h =>
    simp only [List.mem_cons, List.not_mem_nil, or_false] at hQuote
    rw [← hQuote.resolve_left (by decide)]
  | unicode h hValid =>
    have hMem := (List.mem_cons.mp ((List.mem_cons.mp hQuote).resolve_left (by decide))).resolve_left
      (by decide)
    exact absurd (hex4_digits h _ hMem) hNoDigit
  | surrogates h h' hHigh hLow =>
    have hMem := (List.mem_cons.mp ((List.mem_cons.mp hQuote).resolve_left (by decide))).resolve_left
      (by decide)
    obtain hFirst | hSecond := List.mem_append.mp (show '"' ∈ [_, _, _, _] ++ _ from hMem)
    · exact absurd (hex4_digits h _ hFirst) hNoDigit
    · have hMem := (List.mem_cons.mp ((List.mem_cons.mp hSecond).resolve_left (by decide))).resolve_left
        (by decide)
      exact absurd (hex4_digits h' _ hMem) hNoDigit

theorem Piece.plain_or {p : List Char} {c : Char} (h : Piece p c) :
    (p = [c] ∧ Plain c) ∨ (2 ≤ p.length ∧ ∃ x ∈ p, ¬Plain x) := by
  cases h with
  | plain h => exact .inl ⟨rfl, h⟩
  | _ => exact .inr ⟨Nat.le_add_left 2 _, '\\', List.mem_cons_self, by decide⟩

theorem Body.plain {cs u : List Char} (h : ∀ c ∈ cs, Plain c) : Body cs (cs ++ '"' :: u) u := by
  induction cs with
  | nil => exact .close
  | cons c cs ih =>
    obtain ⟨hHead, hTail⟩ := List.forall_mem_cons.mp h
    exact .piece (p := [c]) (.plain hHead) (ih hTail)

/-- A piece lies in the text `m`, or it is the escape of the quote behind `m`. -/
theorem Piece.around {p m t rest : List Char} {c : Char} (h : Piece p c)
    (hText : m ++ '"' :: t = p ++ rest) :
    (∃ m', m = p ++ m' ∧ m' ++ '"' :: t = rest) ∨ m = ['\\'] ∧ rest = t := by
  obtain ⟨as, hp, hRest⟩ | ⟨m', rfl, hRest⟩ := List.append_eq_append_iff.mp hText
  · cases as with
    | nil => exact .inl ⟨[], by rw [hp, List.append_nil, List.append_nil], hRest⟩
    | cons q as =>
      obtain ⟨rfl, rfl⟩ := List.cons.inj hRest
      have hEscape := h.quote (hp ▸ List.mem_append_right m List.mem_cons_self)
      obtain ⟨rfl, hNil⟩ : m = ['\\'] ∧ '"' :: as = ['"'] :=
        List.append_inj' (hp.symm.trans hEscape) (by
          have hLength := congrArg List.length (hp.symm.trans hEscape)
          cases m with
          | nil => cases hp.symm.trans hEscape
          | cons x m =>
            rw [List.length_append, List.length_cons, List.length_cons] at hLength
            simp only [List.length_cons, List.length_nil] at hLength ⊢
            omega)
      cases hNil
      exact .inr ⟨rfl, rfl⟩
  · exact .inl ⟨m', rfl, hRest.symm⟩

/-- A string that was written around the text `m` is `m`, or `m` has a character that does not stand
for itself; then the string is shorter and ends early, or it goes on after the quote behind `m`. -/
theorem Body.around {s m t u : List Char} (h : Body s (m ++ '"' :: t) u) :
    (s = m ∧ u = t ∧ ∀ c ∈ m, Plain c) ∨
    ((∃ c ∈ m, ¬Plain c) ∧ s.length < m.length ∧ u.length ≤ m.length + t.length) ∨
    ((∃ c ∈ m, ¬Plain c) ∧ ∃ s', Body s' t u) := by
  generalize hText : m ++ '"' :: t = text at h
  induction h generalizing m with
  | @close u =>
    cases m with
    | nil =>
      cases hText
      exact .inl ⟨rfl, rfl, nofun⟩
    | cons c m =>
      obtain ⟨rfl, rfl⟩ := List.cons.inj hText
      refine .inr (.inl ⟨⟨'"', List.mem_cons_self, by decide⟩, Nat.succ_pos _, ?_⟩)
      change (m ++ '"' :: t).length ≤ _
      rw [List.length_append, List.length_cons, List.length_cons]
      omega
  | @piece p c s rest u hPiece hRest ih =>
    obtain ⟨m', rfl, hBehind⟩ | ⟨rfl, rfl⟩ := hPiece.around hText
    · obtain ⟨rfl, hPlain⟩ | ⟨hLong, x, hx, hNot⟩ := hPiece.plain_or
      · have hIn : (∃ x ∈ m', ¬Plain x) → ∃ x ∈ [c] ++ m', ¬Plain x :=
          fun ⟨x, hx, hNot⟩ => ⟨x, List.mem_cons_of_mem c hx, hNot⟩
        obtain ⟨rfl, rfl, hAll⟩ | ⟨hNot, hShort, hEarly⟩ | ⟨hNot, hOn⟩ := ih hBehind
        · exact .inl ⟨rfl, rfl, List.forall_mem_cons.mpr ⟨hPlain, hAll⟩⟩
        · refine .inr (.inl ⟨hIn hNot, Nat.succ_lt_succ hShort, ?_⟩)
          rw [List.length_append, List.length_singleton]
          omega
        · exact .inr (.inr ⟨hIn hNot, hOn⟩)
      · have hIn : ∃ x ∈ p ++ m', ¬Plain x := ⟨x, List.mem_append_left m' hx, hNot⟩
        rw [List.length_append, List.length_cons]
        obtain ⟨rfl, rfl, -⟩ | ⟨-, hShort, hEarly⟩ | ⟨-, hOn⟩ := ih hBehind
        · exact .inr (.inl ⟨hIn, by omega, by omega⟩)
        · exact .inr (.inl ⟨hIn, by omega, by omega⟩)
        · exact .inr (.inr ⟨hIn, hOn⟩)
    · exact .inr (.inr ⟨⟨'\\', List.mem_cons_self, by decide⟩, s, hRest⟩)

/-! ## One reading -/

/-- A text begins with one piece. -/
theorem Piece.unique {p p' t t' : List Char} {c c' : Char} (h : Piece p c) (h' : Piece p' c')
    (hText : p ++ t = p' ++ t') : p = p' ∧ c = c' ∧ t = t' := by
  have hLetters : ∀ x ∈ escapes, ∀ y ∈ escapes, x.1 = y.1 → x = y := by decide
  have hNoU : ∀ x ∈ escapes, x.1 ≠ 'u' := by decide
  cases h with
  | plain h =>
    cases h' with
    | plain h' =>
      obtain ⟨rfl, rfl⟩ := List.cons.inj hText
      exact ⟨rfl, rfl, rfl⟩
    | _ => exact absurd (List.cons.inj hText).1 h.2.1
  | escape h =>
    cases h' with
    | plain h' => exact absurd (List.cons.inj hText).1.symm h'.2.1
    | escape h' =>
      obtain ⟨rfl, rfl⟩ := List.cons.inj (List.cons.inj hText).2
      cases hLetters _ h _ h' rfl
      exact ⟨rfl, rfl, rfl⟩
    | _ => exact absurd (List.cons.inj (List.cons.inj hText).2).1 (hNoU _ h)
  | unicode h hValid =>
    cases h' with
    | plain h' => exact absurd (List.cons.inj hText).1.symm h'.2.1
    | escape h' => exact absurd (List.cons.inj (List.cons.inj hText).2).1.symm (hNoU _ h')
    | unicode h' =>
      cases hText
      cases h.symm.trans h'
      exact ⟨rfl, rfl, rfl⟩
    | surrogates h' _ hHigh =>
      cases hText
      cases h.symm.trans h'
      unfold Nat.isValidChar at hValid
      omega
  | surrogates h hLow hHigh =>
    cases h' with
    | plain h' => exact absurd (List.cons.inj hText).1.symm h'.2.1
    | escape h' => exact absurd (List.cons.inj (List.cons.inj hText).2).1.symm (hNoU _ h')
    | unicode h' hValid =>
      cases hText
      cases h.symm.trans h'
      unfold Nat.isValidChar at hValid
      omega
    | surrogates h' hLow' =>
      cases hText
      cases h.symm.trans h'
      cases hLow.symm.trans hLow'
      exact ⟨rfl, rfl, rfl⟩

theorem Piece.not_quote {p : List Char} {c : Char} (h : Piece p c) (t u : List Char) : p ++ t ≠ '"' :: u := by
  intro hText
  cases h with
  | plain h => exact h.1 (List.cons.inj hText).1
  | _ => exact absurd (List.cons.inj hText).1 (by decide)

theorem Body.of_quote {r t u : List Char} (h : Body r ('"' :: t) u) : r = [] ∧ u = t := by
  generalize hText : '"' :: t = text at h
  cases h with
  | close => exact ⟨rfl, (List.cons.inj hText).2.symm⟩
  | piece hPiece => exact absurd hText.symm (hPiece.not_quote _ _)

theorem Body.of_piece {p r t u : List Char} {c : Char} (hPiece : Piece p c) (h : Body r (p ++ t) u) :
    ∃ r', r = c :: r' ∧ Body r' t u := by
  generalize hText : p ++ t = text at h
  cases h with
  | close => exact absurd hText (hPiece.not_quote _ _)
  | piece hPiece' hRest =>
    obtain ⟨rfl, rfl, rfl⟩ := hPiece.unique hPiece' hText
    exact ⟨_, rfl, hRest⟩

theorem Body.letter {e : Char} {r t u : List Char} (h : Body r ('\\' :: e :: t) u) :
    e = 'u' ∨ ∃ c, (e, c) ∈ escapes := by
  generalize hText : '\\' :: e :: t = text at h
  cases h with
  | close => exact absurd (List.cons.inj hText).1 (by decide)
  | piece hPiece =>
    cases hPiece with
    | plain h => exact absurd (List.cons.inj hText).1.symm h.2.1
    | escape h => exact .inr ⟨_, (List.cons.inj (List.cons.inj hText).2).1 ▸ h⟩
    | _ => exact .inl (List.cons.inj (List.cons.inj hText).2).1

/-- What stands behind an element of an array, up to the bracket: the elements `xs`. -/
def AfterElement (xs : List Json) (v u : List Char) : Prop :=
  (xs = [] ∧ skip v = ']' :: u) ∨ ∃ v', skip v = ',' :: v' ∧ Reads .elements (.arr xs) v' u

def AfterMember (ms : List (List Char × Json)) (v u : List Char) : Prop :=
  (ms = [] ∧ skip v = '}' :: u) ∨ ∃ v', skip v = ',' :: v' ∧ Reads .members (.obj ms) v' u

theorem Reads.of_elements {j : Json} {t u : List Char} (h : Reads .elements j t u) :
    ∃ x xs v, j = .arr (x :: xs) ∧ Reads .value x (skip t) v ∧ AfterElement xs v u := by
  cases h with
  | lastElement h hClose => exact ⟨_, _, _, rfl, h, .inl ⟨rfl, hClose⟩⟩
  | element h hComma hRest => exact ⟨_, _, _, rfl, h, .inr ⟨_, hComma, hRest⟩⟩

theorem Reads.of_members {j : Json} {t u : List Char} (h : Reads .members j t u) :
    ∃ k t₁ t₂ x ms v, j = .obj ((k, x) :: ms) ∧ Quoted k (skip t) t₁ ∧ skip t₁ = ':' :: t₂ ∧
      Reads .value x (skip t₂) v ∧ AfterMember ms v u := by
  cases h with
  | lastMember hKey hColon h hClose => exact ⟨_, _, _, _, _, _, rfl, hKey, hColon, h, .inl ⟨rfl, hClose⟩⟩
  | member hKey hColon h hComma hRest =>
    exact ⟨_, _, _, _, _, _, rfl, hKey, hColon, h, .inr ⟨_, hComma, hRest⟩⟩

/-- The first characters of values. -/
theorem Reads.head {j : Json} {c : Char} {t u : List Char} (h : Reads .value j (c :: t) u) :
    c ∈ ['n', 't', 'f', '"', '[', '{'] ∨ isNumeric c := by
  cases h with
  | null h | true h | false h =>
    rw [(List.cons.inj h).1]
    exact .inl (by decide)
  | int h =>
    obtain ⟨d, hd, -⟩ := h.digit
    rw [List.takeWhile_cons] at hd
    split at hd
    · exact .inr ‹_›
    · cases hd
  | decimal h hToken =>
    obtain ⟨d, hd, -⟩ := h.digit
    rw [← hToken, List.takeWhile_cons] at hd
    split at hd
    · exact .inr ‹_›
    · cases hd
  | str h =>
    cases h
    exact .inl (by decide)
  | emptyArr h | arr h | emptyObj h | obj h =>
    rw [(List.cons.inj h).1]
    exact .inl (by decide)

theorem Reads.not_bracket {j : Json} {t u u' : List Char} (h : Reads .elements j t u) :
    skip t ≠ ']' :: u' := by
  intro hClose
  obtain ⟨x, xs, v, -, hValue, -⟩ := h.of_elements
  rw [hClose] at hValue
  exact absurd hValue.head (by decide)

theorem Reads.not_brace {j : Json} {t u u' : List Char} (h : Reads .members j t u) :
    skip t ≠ '}' :: u' := by
  intro hClose
  obtain ⟨k, t₁, t₂, x, ms, v, -, hKey, -⟩ := h.of_members
  rw [hClose] at hKey
  cases hKey

theorem Reads.not_number {c : Char} {t u : List Char} (hc : isNumeric c = Bool.false) :
    (∀ n, ¬Reads .value (.int n) (c :: t) u) ∧ ∀ ds, ¬Reads .value (.decimal ds) (c :: t) u := by
  have hNone : (c :: t).takeWhile isNumeric = [] :=
    List.takeWhile_cons_of_neg (by rw [hc]; exact Bool.false_ne_true)
  constructor
  · rintro n (_ | _ | _ | h)
    obtain ⟨d, hd, -⟩ := h.digit
    rw [hNone] at hd
    cases hd
  · rintro ds (_ | _ | _ | _ | ⟨h, hToken⟩)
    obtain ⟨d, hd, -⟩ := h.digit
    rw [← hToken, hNone] at hd
    cases hd

theorem Reads.of_bracket {j : Json} {t u : List Char} (h : Reads .value j ('[' :: t) u) :
    (j = .arr [] ∧ skip t = ']' :: u) ∨ ∃ xs, j = .arr xs ∧ Reads .elements (.arr xs) t u := by
  cases h with
  | int h => exact absurd (.int h ‹_›) ((Reads.not_number (by decide)).1 _)
  | decimal h hToken => exact absurd (.decimal h hToken ‹_›) ((Reads.not_number (by decide)).2 _)
  | str h => cases h
  | emptyArr h hClose => exact .inl ⟨rfl, (List.cons.inj h).2 ▸ hClose⟩
  | arr h hElements => exact .inr ⟨_, rfl, (List.cons.inj h).2 ▸ hElements⟩
  | _ h => exact absurd (List.cons.inj h).1 (by decide)

theorem Reads.of_brace {j : Json} {t u : List Char} (h : Reads .value j ('{' :: t) u) :
    (j = .obj [] ∧ skip t = '}' :: u) ∨ ∃ ms, j = .obj ms ∧ Reads .members (.obj ms) t u := by
  cases h with
  | int h => exact absurd (.int h ‹_›) ((Reads.not_number (by decide)).1 _)
  | decimal h hToken => exact absurd (.decimal h hToken ‹_›) ((Reads.not_number (by decide)).2 _)
  | str h => cases h
  | emptyObj h hClose => exact .inl ⟨rfl, (List.cons.inj h).2 ▸ hClose⟩
  | obj h hMembers => exact .inr ⟨_, rfl, (List.cons.inj h).2 ▸ hMembers⟩
  | _ h => exact absurd (List.cons.inj h).1 (by decide)

theorem Reads.of_quote {j : Json} {t u : List Char} (h : Reads .value j ('"' :: t) u) :
    ∃ s, j = .str s ∧ Quoted s ('"' :: t) u := by
  cases h with
  | int h => exact absurd (.int h ‹_›) ((Reads.not_number (by decide)).1 _)
  | decimal h hToken => exact absurd (.decimal h hToken ‹_›) ((Reads.not_number (by decide)).2 _)
  | str h => exact ⟨_, rfl, h⟩
  | _ h => exact absurd (List.cons.inj h).1 (by decide)

theorem token_append {ds t : List Char} (hDigits : ∀ c ∈ ds, isNumeric c)
    (hEnd : ∀ c ∈ t.head?, isNumeric c = false) :
    (ds ++ t).takeWhile isNumeric = ds ∧ (ds ++ t).dropWhile isNumeric = t := by
  have hRest : t.takeWhile isNumeric = [] ∧ t.dropWhile isNumeric = t := by
    cases t with
    | nil => exact ⟨rfl, rfl⟩
    | cons c t =>
      have hc := hEnd c rfl
      exact ⟨List.takeWhile_cons_of_neg (by rw [hc]; exact Bool.false_ne_true),
        List.dropWhile_cons_of_neg (by rw [hc]; exact Bool.false_ne_true)⟩
  constructor
  · rw [List.takeWhile_append_of_pos hDigits, hRest.1, List.append_nil]
  · rw [List.dropWhile_append_of_pos hDigits, hRest.2]

theorem Reads.of_number {j : Json} {ds t u : List Char} (hDigits : ∀ c ∈ ds, isNumeric c)
    (hSome : ds ≠ []) (hEnd : ∀ c ∈ t.head?, isNumeric c = Bool.false) (h : Reads .value j (ds ++ t) u) :
    u = t ∧ ((∃ n, IntText ds n) ∨ DecimalText ds) := by
  obtain ⟨hTake, hDrop⟩ := token_append hDigits hEnd
  obtain ⟨c, ds, rfl⟩ := List.exists_cons_of_ne_nil hSome
  have hc := hDigits c List.mem_cons_self
  cases h with
  | int h hLeft => exact ⟨hLeft.symm.trans hDrop, .inl ⟨_, hTake ▸ h⟩⟩
  | decimal h hToken hLeft => exact ⟨hLeft.symm.trans hDrop, .inr ((hToken.symm.trans hTake) ▸ h)⟩
  | str h =>
    cases h
    exact absurd hc (by decide)
  | _ h =>
    rw [(List.cons.inj h).1] at hc
    exact absurd hc (by decide)

theorem Body.unique {s s' t u u' : List Char} (h : Body s t u) (h' : Body s' t u') : s = s' ∧ u = u' := by
  induction h generalizing s' with
  | close =>
    obtain ⟨rfl, rfl⟩ := h'.of_quote
    exact ⟨rfl, rfl⟩
  | piece hPiece _ ih =>
    obtain ⟨r, rfl, hRest⟩ := h'.of_piece hPiece
    obtain ⟨rfl, rfl⟩ := ih hRest
    exact ⟨rfl, rfl⟩

theorem Quoted.unique {s s' t u u' : List Char} (h : Quoted s t u) (h' : Quoted s' t u') :
    s = s' ∧ u = u' := by
  cases h with
  | mk h =>
    cases h' with
    | mk h' => exact h.unique h'

theorem IntText.decimal {cs : List Char} {n : Int} (h : IntText cs n) :
    Text.decimal (String.ofList cs) = some n := by
  obtain rfl | ⟨rfl, rfl⟩ := h
  · rw [String.ofList_toList, Text.decimal_toString]
  · decide

theorem IntText.unique {cs : List Char} {n n' : Int} (h : IntText cs n) (h' : IntText cs n') : n = n' :=
  Option.some.inj (h.decimal.symm.trans h'.decimal)

theorem DecimalText.mark {cs : List Char} (h : DecimalText cs) : ∃ c ∈ cs, c ∈ ['.', 'e', 'E'] := by
  obtain ⟨n, whole, fraction, exponent, rfl, -, hFraction, hExponent, hSome⟩ := h
  obtain rfl | ⟨ds, rfl, -⟩ := hFraction
  · obtain rfl | ⟨e, sign, ds, rfl, hE, -⟩ := hExponent
    · exact absurd hSome (by simp)
    · exact ⟨e, by simp, by simp [hE]⟩
  · exact ⟨'.', by simp, by decide⟩

theorem IntText.not_decimalText {cs : List Char} {n : Int} (h : IntText cs n) : ¬DecimalText cs := by
  intro hDecimal
  obtain ⟨c, hc, hMark⟩ := hDecimal.mark
  obtain hDigit | hMinus := h.digits c hc
  · simp only [List.mem_cons, List.not_mem_nil, or_false] at hMark
    obtain rfl | rfl | rfl := hMark <;> exact absurd hDigit (by decide)
  · rw [hMinus] at hMark
    exact absurd hMark (by decide)

theorem Reads.of_letter {j : Json} {c : Char} {t u : List Char} (hc : c ∈ ['n', 't', 'f'])
    (hHead : t.head? = some c) (h : Reads .value j t u) : (j = .null ∧ t = "null".toList ++ u) ∨
      (j = .bool Bool.true ∧ t = "true".toList ++ u) ∨
      (j = .bool Bool.false ∧ t = "false".toList ++ u) := by
  have hNumeric : ∀ c ∈ ['n', 't', 'f'], isNumeric c = Bool.false := by decide
  obtain ⟨t, rfl⟩ := List.head?_eq_some_iff.mp hHead
  cases h with
  | null h => exact .inl ⟨rfl, h⟩
  | true h => exact .inr (.inl ⟨rfl, h⟩)
  | false h => exact .inr (.inr ⟨rfl, h⟩)
  | int h => exact absurd (.int h ‹_›) ((Reads.not_number (hNumeric c hc)).1 _)
  | decimal h hToken => exact absurd (.decimal h hToken ‹_›) ((Reads.not_number (hNumeric c hc)).2 _)
  | str h =>
    cases h
    exact absurd hc (by decide)
  | emptyArr h | arr h | emptyObj h | obj h =>
    rw [(List.cons.inj h).1] at hc
    exact absurd hc (by decide)

theorem Reads.of_token {j : Json} {t u : List Char} (hToken : ∃ c ∈ t.takeWhile isNumeric, c.isDigit)
    (h : Reads .value j t u) : t.dropWhile isNumeric = u ∧
      ((∃ n, j = .int n ∧ IntText (t.takeWhile isNumeric) n) ∨
        (j = .decimal (t.takeWhile isNumeric) ∧ DecimalText (t.takeWhile isNumeric))) := by
  obtain ⟨c, hc, -⟩ := hToken
  cases t with
  | nil => cases hc
  | cons d t =>
    have hd : isNumeric d := by
      rw [List.takeWhile_cons] at hc
      split at hc
      · assumption
      · cases hc
    cases h with
    | int h hRest => exact ⟨hRest, .inl ⟨_, rfl, h⟩⟩
    | decimal h hToken hRest => exact ⟨hRest, .inr ⟨hToken ▸ rfl, hToken ▸ h⟩⟩
    | str h =>
      cases h
      exact absurd hd (by decide)
    | _ h =>
      rw [(List.cons.inj h).1] at hd
      exact absurd hd (by decide)

/-- A text begins with one value. -/
theorem Reads.unique {part : Part} {j j' : Json} {t u u' : List Char} (h : Reads part j t u)
    (h' : Reads part j' t u') : j = j' ∧ u = u' := by
  induction h generalizing j' u' with
  | null h =>
    rw [h] at h'
    obtain ⟨rfl, hText⟩ | ⟨-, hText⟩ | ⟨-, hText⟩ := h'.of_letter (c := 'n') (by decide) rfl
    · exact ⟨rfl, List.append_cancel_left hText⟩
    · exact absurd (List.cons.inj hText).1 (by decide)
    · exact absurd (List.cons.inj hText).1 (by decide)
  | true h =>
    rw [h] at h'
    obtain ⟨-, hText⟩ | ⟨rfl, hText⟩ | ⟨-, hText⟩ := h'.of_letter (c := 't') (by decide) rfl
    · exact absurd (List.cons.inj hText).1 (by decide)
    · exact ⟨rfl, List.append_cancel_left hText⟩
    · exact absurd (List.cons.inj hText).1 (by decide)
  | false h =>
    rw [h] at h'
    obtain ⟨-, hText⟩ | ⟨-, hText⟩ | ⟨rfl, hText⟩ := h'.of_letter (c := 'f') (by decide) rfl
    · exact absurd (List.cons.inj hText).1 (by decide)
    · exact absurd (List.cons.inj hText).1 (by decide)
    · exact ⟨rfl, List.append_cancel_left hText⟩
  | int h hRest =>
    obtain ⟨hRest', ⟨n, rfl, hInt⟩ | ⟨-, hDecimal⟩⟩ := h'.of_token h.digit
    · exact ⟨congrArg Json.int (h.unique hInt), hRest.symm.trans hRest'⟩
    · exact absurd hDecimal h.not_decimalText
  | decimal h hToken hRest =>
    obtain ⟨hRest', ⟨n, rfl, hInt⟩ | ⟨rfl, -⟩⟩ := h'.of_token (hToken ▸ h.digit)
    · exact absurd (hToken ▸ h) hInt.not_decimalText
    · exact ⟨congrArg Json.decimal hToken.symm, hRest.symm.trans hRest'⟩
  | str h =>
    cases h with
    | mk h =>
      obtain ⟨s', rfl, hQuoted⟩ := h'.of_quote
      obtain ⟨rfl, rfl⟩ := (Quoted.mk h).unique hQuoted
      exact ⟨rfl, rfl⟩
  | emptyArr h hClose =>
    rw [h] at h'
    obtain ⟨rfl, hClose'⟩ | ⟨xs, -, hElements⟩ := h'.of_bracket
    · exact ⟨rfl, (List.cons.inj (hClose.symm.trans hClose')).2⟩
    · exact absurd hClose hElements.not_bracket
  | arr h hElements ih =>
    rw [h] at h'
    obtain ⟨-, hClose⟩ | ⟨xs, rfl, hElements'⟩ := h'.of_bracket
    · exact absurd hClose hElements.not_bracket
    · exact ih hElements'
  | emptyObj h hClose =>
    rw [h] at h'
    obtain ⟨rfl, hClose'⟩ | ⟨ms, -, hMembers⟩ := h'.of_brace
    · exact ⟨rfl, (List.cons.inj (hClose.symm.trans hClose')).2⟩
    · exact absurd hClose hMembers.not_brace
  | obj h hMembers ih =>
    rw [h] at h'
    obtain ⟨-, hClose⟩ | ⟨ms, rfl, hMembers'⟩ := h'.of_brace
    · exact absurd hClose hMembers.not_brace
    · exact ih hMembers'
  | lastElement h hClose ih =>
    obtain ⟨x, xs, v, rfl, hValue, hAfter⟩ := h'.of_elements
    obtain ⟨rfl, rfl⟩ := ih hValue
    obtain ⟨rfl, hClose'⟩ | ⟨v', hComma, -⟩ := hAfter
    · exact ⟨rfl, (List.cons.inj (hClose.symm.trans hClose')).2⟩
    · exact absurd (List.cons.inj (hClose.symm.trans hComma)).1 (by decide)
  | element h hComma hRest ih ihRest =>
    obtain ⟨x, xs, v, rfl, hValue, hAfter⟩ := h'.of_elements
    obtain ⟨rfl, rfl⟩ := ih hValue
    obtain ⟨-, hClose⟩ | ⟨v', hComma', hRest'⟩ := hAfter
    · exact absurd (List.cons.inj (hComma.symm.trans hClose)).1 (by decide)
    · obtain rfl := (List.cons.inj (hComma.symm.trans hComma')).2
      obtain ⟨hSame, rfl⟩ := ihRest hRest'
      cases hSame
      exact ⟨rfl, rfl⟩
  | lastMember hKey hColon h hClose ih =>
    obtain ⟨k, t₁, t₂, x, ms, v, rfl, hKey', hColon', hValue, hAfter⟩ := h'.of_members
    obtain ⟨rfl, rfl⟩ := hKey.unique hKey'
    obtain rfl := (List.cons.inj (hColon.symm.trans hColon')).2
    obtain ⟨rfl, rfl⟩ := ih hValue
    obtain ⟨rfl, hClose'⟩ | ⟨v', hComma, -⟩ := hAfter
    · exact ⟨rfl, (List.cons.inj (hClose.symm.trans hClose')).2⟩
    · exact absurd (List.cons.inj (hClose.symm.trans hComma)).1 (by decide)
  | member hKey hColon h hComma hRest ih ihRest =>
    obtain ⟨k, t₁, t₂, x, ms, v, rfl, hKey', hColon', hValue, hAfter⟩ := h'.of_members
    obtain ⟨rfl, rfl⟩ := hKey.unique hKey'
    obtain rfl := (List.cons.inj (hColon.symm.trans hColon')).2
    obtain ⟨rfl, rfl⟩ := ih hValue
    obtain ⟨-, hClose⟩ | ⟨v', hComma', hRest'⟩ := hAfter
    · exact absurd (List.cons.inj (hComma.symm.trans hClose)).1 (by decide)
    · obtain rfl := (List.cons.inj (hComma.symm.trans hComma')).2
      obtain ⟨hSame, rfl⟩ := ihRest hRest'
      cases hSame
      exact ⟨rfl, rfl⟩

theorem IsText.unique {t : List Char} {j j' : Json} (h : IsText t j) (h' : IsText t j') : j = j' := by
  obtain ⟨u, hReads, -⟩ := h
  obtain ⟨u', hReads', -⟩ := h'
  exact (hReads.unique hReads').1

/-! ## Texts in which every backslash begins an escape -/

/-- Every backslash begins an escape, which if it is one of JSON stands for a character of `P`; every
other character but a quote is one of `P`. -/
inductive Escaped (P : Char → Prop) : List Char → Prop
  | nil : Escaped P []
  | plain {c : Char} {t : List Char} (hPlain : c ≠ '\\') (hChar : c ≠ '"' → P c)
      (hRest : Escaped P t) : Escaped P (c :: t)
  | escape {e : Char} {t : List Char} (hLetter : e ≠ 'u') (hChar : ∀ c, (e, c) ∈ escapes → P c)
      (hRest : Escaped P t) : Escaped P ('\\' :: e :: t)
  | unicode {a b c d : Char} {n : Nat} {t : List Char} (h : hex4 a b c d = some n)
      (hValid : n.isValidChar) (hChar : P (Char.ofNat n)) (hRest : Escaped P t) :
      Escaped P ('\\' :: 'u' :: a :: b :: c :: d :: t)

section Escaped

variable {P : Char → Prop}

theorem Escaped.of_cons {c : Char} {t : List Char} (h : Escaped P (c :: t)) (hc : c ≠ '\\') :
    Escaped P t ∧ (c ≠ '"' → P c) := by
  cases h with
  | plain _ hChar hRest => exact ⟨hRest, hChar⟩
  | _ => exact absurd rfl hc

theorem Escaped.of_append {s t : List Char} (h : Escaped P (s ++ t)) (hs : ∀ c ∈ s, c ≠ '\\') :
    Escaped P t := by
  induction s with
  | nil => exact h
  | cons c s ih =>
    obtain ⟨hHead, hTail⟩ := List.forall_mem_cons.mp hs
    exact ih (h.of_cons hHead).1 hTail

theorem Escaped.dropWhile {p : Char → Bool} (hp : p '\\' = false) {t : List Char} (h : Escaped P t) :
    Escaped P (t.dropWhile p) := by
  refine Escaped.of_append (s := t.takeWhile p) ?_ fun c hc hSlash => ?_
  · rwa [List.takeWhile_append_dropWhile]
  · have hTaken := List.mem_takeWhile_imp hc
    rw [hSlash, hp] at hTaken
    cases hTaken

theorem Escaped.skip {t : List Char} (h : Escaped P t) : Escaped P (skip t) := h.dropWhile (by decide)

theorem Escaped.piece {p t : List Char} {c : Char} (h : Escaped P (p ++ t)) (hPiece : Piece p c) :
    Escaped P t ∧ P c := by
  cases hPiece with
  | plain hPlain =>
    obtain ⟨hRest, hChar⟩ := h.of_cons hPlain.2.1
    exact ⟨hRest, hChar hPlain.1⟩
  | escape hEscape =>
    cases h with
    | plain hNot => exact absurd rfl hNot
    | escape _ hChar hRest => exact ⟨hRest, hChar _ hEscape⟩
    | unicode => exact absurd hEscape (by simp [escapes])
  | unicode hHex hValid =>
    cases h with
    | plain hNot => exact absurd rfl hNot
    | escape hLetter => exact absurd rfl hLetter
    | unicode hHex' _ hChar hRest =>
      cases hHex.symm.trans hHex'
      exact ⟨hRest, hChar⟩
  | surrogates hHex _ hHigh =>
    cases h with
    | plain hNot => exact absurd rfl hNot
    | escape hLetter => exact absurd rfl hLetter
    | unicode hHex' hValid =>
      cases hHex.symm.trans hHex'
      unfold Nat.isValidChar at hValid
      omega

theorem Escaped.body {s t u : List Char} (h : Escaped P t) (hBody : Body s t u) :
    Escaped P u ∧ ∀ c ∈ s, P c := by
  induction hBody with
  | close => exact ⟨(h.of_cons (by decide)).1, nofun⟩
  | piece hPiece _ ih =>
    obtain ⟨hRest, hChar⟩ := h.piece hPiece
    obtain ⟨hEnd, hChars⟩ := ih hRest
    exact ⟨hEnd, List.forall_mem_cons.mpr ⟨hChar, hChars⟩⟩

theorem Escaped.quoted {s t u : List Char} (h : Escaped P t) (hQuoted : Quoted s t u) :
    Escaped P u ∧ ∀ c ∈ s, P c := by
  cases hQuoted with
  | mk hBody => exact (h.of_cons (by decide)).1.body hBody

end Escaped

mutual

/-- All texts of a value have only characters of `P`. -/
def Within (P : Char → Prop) : Json → Prop
  | .str s => ∀ c ∈ s, P c
  | .arr xs => WithinElements P xs
  | .obj ms => WithinMembers P ms
  | _ => True

def WithinElements (P : Char → Prop) : List Json → Prop
  | [] => True
  | x :: xs => Within P x ∧ WithinElements P xs

def WithinMembers (P : Char → Prop) : List (List Char × Json) → Prop
  | [] => True
  | (k, x) :: ms => (∀ c ∈ k, P c) ∧ Within P x ∧ WithinMembers P ms

end

theorem within_of_mem {P : Char → Prop} {ms : List (List Char × Json)} (h : WithinMembers P ms)
    {m : List Char × Json} (hm : m ∈ ms) : (∀ c ∈ m.1, P c) ∧ Within P m.2 := by
  induction ms with
  | nil => cases hm
  | cons m' ms ih =>
    obtain ⟨hKey, hValue, hRest⟩ := h
    obtain rfl | hTail := List.mem_cons.mp hm
    · exact ⟨hKey, hValue⟩
    · exact ih hRest hTail

/-- What is read from an escaped text has only characters of `P`. -/
theorem Reads.within {P : Char → Prop} {part : Part} {j : Json} {t u : List Char}
    (h : Reads part j t u) (hText : Escaped P t) : Escaped P u ∧ Within P j := by
  induction h with
  | null h | true h | false h =>
    rw [h] at hText
    exact ⟨hText.of_append (by decide), trivial⟩
  | int _ hRest | decimal _ _ hRest => exact ⟨hRest ▸ hText.dropWhile (by decide), trivial⟩
  | str h => exact hText.quoted h
  | emptyArr h hClose | emptyObj h hClose =>
    have hInside := (h ▸ hText).of_cons (by decide)
    exact ⟨((hClose ▸ hInside.1.skip).of_cons (by decide)).1, trivial⟩
  | arr h _ ih | obj h _ ih => exact ih ((h ▸ hText).of_cons (by decide)).1
  | lastElement _ hClose ih =>
    obtain ⟨hBehind, hValue⟩ := ih hText.skip
    exact ⟨((hClose ▸ hBehind.skip).of_cons (by decide)).1, hValue, trivial⟩
  | element _ hComma _ ih ihRest =>
    obtain ⟨hBehind, hValue⟩ := ih hText.skip
    obtain ⟨hEnd, hRest⟩ := ihRest ((hComma ▸ hBehind.skip).of_cons (by decide)).1
    exact ⟨hEnd, hValue, hRest⟩
  | lastMember hKey hColon _ hClose ih =>
    obtain ⟨hAfterKey, hKeyChars⟩ := hText.skip.quoted hKey
    obtain ⟨hBehind, hValue⟩ := ih ((hColon ▸ hAfterKey.skip).of_cons (by decide)).1.skip
    exact ⟨((hClose ▸ hBehind.skip).of_cons (by decide)).1, hKeyChars, hValue, trivial⟩
  | member hKey hColon _ hComma _ ih ihRest =>
    obtain ⟨hAfterKey, hKeyChars⟩ := hText.skip.quoted hKey
    obtain ⟨hBehind, hValue⟩ := ih ((hColon ▸ hAfterKey.skip).of_cons (by decide)).1.skip
    obtain ⟨hEnd, hRest⟩ := ihRest ((hComma ▸ hBehind.skip).of_cons (by decide)).1
    exact ⟨hEnd, hKeyChars, hValue, hRest⟩

end Json
