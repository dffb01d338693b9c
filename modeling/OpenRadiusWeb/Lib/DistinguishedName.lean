import OpenRadiusWeb.Lib.Json
import OpenRadiusWeb.Lib.Utf8

/-! # Distinguished names

The string representation of RFC 4514, as concrete syntax: what is written, character for
character, together with the value that it stands for. A character of a value is written as itself,
as a pair with a backslash, or by the hexadecimal digits of its octets.
-/

namespace DistinguishedName

open Json (hexValue)

/-- A piece of the text of a value. -/
inductive Piece
  | raw (c : Char)
  | pair (c : Char)
  | hex (a b : Char)

namespace Piece

def text : Piece → List Char
  | .raw c => [c]
  | .pair c => ['\\', c]
  | .hex a b => ['\\', a, b]

/-- The octet of two hexadecimal digits. -/
def octet (a b : Char) : UInt8 := UInt8.ofNat ((hexValue a).getD 0 * 16 + (hexValue b).getD 0)

def octets : Piece → List UInt8
  | .raw c => String.utf8EncodeChar c
  | .pair c => String.utf8EncodeChar c
  | .hex a b => [octet a b]

/-- The characters that are not written as themselves. -/
def escaped : List Char := ['"', '+', ',', ';', '<', '>', '\\', '\x00']

/-- The characters that a pair can have. -/
def paired : List Char := ['\\', '"', '+', ',', ';', '<', '>', ' ', '#', '=']

def Valid : Piece → Prop
  | .raw c => c ∉ escaped
  | .pair c => c ∈ paired
  | .hex a b => (hexValue a).isSome ∧ (hexValue b).isSome

end Piece

def textOf (ps : List Piece) : List Char := ps.flatMap Piece.text

def octetsOf (ps : List Piece) : List UInt8 := ps.flatMap Piece.octets

/-- A value as it is written: no space is written as itself at its ends, and no number sign in
front. -/
structure Written (value : List Char) (ps : List Piece) : Prop where
  pieces : ∀ p ∈ ps, p.Valid
  octets : octetsOf ps = Utf8.encode value
  front : ps.head? ≠ some (.raw ' ') ∧ ps.head? ≠ some (.raw '#')
  back : ps.getLast? ≠ some (.raw ' ')

/-- The name of an attribute type. -/
def Descr (name : List Char) : Prop :=
  ∃ c cs, name = c :: cs ∧ c.isAlpha = true ∧ ∀ d ∈ cs, d.isAlphanum = true ∨ d = '-'

def Number (ds : List Char) : Prop :=
  ds ≠ [] ∧ (∀ c ∈ ds, c.isDigit = true) ∧ (ds.head? = some '0' → ds = ['0'])

/-- An object identifier. -/
def NumericOid (name : List Char) : Prop :=
  2 ≤ (name.splitOn '.').length ∧ ∀ n ∈ name.splitOn '.', Number n

/-- The common name, as the name of a type. -/
def isCn (name : List Char) : Bool := name.map Char.toUpper == ['C', 'N']

/-- An attribute with its value; a value without a string representation is written by the octets
of its encoding. -/
inductive Ava
  | string (type value : List Char) (ps : List Piece)
  | encoded (type : List Char) (digits : List (Char × Char))

namespace Ava

def text : Ava → List Char
  | .string type _ ps => type ++ '=' :: textOf ps
  | .encoded type digits => type ++ '=' :: '#' :: digits.flatMap fun d => [d.1, d.2]

/-- Common names have a string representation. -/
def Valid : Ava → Prop
  | .string type value ps => (Descr type ∨ NumericOid type) ∧ Written value ps
  | .encoded type digits => (Descr type ∨ NumericOid type) ∧ isCn type = false ∧ digits ≠ [] ∧
      ∀ d ∈ digits, (hexValue d.1).isSome ∧ (hexValue d.2).isSome

/-- The value of a common name. -/
def cn? : Ava → Option (List Char)
  | .string type value _ => if isCn type then some value else none
  | .encoded _ _ => none

end Ava

/-- A name: its parts from the leading one on, each a set of attributes in the order written. -/
abbrev Name : Type := List (List Ava)

def partText (part : List Ava) : List Char := ['+'].intercalate (part.map Ava.text)

def Name.text (name : Name) : List Char := [','].intercalate (name.map partText)

/-- A name that RFC 4514 writes so. -/
def Name.Valid (name : Name) : Prop := ∀ part ∈ name, part ≠ [] ∧ ∀ a ∈ part, a.Valid

/-- The common name in the leading part. -/
def Name.leadingCn (name : Name) : Option (List Char) := (name.headD []).findSome? Ava.cn?

/-! ## What a written value can be -/

def Piece.isEscape : Piece → Bool
  | .raw _ => false
  | _ => true

theorem hexValue_cases {c : Char} {n : Nat} (h : hexValue c = some n) :
    (c.toNat = n + 48 ∧ n < 10) ∨ (10 ≤ n ∧ n < 16 ∧ (c.toNat = n + 87 ∨ c.toNat = n + 55)) := by
  have hZero : ('0').toNat = 48 := rfl
  have hNine : ('9').toNat = 57 := rfl
  have hLow : ('a').toNat = 97 ∧ ('f').toNat = 102 := ⟨rfl, rfl⟩
  have hUp : ('A').toNat = 65 ∧ ('F').toNat = 70 := ⟨rfl, rfl⟩
  have hOrder : ∀ {d e : Char}, d ≤ e → d.toNat ≤ e.toNat := fun hLe => hLe
  unfold hexValue at h
  split at h
  · rename_i hRange
    obtain ⟨h₁, h₂⟩ := And.imp hOrder hOrder hRange
    have hSame := Option.some.inj h
    omega
  · split at h
    · rename_i hRange
      obtain ⟨h₁, h₂⟩ := And.imp hOrder hOrder hRange
      have hSame := Option.some.inj h
      omega
    · split at h
      · rename_i hRange
        obtain ⟨h₁, h₂⟩ := And.imp hOrder hOrder hRange
        have hSame := Option.some.inj h
        omega
      · cases h

theorem octet_toNat {a b : Char} {m n : Nat} (ha : hexValue a = some m) (hb : hexValue b = some n) :
    (Piece.octet a b).toNat = m * 16 + n := by
  have hm := hexValue_cases ha
  have hn := hexValue_cases hb
  rw [Piece.octet, ha, hb, UInt8.toNat_ofNat']
  simp only [Option.getD_some]
  omega

/-- The backslashes and the fives of a text, and of octets. -/
def marks (cs : List Char) : Nat := cs.count '\\' + cs.count '5'

def octetMarks (bs : List UInt8) : Nat := bs.count 0x5c + bs.count 0x35

theorem octetMarks_encode (s : List Char) : octetMarks (Utf8.encode s) = marks s := by
  have hBackslash := Utf8.count_encode (c := '\\') (by decide) s
  have hFive := Utf8.count_encode (c := '5') (by decide) s
  exact congrArg₂ (· + ·) hBackslash hFive

/-- An escape has a mark more than its value: the octet of a backslash is written with a five. -/
theorem Piece.marks_le {p : Piece} (h : p.Valid) :
    octetMarks p.octets + (if p.isEscape then 1 else 0) ≤ marks p.text := by
  cases p with
  | raw c =>
    have hSame := octetMarks_encode [c]
    simp only [Utf8.encode_cons, Utf8.encode_nil, List.append_nil] at hSame
    exact hSame.le
  | pair c =>
    have hSame := octetMarks_encode [c]
    simp only [Utf8.encode_cons, Utf8.encode_nil, List.append_nil] at hSame
    have hText : marks ['\\', c] = marks [c] + 1 := by
      simp [marks, List.count_cons]
      omega
    rw [Piece.octets, Piece.text, hSame, hText]
    exact le_rfl
  | hex a b =>
    obtain ⟨ha, hb⟩ := h
    obtain ⟨m, ha⟩ := Option.isSome_iff_exists.mp ha
    obtain ⟨n, hb⟩ := Option.isSome_iff_exists.mp hb
    have hOctet := octet_toNat ha hb
    have hm := hexValue_cases ha
    have hn := hexValue_cases hb
    have hChar : ∀ {c : Char}, c.toNat = 53 → c = '5' := by
      intro c hc
      rw [← Char.ofNat_toNat c, hc]
    have hText : marks ['\\', a, b] = 1 + [a].count '5' + [b].count '5' +
        ([a].count '\\' + [b].count '\\') := by
      simp only [marks, List.count_cons, List.count_nil, beq_self_eq_true, if_true]
      have hFive : ('\\' == '5') = false := rfl
      rw [hFive]
      simp only [Bool.false_eq_true, if_false]
      omega
    rw [Piece.octets, Piece.text, hText, octetMarks, List.count_singleton, List.count_singleton]
    by_cases hBackslash : Piece.octet a b = 0x5c
    · have hNat := congrArg UInt8.toNat hBackslash
      rw [hOctet] at hNat
      have hFive : a = '5' := hChar (by simp at hNat; omega)
      rw [hBackslash, hFive]
      simp [Piece.isEscape]
      omega
    · by_cases hDigit : Piece.octet a b = 0x35
      · have hNat := congrArg UInt8.toNat hDigit
        rw [hOctet] at hNat
        have hFive : b = '5' := hChar (by simp at hNat; omega)
        rw [hDigit, hFive]
        simp [Piece.isEscape]
        omega
      · simp [hBackslash, hDigit, Piece.isEscape]
        omega

section Value

variable {ps : List Piece}

theorem marks_append (s t : List Char) : marks (s ++ t) = marks s + marks t := by
  simp only [marks, List.count_append]
  omega

theorem octetMarks_append (s t : List UInt8) : octetMarks (s ++ t) = octetMarks s + octetMarks t := by
  simp only [octetMarks, List.count_append]
  omega

theorem marks_textOf (h : ∀ p ∈ ps, p.Valid) :
    octetMarks (octetsOf ps) + ps.countP Piece.isEscape ≤ marks (textOf ps) := by
  induction ps with
  | nil => exact le_rfl
  | cons p ps ih =>
    rw [List.forall_mem_cons] at h
    have hHead := Piece.marks_le h.1
    have hTail := ih h.2
    rw [octetsOf, textOf, List.flatMap_cons, List.flatMap_cons, marks_append, octetMarks_append,
      ← octetsOf, ← textOf, List.countP_cons]
    omega

/-- A comma in the text is written by a pair. -/
theorem comma_textOf (h : ∀ p ∈ ps, p.Valid) (hComma : ',' ∈ textOf ps) : (0x2c : UInt8) ∈ octetsOf ps := by
  obtain ⟨p, hp, hIn⟩ := List.mem_flatMap.mp hComma
  refine List.mem_flatMap.mpr ⟨p, hp, ?_⟩
  have hValid := h p hp
  cases p with
  | raw c =>
    cases List.mem_singleton.mp hIn
    have hEscaped : ',' ∈ Piece.escaped := by decide
    exact absurd hEscaped hValid
  | pair c =>
    simp only [Piece.text, List.mem_cons, List.not_mem_nil, or_false] at hIn
    obtain hIn | rfl := hIn
    · cases hIn
    · decide
  | hex a b =>
    have hNot : ∀ {c : Char}, (hexValue c).isSome → ',' ≠ c := by
      rintro c hc rfl
      cases hc
    simp only [Piece.text, List.mem_cons, List.not_mem_nil, or_false] at hIn
    obtain hIn | hIn | hIn := hIn
    · cases hIn
    · exact absurd hIn (hNot hValid.1)
    · exact absurd hIn (hNot hValid.2)

theorem textOf_raw (h : ∀ p ∈ ps, p.isEscape = false) : Utf8.encode (textOf ps) = octetsOf ps := by
  induction ps with
  | nil => rfl
  | cons p ps ih =>
    rw [List.forall_mem_cons] at h
    cases p with
    | raw c =>
      rw [textOf, List.flatMap_cons, Piece.text, List.singleton_append, ← textOf, Utf8.encode_cons,
        ih h.2]
      rfl
    | pair c => cases h.1
    | hex a b => cases h.1

theorem Written.text_of_raw {value : List Char} (hWritten : Written value ps)
    (h : ∀ p ∈ ps, p.isEscape = false) : textOf ps = value :=
  Utf8.encode_injective ((textOf_raw h).trans hWritten.octets)

theorem comma_not_mem_raw (hValid : ∀ p ∈ ps, p.Valid) (h : ∀ p ∈ ps, p.isEscape = false) :
    ',' ∉ textOf ps := by
  intro hComma
  obtain ⟨p, hp, hIn⟩ := List.mem_flatMap.mp hComma
  have hPiece := hValid p hp
  have hRaw := h p hp
  cases p with
  | raw c =>
    cases List.mem_singleton.mp hIn
    have hEscaped : ',' ∈ Piece.escaped := by decide
    exact absurd hEscaped hPiece
  | pair c => cases hRaw
  | hex a b => cases hRaw

end Value

/-! ## The text of a name -/

theorem intercalate_singleton_cons (c : Char) (l : List Char) (ls : List (List Char)) :
    [c].intercalate (l :: ls) = l ++ ls.flatMap (c :: ·) := by
  induction ls generalizing l with
  | nil => simp
  | cons k ls ih => rw [List.intercalate_cons_cons, ih, List.flatMap_cons, List.append_assoc]; rfl

theorem partText_cons (a : Ava) (others : List Ava) :
    partText (a :: others) = a.text ++ others.flatMap fun b => '+' :: b.text := by
  rw [partText, List.map_cons, intercalate_singleton_cons, List.flatMap_map]

theorem Name.text_cons (part : List Ava) (rest : Name) :
    Name.text (part :: rest) = partText part ++ rest.flatMap fun q => ',' :: partText q := by
  rw [Name.text, List.map_cons, intercalate_singleton_cons, List.flatMap_map]

/-- A text is empty or goes on with this character. -/
def Continues (c : Char) (cs : List Char) : Prop := cs = [] ∨ ∃ t, cs = c :: t

theorem Continues.cut {c : Char} {s t xs ys : List Char} (hs : Continues c s) (ht : Continues c t)
    (hx : c ∉ xs) (hy : c ∉ ys) (h : xs ++ s = ys ++ t) : xs = ys ∧ s = t := by
  obtain rfl | ⟨s, rfl⟩ := hs
  · obtain rfl | ⟨t, rfl⟩ := ht
    · simpa using h
    · rw [List.append_nil] at h
      exact absurd (h ▸ List.mem_append_right ys List.mem_cons_self) hx
  · obtain rfl | ⟨t, rfl⟩ := ht
    · rw [List.append_nil] at h
      exact absurd (h ▸ List.mem_append_right xs List.mem_cons_self) hy
    · obtain ⟨rfl, rfl⟩ := Text.append_cons_inj_of_not_mem hx hy h
      exact ⟨rfl, rfl⟩

theorem continues_flatMap {α : Type} (c : Char) (f : α → List Char) (xs : List α) :
    Continues c (xs.flatMap fun x => c :: f x) := by
  cases xs with
  | nil => exact .inl rfl
  | cons x xs => exact .inr ⟨_, List.flatMap_cons⟩

/-- A letter, digit, hyphen or dot. -/
def typeChar (c : Char) : Bool := c.isAlphanum || c == '-' || c == '.'

theorem typeChar_code {c : Char} (h : typeChar c = true) : 45 ≤ c.toNat ∧ c.toNat ≤ 122 := by
  have hUpper : ('A').toNat = 65 ∧ ('Z').toNat = 90 := ⟨rfl, rfl⟩
  have hLower : ('a').toNat = 97 ∧ ('z').toNat = 122 := ⟨rfl, rfl⟩
  have hDigit : ('0').toNat = 48 ∧ ('9').toNat = 57 := ⟨rfl, rfl⟩
  have hOrder : ∀ {d e : Char}, d.val ≤ e.val → d.toNat ≤ e.toNat := fun hLe => hLe
  have hShape : typeChar c = ((decide (c.val ≥ 'A'.val ∧ c.val ≤ 'Z'.val) ||
      (decide (c.val ≥ 'a'.val) && decide (c.val ≤ 'z'.val)) ||
      (decide (c.val ≥ '0'.val) && decide (c.val ≤ '9'.val))) || c == '-' || c == '.') := rfl
  simp only [hShape, Bool.or_eq_true, Bool.and_eq_true, decide_eq_true_eq, beq_iff_eq] at h
  obtain ((((h | h) | h) | rfl) | rfl) := h
  · have hLow := hOrder h.1
    have hHigh := hOrder h.2
    omega
  · have hLow := hOrder h.1
    have hHigh := hOrder h.2
    omega
  · have hLow := hOrder h.1
    have hHigh := hOrder h.2
    omega
  · decide
  · decide

def Ava.type : Ava → List Char
  | .string type _ _ => type
  | .encoded type _ => type

theorem mem_of_mem_intercalate {c d : Char} (hc : c ≠ d) {ls : List (List Char)}
    (h : c ∈ [d].intercalate ls) : ∃ l ∈ ls, c ∈ l := by
  cases ls with
  | nil => cases h
  | cons l ls =>
    rw [intercalate_singleton_cons, List.mem_append, List.mem_flatMap] at h
    obtain h | ⟨k, hk, h⟩ := h
    · exact ⟨l, List.mem_cons_self, h⟩
    · exact ⟨k, List.mem_cons_of_mem _ hk, (List.mem_cons.mp h).resolve_left hc⟩

theorem Descr.shape {type : List Char} (h : Descr type) : type ≠ [] ∧ ∀ c ∈ type, typeChar c = true := by
  obtain ⟨c, cs, rfl, hc, hcs⟩ := h
  refine ⟨List.cons_ne_nil _ _, List.forall_mem_cons.mpr ⟨?_, ?_⟩⟩
  · simp [typeChar, Char.isAlphanum, hc]
  · intro d hd
    obtain hd | rfl := hcs d hd
    · simp [typeChar, hd]
    · rfl

theorem NumericOid.shape {type : List Char} (h : NumericOid type) :
    type ≠ [] ∧ ∀ c ∈ type, typeChar c = true := by
  obtain ⟨hLength, hNumbers⟩ := h
  refine ⟨?_, ?_⟩
  · rintro rfl
    simp at hLength
  · intro c hc
    by_cases hDot : c = '.'
    · rw [hDot]
      rfl
    · have hJoin : ['.'].intercalate (type.splitOn '.') = type := List.intercalate_splitOn '.'
      rw [← hJoin] at hc
      obtain ⟨n, hn, hIn⟩ := mem_of_mem_intercalate hDot hc
      have hDigit := (hNumbers n hn).2.1 c hIn
      simp [typeChar, Char.isAlphanum, hDigit]

theorem Ava.Valid.shape {a : Ava} (h : a.Valid) : a.type ≠ [] ∧ ∀ c ∈ a.type, typeChar c = true := by
  cases a with
  | string type value ps => exact h.1.elim Descr.shape NumericOid.shape
  | encoded type digits => exact h.1.elim Descr.shape NumericOid.shape

theorem Ava.text_eq (a : Ava) : ∃ value, a.text = a.type ++ '=' :: value := by
  cases a with
  | string type value ps => exact ⟨_, rfl⟩
  | encoded type digits => exact ⟨_, rfl⟩

end DistinguishedName
