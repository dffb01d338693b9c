import OpenRadiusWeb.Lib.Json
import OpenRadiusWeb.Policy.Values

/-! # The text of a value

`str` of a list or a dictionary is built from the `repr` of its elements. A text is put in single
quotes, or in double quotes if it has single quotes and no double ones; the quote, backslashes and
characters that are not printable are escaped.
-/

namespace OpenRadiusWeb.Jsonb

open OpenRadiusWeb.Policy

/-- Library functions of the interpreter on texts and floats. -/
structure Interpreter where
  /-- `str.isprintable` of a character outside ASCII. -/
  printable : Char → Bool
  /-- The rationals that are floats. -/
  IsFloat : ℚ → Prop
  /-- `repr` of a finite float. -/
  reprFloat : ℚ → List Char
  /-- `float` of a numeral. -/
  float : List Char → Option PyFloat
  reprFloat_decimal : ∀ q, IsFloat q → Json.DecimalText (reprFloat q)
  float_reprFloat : ∀ q, IsFloat q → float (reprFloat q) = some (.finite q)

def hexDigit (n : Nat) : Char := if n < 10 then Char.ofNat (48 + n) else Char.ofNat (87 + n)

/-- The last `width` hexadecimal digits. -/
def hexText : Nat → Nat → List Char
  | 0, _ => []
  | width + 1, n => hexText width (n / 16) ++ [hexDigit (n % 16)]

section Text

variable (printable : Char → Bool)

/-- A character as `repr` writes it between two quotes. -/
def reprChar (quote c : Char) : List Char :=
  if c = quote ∨ c = '\\' then ['\\', c]
  else if c = '\t' then ['\\', 't']
  else if c = '\n' then ['\\', 'n']
  else if c = '\r' then ['\\', 'r']
  else if c.toNat < 0x20 ∨ c.toNat = 0x7f then ['\\', 'x'] ++ hexText 2 c.toNat
  else if c.toNat < 0x7f ∨ printable c then [c]
  else if c.toNat ≤ 0xff then ['\\', 'x'] ++ hexText 2 c.toNat
  else if c.toNat ≤ 0xffff then ['\\', 'u'] ++ hexText 4 c.toNat
  else ['\\', 'U'] ++ hexText 8 c.toNat

def quoteOf (s : List Char) : Char := if '\'' ∈ s ∧ '"' ∉ s then '"' else '\''

def quotedBy (quote : Char) (s : List Char) : List Char :=
  quote :: s.flatMap (reprChar printable quote) ++ [quote]

/-- `repr` of a text. -/
def reprText (s : List Char) : List Char := quotedBy printable (quoteOf s) s

end Text

section Render

variable (text : List Char → List Char) (reprFloat : ℚ → List Char)

mutual

/-- The text of a value whose texts are written by `text`. -/
def render : PyVal → List Char
  | .none => "None".toList
  | .bool true => "True".toList
  | .bool false => "False".toList
  | .int n => (toString n).toList
  | .float .nan => "nan".toList
  | .float .posInf => "inf".toList
  | .float .negInf => "-inf".toList
  | .float (.finite q) => reprFloat q
  | .str s => text s.toList
  | .list [] => ['[', ']']
  | .list (x :: xs) => '[' :: (render x ++ renderTail xs) ++ [']']
  | .dict [] => ['{', '}']
  | .dict ((k, v) :: items) => '{' :: (text k.toList ++ ": ".toList ++ render v ++ renderItems items) ++ ['}']
  | .obj _ text => text.toList

def renderTail : List PyVal → List Char
  | [] => []
  | x :: xs => ", ".toList ++ render x ++ renderTail xs

def renderItems : List (String × PyVal) → List Char
  | [] => []
  | (k, v) :: items => ", ".toList ++ (text k.toList ++ ": ".toList ++ render v) ++ renderItems items

end

end Render

variable (I : Interpreter)

/-- `repr(v)`. -/
def repr (v : PyVal) : List Char := render (reprText I.printable) I.reprFloat v

/-- The library functions with this `repr`. -/
def builtins (B : Builtins) : Builtins := { B with repr := fun v => String.ofList (repr I v) }

/-! ## What JSON reads of an escaped text -/

theorem hexValue_hexDigit : ∀ n < 16, Json.hexValue (hexDigit n) = some n := by decide

theorem hex4_hexText {n : Nat} (h : n ≤ 0xffff) :
    ∃ a b c d, hexText 4 n = [a, b, c, d] ∧ Json.hex4 a b c d = some n := by
  refine ⟨_, _, _, _, rfl, ?_⟩
  have hDigit : ∀ m, Json.hexValue (hexDigit (m % 16)) = some (m % 16) :=
    fun m => hexValue_hexDigit _ (Nat.mod_lt m (by decide))
  unfold Json.hex4
  rw [hDigit, hDigit, hDigit, hDigit]
  refine congrArg some ?_
  omega

section Legible

variable (printable : Char → Bool)

/-- The escape that `repr` writes for the character, if it does, is one of JSON. -/
def Legible (c : Char) : Prop :=
  c ∈ ['\t', '\n', '\r'] ∨ (0x20 ≤ c.toNat ∧ c.toNat ≠ 0x7f ∧
    (c.toNat < 0x7f ∨ printable c = true ∨ (0xff < c.toNat ∧ c.toNat ≤ 0xffff)))

variable {printable} {quote c : Char}

/-- A character that is no quote is read back exactly if it is legible. -/
theorem reprChar_piece_or (hQuote : c ≠ quote) (hDouble : c ≠ '"') :
    (Legible printable c ∧ Json.Piece (reprChar printable quote c) c) ∨
    (¬Legible printable c ∧ ∃ e ∈ ['x', 'U'], ∃ ds, reprChar printable quote c = '\\' :: e :: ds) := by
  unfold reprChar
  by_cases hSlash : c = '\\'
  · subst hSlash
    rw [if_pos (.inr rfl)]
    exact .inl ⟨.inr ⟨by decide, by decide, .inl (by decide)⟩, .escape (by decide)⟩
  rw [if_neg (by tauto)]
  by_cases hTab : c = '\t'
  · subst hTab
    exact .inl ⟨.inl (by decide), .escape (by decide)⟩
  rw [if_neg hTab]
  by_cases hNewline : c = '\n'
  · subst hNewline
    exact .inl ⟨.inl (by decide), .escape (by decide)⟩
  rw [if_neg hNewline]
  by_cases hReturn : c = '\r'
  · subst hReturn
    exact .inl ⟨.inl (by decide), .escape (by decide)⟩
  rw [if_neg hReturn]
  have hLegible : Legible printable c ↔ 0x20 ≤ c.toNat ∧ c.toNat ≠ 0x7f ∧
      (c.toNat < 0x7f ∨ printable c = true ∨ (0xff < c.toNat ∧ c.toNat ≤ 0xffff)) :=
    or_iff_right (by simp [hTab, hNewline, hReturn])
  rw [hLegible]
  by_cases hControl : c.toNat < 0x20 ∨ c.toNat = 0x7f
  · rw [if_pos hControl]
    exact .inr ⟨by omega, 'x', by decide, _, rfl⟩
  rw [if_neg hControl]
  by_cases hSelf : c.toNat < 0x7f ∨ printable c = true
  · rw [if_pos hSelf]
    exact .inl ⟨⟨by omega, by omega, hSelf.imp_right .inl⟩, .plain ⟨hDouble, hSlash, by omega⟩⟩
  rw [if_neg hSelf]
  rw [not_or] at hSelf
  by_cases hByte : c.toNat ≤ 0xff
  · rw [if_pos hByte]
    refine .inr ⟨?_, 'x', by decide, _, rfl⟩
    rintro ⟨-, -, h | h | h⟩
    · exact hSelf.1 h
    · exact hSelf.2 h
    · omega
  rw [if_neg hByte]
  by_cases hWord : c.toNat ≤ 0xffff
  · rw [if_pos hWord]
    obtain ⟨a, b, d, e, hText, hHex⟩ := hex4_hexText hWord
    rw [hText]
    refine .inl ⟨⟨by omega, by omega, .inr (.inr ⟨by omega, hWord⟩)⟩, ?_⟩
    have hPiece := Json.Piece.unicode hHex c.valid
    rwa [Char.ofNat_toNat] at hPiece
  · rw [if_neg hWord]
    refine .inr ⟨?_, 'U', by decide, _, rfl⟩
    rintro ⟨-, -, h | h | h⟩
    · exact hSelf.1 h
    · exact hSelf.2 h
    · omega

theorem body_flatMap {s t : List Char} (h : ∀ c ∈ s, c ≠ quote ∧ c ≠ '"' ∧ Legible printable c) :
    Json.Body s (s.flatMap (reprChar printable quote) ++ '"' :: t) t := by
  induction s with
  | nil => exact .close
  | cons c s ih =>
    obtain ⟨⟨hQuote, hDouble, hLegible⟩, hRest⟩ := List.forall_mem_cons.mp h
    obtain ⟨-, hPiece⟩ | ⟨hNot, -⟩ := @reprChar_piece_or printable quote c hQuote hDouble
    · rw [List.flatMap_cons, List.append_assoc]
      exact .piece hPiece (ih hRest)
    · exact absurd hLegible hNot

theorem legible_of_body {r s t u : List Char} (hs : ∀ c ∈ s, c ≠ quote ∧ c ≠ '"')
    (h : Json.Body r (s.flatMap (reprChar printable quote) ++ '"' :: t) u) :
    (∀ c ∈ s, Legible printable c) ∧ r = s ∧ u = t := by
  induction s generalizing r with
  | nil =>
    obtain ⟨rfl, rfl⟩ := h.of_quote
    exact ⟨nofun, rfl, rfl⟩
  | cons c s ih =>
    obtain ⟨⟨hQuote, hDouble⟩, hRest⟩ := List.forall_mem_cons.mp hs
    rw [List.flatMap_cons, List.append_assoc] at h
    obtain ⟨hLegible, hPiece⟩ | ⟨-, e, he, ds, hText⟩ := @reprChar_piece_or printable quote c hQuote hDouble
    · obtain ⟨r', rfl, hBody⟩ := h.of_piece hPiece
      obtain ⟨hAll, rfl, rfl⟩ := ih hRest hBody
      exact ⟨List.forall_mem_cons.mpr ⟨hLegible, hAll⟩, rfl, rfl⟩
    · rw [hText] at h
      have hLetter := h.letter
      simp only [List.mem_cons, List.not_mem_nil, or_false] at he
      obtain rfl | rfl := he <;> exact absurd hLetter (by simp [Json.escapes])

/-! ## Quoted texts -/

/-- A way to write texts from which exactly those of `G` can be read back, among the ones of `S`. -/
structure Quoting (text : List Char → List Char) (S G : List Char → Prop) : Prop where
  reads : ∀ {s r t u : List Char}, S s → Json.Quoted r (text s ++ t) u → G s ∧ r = s ∧ u = t
  written : ∀ {s : List Char} (t : List Char), G s → Json.Quoted s (text s ++ t) t
  quote : ∀ s, (∃ ds, text s = '"' :: ds) ∨ ∃ ds, text s = '\'' :: ds

variable (printable)

/-- The text has single quotes and no double ones, and only legible characters. -/
def ReprLegible (s : List Char) : Prop :=
  '\'' ∈ s ∧ '"' ∉ s ∧ ∀ c ∈ s, Legible printable c

/-- The text has no quotes and only legible characters. -/
def PlainLegible (s : List Char) : Prop := ('\'' ∉ s ∧ '"' ∉ s) ∧ ∀ c ∈ s, Legible printable c

/-- A text without quotes, written between double ones. -/
def doubleQuoted (s : List Char) : List Char := '"' :: s.flatMap (reprChar printable '\'') ++ ['"']

theorem reprText_quoting : Quoting (reprText printable) (fun _ => True) (ReprLegible printable) where
  reads {s r t u} _ h := by
    unfold reprText quotedBy quoteOf at h
    split at h
    · rename_i hQuotes
      generalize hText : _ ++ t = text at h
      cases h with
      | mk h =>
        rw [List.cons_append, List.cons_append, List.append_assoc] at hText
        have hBody := (List.cons.inj hText).2 ▸ h
        obtain ⟨hAll, rfl, rfl⟩ := legible_of_body (fun c hc =>
          ⟨ne_of_mem_of_not_mem hc hQuotes.2, ne_of_mem_of_not_mem hc hQuotes.2⟩) hBody
        exact ⟨⟨hQuotes.1, hQuotes.2, hAll⟩, rfl, rfl⟩
    · cases h
  written {s} t h := by
    unfold reprText quotedBy quoteOf
    rw [if_pos ⟨h.1, h.2.1⟩, List.cons_append, List.cons_append, List.append_assoc]
    exact .mk (body_flatMap fun c hc =>
      ⟨ne_of_mem_of_not_mem hc h.2.1, ne_of_mem_of_not_mem hc h.2.1, h.2.2 c hc⟩)
  quote s := by
    unfold reprText quotedBy quoteOf
    split
    · exact .inl ⟨_, rfl⟩
    · exact .inr ⟨_, rfl⟩

theorem doubleQuoted_quoting :
    Quoting (doubleQuoted printable) (fun s => '\'' ∉ s ∧ '"' ∉ s) (PlainLegible printable) where
  reads {s r t u} hs h := by
    generalize hText : doubleQuoted printable s ++ t = text at h
    cases h with
    | mk h =>
      rw [doubleQuoted, List.cons_append, List.cons_append, List.append_assoc] at hText
      have hBody := (List.cons.inj hText).2 ▸ h
      obtain ⟨hAll, rfl, rfl⟩ := legible_of_body (fun c hc =>
        ⟨ne_of_mem_of_not_mem hc hs.1, ne_of_mem_of_not_mem hc hs.2⟩) hBody
      exact ⟨⟨hs, hAll⟩, rfl, rfl⟩
  written {s} t h := by
    rw [doubleQuoted, List.cons_append, List.cons_append, List.append_assoc]
    exact .mk (body_flatMap fun c hc =>
      ⟨ne_of_mem_of_not_mem hc h.1.1, ne_of_mem_of_not_mem hc h.1.2, h.2 c hc⟩)
  quote s := .inl ⟨_, rfl⟩

end Legible

end OpenRadiusWeb.Jsonb
