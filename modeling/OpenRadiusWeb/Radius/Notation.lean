import OpenRadiusWeb.Radius.Authorize
import OpenRadiusWeb.Coa.Session

/-! # Notations of a MAC address

The gateway accepts every text with twelve hexadecimal digits. The RADIUS module and the CoA
service strip separators of their own choice: which notations they read as the gateway does is
settled for each of them.
-/

namespace OpenRadiusWeb.Radius

/-- A digit or one of the separators of the usual notations. -/
def isMacChar (c : Char) : Bool := isHexDigit c || c == ':' || c == '-' || c == '.'

/-- What lowering does to the characters of MAC addresses: they are lowered as in ASCII, and
no other character becomes one of them. -/
structure LowersMac (lower : String → String) : Prop where
  mac : ∀ s, (lower s).toList.filter isMacChar = (s.toList.filter isMacChar).map Char.toLower
  only : ∀ s, (∀ c ∈ (lower s).toList, isMacChar c) ↔ ∀ c ∈ s.toList, isMacChar c

/-- The validators of the gateway accept the text. -/
def Accepted (raw : String) : Prop := (hexOnly raw).toList.length = 12

instance (raw : String) : Decidable (Accepted raw) := inferInstanceAs (Decidable (_ = _))

def macDigits (raw : String) : List Char := (raw.toList.filter isHexDigit).map Char.toLower

def SameMac (raw raw' : String) : Prop := macDigits raw = macDigits raw'

instance (raw raw' : String) : Decidable (SameMac raw raw') := inferInstanceAs (Decidable (_ = _))

/-- The notations that the module reads: digits and separators alone, except that a text of
14 characters with a dot is read as its first twelve characters other than dots. -/
def ReadByModule (raw : String) : Prop :=
  if '.' ∈ raw.toList ∧ raw.toList.length = 14 then
    ∀ c ∈ (Text.removeChar '.' raw).toList.take 12, isHexDigit c
  else ∀ c ∈ raw.toList, isMacChar c

instance (raw : String) : Decidable (ReadByModule raw) := by
  unfold ReadByModule
  infer_instance

/-! ## Characters -/

theorem mem_hexDigits {c : Char} (h : isHexDigit c = true) :
    c ∈ "0123456789abcdefABCDEF".toList := by
  have hRange : ∀ lo hi : Char, (lo ≤ c && c ≤ hi) = true → lo.toNat ≤ c.toNat ∧ c.toNat ≤ hi.toNat := by
    intro lo hi hBoth
    simp only [Bool.and_eq_true, decide_eq_true_eq] at hBoth
    exact hBoth
  have hOf : c = Char.ofNat c.toNat := (Char.ofNat_toNat c).symm
  have hSome : (48 ≤ c.toNat ∧ c.toNat ≤ 57) ∨ (97 ≤ c.toNat ∧ c.toNat ≤ 102) ∨
      (65 ≤ c.toNat ∧ c.toNat ≤ 70) := by
    unfold isHexDigit at h
    simp only [Bool.or_eq_true] at h
    rcases h with (h | h) | h
    · exact .inl (hRange _ _ h)
    · exact .inr (.inl (hRange _ _ h))
    · exact .inr (.inr (hRange _ _ h))
  have hAll : ∀ n < 103, (48 ≤ n ∧ n ≤ 57) ∨ (97 ≤ n ∧ n ≤ 102) ∨ (65 ≤ n ∧ n ≤ 70) →
      Char.ofNat n ∈ "0123456789abcdefABCDEF".toList := by decide
  rw [hOf]
  exact hAll _ (by omega) hSome

theorem mem_macChars {c : Char} (h : isMacChar c = true) :
    c ∈ "0123456789abcdefABCDEF:-.".toList := by
  unfold isMacChar at h
  simp only [Bool.or_eq_true, beq_iff_eq] at h
  have hDigits : ∀ c ∈ "0123456789abcdefABCDEF".toList,
      c ∈ "0123456789abcdefABCDEF:-.".toList := by decide
  rcases h with ((hHex | rfl) | rfl) | rfl
  · exact hDigits c (mem_hexDigits hHex)
  · decide
  · decide
  · decide

theorem isHexDigit_toLower {c : Char} (h : isMacChar c = true) :
    isHexDigit c.toLower = isHexDigit c := by
  have hAll : ∀ c ∈ "0123456789abcdefABCDEF:-.".toList, isHexDigit c.toLower = isHexDigit c := by
    decide +kernel
  exact hAll c (mem_macChars h)

theorem toLower_eq_dot {c : Char} (h : isMacChar c = true) : c.toLower = '.' ↔ c = '.' := by
  have hAll : ∀ c ∈ "0123456789abcdefABCDEF:-.".toList, c.toLower = '.' ↔ c = '.' := by
    decide +kernel
  exact hAll c (mem_macChars h)

theorem isMacChar_of_hex {c : Char} (h : isHexDigit c = true) : isMacChar c = true := by
  simp [isMacChar, h]

def isSeparator (c : Char) : Bool := c == ':' || c == '-' || c == '.'

theorem isMacChar_of_separator {c : Char} (h : isSeparator c = true) : isMacChar c = true := by
  unfold isSeparator at h
  simp only [Bool.or_eq_true, beq_iff_eq] at h
  rcases h with (rfl | rfl) | rfl
  · decide
  · decide
  · decide

theorem isHexDigit_eq_not {c : Char} (h : isMacChar c = true) : isHexDigit c = !isSeparator c := by
  have hAll : ∀ c ∈ "0123456789abcdefABCDEF:-.".toList, isHexDigit c = !isSeparator c := by
    decide +kernel
  exact hAll c (mem_macChars h)

theorem filter_hex (cs : List Char) :
    (cs.filter isMacChar).filter isHexDigit = cs.filter isHexDigit := by
  rw [List.filter_filter]
  apply List.filter_congr
  intro c _
  cases hHex : isHexDigit c with
  | false => rfl
  | true => rw [isMacChar_of_hex hHex]; rfl

theorem toList_separators (s : String) :
    (Text.removeChar '.' (Text.removeChar '-' (Text.removeChar ':' s))).toList =
      s.toList.filter fun c => !isSeparator c := by
  simp only [Text.removeChar, String.toList_ofList, List.filter_filter]
  apply List.filter_congr
  intro c _
  unfold isSeparator
  by_cases hColon : c = ':'
  · simp [hColon]
  · by_cases hDash : c = '-'
    · simp [hDash]
    · rw [beq_false_of_ne hColon, beq_false_of_ne hDash]
      simp [hColon, hDash, beq_eq_decide]

theorem filter_separators (cs : List Char) :
    (cs.filter fun c => !isSeparator c).filter isHexDigit = cs.filter isHexDigit := by
  rw [List.filter_filter]
  apply List.filter_congr
  intro c _
  cases hHex : isHexDigit c with
  | false => rfl
  | true =>
    have hNot := isHexDigit_eq_not (isMacChar_of_hex hHex)
    rw [hHex] at hNot
    rw [← hNot]
    rfl

/-! ## Lowering -/

section Lowering

variable {lower : String → String} (hLower : LowersMac lower)
include hLower

theorem LowersMac.hex (s : String) :
    (lower s).toList.filter isHexDigit = (s.toList.filter isHexDigit).map Char.toLower := by
  rw [← filter_hex, hLower.mac, List.filter_map]
  rw [← filter_hex s.toList]
  congr 1
  apply List.filter_congr
  intro c hc
  exact isHexDigit_toLower (List.of_mem_filter hc)

theorem LowersMac.toList {s : String} (h : ∀ c ∈ s.toList, isMacChar c) :
    (lower s).toList = s.toList.map Char.toLower := by
  have hAll := (hLower.only s).mpr h
  have hSame := hLower.mac s
  rwa [List.filter_eq_self.mpr hAll, List.filter_eq_self.mpr h] at hSame

theorem LowersMac.dot (s : String) : '.' ∈ (lower s).toList ↔ '.' ∈ s.toList := by
  have hMac : isMacChar '.' = true := by decide
  have hIff : ∀ cs : List Char, '.' ∈ cs ↔ '.' ∈ cs.filter isMacChar := fun cs =>
    ⟨fun hMem => List.mem_filter.mpr ⟨hMem, hMac⟩, List.mem_of_mem_filter⟩
  rw [hIff, hLower.mac, List.mem_map, hIff s.toList]
  constructor
  · rintro ⟨c, hc, hDot⟩
    rwa [← (toLower_eq_dot (List.of_mem_filter hc)).mp hDot]
  · intro hDot
    exact ⟨'.', hDot, rfl⟩

end Lowering

/-! ## Six pairs -/

theorem toList_macPairs (f : String → String) (s : String) :
    (macPairs f s).toList =
      (f (String.ofList (s.toList.take 2))).toList ++ ':' ::
      ((f (String.ofList ((s.toList.drop 2).take 2))).toList ++ ':' ::
      ((f (String.ofList ((s.toList.drop 4).take 2))).toList ++ ':' ::
      ((f (String.ofList ((s.toList.drop 6).take 2))).toList ++ ':' ::
      ((f (String.ofList ((s.toList.drop 8).take 2))).toList ++ ':' ::
      (f (String.ofList ((s.toList.drop 10).take 2))).toList)))) := by
  simp [macPairs, List.range_succ, String.intercalate_cons_cons]

theorem take_twelve (cs : List Char) :
    cs.take 12 = cs.take 2 ++ ((cs.drop 2).take 2 ++ ((cs.drop 4).take 2 ++ ((cs.drop 6).take 2 ++
      ((cs.drop 8).take 2 ++ (cs.drop 10).take 2)))) := by
  rw [show 12 = 2 + (2 + (2 + (2 + (2 + 2)))) from rfl]
  simp only [List.take_add, List.drop_drop]

theorem macPairs_congr (f : String → String) {s t : String}
    (h : s.toList.take 12 = t.toList.take 12) : macPairs f s = macPairs f t := by
  unfold macPairs
  apply congrArg (String.intercalate ":")
  apply List.map_congr_left
  intro i hi
  have hPair : ∀ cs : List Char, (cs.drop (2 * i)).take 2 = ((cs.take 12).drop (2 * i)).take 2 := by
    intro cs
    have hLt := List.mem_range.mp hi
    rw [List.drop_take, List.take_take, Nat.min_eq_left (by omega)]
  rw [hPair s.toList, hPair t.toList, h]

theorem filter_macPairs {f : String → String}
    (hf : ∀ s, (f s).toList.filter isHexDigit = (s.toList.filter isHexDigit).map Char.toLower)
    (s : String) :
    (macPairs f s).toList.filter isHexDigit =
      ((s.toList.take 12).filter isHexDigit).map Char.toLower := by
  have hColon : isHexDigit ':' = false := by decide
  rw [toList_macPairs, take_twelve]
  simp only [List.filter_append, List.filter_cons, hColon, Bool.false_eq_true, if_false, hf,
    String.toList_ofList, List.map_append]

theorem macPairs_lower {lower : String → String} (hLower : LowersMac lower) {s : String}
    (h : ∀ c ∈ s.toList, isMacChar c) :
    macPairs lower s = macPairs id (String.ofList (s.toList.map Char.toLower)) := by
  unfold macPairs
  apply congrArg (String.intercalate ":")
  apply List.map_congr_left
  intro i _
  apply String.toList_inj.mp
  have hPiece : ∀ c ∈ (String.ofList ((s.toList.drop (2 * i)).take 2)).toList, isMacChar c := by
    intro c hc
    rw [String.toList_ofList] at hc
    exact h c (List.mem_of_mem_drop (List.mem_of_mem_take hc))
  rw [hLower.toList hPiece]
  simp [List.map_drop, List.map_take]

/-! ## The normal form -/

/-- `aa:bb:cc:dd:ee:ff`. -/
def normalForm (raw : String) : String := macPairs id (String.ofList (macDigits raw))

theorem length_macDigits {raw : String} (h : Accepted raw) : (macDigits raw).length = 12 := by
  rw [Accepted, hexOnly, String.toList_ofList] at h
  rw [macDigits, List.length_map, h]

theorem hex_macDigits {raw : String} : ∀ c ∈ macDigits raw, isHexDigit c := by
  intro c hc
  obtain ⟨d, hd, rfl⟩ := List.mem_map.mp hc
  have hHex := List.of_mem_filter hd
  rwa [isHexDigit_toLower (isMacChar_of_hex hHex)]

theorem normalForm_congr {raw raw' : String} (h : SameMac raw raw') :
    normalForm raw = normalForm raw' := by
  rw [normalForm, normalForm, h]

/-- The normal form has digits and colons only. -/
theorem mac_normalForm (raw : String) : ∀ c ∈ (normalForm raw).toList, isMacChar c := by
  intro c hc
  have hColon : isMacChar ':' = true := by decide
  have hDigit : ∀ n, ∀ c ∈ ((macDigits raw).drop n).take 2, isMacChar c := fun n c hMem =>
    isMacChar_of_hex (hex_macDigits c (List.mem_of_mem_drop (List.mem_of_mem_take hMem)))
  have hFirst : ∀ c ∈ (macDigits raw).take 2, isMacChar c := hDigit 0
  rw [normalForm, toList_macPairs] at hc
  simp only [id, String.toList_ofList, List.mem_append, List.mem_cons] at hc
  rcases hc with hc | rfl | hc | rfl | hc | rfl | hc | rfl | hc | rfl | hc
  · exact hFirst c hc
  · exact hColon
  · exact hDigit 2 c hc
  · exact hColon
  · exact hDigit 4 c hc
  · exact hColon
  · exact hDigit 6 c hc
  · exact hColon
  · exact hDigit 8 c hc
  · exact hColon
  · exact hDigit 10 c hc

theorem filter_normalForm {raw : String} (h : Accepted raw) :
    (normalForm raw).toList.filter isHexDigit = macDigits raw := by
  have hLength := length_macDigits h
  have hAll : (macDigits raw).filter isHexDigit = macDigits raw :=
    List.filter_eq_self.mpr hex_macDigits
  rw [normalForm, toList_macPairs]
  have hColon : isHexDigit ':' = false := by decide
  simp only [List.filter_append, List.filter_cons, hColon, Bool.false_eq_true, if_false, id,
    String.toList_ofList]
  rw [← List.filter_append, ← List.filter_append, ← List.filter_append, ← List.filter_append,
    ← List.filter_append, ← take_twelve, List.take_of_length_le (by omega), hAll]

theorem hex_normalForm {raw : String} (h : Accepted raw) :
    ((normalForm raw).toList.filter isHexDigit).length = 12 := by
  rw [filter_normalForm h, length_macDigits h]

theorem accepted_normalForm {raw : String} (h : Accepted raw) : Accepted (normalForm raw) := by
  rw [Accepted, hexOnly, String.toList_ofList]
  exact hex_normalForm h

theorem toLower_toLower {c : Char} (h : isMacChar c = true) : c.toLower.toLower = c.toLower := by
  have hAll : ∀ c ∈ "0123456789abcdefABCDEF:-.".toList, c.toLower.toLower = c.toLower := by
    decide +kernel
  exact hAll c (mem_macChars h)

theorem normalForm_normalForm {raw : String} (h : Accepted raw) :
    normalForm (normalForm raw) = normalForm raw := by
  apply normalForm_congr
  rw [SameMac, macDigits, filter_normalForm h, macDigits, List.map_map]
  apply List.map_congr_left
  intro c hc
  exact toLower_toLower (isMacChar_of_hex (List.of_mem_filter hc))

theorem length_normalForm {raw : String} (h : Accepted raw) : (normalForm raw).toList.length = 17 := by
  have hLength := length_macDigits h
  rw [normalForm, toList_macPairs]
  simp [hLength]

section Module

variable {py : Python} (hPy : LowersMac py.lower) {raw : String}
include hPy

theorem macPairs_hexOnly (raw : String) : macPairs py.lower (hexOnly raw) = normalForm raw := by
  have hHex : ∀ c ∈ (hexOnly raw).toList, isMacChar c := by
    intro c hc
    rw [hexOnly, String.toList_ofList] at hc
    exact isMacChar_of_hex (List.of_mem_filter hc)
  rw [macPairs_lower hPy hHex, hexOnly, String.toList_ofList]
  rfl

theorem gatewayNormalizeMac_eq (h : Accepted raw) :
    gatewayNormalizeMac py raw = some (normalForm raw) := by
  rw [← macPairs_hexOnly hPy]
  exact if_pos h

/-- The module's form of a text of 14 characters with a dot. -/
theorem normalizeMac_dotted (h : Accepted raw)
    (hDotted : '.' ∈ raw.toList ∧ raw.toList.length = 14) :
    normalizeMac py raw = normalForm raw ↔
      ∀ c ∈ (Text.removeChar '.' raw).toList.take 12, isHexDigit c := by
  rw [normalizeMac, if_pos hDotted]
  have hDigits : (Text.removeChar '.' raw).toList.filter isHexDigit =
      raw.toList.filter isHexDigit := by
    rw [Text.removeChar, String.toList_ofList, List.filter_filter]
    apply List.filter_congr
    intro c _
    have hDot : isHexDigit '.' = false := by decide
    by_cases hc : c = '.'
    · rw [hc, hDot]
      rfl
    · simp [hc]
  constructor
  · intro hEq c hc
    have hCount := congrArg (fun s => (s.toList.filter isHexDigit).length) hEq
    simp only [filter_macPairs hPy.hex, List.length_map, hex_normalForm h] at hCount
    have hShort : ((Text.removeChar '.' raw).toList.take 12).length ≤ 12 := by
      rw [List.length_take]
      omega
    have hLe := List.length_filter_le isHexDigit ((Text.removeChar '.' raw).toList.take 12)
    exact List.length_filter_eq_length_iff.mp (by omega) c hc
  · intro hHex
    have hLength := h
    rw [Accepted, hexOnly, String.toList_ofList] at hLength
    -- the first twelve characters are all the digits there are
    have hTake : (Text.removeChar '.' raw).toList.take 12 = raw.toList.filter isHexDigit := by
      have hPrefix : (Text.removeChar '.' raw).toList.take 12 <+: raw.toList.filter isHexDigit := by
        rw [← hDigits, ← List.filter_eq_self.mpr hHex]
        exact (List.take_prefix _ _).filter _
      apply hPrefix.eq_of_length_le
      have hLong := List.length_filter_le isHexDigit (Text.removeChar '.' raw).toList
      rw [hDigits, hLength] at hLong
      rw [hLength, List.length_take]
      omega
    have hSame : macPairs py.lower (Text.removeChar '.' raw) = macPairs py.lower (hexOnly raw) := by
      apply macPairs_congr
      rw [hTake, hexOnly, String.toList_ofList, List.take_of_length_le (by omega)]
    rw [hSame, macPairs_hexOnly hPy]

theorem hex_macClean (raw : String) :
    (macClean py raw).toList.filter isHexDigit = macDigits raw := by
  rw [macClean, hPy.hex, toList_separators, filter_separators]
  rfl

theorem macClean_mac (h : ∀ c ∈ raw.toList, isMacChar c) :
    (macClean py raw).toList = macDigits raw := by
  have hKept : ∀ c ∈ raw.toList.filter fun c => !isSeparator c, isMacChar c := fun c hc =>
    h c (List.mem_of_mem_filter hc)
  have hDigits : (raw.toList.filter fun c => !isSeparator c) = raw.toList.filter isHexDigit := by
    apply List.filter_congr
    intro c hc
    exact (isHexDigit_eq_not (h c hc)).symm
  rw [macClean, hPy.toList (by rwa [toList_separators]), toList_separators, hDigits]
  rfl

theorem mac_of_macClean (h : Accepted raw) (hTwelve : (macClean py raw).toList.length = 12) :
    ∀ c ∈ raw.toList, isMacChar c := by
  have hAll : ∀ c ∈ (macClean py raw).toList, isHexDigit c := by
    apply List.length_filter_eq_length_iff.mp
    rw [hex_macClean hPy, length_macDigits h, hTwelve]
  have hPlain := (hPy.only _).mp fun c hc => isMacChar_of_hex (hAll c hc)
  rw [toList_separators] at hPlain
  intro c hc
  cases hSeparator : isSeparator c with
  | true => exact isMacChar_of_separator hSeparator
  | false => exact hPlain c (List.mem_filter.mpr ⟨hc, by rw [hSeparator]; rfl⟩)

theorem normalizeMac_stripped (h : Accepted raw)
    (hDotted : ¬('.' ∈ raw.toList ∧ raw.toList.length = 14)) :
    normalizeMac py raw = normalForm raw ↔ ∀ c ∈ raw.toList, isMacChar c := by
  rw [normalizeMac, if_neg hDotted]
  constructor
  · intro hEq
    split at hEq
    · exact mac_of_macClean hPy h ‹_›
    · apply (hPy.only raw).mp
      rw [hEq]
      exact mac_normalForm raw
  · intro hMac
    have hClean := macClean_mac hPy hMac
    rw [if_pos (by rw [hClean, length_macDigits h]), normalForm, ← hClean, String.ofList_toList]

/-- The module and the gateway have the same form of a text exactly when it is a notation that
the module reads. -/
theorem normalizeMac_iff (h : Accepted raw) :
    some (normalizeMac py raw) = gatewayNormalizeMac py raw ↔ ReadByModule raw := by
  rw [gatewayNormalizeMac_eq hPy h, Option.some_inj, ReadByModule]
  split
  · exact normalizeMac_dotted hPy h ‹_›
  · exact normalizeMac_stripped hPy h ‹_›

end Module

/-! ## Sessions -/

def stripSeparators (s : String) : String :=
  Text.removeChar '.' (Text.removeChar '-' (Text.removeChar ':' s))

/-- The query finds the station: there is no dot in it, which the query does not strip, and
what is not a separator is the same up to case. -/
def ReadByQuery (coa : Coa.Env) (mac station : String) : Prop :=
  '.' ∉ station.toList ∧
    coa.builtins.lower (stripSeparators mac) = stripSeparators (coa.sqlLower station)

/-- The session is one of the MAC address. -/
def ofMac (mac : String) (s : Coa.FoundSession) : Bool :=
  match s.row.callingStationId with
  | none => false
  | some station => SameMac mac station

theorem mem_removeChar {c d : Char} {s : String} :
    c ∈ (Text.removeChar d s).toList ↔ c ∈ s.toList ∧ c ≠ d := by
  rw [Text.removeChar, String.toList_ofList, List.mem_filter, decide_eq_true_eq]

theorem removeChar_of_not_mem {c : Char} {s : String} (h : c ∉ s.toList) :
    Text.removeChar c s = s := by
  have hAll : s.toList.filter (fun x => x ≠ c) = s.toList := by
    apply List.filter_eq_self.mpr
    intro x hx
    rw [decide_eq_true_eq]
    rintro rfl
    exact h hx
  rw [Text.removeChar, hAll, String.ofList_toList]

section Queries

variable {coa : Coa.Env} (hCoa : LowersMac coa.builtins.lower) (hSql : LowersMac coa.sqlLower)
  {mac station : String}

include hCoa hSql in
theorem cleanCallingStation_iff :
    Coa.cleanCallingStation coa station = Coa.cleanMac coa mac ↔ ReadByQuery coa mac station := by
  have hRequest : '.' ∉ (Coa.cleanMac coa mac).toList := by
    rw [Coa.cleanMac, hCoa.dot, mem_removeChar]
    exact fun h => h.2 rfl
  have hStation : '.' ∈ (Coa.cleanCallingStation coa station).toList ↔ '.' ∈ station.toList := by
    rw [Coa.cleanCallingStation, mem_removeChar, mem_removeChar, hSql.dot]
    exact ⟨fun h => h.1.1, fun h => ⟨⟨h, by decide⟩, by decide⟩⟩
  constructor
  · intro hEq
    have hNoDot : '.' ∉ (Coa.cleanCallingStation coa station).toList := by
      rw [hEq]
      exact hRequest
    refine ⟨fun hDot => hNoDot (hStation.mpr hDot), hEq.symm.trans ?_⟩
    exact (removeChar_of_not_mem hNoDot).symm
  · rintro ⟨hNoDot, hEq⟩
    have hSame := removeChar_of_not_mem fun hDot => hNoDot (hStation.mp hDot)
    exact hSame.symm.trans hEq.symm

include hCoa hSql in
theorem sameMac_of_read (h : ReadByQuery coa mac station) : SameMac mac station := by
  have hDigits := congrArg (fun s => s.toList.filter isHexDigit) h.2
  simp only [stripSeparators, toList_separators, filter_separators, hCoa.hex, hSql.hex] at hDigits
  exact hDigits

include hCoa hSql in
/-- Notations of digits and separators are found, unless the stored one has a dot. -/
theorem read_of_mac (hMac : ∀ c ∈ mac.toList, isMacChar c)
    (hStation : ∀ c ∈ station.toList, isMacChar c) (hSame : SameMac mac station) :
    ReadByQuery coa mac station ↔ '.' ∉ station.toList := by
  refine ⟨fun h => h.1, fun hNoDot => ⟨hNoDot, ?_⟩⟩
  have hDigits : ∀ {s : String}, (∀ c ∈ s.toList, isMacChar c) →
      (s.toList.filter fun c => !isSeparator c) = s.toList.filter isHexDigit := by
    intro s hs
    apply List.filter_congr
    intro c hc
    exact (isHexDigit_eq_not (hs c hc)).symm
  have hRequest : ∀ c ∈ (stripSeparators mac).toList, isMacChar c := by
    intro c hc
    rw [stripSeparators, toList_separators] at hc
    exact hMac c (List.mem_of_mem_filter hc)
  apply String.toList_inj.mp
  rw [hCoa.toList hRequest, stripSeparators, toList_separators, hDigits hMac, stripSeparators,
    toList_separators, hDigits ((hSql.only station).mpr hStation), hSql.hex]
  exact hSame

theorem findActiveSession_mac (w : Coa.World) (h : Accepted mac) :
    Coa.findActiveSession coa w .none (.str mac) = .ok (Coa.findByMac coa w mac) := by
  have hNonempty : mac ≠ "" := by
    rintro rfl
    exact absurd h (by decide)
  unfold Coa.findActiveSession
  simp [Policy.PyVal.truthy, hNonempty]

include hCoa hSql in
theorem findByMac_eq {w : Coa.World}
    (h : ∀ s ∈ w.joined, Coa.isActive s = true → ∀ station, s.row.callingStationId = some station →
      SameMac mac station → ReadByQuery coa mac station) :
    Coa.findByMac coa w mac =
      Coa.latest (w.joined.filter fun s => ofMac mac s && Coa.isActive s) := by
  unfold Coa.findByMac
  congr 1
  apply List.filter_congr
  intro s hs
  cases hActive : Coa.isActive s with
  | false => rw [Bool.and_false, Bool.and_false]
  | true =>
    rw [Bool.and_true, Bool.and_true, ofMac]
    cases hStation : s.row.callingStationId with
    | none => rfl
    | some station =>
      simp only [Option.map_some, Option.some_inj, decide_eq_decide]
      rw [cleanCallingStation_iff hCoa hSql]
      exact ⟨sameMac_of_read hCoa hSql, h s hs hActive station hStation⟩

include hCoa hSql in
theorem findByMac_single {w : Coa.World} {s : Coa.FoundSession}
    (hOne : w.joined.filter Coa.isActive = [s]) (hStation : s.row.callingStationId = some station) :
    Coa.findByMac coa w mac = some s ↔ ReadByQuery coa mac station := by
  have hCandidates : (w.joined.filter fun s =>
      decide (s.row.callingStationId.map (Coa.cleanCallingStation coa) =
        some (Coa.cleanMac coa mac)) && Coa.isActive s) =
      [s].filter fun s => decide (s.row.callingStationId.map (Coa.cleanCallingStation coa) =
        some (Coa.cleanMac coa mac)) := by
    rw [← hOne, List.filter_filter]
  rw [Coa.findByMac, hCandidates, ← cleanCallingStation_iff hCoa hSql, List.filter_singleton,
    hStation]
  simp only [Option.map_some, Option.some_inj]
  by_cases hFound : Coa.cleanCallingStation coa station = Coa.cleanMac coa mac
  · simp [hFound, Coa.latest]
  · simp [hFound, Coa.latest]

end Queries

/-- Which notations the look-ups read as the gateway reads them. A device is found by each
notation that the module reads, and sessions by each that the query reads. -/
theorem normalizers_agree (env : Env) (coa : Coa.Env) (hPy : LowersMac env.py.lower)
    (hCoa : LowersMac coa.builtins.lower) (hSql : LowersMac coa.sqlLower) :
    (∀ raw, Accepted raw →
      (some (normalizeMac env.py raw) = gatewayNormalizeMac env.py raw ↔ ReadByModule raw)) ∧
    (∀ raw stored table, Accepted raw → Accepted stored → SameMac raw stored → ReadByModule raw →
      lookupMabDevice env table (normalizeMac env.py raw) =
        (gatewayNormalizeMac env.py stored).bind (lookupMabDevice env table)) ∧
    (∀ mac station w s, Accepted mac → Accepted station → SameMac mac station →
      w.joined.filter Coa.isActive = [s] → s.row.callingStationId = some station →
      (Coa.findActiveSession coa w .none (.str mac) = .ok (some s) ↔
        ReadByQuery coa mac station)) ∧
    ∀ mac w, Accepted mac →
      (∀ s ∈ w.joined, Coa.isActive s = true → ∀ station, s.row.callingStationId = some station →
        SameMac mac station → ReadByQuery coa mac station) →
      Coa.findActiveSession coa w .none (.str mac) =
        .ok (Coa.latest (w.joined.filter fun s => ofMac mac s && Coa.isActive s)) := by
  refine ⟨fun raw h => normalizeMac_iff hPy h, ?_, ?_, ?_⟩
  · intro raw stored table hRaw hStored hSame hRead
    have hModule := (normalizeMac_iff hPy hRaw).mpr hRead
    have hForms : gatewayNormalizeMac env.py raw = gatewayNormalizeMac env.py stored := by
      rw [gatewayNormalizeMac_eq hPy hRaw, gatewayNormalizeMac_eq hPy hStored,
        normalForm_congr hSame]
    rw [← hForms, ← hModule]
    rfl
  · intro mac station w s hMac _ _ hOne hStation
    rw [findActiveSession_mac w hMac, ← findByMac_single hCoa hSql hOne hStation]
    exact ⟨fun h => Except.ok.inj h, fun h => congrArg _ h⟩
  · intro mac w hMac hRead
    rw [findActiveSession_mac w hMac, findByMac_eq hCoa hSql hRead]

/-! ## Lowering as in ASCII -/

theorem isMacChar_toLower (c : Char) : isMacChar c.toLower = isMacChar c := by
  by_cases hAscii : c.toNat < 128
  · have hAll : ∀ n < 128, isMacChar (Char.ofNat n).toLower = isMacChar (Char.ofNat n) := by decide
    have hChar := hAll c.toNat hAscii
    rwa [Char.ofNat_toNat] at hChar
  · have hSame : c.toLower = c := by
      unfold Char.toLower
      rw [dif_neg]
      rintro ⟨-, hUpper⟩
      have hLt : c.toNat ≤ 90 := hUpper
      omega
    rw [hSame]

theorem lowersMac_lowerAscii : LowersMac Policy.lowerAscii where
  mac s := by
    rw [Policy.lowerAscii, String.toList_ofList, List.filter_map]
    congr 1
    apply List.filter_congr
    intro c _
    exact isMacChar_toLower c
  only s := by
    rw [Policy.lowerAscii, String.toList_ofList, List.forall_mem_map]
    simp only [isMacChar_toLower]

def asciiEnv : Env := ⟨⟨Policy.lowerAscii, fun _ => false, fun _ => none⟩, none, fun _ => none, 0⟩

def asciiCoa : Coa.Env :=
  ⟨Policy.plainBuiltins, ⟨fun _ => [], fun _ => ""⟩, Policy.lowerAscii, fun s => .ok (some s)⟩

theorem dashes_agree :
    some (normalizeMac asciiEnv.py "AA-BB-CC-DD-EE-FF") =
      gatewayNormalizeMac asciiEnv.py "AA-BB-CC-DD-EE-FF" :=
  ((normalizers_agree asciiEnv asciiCoa lowersMac_lowerAscii lowersMac_lowerAscii
    lowersMac_lowerAscii).1 _ (by decide +kernel)).mpr (by decide +kernel)

/-- A session whose station is stored in the given notation. -/
def sessionWorld (station : String) : Coa.World where
  identifier := 0
  sessions := ⟨[⟨"s1", none, none, some station, none, none, "active", 0⟩], by simp⟩
  devices := []

/-- Spaces and mixed separators are kept by the module, and the dots of a stored address by the
query of the CoA service. -/
theorem normalizers_disagree :
    (Accepted "aa bb cc dd ee ff" ∧
      some (normalizeMac asciiEnv.py "aa bb cc dd ee ff") ≠
        gatewayNormalizeMac asciiEnv.py "aa bb cc dd ee ff") ∧
    (Accepted "aabb.ccdd-eeff" ∧
      some (normalizeMac asciiEnv.py "aabb.ccdd-eeff") ≠
        gatewayNormalizeMac asciiEnv.py "aabb.ccdd-eeff") ∧
    (Accepted "aa:bb:cc:dd:ee:ff" ∧ Accepted "aabb.ccdd.eeff" ∧
      SameMac "aa:bb:cc:dd:ee:ff" "aabb.ccdd.eeff" ∧
      (Coa.findByMac asciiCoa (sessionWorld "aabb.ccdd.eeff") "aa:bb:cc:dd:ee:ff").isNone ∧
      (Coa.findByMac asciiCoa (sessionWorld "aa-bb-cc-dd-ee-ff") "aa:bb:cc:dd:ee:ff").isSome) := by
  decide +kernel

end OpenRadiusWeb.Radius
