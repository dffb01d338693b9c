import Mathlib.Logic.Basic

/-! # URL-safe base64

`base64.urlsafe_b64encode`, and `urlsafe_b64decode` as the library decodes: characters
outside the alphabet are skipped, the two standard characters are accepted for the URL-safe
ones, and a complete padding ends the input.
-/

namespace Base64

/-- The character of a 6-bit digit. -/
def digit (n : Nat) : Char :=
  if n < 26 then Char.ofNat (n + 65)
  else if n < 52 then Char.ofNat (n + 71)
  else if n < 62 then Char.ofNat (n - 4)
  else if n = 62 then '-'
  else '_'

def value (c : Char) : Option Nat :=
  if 65 ≤ c.toNat ∧ c.toNat ≤ 90 then some (c.toNat - 65)
  else if 97 ≤ c.toNat ∧ c.toNat ≤ 122 then some (c.toNat - 71)
  else if 48 ≤ c.toNat ∧ c.toNat ≤ 57 then some (c.toNat + 4)
  else if c = '-' ∨ c = '+' then some 62
  else if c = '_' ∨ c = '/' then some 63
  else none

def encode : List UInt8 → List Char
  | a :: b :: c :: rest =>
    digit (a.toNat / 4) :: digit (a.toNat % 4 * 16 + b.toNat / 16) ::
      digit (b.toNat % 16 * 4 + c.toNat / 64) :: digit (c.toNat % 64) :: encode rest
  | [a, b] =>
    [digit (a.toNat / 4), digit (a.toNat % 4 * 16 + b.toNat / 16), digit (b.toNat % 16 * 4), '=']
  | [a] => [digit (a.toNat / 4), digit (a.toNat % 4 * 16), '=', '=']
  | [] => []

/-- `binascii.a2b_base64` after `position` digits of a group, with the bits left over from
the last of them and the padding characters seen since. -/
def scan : (position left pads : Nat) → List Char → Option (List UInt8)
  | position, _, _, [] => if position = 0 then some [] else none
  | position, left, pads, c :: rest =>
    if c = '=' then
      if 2 ≤ position then
        if 4 ≤ position + (pads + 1) then some [] else scan position left (pads + 1) rest
      else scan position left pads rest
    else
      match value c, position with
      | none, _ => scan position left pads rest
      | some v, 0 => scan 1 v 0 rest
      | some v, 1 => (scan 2 (v % 16) 0 rest).map (UInt8.ofNat (left * 4 + v / 16) :: ·)
      | some v, 2 => (scan 3 (v % 4) 0 rest).map (UInt8.ofNat (left * 16 + v / 4) :: ·)
      | some v, _ => (scan 0 0 0 rest).map (UInt8.ofNat (left * 64 + v) :: ·)

/-- Text that is not ASCII is refused. -/
def decode (text : List Char) : Option (List UInt8) :=
  if text.all fun c => c.toNat < 128 then scan 0 0 0 text else none

theorem value_digit : ∀ n < 64, value (digit n) = some n := by decide

theorem digit_ne_pad : ∀ n < 64, digit n ≠ '=' := by decide

theorem digit_ascii : ∀ n < 64, (digit n).toNat < 128 := by decide

theorem scan_first {n : Nat} (h : n < 64) (left pads : Nat) (rest : List Char) :
    scan 0 left pads (digit n :: rest) = scan 1 n 0 rest := by
  simp [scan, digit_ne_pad n h, value_digit n h]

theorem scan_second {n : Nat} (h : n < 64) (left pads : Nat) (rest : List Char) :
    scan 1 left pads (digit n :: rest) =
      (scan 2 (n % 16) 0 rest).map (UInt8.ofNat (left * 4 + n / 16) :: ·) := by
  simp [scan, digit_ne_pad n h, value_digit n h]

theorem scan_third {n : Nat} (h : n < 64) (left pads : Nat) (rest : List Char) :
    scan 2 left pads (digit n :: rest) =
      (scan 3 (n % 4) 0 rest).map (UInt8.ofNat (left * 16 + n / 4) :: ·) := by
  simp [scan, digit_ne_pad n h, value_digit n h]

theorem scan_fourth {n : Nat} (h : n < 64) (left pads : Nat) (rest : List Char) :
    scan 3 left pads (digit n :: rest) =
      (scan 0 0 0 rest).map (UInt8.ofNat (left * 64 + n) :: ·) := by
  simp [scan, digit_ne_pad n h, value_digit n h]

theorem scan_encode (bytes : List UInt8) : scan 0 0 0 (encode bytes) = some bytes := by
  induction bytes using encode.induct with
  | case1 a b c rest ih =>
    have ha := a.toNat_lt
    have hb := b.toNat_lt
    have hc := c.toNat_lt
    have hFirst : a.toNat / 4 * 4 + (a.toNat % 4 * 16 + b.toNat / 16) / 16 = a.toNat := by omega
    have hSecond : (a.toNat % 4 * 16 + b.toNat / 16) % 16 * 16 +
        (b.toNat % 16 * 4 + c.toNat / 64) / 4 = b.toNat := by omega
    have hThird : (b.toNat % 16 * 4 + c.toNat / 64) % 4 * 64 + c.toNat % 64 = c.toNat := by omega
    rw [encode, scan_first (by omega), scan_second (by omega), scan_third (by omega),
      scan_fourth (by omega), ih, hFirst, hSecond, hThird]
    simp
  | case2 a b =>
    have ha := a.toNat_lt
    have hb := b.toNat_lt
    have hFirst : a.toNat / 4 * 4 + (a.toNat % 4 * 16 + b.toNat / 16) / 16 = a.toNat := by omega
    have hSecond : (a.toNat % 4 * 16 + b.toNat / 16) % 16 * 16 + b.toNat % 16 * 4 / 4 =
        b.toNat := by omega
    rw [encode, scan_first (by omega), scan_second (by omega), scan_third (by omega), hFirst,
      hSecond]
    simp [scan]
  | case3 a =>
    have ha := a.toNat_lt
    have hFirst : a.toNat / 4 * 4 + a.toNat % 4 * 16 / 16 = a.toNat := by omega
    rw [encode, scan_first (by omega), scan_second (by omega), hFirst]
    simp [scan]
  | case4 => rfl

theorem encode_ascii (bytes : List UInt8) : ∀ c ∈ encode bytes, c.toNat < 128 := by
  have hPad : '='.toNat < 128 := by decide
  induction bytes using encode.induct with
  | case1 a b c rest ih =>
    have ha := a.toNat_lt
    have hb := b.toNat_lt
    have hc := c.toNat_lt
    simp only [encode, List.forall_mem_cons]
    exact ⟨digit_ascii _ (by omega), digit_ascii _ (by omega), digit_ascii _ (by omega),
      digit_ascii _ (by omega), ih⟩
  | case2 a b =>
    have ha := a.toNat_lt
    have hb := b.toNat_lt
    simp only [encode, List.forall_mem_cons]
    exact ⟨digit_ascii _ (by omega), digit_ascii _ (by omega), digit_ascii _ (by omega), hPad,
      List.forall_mem_nil _⟩
  | case3 a =>
    have ha := a.toNat_lt
    simp only [encode, List.forall_mem_cons]
    exact ⟨digit_ascii _ (by omega), digit_ascii _ (by omega), hPad, hPad, List.forall_mem_nil _⟩
  | case4 => exact List.forall_mem_nil _

theorem decode_encode (bytes : List UInt8) : decode (encode bytes) = some bytes := by
  have hAscii : ((encode bytes).all fun c => c.toNat < 128) = true := by
    simpa using encode_ascii bytes
  rw [decode, if_pos hAscii, scan_encode]

/-- Every decoded byte takes a character other than padding. -/
theorem length_scan {text : List Char} : ∀ {position left pads : Nat} {bytes : List UInt8},
    scan position left pads text = some bytes →
      bytes.length ≤ (text.filter fun c => c ≠ '=').length := by
  induction text with
  | nil =>
    intro position left pads bytes h
    rw [scan] at h
    split at h
    · cases h
      exact Nat.le_refl _
    · cases h
  | cons c rest ih =>
    intro position left pads bytes h
    have hPut : ∀ {p l : Nat} {byte : UInt8}, c ≠ '=' →
        (scan p l 0 rest).map (byte :: ·) = some bytes →
          bytes.length ≤ ((c :: rest).filter fun c => c ≠ '=').length := by
      intro p l byte hPad hScan
      obtain ⟨more, hMore, rfl⟩ := Option.map_eq_some_iff.mp hScan
      rw [List.filter_cons_of_pos (by simpa using hPad), List.length_cons, List.length_cons]
      exact Nat.succ_le_succ (ih hMore)
    have hSkip : ∀ {p l q : Nat}, scan p l q rest = some bytes →
        bytes.length ≤ ((c :: rest).filter fun c => c ≠ '=').length := by
      intro p l q hScan
      exact Nat.le_trans (ih hScan) ((List.sublist_cons_self c rest).filter _).length_le
    unfold scan at h
    split at h
    · split at h
      · split at h
        · cases h
          exact Nat.zero_le _
        · exact hSkip h
      · exact hSkip h
    · rename_i hPad
      cases hValue : value c with
      | none =>
        simp only [hValue] at h
        exact hSkip h
      | some v =>
        simp only [hValue] at h
        match position with
        | 0 => exact hSkip h
        | 1 => exact hPut hPad h
        | 2 => exact hPut hPad h
        | _ + 3 => exact hPut hPad h

theorem length_decode {text : List Char} {bytes : List UInt8} (h : decode text = some bytes) :
    (∀ c ∈ text, c.toNat < 128) ∧ bytes.length ≤ (text.filter fun c => c ≠ '=').length := by
  rw [decode] at h
  split at h
  · rename_i hAscii
    exact ⟨by simpa using hAscii, length_scan h⟩
  · cases h

theorem length_encode (bytes : List UInt8) : (encode bytes).length % 4 = 0 := by
  induction bytes using encode.induct with
  | case1 a b c rest ih =>
    simp only [encode, List.length_cons]
    omega
  | case2 a b => simp [encode]
  | case3 a => simp [encode]
  | case4 => rfl

end Base64
