import Mathlib.Data.List.Basic
import Mathlib.Data.List.Count

/-! # Octets of a text

The UTF-8 encoding of a sequence of code points. The octets below 128 are those of the ASCII
characters of the text, so a text has as many of such a character as its encoding has of its octet.
-/

namespace Utf8

def encode (s : List Char) : List UInt8 := s.flatMap String.utf8EncodeChar

@[simp] theorem encode_nil : encode [] = [] := rfl

@[simp] theorem encode_cons (c : Char) (s : List Char) :
    encode (c :: s) = String.utf8EncodeChar c ++ encode s := rfl

theorem encode_injective : Function.Injective encode := by
  intro s t h
  have hBytes : s.utf8Encode = t.utf8Encode := congrArg List.toByteArray h
  exact String.ofList_injective (String.toByteArray_inj.mp hBytes)

theorem encodeChar_ascii {c : Char} (h : c.toNat < 128) :
    String.utf8EncodeChar c = [UInt8.ofNat c.toNat] := by
  have hLow : c.val.toNat ≤ 0x7f := Nat.le_of_lt_succ h
  rw [String.utf8EncodeChar, if_pos hLow]
  rfl

theorem le_of_mem_encodeChar {c : Char} (h : 128 ≤ c.toNat) {b : UInt8}
    (hb : b ∈ String.utf8EncodeChar c) : 128 ≤ b.toNat := by
  have hHigh : ¬c.val.toNat ≤ 0x7f := by
    intro hLow
    exact absurd (Nat.lt_succ_of_le hLow) (Nat.not_lt.mpr h)
  rw [String.utf8EncodeChar, if_neg hHigh] at hb
  split at hb
  · simp only [List.mem_cons, List.not_mem_nil, or_false] at hb
    obtain rfl | rfl := hb <;> simp only [UInt8.toNat_ofNat'] <;> omega
  · split at hb
    · simp only [List.mem_cons, List.not_mem_nil, or_false] at hb
      obtain rfl | rfl | rfl := hb <;> simp only [UInt8.toNat_ofNat'] <;> omega
    · simp only [List.mem_cons, List.not_mem_nil, or_false] at hb
      obtain rfl | rfl | rfl | rfl := hb <;> simp only [UInt8.toNat_ofNat'] <;> omega

theorem count_encodeChar {c : Char} (h : c.toNat < 128) (d : Char) :
    (String.utf8EncodeChar d).count (UInt8.ofNat c.toNat) = [d].count c := by
  have hOctet : (UInt8.ofNat c.toNat).toNat = c.toNat := by
    rw [UInt8.toNat_ofNat', Nat.mod_eq_of_lt (by omega)]
  by_cases hd : d.toNat < 128
  · rw [encodeChar_ascii hd, List.count_singleton, List.count_singleton]
    have hSame : UInt8.ofNat d.toNat = UInt8.ofNat c.toNat ↔ d = c := by
      constructor
      · intro hEq
        have hNat := congrArg UInt8.toNat hEq
        rw [UInt8.toNat_ofNat', UInt8.toNat_ofNat', Nat.mod_eq_of_lt (by omega),
          Nat.mod_eq_of_lt (by omega)] at hNat
        rw [← Char.ofNat_toNat d, hNat, Char.ofNat_toNat]
      · rintro rfl
        rfl
    simp [hSame]
  · have hOther : d ≠ c := by
      rintro rfl
      exact hd h
    rw [List.count_eq_zero.mpr fun hMem => ?_, List.count_singleton, if_neg (by simpa using hOther)]
    have hHigh := le_of_mem_encodeChar (Nat.not_lt.mp hd) hMem
    rw [hOctet] at hHigh
    omega

theorem count_encode {c : Char} (h : c.toNat < 128) (s : List Char) :
    (encode s).count (UInt8.ofNat c.toNat) = s.count c := by
  induction s with
  | nil => rfl
  | cons d s ih =>
    rw [encode_cons, List.count_append, count_encodeChar h, ih, ← List.count_append]
    rfl

end Utf8
