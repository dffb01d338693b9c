import OpenRadiusWeb.Lib.Base64
import Mathlib.Data.List.Nodup

/-! # Secrets at rest

`_Vault.encrypt` and `_Vault.decrypt`: a version byte, a nonce and what AES-GCM makes of the
text, in URL-safe base64. The cipher is a parameter; a vault is known by its derived key.
-/

namespace OpenRadiusWeb.Secrets

/-- An AEAD: no key but its own opens a ciphertext. -/
structure Cipher (Key : Type) where
  /-- `AESGCM(key).encrypt(nonce, data, None)`. -/
  aesEncrypt : Key → List UInt8 → List UInt8 → List UInt8
  /-- `AESGCM(key).decrypt(nonce, data, None)`; nothing is `InvalidTag`. -/
  aesDecrypt : Key → List UInt8 → List UInt8 → Option (List UInt8)
  length_aesEncrypt : ∀ key nonce data, (aesEncrypt key nonce data).length = data.length + 16
  aesDecrypt_aesEncrypt : ∀ key nonce data, aesDecrypt key nonce (aesEncrypt key nonce data) = some data
  aesDecrypt_unique : ∀ key key' nonce data text text', aesDecrypt key nonce data = some text →
    aesDecrypt key' nonce data = some text' → key = key'

structure Nonce where
  bytes : List UInt8
  length_bytes : bytes.length = 12

inductive DecryptError
  | notBase64
  | tooShort (length : Nat)
  | unknownVersion (byte : UInt8)
  | invalidTag
  | notUtf8
  deriving DecidableEq

def version : UInt8 := 0x01
def nonceLen : Nat := 12
def tagLen : Nat := 16

/-- `text.encode("utf-8")`. -/
def utf8 (text : String) : List UInt8 := text.toByteArray.data.toList

/-- `bytes.decode("utf-8")`. -/
def ofUtf8 (bytes : List UInt8) : Option String := String.fromUTF8? ⟨bytes.toArray⟩

/-- `_b64url_decode`: missing padding is added. -/
def b64urlDecode (s : String) : Option (List UInt8) :=
  Base64.decode (s.toList ++ List.replicate ((4 - s.toList.length % 4) % 4) '=')

variable {Key : Type}

namespace Cipher

variable (cipher : Cipher Key)

def sealed (key : Key) (nonce : Nonce) (text : String) : String :=
  String.ofList (Base64.encode (version :: nonce.bytes ++ cipher.aesEncrypt key nonce.bytes (utf8 text)))

/-- `encrypt_secret`. -/
def encrypt (key : Key) (nonce : Nonce) (plaintext : Option String) : Option String :=
  plaintext.map (cipher.sealed key nonce)

/-- `decrypt_secret` of a value that is neither null nor empty. -/
def opened (key : Key) (ciphertext : String) : Except DecryptError String :=
  match b64urlDecode ciphertext with
  | none => .error .notBase64
  | some blob =>
    if blob.length < 1 + nonceLen + tagLen then .error (.tooShort blob.length)
    else
      match blob with
      | [] => .error (.tooShort 0)
      | first :: rest =>
        if first ≠ version then .error (.unknownVersion first)
        else
          match cipher.aesDecrypt key (rest.take nonceLen) (rest.drop nonceLen) with
          | none => .error .invalidTag
          | some bytes =>
            match ofUtf8 bytes with
            | none => .error .notUtf8
            | some text => .ok text

/-- `decrypt_secret`. -/
def decrypt (key : Key) : Option String → Except DecryptError (Option String)
  | none => .ok none
  | some ciphertext =>
    if ciphertext = "" then .ok (some "") else (cipher.opened key ciphertext).map some

end Cipher

@[simp] theorem ofUtf8_utf8 (text : String) : ofUtf8 (utf8 text) = some text := by
  have hBytes : (⟨text.toByteArray.data.toList.toArray⟩ : ByteArray) = text.toByteArray := by simp
  rw [ofUtf8, utf8, hBytes, String.fromUTF8?, dif_pos text.isValidUTF8]
  rfl

theorem b64urlDecode_encode (bytes : List UInt8) :
    b64urlDecode (String.ofList (Base64.encode bytes)) = some bytes := by
  rw [b64urlDecode, String.toList_ofList, Base64.length_encode]
  simpa using Base64.decode_encode bytes

variable {cipher : Cipher Key}

theorem sealed_ne_empty (key : Key) (nonce : Nonce) (text : String) :
    cipher.sealed key nonce text ≠ "" := by
  intro hEmpty
  have hNil : b64urlDecode "" = some [] := by decide
  rw [← hEmpty, Cipher.sealed, b64urlDecode_encode] at hNil
  cases hNil

/-- What a vault has encrypted it decrypts. -/
theorem opened_sealed (key : Key) (nonce : Nonce) (text : String) :
    cipher.opened key (cipher.sealed key nonce text) = .ok text := by
  have hNonce := nonce.length_bytes
  have hSeal := cipher.length_aesEncrypt key nonce.bytes (utf8 text)
  have hLong : ¬ (version :: (nonce.bytes ++ cipher.aesEncrypt key nonce.bytes (utf8 text))).length <
      1 + nonceLen + tagLen := by
    simp only [List.length_cons, List.length_append, hNonce, hSeal, nonceLen, tagLen]
    omega
  rw [Cipher.opened, Cipher.sealed, b64urlDecode_encode]
  simp only [List.cons_append, if_neg hLong]
  have hTake : (nonce.bytes ++ cipher.aesEncrypt key nonce.bytes (utf8 text)).take nonceLen =
      nonce.bytes := List.take_left' hNonce
  have hDrop : (nonce.bytes ++ cipher.aesEncrypt key nonce.bytes (utf8 text)).drop nonceLen =
      cipher.aesEncrypt key nonce.bytes (utf8 text) := List.drop_left' hNonce
  rw [hTake, hDrop, cipher.aesDecrypt_aesEncrypt]
  simp

/-- Two vaults that decrypt the same ciphertext have the same key. -/
theorem opened_unique {key key' : Key} {ciphertext text text' : String}
    (h : cipher.opened key ciphertext = .ok text) (h' : cipher.opened key' ciphertext = .ok text') :
    key = key' := by
  unfold Cipher.opened at h h'
  cases hBlob : b64urlDecode ciphertext with
  | none =>
    rw [hBlob] at h
    cases h
  | some blob =>
    simp only [hBlob] at h h'
    split at h
    · cases h
    · rename_i hLong
      rw [if_neg hLong] at h'
      cases blob with
      | nil => cases h
      | cons first rest =>
        simp only at h h'
        split at h
        · cases h
        · rename_i hVersion
          rw [if_neg hVersion] at h'
          cases hOpen : cipher.aesDecrypt key (rest.take nonceLen) (rest.drop nonceLen) with
          | none =>
            rw [hOpen] at h
            cases h
          | some bytes =>
            cases hOpen' : cipher.aesDecrypt key' (rest.take nonceLen) (rest.drop nonceLen) with
            | none =>
              rw [hOpen'] at h'
              cases h'
            | some bytes' => exact cipher.aesDecrypt_unique _ _ _ _ _ _ hOpen hOpen'

theorem length_append_key (key : UInt8) (_ data : List UInt8) :
    (data ++ List.replicate 16 key).length = data.length + 16 := by
  rw [List.length_append, List.length_replicate]

/-- A cipher that appends its key. -/
def tagCipher : Cipher UInt8 where
  aesEncrypt key _ data := data ++ List.replicate 16 key
  aesDecrypt key _ data :=
    if data.drop (data.length - 16) = List.replicate 16 key then some (data.take (data.length - 16))
    else none
  length_aesEncrypt := length_append_key
  aesDecrypt_aesEncrypt key nonce data := by simp
  aesDecrypt_unique key key' nonce data text text' h h' := by
    split at h
    · rename_i hKey
      split at h'
      · rename_i hKey'
        have hSame : List.replicate 16 key = List.replicate 16 key' := hKey.symm.trans hKey'
        exact (List.replicate_right_injective (by decide) hSame)
      · cases h'
    · cases h

def zeroNonce : Nonce := ⟨List.replicate 12 0, rfl⟩

end OpenRadiusWeb.Secrets
