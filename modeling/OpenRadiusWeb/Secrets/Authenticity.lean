import OpenRadiusWeb.Secrets.Vault

/-! # What decryption accepts

`_Vault.decrypt` over all strings, and `is_encrypted`, which looks at the form of a value
only. A text that is not in the form of a ciphertext is refused as such; one that is in that
form is opened or fails its tag.
-/

namespace OpenRadiusWeb.Secrets

/-- The errors that are a `ValueError`; a `UnicodeDecodeError` is one too. -/
def DecryptError.IsValueError : DecryptError → Prop
  | .invalidTag => False
  | _ => True

/-- A version byte, and enough for a nonce and a tag. -/
def Recognised (s : String) : Prop :=
  ∃ rest, b64urlDecode s = some (version :: rest) ∧ nonceLen + tagLen ≤ rest.length

/-- `is_encrypted`. -/
def isEncrypted : Option String → Bool
  | none => false
  | some value =>
    match b64urlDecode value with
    | none => false
    | some blob => 1 + nonceLen + tagLen ≤ blob.length && blob.head? == some version

section Functions

variable (aesEncrypt : List UInt8 → List UInt8 → List UInt8)
  (aesDecrypt : List UInt8 → List UInt8 → Option (List UInt8))

/-- The bytes of a ciphertext. -/
def blobWith (nonce : Nonce) (text : String) : List UInt8 :=
  version :: nonce.bytes ++ aesEncrypt nonce.bytes (utf8 text)

/-- `encrypt_secret`, given what AES-GCM computes under its key. -/
def encryptWith (nonce : Nonce) (plaintext : Option String) : Option String :=
  plaintext.map fun text => String.ofList (Base64.encode (blobWith aesEncrypt nonce text))

/-- `decrypt_secret` of a value that is neither null nor empty. -/
def openedWith (ciphertext : String) : Except DecryptError String :=
  match b64urlDecode ciphertext with
  | none => .error .notBase64
  | some blob =>
    if blob.length < 1 + nonceLen + tagLen then .error (.tooShort blob.length)
    else
      match blob with
      | [] => .error (.tooShort 0)
      | first :: rest =>
        if first ≠ version then .error (.unknownVersion first)
        else
          match aesDecrypt (rest.take nonceLen) (rest.drop nonceLen) with
          | none => .error .invalidTag
          | some bytes =>
            match ofUtf8 bytes with
            | none => .error .notUtf8
            | some text => .ok text

/-- `decrypt_secret`. -/
def decryptWith : Option String → Except DecryptError (Option String)
  | none => .ok none
  | some ciphertext =>
    if ciphertext = "" then .ok (some "") else (openedWith aesDecrypt ciphertext).map some

end Functions

variable {Key : Type}

/-! ## The form of a value -/

theorem isEncrypted_iff (s : String) : isEncrypted (some s) = true ↔ Recognised s := by
  cases hBlob : b64urlDecode s with
  | none => simp [isEncrypted, Recognised, hBlob]
  | some blob =>
    cases blob with
    | nil => simp [isEncrypted, Recognised, hBlob, nonceLen]
    | cons first rest =>
      simp only [isEncrypted, Recognised, hBlob, List.length_cons, List.head?_cons, Bool.and_eq_true, decide_eq_true_eq,
        beq_iff_eq, Option.some.injEq, List.cons.injEq]
      constructor
      · rintro ⟨hLong, hVersion⟩
        exact ⟨rest, ⟨hVersion, rfl⟩, by omega⟩
      · rintro ⟨_, ⟨hVersion, rfl⟩, hLong⟩
        exact ⟨by omega, hVersion⟩

variable {aesDecrypt : List UInt8 → List UInt8 → Option (List UInt8)} {s : String}

/-- A text that is not in the form of a ciphertext is refused before any decryption. -/
theorem openedWith_of_not_recognised (h : ¬ Recognised s) :
    ∃ e, openedWith aesDecrypt s = .error e ∧ e.IsValueError := by
  unfold openedWith
  cases hBlob : b64urlDecode s with
  | none => exact ⟨_, rfl, trivial⟩
  | some blob =>
    by_cases hShort : blob.length < 1 + nonceLen + tagLen
    · exact ⟨_, if_pos hShort, trivial⟩
    · simp only [if_neg hShort]
      cases blob with
      | nil => exact ⟨_, rfl, trivial⟩
      | cons first rest =>
        by_cases hVersion : first ≠ version
        · exact ⟨_, if_pos hVersion, trivial⟩
        · refine absurd ⟨rest, ?_, ?_⟩ h
          · rw [hBlob, Decidable.not_not.mp hVersion]
          · rw [List.length_cons] at hShort
            omega

theorem openedWith_of_blob {rest : List UInt8} (hBlob : b64urlDecode s = some (version :: rest))
    (hLong : nonceLen + tagLen ≤ rest.length) :
    openedWith aesDecrypt s =
      match aesDecrypt (rest.take nonceLen) (rest.drop nonceLen) with
      | none => .error .invalidTag
      | some bytes =>
        match ofUtf8 bytes with
        | none => .error .notUtf8
        | some text => .ok text := by
  have hEnough : ¬ (version :: rest).length < 1 + nonceLen + tagLen := by
    rw [List.length_cons]
    omega
  unfold openedWith
  simp only [hBlob, if_neg hEnough, ne_eq, not_true_eq_false, if_false]

theorem utf8_ofList (cs : List Char) :
    utf8 (String.ofList cs) = cs.flatMap String.utf8EncodeChar := by
  simp [utf8, List.utf8Encode]

theorem length_le_utf8 (text : String) : text.toList.length ≤ (utf8 text).length := by
  have hBytes : utf8 text = text.toList.flatMap String.utf8EncodeChar := by
    conv_lhs => rw [← String.ofList_toList (s := text)]
    exact utf8_ofList _
  rw [hBytes]
  induction text.toList with
  | nil => exact Nat.zero_le _
  | cons c cs ih =>
    have hPos : 0 < c.utf8Size := c.utf8Size_pos
    rw [List.flatMap_cons, List.length_append, String.length_utf8EncodeChar, List.length_cons]
    omega

theorem length_b64urlDecode {blob : List UInt8} (h : b64urlDecode s = some blob) :
    blob.length ≤ s.toList.length := by
  have hFilter := (Base64.length_decode h).2
  rw [List.filter_append, List.filter_replicate, if_neg (by simp), List.append_nil] at hFilter
  exact Nat.le_trans hFilter (List.length_filter_le _ _)

/-! ## An AEAD that only the vault uses -/

/-- AES-GCM under keys that only `encrypt_secret` encrypts with. `history` holds the calls that
were made; what comes from none of them does not open. -/
structure Aead (Key : Type) (history : Key → Nonce → String → Prop) where
  /-- `AESGCM(key).encrypt(nonce, data, None)`. -/
  aesEncrypt : Key → List UInt8 → List UInt8 → List UInt8
  /-- `AESGCM(key).decrypt(nonce, data, None)`; nothing is `InvalidTag`. -/
  aesDecrypt : Key → List UInt8 → List UInt8 → Option (List UInt8)
  length_aesEncrypt : ∀ key nonce data, (aesEncrypt key nonce data).length = data.length + 16
  aesDecrypt_aesEncrypt : ∀ key nonce text, history key nonce text →
    aesDecrypt key nonce.bytes (aesEncrypt key nonce.bytes (utf8 text)) = some (utf8 text)
  integrity : ∀ key nonce data bytes, aesDecrypt key nonce.bytes data = some bytes →
    ∃ text, history key nonce text ∧ data = aesEncrypt key nonce.bytes (utf8 text)

namespace Aead

variable {history : Key → Nonce → String → Prop} (aead : Aead Key history)

def blob (key : Key) : Nonce → String → List UInt8 := blobWith (aead.aesEncrypt key)

def encrypt (key : Key) : Nonce → Option String → Option String :=
  encryptWith (aead.aesEncrypt key)

def decrypt (key : Key) : Option String → Except DecryptError (Option String) :=
  decryptWith (aead.aesDecrypt key)

end Aead

variable {history : Key → Nonce → String → Prop} {aead : Aead Key history}

theorem Aead.blob_eq (key : Key) (nonce : Nonce) (text : String) :
    aead.blob key nonce text =
      version :: (nonce.bytes ++ aead.aesEncrypt key nonce.bytes (utf8 text)) := rfl

theorem Aead.length_sealed (key : Key) (nonce : Nonce) (text : String) :
    (nonce.bytes ++ aead.aesEncrypt key nonce.bytes (utf8 text)).length =
      nonceLen + tagLen + (utf8 text).length := by
  have hNonce : nonce.bytes.length = nonceLen := nonce.length_bytes
  have hSeal : (aead.aesEncrypt key nonce.bytes (utf8 text)).length = (utf8 text).length + tagLen :=
    aead.length_aesEncrypt _ _ _
  rw [List.length_append, hNonce, hSeal]
  omega

theorem Aead.openedWith_blob {key : Key} {nonce : Nonce} {text : String}
    (hCall : history key nonce text) (hBlob : b64urlDecode s = some (aead.blob key nonce text)) :
    openedWith (aead.aesDecrypt key) s = .ok text := by
  have hLong : nonceLen + tagLen ≤
      (nonce.bytes ++ aead.aesEncrypt key nonce.bytes (utf8 text)).length := by
    rw [aead.length_sealed]
    omega
  have hTake : (nonce.bytes ++ aead.aesEncrypt key nonce.bytes (utf8 text)).take nonceLen =
      nonce.bytes := List.take_left' nonce.length_bytes
  have hDrop : (nonce.bytes ++ aead.aesEncrypt key nonce.bytes (utf8 text)).drop nonceLen =
      aead.aesEncrypt key nonce.bytes (utf8 text) := List.drop_left' nonce.length_bytes
  rw [Aead.blob_eq] at hBlob
  rw [openedWith_of_blob hBlob hLong, hTake, hDrop, aead.aesDecrypt_aesEncrypt _ _ _ hCall]
  simp

theorem Aead.recognised_of_blob {key : Key} {nonce : Nonce} {text : String}
    (hBlob : b64urlDecode s = some (aead.blob key nonce text)) : Recognised s := by
  rw [Aead.blob_eq] at hBlob
  refine ⟨_, hBlob, ?_⟩
  rw [aead.length_sealed]
  omega

theorem Aead.openedWith_recognised (aead : Aead Key history) (key : Key) (h : Recognised s) :
    (∃ nonce text, history key nonce text ∧ b64urlDecode s = some (aead.blob key nonce text)) ∨
      openedWith (aead.aesDecrypt key) s = .error .invalidTag := by
  obtain ⟨rest, hBlob, hLong⟩ := h
  rw [openedWith_of_blob hBlob hLong]
  have hNonce : (rest.take nonceLen).length = 12 := by
    rw [List.length_take, nonceLen]
    rw [nonceLen] at hLong
    omega
  cases hOpen : aead.aesDecrypt key (rest.take nonceLen) (rest.drop nonceLen) with
  | none => exact .inr rfl
  | some bytes =>
    obtain ⟨text, hCall, hData⟩ := aead.integrity key ⟨_, hNonce⟩ _ _ hOpen
    refine .inl ⟨⟨_, hNonce⟩, text, hCall, ?_⟩
    rw [hBlob, Aead.blob_eq, ← hData, List.take_append_drop]

theorem Aead.text_ne {key : Key} {nonce : Nonce} {text : String}
    (hBlob : b64urlDecode s = some (aead.blob key nonce text)) : text ≠ s := by
  rintro rfl
  have hShort := length_b64urlDecode hBlob
  have hLong := aead.length_sealed key nonce text
  have hText := length_le_utf8 text
  rw [Aead.blob_eq, List.length_cons] at hShort
  omega

theorem decryptWith_of_ne (hNonempty : s ≠ "") :
    decryptWith aesDecrypt (some s) = (openedWith aesDecrypt s).map some := if_neg hNonempty

/-- What was encrypted is decrypted, and every other text is refused: as no ciphertext, if it
is not in the form of one, and by its tag otherwise. -/
theorem decrypt_authentic (aead : Aead Key history) (key : Key) :
    (∀ nonce text, history key nonce text →
      aead.decrypt key (aead.encrypt key nonce (some text)) = .ok (some text) ∧
        isEncrypted (aead.encrypt key nonce (some text)) = true) ∧
    ∀ s, s ≠ "" →
      (¬ Recognised s → ∃ e, aead.decrypt key (some s) = .error e ∧ e.IsValueError) ∧
      (Recognised s →
        (∃ nonce text, history key nonce text ∧
          b64urlDecode s = some (aead.blob key nonce text) ∧
          aead.decrypt key (some s) = .ok (some text) ∧ text ≠ s) ∨
        ((∀ nonce text, history key nonce text →
          b64urlDecode s ≠ some (aead.blob key nonce text)) ∧
          aead.decrypt key (some s) = .error .invalidTag)) := by
  refine ⟨?_, ?_⟩
  · intro nonce text hCall
    let sealedText := String.ofList (Base64.encode (aead.blob key nonce text))
    have hBlob : b64urlDecode sealedText = some (aead.blob key nonce text) :=
      b64urlDecode_encode _
    have hForm : Recognised sealedText := Aead.recognised_of_blob hBlob
    have hNonempty : sealedText ≠ "" := by
      intro hEmpty
      have hNil : b64urlDecode "" = some [] := by decide
      rw [hEmpty, hNil] at hBlob
      cases hBlob
    constructor
    · change decryptWith (aead.aesDecrypt key) (some sealedText) = _
      rw [decryptWith_of_ne hNonempty, Aead.openedWith_blob hCall hBlob]
      rfl
    · exact (isEncrypted_iff sealedText).mpr hForm
  · intro s hNonempty
    rw [Aead.decrypt, decryptWith_of_ne hNonempty]
    constructor
    · intro hForm
      obtain ⟨e, hError, hValue⟩ := openedWith_of_not_recognised hForm
      exact ⟨e, by rw [hError]; rfl, hValue⟩
    · intro hForm
      rcases aead.openedWith_recognised key hForm with ⟨nonce, text, hCall, hBlob⟩ | hTag
      · refine .inl ⟨nonce, text, hCall, hBlob, ?_, Aead.text_ne hBlob⟩
        rw [Aead.openedWith_blob hCall hBlob]
        rfl
      · refine .inr ⟨fun nonce text hCall hBlob => ?_, by rw [hTag]; rfl⟩
        rw [Aead.openedWith_blob hCall hBlob] at hTag
        cases hTag

/-- One call was made: for the text "radius". -/
def onceAead : Aead UInt8 fun _ nonce text => nonce = zeroNonce ∧ text = "radius" where
  aesEncrypt key _ data := data ++ List.replicate 16 key
  aesDecrypt key nonce data :=
    if nonce = zeroNonce.bytes ∧ data = utf8 "radius" ++ List.replicate 16 key then
      some (utf8 "radius")
    else none
  length_aesEncrypt := length_append_key
  aesDecrypt_aesEncrypt key nonce text hCall := by
    obtain ⟨rfl, rfl⟩ := hCall
    exact if_pos ⟨rfl, rfl⟩
  integrity key nonce data bytes h := by
    split at h
    · rename_i hSame
      obtain ⟨hNonce, hData⟩ := hSame
      have hZero : nonce = zeroNonce := by
        cases nonce
        simp only [zeroNonce, Nonce.mk.injEq]
        exact hNonce
      exact ⟨"radius", ⟨hZero, rfl⟩, hData⟩
    · cases h

theorem radius_authentic :
    onceAead.decrypt 7 (onceAead.encrypt 7 zeroNonce (some "radius")) = .ok (some "radius") ∧
      ∃ e, onceAead.decrypt 7 (some "radius") = .error e ∧ e.IsValueError := by
  have hForm : ¬ Recognised "radius" := by
    rw [← isEncrypted_iff]
    decide +kernel
  exact ⟨((decrypt_authentic onceAead 7).1 _ _ ⟨rfl, rfl⟩).1,
    ((decrypt_authentic onceAead 7).2 "radius" (by decide)).1 hForm⟩

end OpenRadiusWeb.Secrets
