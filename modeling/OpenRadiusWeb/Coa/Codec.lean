import OpenRadiusWeb.Coa.SendPacket

/-! # Encoding and decoding

`encode` writes a header and the attributes one behind the other, each with its type, its
length and its value; `decode` reads them back. A caller may put any integers into a packet,
and `struct.pack` refuses the ones that do not fit. Whatever the octets of a datagram, what
`decode` returns are consecutive pieces of it.
-/

namespace OpenRadiusWeb.Coa

/-- A packet with the integers a caller has put into it. -/
structure IntPacket where
  code : Int
  identifier : Int
  attributes : List (Int × Bytes)

/-- `struct.pack("B", n)` of any integer. -/
def packIntB (n : Int) : Except Exc UInt8 :=
  if 0 ≤ n ∧ n ≤ 255 then .ok n.toNat.toUInt8
  else .error "ubyte format requires 0 <= number <= 255"

namespace IntPacket

def encodeAttribute (attr : Int × Bytes) : Except Exc Bytes := do
  let attrType ← packIntB attr.1
  let attrLen ← packB (attr.2.length + 2)
  return attrType :: attrLen :: attr.2

def encodeAttributes (attributes : List (Int × Bytes)) : Except Exc Bytes := do
  let encoded ← attributes.mapM encodeAttribute
  return encoded.flatten

/-- `encode` of such a packet. -/
def encode (codecs : Codecs) (pkt : IntPacket) (secret : String) : Except Exc Bytes := do
  let attrsData ← encodeAttributes pkt.attributes
  let code ← packIntB pkt.code
  let identifier ← packIntB pkt.identifier
  let length ← packH (20 + attrsData.length)
  let header := code :: identifier :: length
  let authenticator := codecs.md5 (header ++ RadiusPacket.zeroAuthenticator ++ attrsData ++ utf8 secret)
  return header ++ authenticator ++ attrsData

/-- The octets the attributes take. -/
def attributesLength (pkt : IntPacket) : Nat :=
  (pkt.attributes.map fun attr => attr.2.length + 2).sum

def Octet (n : Int) : Prop := 0 ≤ n ∧ n ≤ 255

/-- Codes, identifiers and types of one octet, values of at most 253, and a length of two. -/
structure InLimits (pkt : IntPacket) : Prop where
  code : Octet pkt.code
  identifier : Octet pkt.identifier
  types : ∀ attr ∈ pkt.attributes, Octet attr.1
  values : ∀ attr ∈ pkt.attributes, attr.2.length ≤ 253
  total : 20 + pkt.attributesLength ≤ 65535

end IntPacket

/-- A packet of the manager as one of integers. -/
def RadiusPacket.toInts (pkt : RadiusPacket) : IntPacket where
  code := pkt.code
  identifier := pkt.identifier
  attributes := pkt.attributes.map fun attr => (attr.1, attr.2)

/-- The attributes lie one behind the other in the data, from `pos` on and before `limit`. -/
def Pieces (data : Bytes) (limit : Nat) : Nat → List (Nat × Bytes) → Prop
  | _, [] => True
  | pos, (attrType, value) :: rest =>
    pos + 2 + value.length ≤ limit ∧
    (data.drop pos).take (2 + value.length) =
      attrType.toUInt8 :: (value.length + 2).toUInt8 :: value ∧
    Pieces data limit (pos + 2 + value.length) rest

/-! ## Packing -/

theorem packIntB_natCast (n : Nat) : packIntB n = packB n := by
  unfold packIntB packB
  by_cases h : n < 256
  · rw [if_pos (by omega), if_pos h, Int.toNat_natCast]
  · rw [if_neg (by omega), if_neg h]

theorem packIntB_ok {n : Int} (h : IntPacket.Octet n) : packIntB n = .ok n.toNat.toUInt8 := if_pos h

theorem octet_of_packIntB {n : Int} {b : UInt8} (h : packIntB n = .ok b) : IntPacket.Octet n := by
  unfold packIntB at h
  split at h
  · assumption
  · cases h

theorem packB_ok {n : Nat} (h : n < 256) : packB n = .ok n.toUInt8 := if_pos h

theorem lt_of_packB {n : Nat} {b : UInt8} (h : packB n = .ok b) : n < 256 := by
  unfold packB at h
  split at h
  · assumption
  · cases h

theorem packH_ok {n : Nat} (h : n ≤ 65535) :
    packH n = .ok [(n / 256).toUInt8, (n % 256).toUInt8] := if_pos (by omega)

theorem le_of_packH {n : Nat} {bs : Bytes} (h : packH n = .ok bs) : n ≤ 65535 := by
  unfold packH at h
  split at h
  · omega
  · cases h

theorem readBe_octet {n : Nat} (h : n < 256) : readBe [n.toUInt8] = n := by
  simp [readBe, Nat.mod_eq_of_lt h]

theorem readBe_length {n : Nat} (h : n ≤ 65535) :
    readBe [(n / 256).toUInt8, (n % 256).toUInt8] = n := by
  have hHigh : n / 256 < 256 := by omega
  have hLow : n % 256 < 256 := by omega
  simp only [readBe, List.foldl_cons, List.foldl_nil, Nat.toUInt8_eq, UInt8.toNat_ofNat',
    Nat.reducePow, Nat.mod_eq_of_lt hHigh, Nat.mod_eq_of_lt hLow]
  omega

/-! ## What `encode` writes -/

namespace IntPacket

def attributeBytes (attr : Int × Bytes) : Bytes :=
  attr.1.toNat.toUInt8 :: (attr.2.length + 2).toUInt8 :: attr.2

theorem encodeAttribute_ok {attr : Int × Bytes} (hType : Octet attr.1) (hValue : attr.2.length ≤ 253) :
    encodeAttribute attr = .ok (attributeBytes attr) := by
  rw [encodeAttribute, packIntB_ok hType, packB_ok (by omega)]
  rfl

theorem fits_of_encodeAttribute {attr : Int × Bytes} {bs : Bytes} (h : encodeAttribute attr = .ok bs) :
    Octet attr.1 ∧ attr.2.length ≤ 253 := by
  obtain ⟨attrType, hType, h⟩ := Except.ok_of_bind h
  obtain ⟨attrLen, hLen, -⟩ := Except.ok_of_bind h
  have hLt := lt_of_packB hLen
  exact ⟨octet_of_packIntB hType, by omega⟩

def attributesBytes (attributes : List (Int × Bytes)) : Bytes := attributes.flatMap attributeBytes

theorem encodeAttributes_ok {attributes : List (Int × Bytes)}
    (hTypes : ∀ attr ∈ attributes, Octet attr.1) (hValues : ∀ attr ∈ attributes, attr.2.length ≤ 253) :
    encodeAttributes attributes = .ok (attributesBytes attributes) := by
  have hEach : ∀ attr ∈ attributes, encodeAttribute attr = .ok (attributeBytes attr) := by
    intro attr hMem
    exact encodeAttribute_ok (hTypes attr hMem) (hValues attr hMem)
  rw [encodeAttributes, Except.mapM_ok hEach, attributesBytes, List.flatMap_def]
  rfl

theorem fits_of_encodeAttributes {attributes : List (Int × Bytes)} {bs : Bytes}
    (h : encodeAttributes attributes = .ok bs) :
    ∀ attr ∈ attributes, Octet attr.1 ∧ attr.2.length ≤ 253 := by
  obtain ⟨encoded, hEncoded, -⟩ := Except.ok_of_bind h
  intro attr hMem
  obtain ⟨bs, hAttr⟩ := Except.ok_of_mapM hEncoded attr hMem
  exact fits_of_encodeAttribute hAttr

theorem length_attributesBytes (pkt : IntPacket) :
    (attributesBytes pkt.attributes).length = pkt.attributesLength := by
  rw [attributesBytes, List.length_flatMap, attributesLength]
  rfl

/-- The header, the authenticator and the attributes. -/
def wire (codecs : Codecs) (pkt : IntPacket) (secret : String) : Bytes :=
  let total := 20 + pkt.attributesLength
  let header : Bytes :=
    [pkt.code.toNat.toUInt8, pkt.identifier.toNat.toUInt8, (total / 256).toUInt8, (total % 256).toUInt8]
  header ++ codecs.md5 (header ++ RadiusPacket.zeroAuthenticator ++ attributesBytes pkt.attributes ++
    utf8 secret) ++ attributesBytes pkt.attributes

theorem encode_ok {pkt : IntPacket} (h : pkt.InLimits) (codecs : Codecs) (secret : String) :
    pkt.encode codecs secret = .ok (pkt.wire codecs secret) := by
  rw [encode, encodeAttributes_ok h.types h.values]
  simp only [bind, Except.bind, packIntB_ok h.code, packIntB_ok h.identifier, length_attributesBytes,
    packH_ok h.total]
  rfl

theorem inLimits_of_encode {pkt : IntPacket} {codecs : Codecs} {secret : String} {bs : Bytes}
    (h : pkt.encode codecs secret = .ok bs) : pkt.InLimits := by
  obtain ⟨attrsData, hAttrs, h⟩ := Except.ok_of_bind h
  obtain ⟨code, hCode, h⟩ := Except.ok_of_bind h
  obtain ⟨identifier, hIdentifier, h⟩ := Except.ok_of_bind h
  obtain ⟨length, hLength, -⟩ := Except.ok_of_bind h
  have hFits := fits_of_encodeAttributes hAttrs
  rw [encodeAttributes_ok (fun attr hMem => (hFits attr hMem).1) fun attr hMem => (hFits attr hMem).2]
    at hAttrs
  cases Except.ok.inj hAttrs
  have hTotal := le_of_packH hLength
  rw [length_attributesBytes] at hTotal
  exact ⟨octet_of_packIntB hCode, octet_of_packIntB hIdentifier, fun attr hMem => (hFits attr hMem).1,
    fun attr hMem => (hFits attr hMem).2, hTotal⟩

theorem encode_iff {pkt : IntPacket} {codecs : Codecs} {secret : String} :
    (∃ bs, pkt.encode codecs secret = .ok bs) ↔ pkt.InLimits :=
  ⟨fun ⟨_, h⟩ => inLimits_of_encode h, fun h => ⟨_, encode_ok h codecs secret⟩⟩

theorem encode_toInts (codecs : Codecs) (pkt : RadiusPacket) (secret : String) :
    pkt.toInts.encode codecs secret = pkt.encode codecs secret := by
  have hAttribute : ∀ attr : Nat × Bytes, encodeAttribute ((attr.1 : Int), attr.2) =
      RadiusPacket.encodeAttribute attr := by
    intro attr
    rw [encodeAttribute, packIntB_natCast]
    rfl
  have hAttributes : encodeAttributes pkt.toInts.attributes =
      RadiusPacket.encodeAttributes pkt.attributes := by
    rw [encodeAttributes, RadiusPacket.toInts, List.mapM_map]
    exact congrArg (fun f => (pkt.attributes.mapM f).bind fun encoded => Except.ok encoded.flatten)
      (funext hAttribute)
  rw [encode, hAttributes, RadiusPacket.toInts, packIntB_natCast, packIntB_natCast]
  rfl

end IntPacket

/-! ## What `decode` reads -/

namespace RadiusPacket

theorem parseAttributes_cons {attrType attrLen : UInt8} {value rest : Bytes}
    (h : attrLen.toNat = value.length + 2) :
    parseAttributes (attrType :: attrLen :: (value ++ rest)) =
      (attrType.toNat, value) :: parseAttributes rest := by
  rw [parseAttributes, if_neg (by rw [List.length_append]; omega), h, Nat.add_sub_cancel,
    List.take_left, List.drop_left]

/-- The attributes of a packet within the limits are read back. -/
theorem parseAttributes_attributesBytes {attributes : List (Int × Bytes)}
    (hTypes : ∀ attr ∈ attributes, IntPacket.Octet attr.1)
    (hValues : ∀ attr ∈ attributes, attr.2.length ≤ 253) :
    parseAttributes (IntPacket.attributesBytes attributes) =
      attributes.map fun attr => (attr.1.toNat, attr.2) := by
  induction attributes with
  | nil =>
    rw [IntPacket.attributesBytes, List.flatMap_nil, parseAttributes, List.map_nil]
    intro attrType attrLen rest h
    cases h
  | cons attr attributes ih =>
    rw [List.forall_mem_cons] at hTypes hValues
    obtain ⟨hLow, hHigh⟩ := hTypes.1
    have hType : attr.1.toNat < 256 := by omega
    have hLength : attr.2.length + 2 < 256 := by omega
    have hLen : (attr.2.length + 2).toUInt8.toNat = attr.2.length + 2 := by
      simp [Nat.mod_eq_of_lt hLength]
    rw [IntPacket.attributesBytes, List.flatMap_cons, IntPacket.attributeBytes, List.cons_append,
      List.cons_append, parseAttributes_cons hLen, ← IntPacket.attributesBytes,
      ih hTypes.2 hValues.2, List.map_cons]
    simp [Nat.mod_eq_of_lt hType]

/-- What is read from a piece of the data are pieces of the data. -/
theorem pieces_parseAttributes {data : Bytes} {limit : Nat} (rest : Bytes) :
    ∀ pos, rest = (data.take limit).drop pos → Pieces data limit pos (parseAttributes rest) := by
  fun_induction parseAttributes rest with
  | case1 attrType attrLen rest hStop => exact fun _ _ => trivial
  | case2 attrType attrLen rest hGo ih =>
    intro pos hRest
    obtain ⟨hTwo, hRoom⟩ : 2 ≤ attrLen.toNat ∧ attrLen.toNat - 2 ≤ rest.length := by omega
    have hValue : (rest.take (attrLen.toNat - 2)).length = attrLen.toNat - 2 := by
      rw [List.length_take]
      omega
    have hLength : rest.length + 2 = min limit data.length - pos := by
      have := congrArg List.length hRest
      simpa using this
    have hPiece : (data.drop pos).take (2 + (attrLen.toNat - 2)) =
        attrType :: attrLen :: rest.take (attrLen.toNat - 2) := by
      have hTaken := congrArg (List.take (2 + (attrLen.toNat - 2))) hRest
      rw [List.drop_take, List.take_take, Nat.min_eq_left (by omega)] at hTaken
      rw [← hTaken, Nat.add_comm 2]
      rfl
    refine ⟨by rw [hValue]; omega, ?_, ?_⟩
    · rw [hValue, hPiece]
      have hBack : attrLen.toNat - 2 + 2 = attrLen.toNat := by omega
      simp [hBack]
    · rw [hValue]
      refine ih _ ?_
      have hDropped := congrArg (List.drop (2 + (attrLen.toNat - 2))) hRest
      rw [List.drop_drop, ← Nat.add_assoc, Nat.add_comm 2] at hDropped
      exact hDropped
  | case3 rest hShort => exact fun _ _ => trivial

end RadiusPacket

/-- What the digest is known for. -/
def DigestOfSixteen (codecs : Codecs) : Prop := ∀ bs, (codecs.md5 bs).length = 16

theorem RadiusPacket.decode_of_header {b₀ b₁ b₂ b₃ : UInt8} {authenticator attrsData : Bytes}
    (hSixteen : authenticator.length = 16) (hTotal : readBe [b₂, b₃] = 20 + attrsData.length) :
    RadiusPacket.decode ([b₀, b₁, b₂, b₃] ++ authenticator ++ attrsData) =
      .ok ⟨readBe [b₀], readBe [b₁], authenticator, parseAttributes attrsData⟩ := by
  have hWhole : ([b₀, b₁, b₂, b₃] ++ authenticator ++ attrsData).length = 20 + attrsData.length := by
    simp only [List.length_append, hSixteen, List.length_cons, List.length_nil]
  have hRest : ([b₀, b₁, b₂, b₃] ++ authenticator ++ attrsData).drop 20 = attrsData := by
    apply List.drop_left'
    simp only [List.length_append, hSixteen, List.length_cons, List.length_nil]
  have hAuthenticator : ((([b₀, b₁, b₂, b₃] ++ authenticator ++ attrsData).drop 4).take 16) =
      authenticator := by
    rw [List.append_assoc]
    exact List.take_left' hSixteen
  have hLength : (([b₀, b₁, b₂, b₃] ++ authenticator ++ attrsData).drop 2).take 2 = [b₂, b₃] := rfl
  rw [decode, if_neg (by omega), hAuthenticator, hLength, hTotal, ← hWhole, List.take_length, hRest]
  rfl

theorem IntPacket.decode_wire {codecs : Codecs} (hDigest : DigestOfSixteen codecs) {pkt : IntPacket}
    (h : pkt.InLimits) (secret : String) :
    ∃ authenticator, RadiusPacket.decode (pkt.wire codecs secret) =
      .ok ⟨pkt.code.toNat, pkt.identifier.toNat, authenticator,
        pkt.attributes.map fun attr => (attr.1.toNat, attr.2)⟩ := by
  obtain ⟨⟨_, hCode⟩, ⟨_, hIdentifier⟩⟩ := And.intro h.code h.identifier
  have hRead := @RadiusPacket.decode_of_header pkt.code.toNat.toUInt8
    pkt.identifier.toNat.toUInt8 _ _ _ _
    (hDigest ([pkt.code.toNat.toUInt8, pkt.identifier.toNat.toUInt8,
      ((20 + pkt.attributesLength) / 256).toUInt8, ((20 + pkt.attributesLength) % 256).toUInt8] ++
      RadiusPacket.zeroAuthenticator ++ attributesBytes pkt.attributes ++ utf8 secret))
    ((readBe_length h.total).trans (by rw [length_attributesBytes]))
  rw [readBe_octet (by omega), readBe_octet (by omega),
    RadiusPacket.parseAttributes_attributesBytes h.types h.values] at hRead
  exact ⟨_, hRead⟩

/-- The codec of the CoA packets: what `encode` accepts, that `decode` gives it back, and what
`decode` makes of any datagram. -/
theorem packet_decode_encode (codecs : Codecs) (hDigest : DigestOfSixteen codecs) :
    (∀ (pkt : IntPacket) secret, (∃ bs, pkt.encode codecs secret = .ok bs) ↔ pkt.InLimits) ∧
    (∀ (pkt : IntPacket) secret, pkt.InLimits → ∃ bs decoded, pkt.encode codecs secret = .ok bs ∧
      RadiusPacket.decode bs = .ok decoded ∧ decoded.toInts = pkt) ∧
    ∀ data : Bytes, 20 ≤ data.length → ∃ pkt, RadiusPacket.decode data = .ok pkt ∧
      Pieces data (min (lengthOf data) data.length) 20 pkt.attributes := by
  refine ⟨fun _ _ => IntPacket.encode_iff, fun pkt secret h => ?_, fun data hData => ?_⟩
  · obtain ⟨authenticator, hDecode⟩ := IntPacket.decode_wire hDigest h secret
    refine ⟨_, _, IntPacket.encode_ok h codecs secret, hDecode, ?_⟩
    have hAttributes : ∀ attr ∈ pkt.attributes, ((attr.1.toNat : Int), attr.2) = attr := by
      intro attr hMem
      rw [Int.toNat_of_nonneg (h.types attr hMem).1]
    have hMap : ((pkt.attributes.map fun attr => (attr.1.toNat, attr.2)).map
        fun attr : Nat × Bytes => ((attr.1 : Int), attr.2)) = pkt.attributes := by
      rw [List.map_map]
      exact (List.map_congr_left hAttributes).trans (List.map_id _)
    rw [RadiusPacket.toInts, Int.toNat_of_nonneg h.code.1, Int.toNat_of_nonneg h.identifier.1, hMap]
  · refine ⟨_, if_neg (by omega), RadiusPacket.pieces_parseAttributes _ 20 ?_⟩
    rw [List.take_eq_take_min, lengthOf]

/-- Types 0 and 255, an empty value and one of three octets. -/
def extremePacket : IntPacket := ⟨43, 255, [(0, []), (255, [7, 0, 255])]⟩

theorem extremePacket_inLimits : extremePacket.InLimits := by
  refine ⟨⟨by decide, by decide⟩, ⟨by decide, by decide⟩, ?_, ?_, ?_⟩
  · simp [extremePacket, IntPacket.Octet]
  · simp [extremePacket]
  · decide

theorem packet_decode_encode_extreme :
    (∃ bs decoded, extremePacket.encode zeroCodecs "secret" = .ok bs ∧
      RadiusPacket.decode bs = .ok decoded ∧ decoded.toInts = extremePacket) ∧
    ¬∃ bs, IntPacket.encode zeroCodecs ⟨43, 256, []⟩ "secret" = .ok bs := by
  have hCodec := packet_decode_encode zeroCodecs fun _ => rfl
  refine ⟨hCodec.2.1 _ _ extremePacket_inLimits, ?_⟩
  rw [hCodec.1]
  intro h
  exact absurd h.identifier.2 (by decide)

end OpenRadiusWeb.Coa
