import OpenRadiusWeb.Lib.Effects
import Mathlib.Algebra.Order.Ring.Nat
import Mathlib.Data.List.Basic

/-! # RADIUS packets for CoA and Disconnect

The packet builder and parser. Codes, identifiers and attribute types are numbers
that `struct.pack` refuses outside one octet. MD5 and the lossy UTF-8 decoder of
Python come from outside.
-/

namespace OpenRadiusWeb.Coa

abbrev Exc : Type := String

abbrev Bytes : Type := List UInt8

/-- What the packets take from the Python library. -/
structure Codecs where
  md5 : Bytes → Bytes
  /-- `bytes.decode("utf-8", errors="replace")`. -/
  decodeReplace : Bytes → String

def utf8 (s : String) : Bytes := s.toUTF8.data.toList

/-! ## Constants -/

namespace RadiusCode

def disconnectRequest : Nat := 40
def disconnectAck : Nat := 41
def disconnectNak : Nat := 42
def coaRequest : Nat := 43
def coaAck : Nat := 44
def coaNak : Nat := 45

/-- The members of the enumeration; `RadiusCode(code)` raises for every other number. -/
def known : List Nat := [1, 2, 3, 4, 5, 40, 41, 42, 43, 44, 45]

end RadiusCode

namespace RadiusAttr

def userName : Nat := 1
def nasPort : Nat := 5
def serviceType : Nat := 6
def filterId : Nat := 11
def replyMessage : Nat := 18
def vendorSpecific : Nat := 26
def callingStationId : Nat := 31
def acctSessionId : Nat := 44
def tunnelType : Nat := 64
def tunnelMediumType : Nat := 65
def tunnelPrivateGroupId : Nat := 81
def errorCause : Nat := 101

end RadiusAttr

def ciscoVendorId : Nat := 9
def ciscoAvPair : Nat := 1

/-- `ERROR_CAUSE`. -/
def errorCauseText : Nat → Option String
  | 201 => some "Residual Session Context Removed"
  | 202 => some "Invalid EAP Packet"
  | 401 => some "Unsupported Attribute"
  | 402 => some "Missing Attribute"
  | 403 => some "NAS Identification Mismatch"
  | 404 => some "Invalid Request"
  | 405 => some "Unsupported Service"
  | 406 => some "Unsupported Extension"
  | 501 => some "Administratively Prohibited"
  | 502 => some "Request Not Routable (Proxy)"
  | 503 => some "Session Context Not Found"
  | 504 => some "Session Context Not Removable"
  | 505 => some "Other Proxy Processing Error"
  | 506 => some "Resources Unavailable"
  | 507 => some "Request Initiated"
  | 508 => some "Multiple Session Selection Unsupported"
  | _ => none

/-! ## `struct.pack` and `struct.unpack` -/

def packB (n : Nat) : Except Exc UInt8 :=
  if n < 256 then .ok n.toUInt8 else .error "ubyte format requires 0 <= number <= 255"

def packH (n : Nat) : Except Exc Bytes :=
  if n < 65536 then .ok [(n / 256).toUInt8, (n % 256).toUInt8]
  else .error "'H' format requires 0 <= number <= 65535"

/-- The four octets of an integer below `2 ^ 32`. -/
def octets (n : Nat) : Bytes :=
  [(n / 2 ^ 24 % 256).toUInt8, (n / 2 ^ 16 % 256).toUInt8, (n / 2 ^ 8 % 256).toUInt8,
    (n % 256).toUInt8]

def packI (n : Nat) : Except Exc Bytes :=
  if n < 2 ^ 32 then .ok (octets n) else .error "'I' format requires 0 <= number <= 4294967295"

/-- The integer of a list of octets, most significant first. -/
def readBe (bs : Bytes) : Nat := bs.foldl (fun n b => n * 256 + b.toNat) 0

/-! ## The packet -/

structure RadiusPacket where
  code : Nat
  identifier : Nat
  authenticator : Bytes
  attributes : List (Nat × Bytes)

namespace RadiusPacket

def addAttribute (pkt : RadiusPacket) (attrType : Nat) (value : Bytes) : RadiusPacket :=
  { pkt with attributes := pkt.attributes ++ [(attrType, value)] }

def addString (pkt : RadiusPacket) (attrType : Nat) (value : String) : RadiusPacket :=
  pkt.addAttribute attrType (utf8 value)

def addInteger (pkt : RadiusPacket) (attrType value : Nat) : Except Exc RadiusPacket :=
  return pkt.addAttribute attrType (← packI value)

/-- The tag octet and the first three octets of the value, as the slice leaves them. -/
def taggedInteger (tag : UInt8) (value : Nat) : Bytes := (tag :: octets value).take 4

/-- `add_tunnel_vlan`; the text of the VLAN id is given. -/
def addTunnelVlan (pkt : RadiusPacket) (vlanText : String) (tag : UInt8) : RadiusPacket :=
  ((pkt.addAttribute RadiusAttr.tunnelType (taggedInteger tag 13)).addAttribute
    RadiusAttr.tunnelMediumType (taggedInteger tag 6)).addAttribute
    RadiusAttr.tunnelPrivateGroupId (tag :: utf8 vlanText)

def addCiscoAvpair (pkt : RadiusPacket) (avpair : String) : Except Exc RadiusPacket := do
  let avpairBytes := utf8 avpair
  let length ← packB (avpairBytes.length + 2)
  return pkt.addAttribute RadiusAttr.vendorSpecific
    (octets ciscoVendorId ++ [ciscoAvPair.toUInt8, length] ++ avpairBytes)

def encodeAttribute (attr : Nat × Bytes) : Except Exc Bytes := do
  let attrType ← packB attr.1
  let attrLen ← packB (attr.2.length + 2)
  return attrType :: attrLen :: attr.2

def encodeAttributes (attributes : List (Nat × Bytes)) : Except Exc Bytes := do
  let encoded ← attributes.mapM encodeAttribute
  return encoded.flatten

def zeroAuthenticator : Bytes := List.replicate 16 0

/-- `encode`. -/
def encode (codecs : Codecs) (pkt : RadiusPacket) (secret : String) : Except Exc Bytes := do
  let attrsData ← encodeAttributes pkt.attributes
  let code ← packB pkt.code
  let identifier ← packB pkt.identifier
  let length ← packH (20 + attrsData.length)
  let header := code :: identifier :: length
  let authenticator := codecs.md5 (header ++ zeroAuthenticator ++ attrsData ++ utf8 secret)
  return header ++ authenticator ++ attrsData

/-- The loop of `decode`; it stops at the first attribute that does not fit. -/
def parseAttributes : Bytes → List (Nat × Bytes)
  | attrType :: attrLen :: rest =>
    if attrLen.toNat < 2 ∨ rest.length < attrLen.toNat - 2 then []
    else (attrType.toNat, rest.take (attrLen.toNat - 2)) ::
      parseAttributes (rest.drop (attrLen.toNat - 2))
  | _ => []
termination_by data => data.length
decreasing_by
  simp only [List.length_drop, List.length_cons]
  omega

/-- `decode`; the secret is not used. -/
def decode (data : Bytes) : Except Exc RadiusPacket :=
  if data.length < 20 then .error "Packet too short"
  else .ok {
    code := readBe (data.take 1)
    identifier := readBe ((data.drop 1).take 1)
    authenticator := (data.drop 4).take 16
    attributes := parseAttributes ((data.take (readBe ((data.drop 2).take 2))).drop 20) }

def getAttrString (codecs : Codecs) (pkt : RadiusPacket) (attrType : Nat) : Option String :=
  (pkt.attributes.find? fun a => a.1 = attrType).map fun a => codecs.decodeReplace a.2

def getErrorCause (pkt : RadiusPacket) : Option Nat :=
  (pkt.attributes.find? fun a => a.1 = RadiusAttr.errorCause ∧ 4 ≤ a.2.length).map fun a =>
    readBe (a.2.take 4)

end RadiusPacket

end OpenRadiusWeb.Coa
