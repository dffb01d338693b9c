import OpenRadiusWeb.Coa.Packet

/-! # Sending a packet and reading the answer

`_send_packet` waits for one datagram. It decodes the datagram and looks at its code;
nothing in it is compared with the request, and no authenticator is recomputed.
-/

namespace OpenRadiusWeb.Coa

/-- What the socket gives: the first datagram or an exception, or no endpoint to send on. -/
inductive Answer
  | datagram (data : Bytes)
  | timeout
  | osError (e : Exc)
  | raises (e : Exc)
  | unreachable (e : Exc)
  | noEndpoint (e : Exc)

/-- Did the packet go out? -/
def Answer.reached : Answer → Bool
  | .unreachable _ | .noEndpoint _ => false
  | _ => true

structure CoAResult where
  success : Bool
  action : String
  nasIp : Option String
  sessionId : Option String
  macAddress : Option String
  responseCode : Option Nat
  errorCause : Option Nat
  errorMessage : Option String
  timestamp : String
  deriving DecidableEq

/-- A result with the fields that `CoAResult` leaves at their defaults. -/
def CoAResult.basic (success : Bool) (action : String) (nasIp : Option String) (now : String) :
    CoAResult where
  success := success
  action := action
  nasIp := nasIp
  sessionId := none
  macAddress := none
  responseCode := none
  errorCause := none
  errorMessage := none
  timestamp := now

/-- `RadiusCode(code).name`, for the exception it raises. -/
def radiusCodeName (code : Nat) : Except Exc Unit :=
  if code ∈ RadiusCode.known then .ok () else .error (toString code ++ " is not a valid RadiusCode")

def isAck (code : Nat) : Prop := code = RadiusCode.coaAck ∨ code = RadiusCode.disconnectAck

instance (code : Nat) : Decidable (isAck code) := by
  unfold isAck
  infer_instance

/-- `a or b` on optional texts. -/
def orText (a b : Option String) : Option String :=
  match a with
  | some t => if t = "" then b else a
  | none => b

/-- The text of a rejected request. -/
def rejectionMessage (codecs : Codecs) (response : RadiusPacket) : String :=
  let errorMsg := match response.getErrorCause with
    | none => none
    | some cause => if cause = 0 then none else some ((errorCauseText cause).getD "Unknown error")
  (orText (orText errorMsg (response.getAttrString codecs RadiusAttr.replyMessage))
    (some "CoA rejected by NAS")).getD ""

/-- The result for a datagram that arrived in time. -/
def readResponse (codecs : Codecs) (action : String) (nasIp : Option String) (now : String)
    (data : Bytes) :
    Except Exc CoAResult := do
  let response ← RadiusPacket.decode data
  if isAck response.code then
    return { CoAResult.basic true action nasIp now with responseCode := some response.code }
  else
    radiusCodeName response.code
    return { CoAResult.basic false action nasIp now with
      responseCode := some response.code
      errorCause := response.getErrorCause
      errorMessage := some (rejectionMessage codecs response) }

/-- `_send_packet`: the encoded request and the result. -/
def sendPacket (codecs : Codecs) (pkt : RadiusPacket) (secret action : String)
    (nasIp : Option String) (now : String) (answer : Answer) : Except Exc (Bytes × Except Exc CoAResult) := do
  let encoded ← pkt.encode codecs secret
  radiusCodeName pkt.code
  return (encoded, match answer with
    | .datagram data => readResponse codecs action nasIp now data
    | .timeout => .ok { CoAResult.basic false action nasIp now with
        errorMessage := some
          "CoA timeout after 5s - NAS may not support CoA or secret mismatch" }
    | .osError e | .unreachable e => .ok { CoAResult.basic false action nasIp now with
        errorMessage := some ("Network error: " ++ e) }
    | .raises e | .noEndpoint e => .error e)

/-- The code octet of a datagram. -/
def codeOf (data : Bytes) : Nat := readBe (data.take 1)

theorem decode_of_length {data : Bytes} (h : 20 ≤ data.length) :
    ∃ attributes, RadiusPacket.decode data = .ok ⟨codeOf data, readBe ((data.drop 1).take 1),
      (data.drop 4).take 16, attributes⟩ := by
  rw [RadiusPacket.decode, if_neg (by omega)]
  exact ⟨_, rfl⟩

theorem readResponse_of_ack {codecs : Codecs} {action now : String} {nasIp : Option String}
    {data : Bytes}
    (hLength : 20 ≤ data.length) (hAck : isAck (codeOf data)) :
    readResponse codecs action nasIp now data = .ok { CoAResult.basic true action nasIp now with
      responseCode := some (codeOf data) } := by
  obtain ⟨attributes, hDecode⟩ := decode_of_length hLength
  rw [readResponse, hDecode]
  exact if_pos hAck

theorem readResponse_success {codecs : Codecs} {action now : String} {nasIp : Option String}
    {data : Bytes}
    {r : CoAResult} (h : readResponse codecs action nasIp now data = .ok r)
    (hSuccess : r.success = true) : 20 ≤ data.length ∧ isAck (codeOf data) := by
  obtain ⟨response, hDecode, hRest⟩ := Except.ok_of_bind h
  have hLength : 20 ≤ data.length := by
    rw [RadiusPacket.decode] at hDecode
    split at hDecode
    · cases hDecode
    · omega
  obtain ⟨attributes, hOk⟩ := decode_of_length hLength
  rw [hOk] at hDecode
  cases hDecode
  refine ⟨hLength, ?_⟩
  split at hRest
  · assumption
  · obtain ⟨_, -, hResult⟩ := Except.ok_of_bind hRest
    cases hResult
    cases hSuccess

/-- `_send_packet` succeeds exactly on a datagram of at least twenty octets whose code is
one of the two acknowledgements, and treats all datagrams with that code alike. -/
theorem sendPacket_success (codecs : Codecs) (pkt : RadiusPacket) (secret action : String)
    (nasIp : Option String) (now : String) :
    (∀ answer, (∃ wire r, sendPacket codecs pkt secret action nasIp now answer =
        .ok (wire, .ok r) ∧ r.success = true) ↔
      (∃ wire, pkt.encode codecs secret = .ok wire) ∧ pkt.code ∈ RadiusCode.known ∧
        ∃ data, answer = .datagram data ∧ 20 ≤ data.length ∧ isAck (codeOf data)) ∧
    ∀ data data', 20 ≤ data.length → 20 ≤ data'.length → isAck (codeOf data) →
      codeOf data = codeOf data' →
      sendPacket codecs pkt secret action nasIp now (.datagram data) =
        sendPacket codecs pkt secret action nasIp now (.datagram data') := by
  constructor
  · intro answer
    constructor
    · rintro ⟨wire, r, hSend, hSuccess⟩
      obtain ⟨encoded, hEncode, hRest⟩ := Except.ok_of_bind hSend
      obtain ⟨_, hName, hResult⟩ := Except.ok_of_bind hRest
      have hKnown : pkt.code ∈ RadiusCode.known := by
        rw [radiusCodeName] at hName
        split at hName
        · assumption
        · cases hName
      refine ⟨⟨encoded, hEncode⟩, hKnown, ?_⟩
      have hPair := Prod.mk.inj (Except.ok.inj hResult)
      cases answer with
      | datagram data => exact ⟨data, rfl, readResponse_success hPair.2 hSuccess⟩
      | timeout =>
        cases hPair.2
        cases hSuccess
      | osError e =>
        cases hPair.2
        cases hSuccess
      | raises e => cases hPair.2
      | unreachable e =>
        cases hPair.2
        cases hSuccess
      | noEndpoint e => cases hPair.2
    · rintro ⟨⟨wire, hEncode⟩, hKnown, data, rfl, hLength, hAck⟩
      refine ⟨wire, { CoAResult.basic true action nasIp now with
        responseCode := some (codeOf data) }, ?_, rfl⟩
      rw [sendPacket, hEncode, radiusCodeName, if_pos hKnown]
      exact congrArg (fun r => Except.ok (wire, r)) (readResponse_of_ack hLength hAck)
  · intro data data' hLength hLength' hAck hCode
    have hSame : readResponse codecs action nasIp now data =
        readResponse codecs action nasIp now data' := by
      rw [readResponse_of_ack hLength hAck, readResponse_of_ack hLength' (hCode ▸ hAck), hCode]
    rw [sendPacket, sendPacket]
    simp only [hSame]

/-! ## Answers that no NAS gave -/

/-- The acknowledgement of a request. -/
def ackOf (code : Nat) : Nat :=
  if code = RadiusCode.coaRequest then RadiusCode.coaAck else RadiusCode.disconnectAck

def lengthOf (data : Bytes) : Nat := readBe ((data.drop 2).take 2)

/-- The Response Authenticator for a request with this wire form. -/
def responseAuthenticator (codecs : Codecs) (wire data : Bytes) (secret : String) : Bytes :=
  codecs.md5 (data.take 4 ++ (wire.drop 4).take 16 ++ (data.take (lengthOf data)).drop 20 ++
    utf8 secret)

/-- Every datagram that makes some request succeed satisfies `P`. -/
def OnlyAnswers (P : Codecs → RadiusPacket → String → Bytes → Bytes → Prop) : Prop :=
  ∀ codecs pkt secret action nasIp now wire data r,
    pkt.code = RadiusCode.coaRequest ∨ pkt.code = RadiusCode.disconnectRequest →
    sendPacket codecs pkt secret action nasIp now (.datagram data) = .ok (wire, .ok r) →
    r.success = true → P codecs pkt secret wire data

/-- A NAS whose digests are all zero, so that a zero authenticator is the right one. -/
def zeroCodecs : Codecs := ⟨fun _ => RadiusPacket.zeroAuthenticator, fun _ => ""⟩

/-- A Disconnect-Request with identifier 7. -/
def disconnectSeven : RadiusPacket := ⟨40, 7, RadiusPacket.zeroAuthenticator, []⟩

/-- A header with the given code, identifier and length before an authenticator. -/
def answerOf (code identifier length : UInt8) (authenticator : Bytes) : Bytes :=
  [code, identifier, 0, length] ++ authenticator

theorem accepts_unchecked_answers :
    ¬OnlyAnswers (fun _ _ _ _ data => 20 ≤ lengthOf data ∧ lengthOf data ≤ data.length) ∧
    ¬OnlyAnswers (fun _ pkt _ _ data => codeOf data = ackOf pkt.code) ∧
    ¬OnlyAnswers (fun _ pkt _ _ data => readBe ((data.drop 1).take 1) = pkt.identifier) ∧
    ¬OnlyAnswers (fun codecs _ secret wire data =>
      (data.drop 4).take 16 = responseAuthenticator codecs wire data secret) := by
  have hRun : ∀ {P : Codecs → RadiusPacket → String → Bytes → Bytes → Prop} (data : Bytes),
      20 ≤ data.length → isAck (codeOf data) → OnlyAnswers P →
      P zeroCodecs disconnectSeven "" ([40, 7, 0, 20] ++ RadiusPacket.zeroAuthenticator) data := by
    intro P data hLength hAck hAll
    refine hAll zeroCodecs disconnectSeven "" "disconnect" (some "10.0.0.1") "" _ data
      { CoAResult.basic true "disconnect" (some "10.0.0.1") "" with responseCode := some (codeOf data) }
      (.inr rfl) ?_ rfl
    exact congrArg (fun r => Except.ok (_, r)) (readResponse_of_ack hLength hAck)
  refine ⟨fun h => ?_, fun h => ?_, fun h => ?_, fun h => ?_⟩
  · have := hRun (answerOf 41 7 0 RadiusPacket.zeroAuthenticator) (by decide) (by decide) h
    revert this
    decide
  · have := hRun (answerOf 44 7 20 RadiusPacket.zeroAuthenticator) (by decide) (by decide) h
    revert this
    decide
  · have := hRun (answerOf 41 8 20 RadiusPacket.zeroAuthenticator) (by decide) (by decide) h
    revert this
    decide
  · have := hRun (answerOf 41 7 20 (List.replicate 16 1)) (by decide) (by decide) h
    revert this
    decide

end OpenRadiusWeb.Coa
