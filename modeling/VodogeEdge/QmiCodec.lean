import VodogeEdge.QmiFrame

/-!
# The QMI codec

Writing fields, and both directions for fields and frames: what is written
reads back, what reads was written so, and a frame is neither the front nor
the continuation of another, because its length stands in it.
-/

namespace VodogeEdge.Qmi

open List QmiResponse

/-! ## Writing fields -/

def usizeMax : Nat := 18446744073709551615

def encodeTlv (tlv : Tlv) : Bytes :=
  let length := UInt16.ofNat tlv.value.length
  tlv.kind :: lowByte length :: highByte length :: tlv.value

def addLength (length : Nat) (tlv : Tlv) : Except WireError Nat :=
  if 65535 < tlv.value.length then .error (.tlvValueTooLarge tlv.kind tlv.value.length)
  else if usizeMax < length + (3 + tlv.value.length) then .error .encodedPayloadTooLarge
  else .ok (length + (3 + tlv.value.length))

def encodeTlvs (tlvs : List Tlv) : Except WireError Bytes :=
  match tlvs.foldlM addLength 0 with
  | .error error => .error error
  | .ok _ => .ok (tlvs.flatMap encodeTlv)

def Fits (tlvs : List Tlv) : Prop :=
  (∀ tlv ∈ tlvs, tlv.value.length ≤ 65535) ∧ (tlvs.flatMap encodeTlv).length ≤ usizeMax

variable {tlvs : List Tlv} {length : Nat} {frame : Bytes} {response : QmiResponse}

theorem foldlM_addLength (hsmall : ∀ tlv ∈ tlvs, tlv.value.length ≤ 65535)
    (hfits : length + (tlvs.flatMap encodeTlv).length ≤ usizeMax) :
    ∃ total, tlvs.foldlM addLength length = .ok total := by
  induction tlvs generalizing length with
  | nil => exact ⟨length, rfl⟩
  | cons tlv rest ih =>
    obtain ⟨hvalue, hrest⟩ := forall_mem_cons.mp hsmall
    simp only [flatMap_cons, length_append, encodeTlv, length_cons] at hfits
    have hadd : addLength length tlv = .ok (length + (3 + tlv.value.length)) := by
      rw [addLength, if_neg (by omega), if_neg (by omega)]
    rw [foldlM_cons, hadd]
    exact ih hrest (by omega)

theorem fits_of_foldlM {total : Nat} (hlength : length ≤ usizeMax)
    (h : tlvs.foldlM addLength length = .ok total) :
    (∀ tlv ∈ tlvs, tlv.value.length ≤ 65535)
      ∧ length + (tlvs.flatMap encodeTlv).length ≤ usizeMax := by
  induction tlvs generalizing length with
  | nil => exact ⟨by simp, hlength⟩
  | cons tlv rest ih =>
    rw [foldlM_cons] at h
    unfold addLength at h
    split at h
    · cases h
    next hvalue =>
      split at h
      · cases h
      next hsum =>
        obtain ⟨hrest, hfits⟩ := ih (Nat.le_of_not_lt hsum) h
        refine ⟨forall_mem_cons.mpr ⟨Nat.le_of_not_lt hvalue, hrest⟩, ?_⟩
        simp only [flatMap_cons, length_append, encodeTlv, length_cons]
        omega

theorem encodeTlvs_iff {bytes : Bytes} :
    encodeTlvs tlvs = .ok bytes ↔ Fits tlvs ∧ bytes = tlvs.flatMap encodeTlv := by
  unfold encodeTlvs
  constructor
  · intro h
    split at h
    · cases h
    next hfold =>
      cases h
      obtain ⟨hsmall, hfits⟩ := fits_of_foldlM (Nat.zero_le _) hfold
      exact ⟨⟨hsmall, by rwa [Nat.zero_add] at hfits⟩, rfl⟩
  · rintro ⟨⟨hsmall, hfits⟩, rfl⟩
    obtain ⟨total, hfold⟩ := foldlM_addLength hsmall (by rwa [Nat.zero_add])
    rw [hfold]

/-! ## Fields both ways -/

theorem toNat_length (h : length ≤ 65535) :
    (fromLeBytes (lowByte (UInt16.ofNat length)) (highByte (UInt16.ofNat length))).toNat
      = length := by
  rw [fromLeBytes_bytes]
  exact Nat.mod_eq_of_lt (by omega)

theorem decodeTlvs_cons {tlv : Tlv} (h : tlv.value.length ≤ 65535) (rest : Bytes) :
    decodeTlvs (encodeTlv tlv ++ rest) = (decodeTlvs rest).map (tlv :: ·) := by
  have hfits : ¬ (tlv.value ++ rest).length < tlv.value.length := by
    rw [length_append]
    omega
  simp only [encodeTlv, cons_append, decodeTlvs, toNat_length h, hfits, drop_left, take_left]
  cases decodeTlvs rest <;> rfl

theorem decodeTlvs_encode (h : ∀ tlv ∈ tlvs, tlv.value.length ≤ 65535) :
    decodeTlvs (tlvs.flatMap encodeTlv) = .ok tlvs := by
  induction tlvs with
  | nil => rw [flatMap_nil, decodeTlvs]
  | cons tlv rest ih =>
    obtain ⟨hvalue, hrest⟩ := forall_mem_cons.mp h
    rw [flatMap_cons, decodeTlvs_cons hvalue, ih hrest, Except.map]

theorem bytes_fromLeBytes (low high : UInt8) :
    lowByte (fromLeBytes low high) = low ∧ highByte (fromLeBytes low high) = high := by
  have hlow := low.toNat_lt
  have hhigh := high.toNat_lt
  constructor <;> apply UInt8.toNat.inj
  · simp only [lowByte, fromLeBytes, UInt8.toNat_ofNat', UInt16.toNat_ofNat']
    omega
  · simp only [highByte, fromLeBytes, UInt8.toNat_ofNat', UInt16.toNat_ofNat']
    omega

theorem encode_of_decodeTlvs (payload : Bytes) : ∀ tlvs, decodeTlvs payload = .ok tlvs →
    (∀ tlv ∈ tlvs, tlv.value.length ≤ 65535) ∧ tlvs.flatMap encodeTlv = payload := by
  fun_induction decodeTlvs payload with
  | case1 =>
    rintro tlvs ⟨⟩
    exact ⟨by simp, rfl⟩
  | case2 | case3 => rintro tlvs ⟨⟩
  | case4 kind low high rest valueLength hfits later hlater ih =>
    rintro tlvs ⟨⟩
    obtain ⟨hsmall, hbytes⟩ := ih later hlater
    have hlength : (rest.take valueLength).length = valueLength := by
      rw [length_take]
      omega
    have hle : valueLength ≤ 65535 := Nat.le_of_lt_succ (fromLeBytes low high).toNat_lt
    have hheader : UInt16.ofNat valueLength = fromLeBytes low high := UInt16.ofNat_toNat
    refine ⟨forall_mem_cons.mpr ⟨by rwa [hlength], hsmall⟩, ?_⟩
    rw [flatMap_cons, hbytes, encodeTlv]
    simp [hlength, hheader, bytes_fromLeBytes]
  | case5 => rintro tlvs ⟨⟩

/-! ## Frames -/

/-- The frame of a request as a response to it would be: with the response
flag and the response kind. -/
def asResponse (service : ServiceId) (frame : Bytes) : Bytes :=
  (frame.set 3 0x80).set 6 (responseKind service)

theorem QmiRequest.new_ok {service : ServiceId} {clientId : ClientId} {transaction : TransactionId}
    {messageId : MessageId} {payload : Bytes} {request : QmiRequest}
    (h : QmiRequest.new service clientId transaction messageId payload = .ok request) :
    request.service = service ∧ request.clientId = clientId ∧ request.transaction = transaction
      ∧ request.messageId = messageId ∧ request.payload = payload := by
  unfold QmiRequest.new at h
  split at h
  · cases h
  · split at h
    · cases h
    · split at h
      · cases h
      · split at h
        · cases h
        · cases h
          exact ⟨rfl, rfl, rfl, rfl, rfl⟩

theorem QmiRequest.length_payload_le (request : QmiRequest) :
    5 + qmiHeaderLength request.service + request.payload.length ≤ 65535 := by
  have hfits := request.fits
  unfold validatePayloadLength at hfits
  dsimp only at hfits
  split at hfits
  · cases hfits
  next hle =>
    have hheader : qmiHeaderLength request.service ≤ 7 := by
      unfold qmiHeaderLength
      split <;> decide
    omega

def transactionBytes (service : ServiceId) (transaction : TransactionId) : Bytes :=
  if service.isControl then [lowByte transaction.value]
  else [lowByte transaction.value, highByte transaction.value]

theorem length_transactionBytes (service : ServiceId) (transaction : TransactionId) :
    (transactionBytes service transaction).length + 5 = qmiHeaderLength service := by
  unfold transactionBytes qmiHeaderLength
  split <;> rfl

namespace QmiRequest

def qmuxLength (request : QmiRequest) : Nat :=
  5 + qmiHeaderLength request.service + request.payload.length

/-- What stands behind the kind of a message, in a request and in the
response to it. -/
def body (request : QmiRequest) : Bytes :=
  transactionBytes request.service request.transaction
    ++ lowByte request.messageId.value :: highByte request.messageId.value
    :: lowByte (UInt16.ofNat request.payload.length)
    :: highByte (UInt16.ofNat request.payload.length) :: request.payload

variable (request : QmiRequest)

theorem encode_eq :
    request.encode = 0x01 :: lowByte (UInt16.ofNat request.qmuxLength)
      :: highByte (UInt16.ofNat request.qmuxLength) :: 0x00 :: request.service.value
      :: request.clientId.value :: requestKind request.service :: request.body := by
  simp [encode, body, transactionBytes, qmuxLength]

theorem length_encode : request.encode.length = request.qmuxLength + 1 := by
  have hlength := length_transactionBytes request.service request.transaction
  rw [encode_eq]
  simp only [body, qmuxLength, length_cons, length_append]
  omega

theorem encode_lengths :
    ∃ (l₀ l₁ : UInt8) (header : Bytes) (p₀ p₁ : UInt8),
      request.encode = 0x01 :: l₀ :: l₁ :: (header ++ p₀ :: p₁ :: request.payload)
      ∧ header.length = qmiHeaderLength request.service + 1
      ∧ (fromLeBytes l₀ l₁).toNat + 1 = request.encode.length
      ∧ (fromLeBytes p₀ p₁).toNat = request.payload.length := by
  have hle : request.qmuxLength ≤ 65535 := request.length_payload_le
  have hpayload : request.payload.length ≤ 65535 := le_trans (Nat.le_add_left _ _) hle
  have hlength := length_transactionBytes request.service request.transaction
  refine ⟨lowByte (UInt16.ofNat request.qmuxLength), highByte (UInt16.ofNat request.qmuxLength),
    0x00 :: request.service.value :: request.clientId.value :: requestKind request.service
      :: (transactionBytes request.service request.transaction
        ++ [lowByte request.messageId.value, highByte request.messageId.value]),
    _, _, ?_, ?_, ?_, toNat_length hpayload⟩
  · rw [encode_eq, body]
    simp
  · simp only [length_cons, length_append, length_nil]
    omega
  · rw [toNat_length hle, length_encode]

theorem decodeResponseSdu_body :
    decodeResponseSdu request.service (responseKind request.service :: request.body)
      = .ok (request.transaction, request.messageId, request.payload) := by
  have hle : request.qmuxLength ≤ 65535 := request.length_payload_le
  have hpayload : request.payload.length ≤ 65535 := le_trans (Nat.le_add_left _ _) hle
  cases hcontrol : request.service.isControl with
  | true =>
    have hsmall : request.transaction.value ≤ 255 := by
      simpa [validateTransaction, hcontrol] using request.numbered
    simp [body, transactionBytes, decodeResponseSdu, hcontrol, checkSdu, lowByte_toUInt16 hsmall,
      fromLeBytes_bytes, Nat.lt_succ_of_le hpayload]
  | false =>
    simp [body, transactionBytes, decodeResponseSdu, hcontrol, checkSdu, fromLeBytes_bytes,
      Nat.lt_succ_of_le hpayload]

theorem decodeQmuxResponse_asResponse :
    decodeQmuxResponse (asResponse request.service request.encode)
      = .ok (request.service, request.clientId, responseKind request.service :: request.body) := by
  have hlength : (asResponse request.service request.encode).length = request.qmuxLength + 1 := by
    rw [asResponse, length_set, length_set, length_encode]
  rw [asResponse, encode_eq] at hlength ⊢
  simp only [List.set] at hlength ⊢
  have hdeclared := toNat_length request.length_payload_le
  rw [← qmuxLength] at hdeclared
  simp [decodeQmuxResponse, hdeclared, hlength, request.addressed]

theorem decode_asResponse :
    decode (asResponse request.service request.encode)
      = .ok ⟨request.service, request.clientId, request.transaction, request.messageId,
        request.payload⟩ := by
  obtain ⟨tlvs, htlvs⟩ := request.fielded
  simp [decode, decodeQmuxResponse_asResponse, decodeResponseSdu_body, htlvs]

end QmiRequest

/-! ## Frames are not cut and not continued -/

theorem length_of_decode (h : decode frame = .ok response) :
    ∃ low high rest, frame = 0x01 :: low :: high :: rest
      ∧ (fromLeBytes low high).toNat + 1 = frame.length := by
  unfold decode at h
  split at h
  · cases h
  next hqmux =>
    unfold decodeQmuxResponse at hqmux
    split at hqmux
    next interface low high flag service client sdu =>
      dsimp only at hqmux
      split_ifs at hqmux with hinterface hdeclared
      rw [not_not] at hinterface hdeclared
      subst hinterface
      exact ⟨low, high, _, rfl, hdeclared⟩
    · cases hqmux

theorem eq_of_decode_of_isPrefix {longer : Bytes} {other : QmiResponse}
    (hframe : decode frame = .ok response)
    (hlonger : decode longer = .ok other) (h : frame <+: longer) : frame = longer := by
  obtain ⟨low, high, rest, rfl, hlength⟩ := length_of_decode hframe
  obtain ⟨low', high', rest', rfl, hlength'⟩ := length_of_decode hlonger
  obtain ⟨rfl, rfl, -⟩ : low = low' ∧ high = high' ∧ rest <+: rest' := by simpa using h
  exact h.eq_of_length (hlength.symm.trans hlength')

/-- Reading undoes writing and writing undoes reading, for fields and for the
frames of requests, and no accepted frame is a piece of another. A byte
string here is a slice, whose length is a `usize`. -/
theorem codec_exact :
    (∀ tlvs, Fits tlvs → ∃ bytes, encodeTlvs tlvs = .ok bytes ∧ decodeTlvs bytes = .ok tlvs)
    ∧ (∀ payload tlvs, payload.length ≤ usizeMax → decodeTlvs payload = .ok tlvs →
        encodeTlvs tlvs = .ok payload)
    ∧ (∀ service clientId transaction messageId payload request,
        QmiRequest.new service clientId transaction messageId payload = .ok request →
        (∃ (l₀ l₁ : UInt8) (header : Bytes) (p₀ p₁ : UInt8),
          request.encode = 0x01 :: l₀ :: l₁ :: (header ++ p₀ :: p₁ :: payload)
          ∧ header.length = qmiHeaderLength service + 1
          ∧ (fromLeBytes l₀ l₁).toNat + 1 = request.encode.length
          ∧ (fromLeBytes p₀ p₁).toNat = payload.length)
        ∧ decode (asResponse service request.encode)
          = .ok ⟨service, clientId, transaction, messageId, payload⟩)
    ∧ (∀ frame response, decode frame = .ok response →
        ∀ other, other ≠ frame → other <+: frame ∨ frame <+: other →
        ∃ error, decode other = .error error) := by
  refine ⟨?fields, ?bytes, ?requests, ?frames⟩
  case fields =>
    intro tlvs hfits
    exact ⟨_, encodeTlvs_iff.mpr ⟨hfits, rfl⟩, decodeTlvs_encode hfits.1⟩
  case bytes =>
    intro payload tlvs hlength hdecode
    obtain ⟨hsmall, hbytes⟩ := encode_of_decodeTlvs payload tlvs hdecode
    refine encodeTlvs_iff.mpr ⟨⟨hsmall, ?_⟩, hbytes.symm⟩
    rwa [hbytes]
  case requests =>
    intro service clientId transaction messageId payload request hnew
    obtain ⟨rfl, rfl, rfl, rfl, rfl⟩ := QmiRequest.new_ok hnew
    exact ⟨request.encode_lengths, request.decode_asResponse⟩
  case frames =>
    intro frame response hframe other hne hpiece
    cases hother : decode other with
    | error error => exact ⟨error, rfl⟩
    | ok read =>
      rcases hpiece with hpiece | hpiece
      · exact absurd (eq_of_decode_of_isPrefix hother hframe hpiece) hne
      · exact absurd (eq_of_decode_of_isPrefix hframe hother hpiece).symm hne

end VodogeEdge.Qmi
