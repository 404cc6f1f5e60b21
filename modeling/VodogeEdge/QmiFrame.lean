import Mathlib.Data.Nat.Basic
import Mathlib.Tactic.Basic
import VodogeEdge.Word

/-!
# QMUX frames

The framing half of `edge-modem`: one QMI message in one QMUX frame, with
its address (service, client, transaction) in the header and a sequence of
type-length-value fields behind it. The control service is service `0x00`;
it has client `0x00` only and numbers its transactions in one byte, every
other service has an allocated client and two bytes.

A `QmiRequest` carries what its constructor checked.
-/

namespace VodogeEdge.Qmi

/-! ## Identifiers -/

structure ServiceId where
  value : UInt8
deriving DecidableEq

def ServiceId.control : ServiceId := ⟨0x00⟩

variable (service : ServiceId)

def ServiceId.isControl : Bool := service.value = 0x00

structure ClientId where
  value : UInt8
deriving DecidableEq

def ClientId.control : ClientId := ⟨0x00⟩

def ClientId.isControl (client : ClientId) : Bool := client.value = 0x00

structure TransactionId where
  value : UInt16
deriving DecidableEq

structure MessageId where
  value : UInt16
deriving DecidableEq

structure TransactionKey where
  service : ServiceId
  clientId : ClientId
  transaction : TransactionId
deriving DecidableEq

/-! ## Bytes -/

def fromLeBytes (low high : UInt8) : UInt16 := UInt16.ofNat (low.toNat + 256 * high.toNat)

def lowByte (value : UInt16) : UInt8 := UInt8.ofNat value.toNat

def highByte (value : UInt16) : UInt8 := UInt8.ofNat (value.toNat / 256)

theorem fromLeBytes_bytes (value : UInt16) :
    fromLeBytes (lowByte value) (highByte value) = value := by
  apply UInt16.toNat.inj
  have hlt := value.toNat_lt
  simp only [fromLeBytes, lowByte, highByte, UInt16.toNat_ofNat', UInt8.toNat_ofNat']
  omega

theorem lowByte_toUInt16 {value : UInt16} (h : value ≤ 255) : (lowByte value).toUInt16 = value := by
  apply UInt16.toNat.inj
  have hle : value.toNat ≤ 255 := h
  simp only [lowByte, UInt8.toNat_toUInt16, UInt8.toNat_ofNat']
  omega

/-! ## Errors -/

inductive WireError where
  | frameTooShort (actual minimum : Nat)
  | invalidInterfaceType (actual : UInt8)
  | qmuxLengthMismatch (declared actual : Nat)
  | unexpectedQmuxControlFlag (actual expected : UInt8)
  | controlServiceRequiresControlClient (actual : ClientId)
  | serviceRequiresAllocatedClient (service : ServiceId)
  | controlTransactionOutOfRange (transaction : TransactionId)
  | payloadTooLarge (service : ServiceId) (actual maximum : Nat)
  | unexpectedMessageKind (service : ServiceId) (actual expected : UInt8)
  | payloadLengthMismatch (declared actual : Nat)
  | truncatedTlvHeader (actual : Nat)
  | truncatedTlvValue (kind : UInt8) (declared actual : Nat)
  | tlvValueTooLarge (kind : UInt8) (actual : Nat)
  | encodedPayloadTooLarge
deriving DecidableEq

/-! ## Fields -/

structure Tlv where
  kind : UInt8
  value : Bytes

/-- `decode_tlvs`: truncated headers and values are errors. -/
def decodeTlvs : Bytes → Except WireError (List Tlv)
  | [] => .ok []
  | kind :: low :: high :: rest =>
    let valueLength := (fromLeBytes low high).toNat
    if rest.length < valueLength then
      .error (.truncatedTlvValue kind valueLength rest.length)
    else
      match decodeTlvs (rest.drop valueLength) with
      | .error error => .error error
      | .ok tlvs => .ok (⟨kind, rest.take valueLength⟩ :: tlvs)
  | short => .error (.truncatedTlvHeader short.length)
termination_by payload => payload.length
decreasing_by
  simp only [List.length_drop, List.length_cons]
  omega

/-! ## Validation -/

def qmiHeaderLength : Nat := if service.isControl then 6 else 7

def requestKind : UInt8 := if service.isControl then 0x00 else 0x00

def responseKind : UInt8 := if service.isControl then 0x01 else 0x02

def validateAddress (clientId : ClientId) : Except WireError Unit :=
  if service.isControl && !clientId.isControl then
    .error (.controlServiceRequiresControlClient clientId)
  else if !service.isControl && clientId.isControl then
    .error (.serviceRequiresAllocatedClient service)
  else .ok ()

def validateTransaction (transaction : TransactionId) : Except WireError Unit :=
  if service.isControl && decide (transaction.value > 255) then
    .error (.controlTransactionOutOfRange transaction)
  else .ok ()

def validatePayloadLength (length : Nat) : Except WireError Unit :=
  let maximum := 65535 - 5 - qmiHeaderLength service
  if length > maximum then .error (.payloadTooLarge service length maximum) else .ok ()

/-! ## Requests -/

/-- A fully formed request: what the constructor checks is part of it. -/
structure QmiRequest where
  service : ServiceId
  clientId : ClientId
  transaction : TransactionId
  messageId : MessageId
  payload : Bytes
  addressed : validateAddress service clientId = .ok ()
  numbered : validateTransaction service transaction = .ok ()
  fits : validatePayloadLength service payload.length = .ok ()
  fielded : ∃ tlvs, decodeTlvs payload = .ok tlvs

namespace QmiRequest

def new (service : ServiceId) (clientId : ClientId) (transaction : TransactionId)
    (messageId : MessageId) (payload : Bytes) : Except WireError QmiRequest :=
  match haddress : validateAddress service clientId with
  | .error error => .error error
  | .ok () =>
    match htransaction : validateTransaction service transaction with
    | .error error => .error error
    | .ok () =>
      match hlength : validatePayloadLength service payload.length with
      | .error error => .error error
      | .ok () =>
        match htlvs : decodeTlvs payload with
        | .error error => .error error
        | .ok tlvs =>
          .ok ⟨service, clientId, transaction, messageId, payload, haddress, htransaction,
            hlength, tlvs, htlvs⟩

def transactionKey (request : QmiRequest) : TransactionKey :=
  ⟨request.service, request.clientId, request.transaction⟩

def encode (request : QmiRequest) : Bytes :=
  let qmuxLength := UInt16.ofNat
    (5 + qmiHeaderLength request.service + request.payload.length)
  let payloadLength := UInt16.ofNat request.payload.length
  [0x01, lowByte qmuxLength, highByte qmuxLength, 0x00, request.service.value,
      request.clientId.value, requestKind request.service]
    ++ (if request.service.isControl then [lowByte request.transaction.value]
        else [lowByte request.transaction.value, highByte request.transaction.value])
    ++ [lowByte request.messageId.value, highByte request.messageId.value,
        lowByte payloadLength, highByte payloadLength]
    ++ request.payload

end QmiRequest

/-! ## Responses -/

structure QmiResponse where
  service : ServiceId
  clientId : ClientId
  transaction : TransactionId
  messageId : MessageId
  payload : Bytes
deriving DecidableEq

/-- `decode_qmux_response`: exactly one frame, from the modem, with an
address that exists. -/
def decodeQmuxResponse (frame : Bytes) : Except WireError (ServiceId × ClientId × Bytes) :=
  match frame with
  | interface :: low :: high :: flag :: service :: client :: sdu =>
    let declared := (fromLeBytes low high).toNat + 1
    if interface ≠ 0x01 then .error (.invalidInterfaceType interface)
    else if declared ≠ frame.length then .error (.qmuxLengthMismatch declared frame.length)
    else if flag ≠ 0x80 then .error (.unexpectedQmuxControlFlag flag 0x80)
    else
      match validateAddress ⟨service⟩ ⟨client⟩ with
      | .error error => .error error
      | .ok () => .ok (⟨service⟩, ⟨client⟩, sdu)
  | _ => .error (.frameTooShort frame.length 6)

def checkSdu (kind : UInt8) (transaction : TransactionId) (messageId : MessageId) (declared : Nat)
    (payload : Bytes) : Except WireError (TransactionId × MessageId × Bytes) :=
  if kind ≠ responseKind service then
    .error (.unexpectedMessageKind service kind (responseKind service))
  else if declared ≠ payload.length then .error (.payloadLengthMismatch declared payload.length)
  else .ok (transaction, messageId, payload)

/-- `decode_response_sdu`: where the fields stand depends on the service. -/
def decodeResponseSdu (sdu : Bytes) : Except WireError (TransactionId × MessageId × Bytes) :=
  match service.isControl, sdu with
  | true, kind :: t :: m₀ :: m₁ :: l₀ :: l₁ :: payload =>
    checkSdu service kind ⟨t.toUInt16⟩ ⟨fromLeBytes m₀ m₁⟩ (fromLeBytes l₀ l₁).toNat payload
  | false, kind :: t₀ :: t₁ :: m₀ :: m₁ :: l₀ :: l₁ :: payload =>
    checkSdu service kind ⟨fromLeBytes t₀ t₁⟩ ⟨fromLeBytes m₀ m₁⟩ (fromLeBytes l₀ l₁).toNat
      payload
  | _, _ => .error (.frameTooShort sdu.length (qmiHeaderLength service))

namespace QmiResponse

def decode (frame : Bytes) : Except WireError QmiResponse :=
  match decodeQmuxResponse frame with
  | .error error => .error error
  | .ok (service, clientId, sdu) =>
    match decodeResponseSdu service sdu with
    | .error error => .error error
    | .ok (transaction, messageId, payload) =>
      match decodeTlvs payload with
      | .error error => .error error
      | .ok _ => .ok ⟨service, clientId, transaction, messageId, payload⟩

def transactionKey (response : QmiResponse) : TransactionKey :=
  ⟨response.service, response.clientId, response.transaction⟩

end QmiResponse

end VodogeEdge.Qmi
