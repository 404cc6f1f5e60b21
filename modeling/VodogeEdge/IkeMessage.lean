import VodogeEdge.IkeSuite

/-!
# IKE messages and what reads and writes them

The messages of IKEv2 as far as the two runners look into them, and the
functions of the mirror (`ikev2`) that read and write them and derive keys.
The mirror is trusted and is not part of this repository: it is a
parameter, and every result below holds for whatever it computes.
-/

namespace VodogeEdge.Ike

def exchangeIkeSaInit : UInt8 := 34
def exchangeIkeAuth : UInt8 := 35

def flagInitiator : UInt8 := 0x08
def flagResponse : UInt8 := 0x20

def payloadSa : UInt8 := 33
def payloadKe : UInt8 := 34
def payloadIdr : UInt8 := 36
def payloadAuth : UInt8 := 39
def payloadNonce : UInt8 := 40
def payloadNotify : UInt8 := 41
def payloadEap : UInt8 := 48

def notifyMobikeSupported : UInt16 := 16396

structure Header where
  initiatorSpi : UInt64
  responderSpi : UInt64 := 0
  exchangeType : UInt8
  flags : UInt8
  messageId : UInt32 := 0
deriving DecidableEq

def Header.isResponse (h : Header) : Bool := h.flags &&& flagResponse ≠ 0

structure Payload where
  type : UInt8
  body : Bytes
deriving DecidableEq

structure Message where
  header : Header
  payloads : List Payload
deriving DecidableEq

structure Notify where
  notifyType : UInt16
  notificationData : Bytes

structure KeyExchange where
  dhGroup : UInt16 := 0
  keyData : Bytes := []

structure KeyMaterialProfile where
  /-- The number of the hash; 0 is none. -/
  prf : Nat
  requiredLength : Nat
  encryptionBlockSize : Nat
deriving DecidableEq

structure IkeKeys where
  profile : KeyMaterialProfile := ⟨0, 0, 0⟩
  skD : Bytes := []
  skAi : Bytes := []
  skAr : Bytes := []
  skEi : Bytes := []
  skEr : Bytes := []
  skPi : Bytes := []
  skPr : Bytes := []
deriving DecidableEq

/-- An error of the mirror, with the group that
`InvalidKEPayloadAlternativeGroupFromError` finds in it. -/
structure MirrorError where
  text : String
  alternativeGroup : Option UInt16 := none

structure Mirror where
  parseHeader : Bytes → Except MirrorError Header
  parseMessage : Bytes → Except MirrorError Message
  marshalMessage : Message → Except MirrorError Bytes
  securityAssociationPayload : SecurityAssociation → Except MirrorError Payload
  parseSecurityAssociation : Bytes → Except MirrorError SecurityAssociation
  keyExchangePayload : UInt16 → Bytes → Payload
  parseKeyExchange : Bytes → Except MirrorError KeyExchange
  noncePayload : Bytes → Payload
  parseNotify : Bytes → Except MirrorError Notify
  cookieNotify : Bytes → Except MirrorError Payload
  notifyCookie : Notify → Except MirrorError (Option Bytes)
  firstNotifyError : List Payload → Option MirrorError
  mobikeSupportedNotify : Payload
  /-- Whether an offer can be put on the wire. -/
  encodesSa : SecurityAssociation → Bool
  /-- The error of `PRFHashForTransform`, if it has no hash for the id. -/
  prfError : UInt16 → Option String
  keyMaterialProfileFromSa : SecurityAssociation → Except MirrorError KeyMaterialProfile
  skeyseed : Nat → Bytes → Bytes → Bytes → Except MirrorError Bytes
  deriveIkeSaKeyMaterial :
    Nat → Bytes → Bytes → Bytes → UInt64 → UInt64 → Int → Except MirrorError Bytes
  splitIkeKeys : KeyMaterialProfile → Bytes → Except MirrorError IkeKeys

/-- `matchesResponse`: all that an exchange looks at in a datagram before
taking it for the answer to its request. -/
def matchesResponse (M : Mirror) (request : Header) (raw : Bytes) : Bool :=
  match M.parseHeader raw with
  | .error _ => false
  | .ok response =>
    response.isResponse && response.initiatorSpi = request.initiatorSpi &&
      response.messageId = request.messageId && response.exchangeType = request.exchangeType

/-! ## A mirror for samples -/

def sampleSelection : SecurityAssociation :=
  ⟨[⟨1, protocolIke, [⟨transformEncr, encrAesCbc, [keyLengthAttribute 128]⟩,
    ⟨transformPrf, 5, []⟩, ⟨transformInteg, 12, []⟩, groupTransform groupModp2048]⟩]⟩

/-- A codec that puts the flags and the types of the payloads on the wire,
and reads sixteen octets for the body of each. -/
def sampleMirror : Mirror where
  parseHeader
    | [] => .error ⟨"empty", none⟩
    | flags :: _ => .ok { initiatorSpi := 1, exchangeType := exchangeIkeSaInit, flags }
  parseMessage
    | [] => .error ⟨"empty", none⟩
    | flags :: types => .ok
        ⟨{ initiatorSpi := 1, responderSpi := 9, exchangeType := exchangeIkeSaInit, flags },
          types.map fun type => ⟨type, List.replicate 16 7⟩⟩
  marshalMessage m := .ok (m.header.flags :: m.payloads.map Payload.type)
  securityAssociationPayload _ := .ok ⟨payloadSa, []⟩
  parseSecurityAssociation _ := .ok sampleSelection
  keyExchangePayload _ key := ⟨payloadKe, key⟩
  parseKeyExchange body := .ok ⟨groupModp2048, body⟩
  noncePayload nonce := ⟨payloadNonce, nonce⟩
  parseNotify body := .ok ⟨16390, body⟩
  cookieNotify cookie := .ok ⟨payloadNotify, cookie⟩
  notifyCookie notify := .ok (some notify.notificationData)
  firstNotifyError _ := none
  mobikeSupportedNotify := ⟨payloadNotify, []⟩
  encodesSa _ := true
  prfError _ := none
  keyMaterialProfileFromSa _ := .ok ⟨5, 4, 16⟩
  skeyseed _ _ _ _ := .ok [1]
  deriveIkeSaKeyMaterial _ _ _ _ _ _ _ := .ok [1, 2, 3, 4]
  splitIkeKeys profile _ := .ok { profile }

end VodogeEdge.Ike
