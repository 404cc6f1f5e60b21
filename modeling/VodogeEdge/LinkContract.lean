import VodogeEdge.Text
import VodogeEdge.Word

/-!
# Envelopes of the edge link

The part of the wire contract the uplink session and the agent read.
JSON is a third-party format: an envelope's payload is a value of an
arbitrary type `J`, and `Wire J` is the encoder and the decoders the
source gets from its serialisation library.
-/

namespace VodogeEdge

def protocolVersion : Nat := 1

inductive MessageKind where
  | resume
  | resumeAck
  | uplinkAck
  | uplinkGap
  | uplinkGapAck
  | ping
  | pong
  | commandDeliver
  | commandReceipt
  | smsReceived
  | smsStatusReport
  | deviceState
  | commandResult
  | esimInventory
  | alert
  | proxyTraffic
  | protocolError
deriving DecidableEq

namespace MessageKind

def asStr : MessageKind → String
  | .resume => "Resume"
  | .resumeAck => "ResumeAck"
  | .uplinkAck => "UplinkAck"
  | .uplinkGap => "UplinkGap"
  | .uplinkGapAck => "UplinkGapAck"
  | .ping => "Ping"
  | .pong => "Pong"
  | .commandDeliver => "CommandDeliver"
  | .commandReceipt => "CommandReceipt"
  | .smsReceived => "SmsReceived"
  | .smsStatusReport => "SmsStatusReport"
  | .deviceState => "DeviceState"
  | .commandResult => "CommandResult"
  | .esimInventory => "EsimInventory"
  | .alert => "Alert"
  | .proxyTraffic => "ProxyTraffic"
  | .protocolError => "ProtocolError"

def isSequenced : MessageKind → Bool
  | .smsReceived | .smsStatusReport | .deviceState | .commandResult | .esimInventory
  | .alert | .proxyTraffic => true
  | _ => false

def all : List MessageKind :=
  [.resume, .resumeAck, .uplinkAck, .uplinkGap, .uplinkGapAck, .ping, .pong, .commandDeliver,
   .commandReceipt, .smsReceived, .smsStatusReport, .deviceState, .commandResult,
   .esimInventory, .alert, .proxyTraffic, .protocolError]

def ofStr? (name : String) : Option MessageKind := all.find? (·.asStr = name)

end MessageKind

/-- An inclusive range as it stands on the wire, not yet checked. -/
structure WireRange where
  fromSeq : Nat
  through : Nat
deriving DecidableEq

structure ResumePayload where
  connectionId : String
  lastAssignedSeq : Nat
  lowestRetainedSeq : Option Nat
  lastAckedSeq : Nat
  pendingGapIds : List String
  capabilityMatrixVersion : String
  cardPolicyVersion : Option String
  edgeVersion : Option String
  queueRecords : Option Int
  queueBytes : Option Int

structure ResumeAckPayload where
  connectionId : String
  committedThrough : Nat
  missingRanges : List WireRange
  moreMissing : Bool
  maxInFlight : Int
  serverTime : Int
deriving DecidableEq

structure UplinkAckPayload where
  connectionId : String
  committedThrough : Nat
  missingRanges : List WireRange
  moreMissing : Bool
  maxInFlight : Int
deriving DecidableEq

structure PingPayload where
  connectionId : String
  sentAt : Int

structure PongPayload where
  connectionId : String
  pingId : String
  serverTime : Int
deriving DecidableEq

structure ProtocolErrorPayload where
  code : String
  message : String
  relatedMessageId : Option String
  retryable : Bool
  retryAfterMs : Option Int
deriving DecidableEq

structure Envelope (J : Type) where
  v : Nat
  kind : MessageKind
  id : String
  ts : Int
  deviceId : String
  seq : Option Nat
  traceId : Option String
  payload : J
deriving DecidableEq

def Envelope.validateSequence {J : Type} (self : Envelope J) : Except String Unit :=
  match self.kind.isSequenced, self.seq with
  | true, none => .error (self.kind.asStr ++ " requires seq")
  | false, some _ => .error (self.kind.asStr ++ " must not have seq")
  | _, _ => .ok ()

/-- What the serialisation library provides for these payloads. -/
structure Wire (J : Type) where
  encodeResume : ResumePayload → J
  encodePing : PingPayload → J
  decodeResumeAck : J → Except String ResumeAckPayload
  decodeUplinkAck : J → Except String UplinkAckPayload
  decodePong : J → Except String PongPayload
  decodeProtocolError : J → Except String ProtocolErrorPayload
  parse : Bytes → Except String J

/-- `{:012}`: decimal, padded with zeros to twelve digits. -/
def zeroPadded12 (n : Nat) : String :=
  String.ofList (List.replicate (12 - (toString n).length) '0') ++ toString n

end VodogeEdge
