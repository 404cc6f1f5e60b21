import VodogeEdge.UplinkRecord

/-!
# Commands, results and ports of the edge agent

The data of `edge-agent`: what the cloud can ask for, what the executor
hands to its ports, and the payloads it answers with.

JSON stays abstract. `J` is the library's value type, `V` the contract's
own tree (`ContextValue`), `M` the capability matrix and `C` the
operating context of a module. Lists of card policies and proxy
specifications are only passed on, so they are `J` as well.
-/

namespace VodogeEdge

/-! ## Constants -/

def receiptAccepted : String := "accepted"
def receiptDuplicate : String := "duplicate"

def resultSucceeded : String := "succeeded"
def resultFailed : String := "failed"
def resultUnknown : String := "unknown"
def resultExpired : String := "expired"

/-! ## Requests -/

inductive Command (J V : Type) where
  | sendSms (recipient body : String) (modemImei iccid : Option String)
  | restartModem (modemImei : String)
  | switchEsimProfile (modemImei targetIccid : String)
  | listEsimProfiles (modemImei : String)
  | readEsimInfo (modemImei : String)
  | retrieveEsimNotification (modemImei : String) (sequenceNumber : Int)
  | initiateEsimAuthentication (modemImei : String) (smdpAddress : Option String)
  | downloadEsimProfile (modemImei activationCode : String) (confirmationCode : Option String)
  | runAtCommand (modemImei command : String) (timeoutMs : Option Int) (force : Option Bool)
  | sendUssd (modemImei code : String) (stage : Option String)
  | setRadio (modemImei : String) (enabled : Bool)
  | scanOperators (modemImei : String)
  | selectOperator (modemImei mode : String) (plmn : Option String)
  | modemReport (modemImei : String)
  | resetModemUsb (modemImei : String)
  | setDataNetwork (modemImei : String) (enabled : Bool)
  | configureApn (modemImei : String) (cid : Int) (pdpType : Option String) (apn : String)
      (username password auth : Option String)
  | setUsbnetMode (modemImei mode : String)
  | reregisterNetwork (modemImei : String)
  | refreshModems
  | readLogs (after limit : Option Int) (contains : Option String)
  | claimModemCandidate (candidateKey : String)
  | revokeModemCandidate (candidateKey : String)
  | registerModem (modemImei : String) (note : Option String)
  | createModem (modemImei family : String) (note : Option String)
  | unregisterModem (modemImei : String)
  | reconfirmModem (modemImei : String)
  | updateModem (modemImei : String) (note : Option String)
  | renameEsimProfile (modemImei iccid : String) (nickname : Option String)
  | disableEsimProfile (modemImei iccid : String)
  | deleteEsimProfile (modemImei iccid : String)
  | configureProxy (instances upstreams : J)
  | proxyLifecycle (instanceId action : String)
  | probeUpstreamProxy (upstreamId : String)
  | rotateIp (modemImei : String)
  | updateCardPolicy (policyVersion : String) (policies : J)
  | updateCapabilityMatrix (matrixVersion matrixSha256 : String) (matrix : V)
  | selfUpdate (version url sha256 signature : String)

structure CommandDeliverPayload (J V : Type) where
  cmdId : String
  issuedAt : Int
  expiresAt : Int
  attempt : Option Int
  command : Command J V

/-! ## What the ports are handed -/

structure SmsSend where
  recipient : String
  body : String
  modemImei : Option String
  iccid : Option String

structure ApnWrite where
  imei : String
  cid : Nat
  pdpType : Option String
  apn : String
  username : Option String
  password : Option String
  auth : Option String

/-- One call of an action of `SendPort`, under the trait's names. -/
inductive PortAction (J : Type) where
  | sendSms (send : SmsSend)
  | restartModem (imei : String)
  | runAt (imei command : String) (timeoutMs : Option Int) (force : Bool)
  | sendUssd (imei code stage : String)
  | setRadio (imei : String) (enabled : Bool)
  | configureApn (request : ApnWrite)
  | renameEsimProfile (imei iccid nickname : String)
  | disableEsimProfile (imei iccid : String)
  | deleteEsimProfile (imei iccid : String)
  | claimModemCandidate (candidateKey : String)
  | revokeModemCandidate (candidateKey : String)
  | registerModem (imei : String) (note : Option String)
  | unregisterModem (imei : String)
  | createModem (imei family : String) (note : Option String)
  | updateModem (imei : String) (note : Option String)
  | reconfirmModem (imei : String)
  | readLogs (after limit : Option Nat) (contains : Option String)
  | scanOperators (imei : String)
  | selectOperator (imei mode : String) (plmn : Option String)
  | modemReport (imei : String)
  | resetUsb (imei : String)
  | setDataNetwork (imei : String) (enabled : Bool)
  | setUsbnetMode (imei mode : String)
  | reregisterNetwork (imei : String)
  | refreshModems
  | updateCardPolicies (policyVersion : String) (policies : J)
  | listEsimProfiles (imei : String)
  | switchEsimProfile (imei targetIccid : String)
  | readEsimInfo (imei : String)
  | retrieveEsimNotification (imei : String) (sequenceNumber : Int)
  | initiateEsimAuthentication (imei : String) (smdpAddress : Option String)
  | downloadEsimProfile (imei activationCode : String) (confirmationCode : Option String)
  | configureProxy (instances upstreams : J)
  | proxyLifecycle (instanceId action : String)
  | probeUpstreamProxy (upstreamId : String)
  | rotateIp (imei : String)

structure SelfUpdateRequest where
  version : String
  url : String
  sha256 : String
  signature : String

structure SendError (J : Type) where
  reasonCode : String
  message : String
  details : Option J
deriving DecidableEq

def SendError.new {J : Type} (reasonCode message : String) : SendError J :=
  ⟨reasonCode, message, none⟩

/-- The actions of a send port; one that returns nothing is one the process
did not survive. -/
class SendPort (P : Type) (J C : outParam Type) where
  perform : P → PortAction J → Option (Except (SendError J) J) × P
  operatingContext : P → Option String → Option (Except (SendError J) C) × P
  persistCapabilityMatrix : P → String → String → String →
    Option (Except (SendError J) Unit) × P

/-- Stages a new edge binary, with the same convention. -/
class UpdatePort (U : Type) (J : outParam Type) where
  stage : U → SelfUpdateRequest → Option (Except (SendError J) Unit) × U
  restore : U → String → Option (Except (SendError J) Unit) × U
  current : U → String

/-! ## Answers -/

structure CommandReceiptPayload where
  cmdId : String
  deliveryId : String
  status : String
  receivedAt : Int
  retryAfterMs : Option Int
  reasonCode : Option String

structure CommandResultPayload (V : Type) where
  cmdId : String
  status : String
  completedAt : Int
  attempts : Int
  reasonCode : Option String
  reason : Option String
  details : Option V

structure EsimProfile where
  iccid : String
  state : String
  nickname : Option String

structure EsimInventoryPayload where
  modemImei : String
  eid : String
  collectedAt : Int
  profiles : List EsimProfile

/-- Receipt plus the sequenced terminal result of one delivery. -/
structure DeliveryOutcome (V : Type) where
  receipt : CommandReceiptPayload
  result : CommandResultPayload V
  resultSequence : Nat
  executed : Bool
  inventory : Option EsimInventoryPayload

inductive CommandError where
  | emptyCmdId
  | emptyDeliveryId
  | unexpectedKind (kind : String)
  | invalidEnvelope (reason : String)
  | uplink (error : UplinkError)
  | journal (reason : String)

end VodogeEdge
