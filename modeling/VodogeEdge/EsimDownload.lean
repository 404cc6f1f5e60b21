import VodogeEdge.Apdu
import VodogeEdge.EsimCommands
import VodogeEdge.Logged

/-!
# One profile download

`run_download` of `IsdrSession`: one eUICC and one SM-DP+, from the first
read of the chip to the notification that the profile arrived. The chip and
the server are arbitrary: the chip answers by all it has been sent, and the
server is asked each question once. What is sent to the chip is logged, one
`Exchange` for each request, with the blocks that left before one was
refused.

The run is cut where the chip has agreed to the server: `openSession` leads
there, `completeDownload` goes on from it.
-/

namespace VodogeEdge.Esim

/-! ## The two ends -/

structure Es9pError where
  /-- as it prints -/
  message : String
deriving DecidableEq

/-- Why a run ends. -/
inductive SessionError where
  | transport (message : String)
  | uim (error : UimError)
  | es10c (error : Es10cError)
  | es9p (error : Es9pError)
deriving DecidableEq

def SessionError.display : SessionError → String
  | .transport message => "QMI transport error: " ++ message
  | .uim error => error.display
  | .es10c error => error.display
  | .es9p error => error.message

structure EuiccSnapshot where
  freeNonVolatileMemory : Option Nat := none
  profiles : List Profile := []
  notifications : List NotificationMetadata := []

inductive Reading where
  | eid
  | eidData
  | euiccInfo1
  | euiccInfo2
  | euiccChallenge
  | profiles
  | notifications

inductive Command where
  | read (what : Reading)
  | authenticateServer (transactionId : Bytes)
  | prepareDownload
  | loadSegment (label : String)
  | removeNotification (sequenceNumber : Nat)
  | cancelSession (transactionId : Bytes) (reason : CancelSessionReason)

/-- A request to the chip and what left for it. -/
structure Exchange where
  command : Command
  payload : Bytes
  /-- the blocks of it that were sent -/
  blocks : List Bytes
  /-- all APDUs sent for it, those that ask for the rest of an answer included -/
  apdus : List Bytes
  answer : Except SessionError Bytes

def apdus (log : List Exchange) : List Bytes := log.flatMap Exchange.apdus

structure Card where
  slot : UInt8
  /-- `send_apdu`: the answer to the last of these APDUs, or why there is none -/
  sendApdu : List Bytes → Except String ApduResponse

structure Verification where
  trustAnchorLabel : String := ""
  trustAnchorKeyId : String := ""
  certificateKeyId : String := ""
  certificateAuthorityKeyId : String := ""
  certificateSha256 : String := ""
  certificateNotAfter : String := ""
  certificateSignedByCi : Bool := false
  serverSignatureValid : Bool := false
  challengeEchoed : Bool := false

structure AuthenticationStart where
  transactionId : String
  /-- the same exactly as the server wrote it -/
  transactionIdRaw : String
  serverSigned1 : Bytes
  serverSignature1 : Bytes
  serverCertificate : Bytes
  euiccCiPkidToBeUsed : String
  euiccCiPkidDer : Bytes
  serverChallenge : String
  echoedEuiccChallenge : String
  httpStatus : UInt16
  adminProtocol : Option String
  negotiatedTls : Option String
  elapsedMs : UInt64
  verification : Verification

structure ClientAuthentication where
  profileMetadata : Bytes
  smdpSigned2 : Bytes
  smdpSignature2 : Bytes
  smdpCertificate : Bytes
  httpStatus : UInt16
  elapsedMs : UInt64

structure BoundProfile where
  package : Bytes
  httpStatus : UInt16
  elapsedMs : UInt64

structure Acknowledgement where
  httpStatus : UInt16
  elapsedMs : UInt64

/-- The SM-DP+, one answer to each question. -/
structure Server where
  initiateAuthentication (address : String) (challenge info1 : Bytes) :
    Except Es9pError AuthenticationStart
  authenticateClient (address transactionId : String) (response : Bytes) :
    Except Es9pError ClientAuthentication
  getBoundProfilePackage (address transactionId : String) (prepared : Bytes) :
    Except Es9pError BoundProfile
  handleNotification (address : String) (notification : Bytes) :
    Except Es9pError Acknowledgement
  cancelSession (address transactionId : String) (response : Bytes) :
    Except Es9pError Acknowledgement

/-! ## Requests -/

abbrev Session (α : Type) := Logged Exchange SessionError α

variable (server : Server) (card : Card) (hash : String → Bytes → Bytes)

def Card.askForMore (apdus : List Bytes) : Except SessionError ApduResponse :=
  (card.sendApdu apdus).mapError fun error => .transport ("GET RESPONSE: " ++ error)

def Card.askedForTooMany (rounds : Nat) : SessionError :=
  .transport ("eUICC on slot " ++ toString card.slot.toNat ++ " asked for more than "
    ++ toString rounds ++ " GET RESPONSE rounds")

/-- `transmit`: one APDU, and the rest of its answer while the card says
`61 xx`. -/
def transmit (history : List Bytes) (apdu : Bytes) :
    Except SessionError ApduResponse × List Bytes :=
  match card.sendApdu (history ++ [apdu]) with
  | .error error => (.error (.transport ("ES10 command: " ++ error)), [apdu])
  | .ok first =>
    let (response, sent) := drainGetResponse card.askForMore card.askedForTooMany
      maxGetResponseRounds (history ++ [apdu]) first
    (response, apdu :: sent)

/-- The blocks of a chain one after the other, until one is refused: the
data of the last response, the blocks that were sent, and all APDUs. -/
def sendChain (card : Card) (history : List Bytes) :
    List Bytes → Except SessionError Bytes × List Bytes × List Bytes
  | [] => (.ok [], [], [])
  | apdu :: rest =>
    match transmit card history apdu with
    | (.error error, sent) => (.error error, [apdu], sent)
    | (.ok response, sent) =>
      if !response.isSuccess then
        (.error (.uim (.apduFailed response.sw1 response.sw2)), [apdu], sent)
      else if rest.isEmpty then (.ok response.data, [apdu], sent)
      else
        let (answer, blocks, more) := sendChain card (history ++ sent) rest
        (answer, apdu :: blocks, sent ++ more)

/-- `execute_counted`: one request, and how many blocks it took. -/
def executeCounted (command : Command) (payload : Bytes) : Session (Bytes × Nat) where
  run log :=
    match storeDataChain payload with
    | .error error => (.error (.es10c error), log)
    | .ok chain =>
      let (answer, blocks, sent) := sendChain card (apdus log) chain
      (answer.map (·, chain.length), log ++ [⟨command, payload, blocks, sent, answer⟩])
  keeps log := by
    split
    · exact List.prefix_rfl
    · exact List.prefix_append _ _

def execute (command : Command) (payload : Bytes) : Session Bytes := do
  let (answer, _) ← executeCounted card command payload
  pure answer

/-- `transmit` of the one APDU that is not part of a chain. -/
def getEidData : Session ApduResponse where
  run log :=
    let (response, sent) := transmit card (apdus log) getEidApdu
    (response,
      log ++ [⟨.read .eidData, getEidApdu, [getEidApdu], sent, response.map ApduResponse.data⟩])
  keeps _ := List.prefix_append _ _

/-- `?` on an `Es10cError`. -/
def es10c {α : Type} (result : Except Es10cError α) : Session α :=
  .ofExcept (result.mapError .es10c)

def es9p {α : Type} (result : Except Es9pError α) : Session α :=
  .ofExcept (result.mapError .es9p)

/-! ## Reads -/

def request {α : Type} (what : Reading) (payload : Bytes)
    (parse : Bytes → Except Es10cError α) : Session α := do
  let bytes ← execute card (.read what) payload
  es10c (parse bytes)

def parseEid (response : ApduResponse) : Except UimError String := do
  if !response.isSuccess && response.sw1 ≠ 0x61 then
    .error (.apduFailed response.sw1 response.sw2)
  else
    let bytes ← eidBytes response.data
    if bytes.length ≠ 16 then .error (.unexpectedEidLength bytes.length) else .ok (bcdDigits bytes)

/-- `read_eid`: the ES10c form first; if the other form does not work
either, the first error is the one reported. -/
def readEid : Session String := do
  match ← (request card .eid getEidPayload parseEidResponse).attempt with
  | .ok eid => pure eid
  | .error first =>
    match ← (getEidData card).attempt with
    | .ok response =>
      if response.isSuccess then .ofExcept ((parseEid response).mapError .uim)
      else .ofExcept (.error first)
    | .error _ => .ofExcept (.error first)

def euiccInfo2 : Session EuiccInfo2 :=
  request card .euiccInfo2 euiccInfo2Payload parseEuiccInfo2

def euiccChallenge : Session Bytes :=
  request card .euiccChallenge euiccChallengePayload parseEuiccChallenge

def euiccInfo1 : Session EuiccInfo1 :=
  request card .euiccInfo1 euiccInfo1Payload parseEuiccInfo1

def listNotifications : Session (List NotificationMetadata) :=
  request card .notifications listNotificationPayload parseNotificationMetadataList

def listProfiles : Session (List Profile) :=
  request card .profiles getProfilesPayload parseProfiles

/-- The chip before and after a run. -/
def snapshot : Session EuiccSnapshot := do
  let info2 ← euiccInfo2 card
  let profiles ← listProfiles card
  let notifications ← listNotifications card
  pure { freeNonVolatileMemory := info2.freeNonVolatileMemory, profiles, notifications }

/-! ## The steps of a download -/

/-- `hex_bytes`: anything that is not hexadecimal is skipped. -/
def hexBytes (text : String) : Bytes :=
  (chunks 2 (text.toList.filterMap (toDigit 16))).map fun pair =>
    UInt8.ofNat (pair.getD 0 0 <<< 4 ||| pair.getD 1 0)

/-- The chip judges the server. -/
def authenticateServer (start : AuthenticationStart) (matchingId : Option String) (imei : String) :
    Session (Bytes × Nat) := do
  let tac ← es10c (tacFromImei imei)
  let payload ← es10c (authenticateServerPayload start.serverSigned1 start.serverSignature1
    start.euiccCiPkidDer start.serverCertificate matchingId tac)
  let (bytes, blocks) ← executeCounted card
    (.authenticateServer (hexBytes start.transactionIdRaw)) payload
  let response ← es10c (parseAuthenticateServerResponse bytes)
  pure (response, blocks)

/-- The request of `prepare_download`; `hash` is `hash_confirmation_code`. -/
def prepareDownloadRequest (authentication : ClientAuthentication)
    (confirmationCode : Option String) : Except SessionError Bytes := do
  let required ← (confirmationCodeRequired authentication.smdpSigned2).mapError .es10c
  let hashCc ←
    if required then
      match confirmationCode with
      | none =>
        .error (.transport "the SM-DP+ requires a confirmation code and none was supplied")
      | some code => do
        let transactionId ←
          (smdpSigned2TransactionId authentication.smdpSigned2).mapError .es10c
        .ok (some (hash code transactionId))
    else .ok none
  (prepareDownloadPayload authentication.smdpSigned2 authentication.smdpSignature2
    authentication.smdpCertificate hashCc).mapError .es10c

/-- The chip agrees to the profile. -/
def prepareDownload (authentication : ClientAuthentication) (confirmationCode : Option String) :
    Session (Bytes × Nat) := do
  let payload ← .ofExcept (prepareDownloadRequest hash authentication confirmationCode)
  let (bytes, blocks) ← executeCounted card .prepareDownload payload
  let response ← es10c (parsePrepareDownloadResponse bytes)
  pure (response, blocks)

/-- One `STORE DATA` chain that carried a piece of a package. -/
structure SegmentTransfer where
  label : String
  bytes : Nat
  blocks : Nat

/-- The loop of `load_bound_profile_package`: the first answer with bytes in
it is the installation result, and the transfer is over. -/
def loadSegments (card : Card) : List SegmentTransfer → List BppSegment →
    Session (InstallationResult × List SegmentTransfer)
  | _, [] => .ofExcept (.error (.transport
      ("the eUICC accepted every segment of the profile package without "
        ++ "returning a ProfileInstallationResult")))
  | transfers, segment :: rest => do
    let (answer, blocks) ← executeCounted card (.loadSegment segment.label) segment.bytes
    let transfers := transfers ++ [⟨segment.label, segment.bytes.length, blocks⟩]
    if !answer.isEmpty then do
      let result ← es10c (parseInstallationResult answer)
      pure (result, transfers)
    else loadSegments card transfers rest

def loadBoundProfilePackage (package : Bytes) :
    Session (InstallationResult × List SegmentTransfer) := do
  let segments ← es10c (boundProfilePackageSegments package)
  loadSegments card [] segments

def removeNotification (sequenceNumber : Nat) : Session Nat := do
  let bytes ← execute card (.removeNotification sequenceNumber)
    (removeNotificationPayload sequenceNumber)
  es10c (parseRemoveNotificationResponse bytes)

/-- The chip ends the session. -/
def cancelSession (transactionId : Bytes) (reason : CancelSessionReason) : Session Bytes := do
  let bytes ← execute card (.cancelSession transactionId reason)
    (cancelSessionPayload transactionId reason)
  es10c (parseCancelSessionResponse bytes)

/-! ## The download -/

structure DownloadRequest where
  smdpAddress : String
  matchingId : Option String
  confirmationCode : Option String
  imei : String

structure HttpStep where
  step : String
  httpStatus : UInt16
  elapsedMs : UInt64

/-- All a run reports. -/
structure DownloadOutcome where
  eid : String := ""
  smdpAddress : String := ""
  transactionId : String := ""
  matchingIdPresent : Bool := false
  before : EuiccSnapshot := {}
  after : Option EuiccSnapshot := none
  euiccChallenge : Bytes := []
  echoedEuiccChallenge : String := ""
  serverChallenge : String := ""
  euiccCiPkidToBeUsed : String := ""
  chipCiKeyIds : List String := []
  ciKeyAcceptedByChip : Bool := false
  verification : Verification := {}
  negotiatedTls : Option String := none
  adminProtocol : Option String := none
  http : List HttpStep := []
  metadata : Option ProfileMetadata := none
  refusedPolicyRules : List String := []
  confirmationCodeRequired : Bool := false
  authenticateServerBlocks : Nat := 0
  prepareDownloadBlocks : Nat := 0
  bppBytes : Nat := 0
  bppSegments : List SegmentTransfer := []
  bppBlocks : Nat := 0
  installed : Bool := false
  installation : Option InstallationResult := none
  notificationDelivered : Bool := false
  notificationBytes : Nat := 0
  notificationDeliveryError : Option String := none
  notificationRemoved : Option Nat := none
  sessionCancelled : Option String := none
  cancelError : Option String := none
  stoppedAfter : Option String := none

variable (request : DownloadRequest)

def startSession : Session (DownloadOutcome × AuthenticationStart) := do
  let eid ← readEid card
  let before ← snapshot card
  let challenge ← euiccChallenge card
  let info1 ← euiccInfo1 card
  let start ← es9p (server.initiateAuthentication request.smdpAddress challenge info1.raw)
  pure
    ({ eid, before
       smdpAddress := request.smdpAddress
       matchingIdPresent := request.matchingId.isSome
       euiccChallenge := challenge
       chipCiKeyIds := info1.ciKeyIdsForVerification
       transactionId := start.transactionId
       echoedEuiccChallenge := start.echoedEuiccChallenge
       serverChallenge := start.serverChallenge
       euiccCiPkidToBeUsed := start.euiccCiPkidToBeUsed
       ciKeyAcceptedByChip := info1.ciKeyIdsForVerification.any (· = start.euiccCiPkidToBeUsed)
       verification := start.verification
       negotiatedTls := start.negotiatedTls
       adminProtocol := start.adminProtocol
       http := [⟨"initiateAuthentication", start.httpStatus, start.elapsedMs⟩] }, start)

structure Opened where
  outcome : DownloadOutcome
  start : AuthenticationStart
  serverResponse : Bytes

variable (opened : Opened)

def Opened.transactionBytes : Bytes := hexBytes opened.start.transactionIdRaw

/-- The run up to the chip's own verdict on the server: the server knows
nothing of the order yet. -/
def openSession : Session Opened := do
  let (outcome, start) ← startSession server card request
  let (serverResponse, blocks) ← authenticateServer card start request.matchingId request.imei
  pure ⟨{ outcome with authenticateServerBlocks := blocks }, start, serverResponse⟩

/-- `give_back_session`: what fails here is recorded, not raised. -/
def giveBackSession (outcome : DownloadOutcome) (reason : CancelSessionReason) :
    Session DownloadOutcome := do
  let outcome := { outcome with sessionCancelled := some reason.label }
  match ← (cancelSession card opened.transactionBytes reason).attempt with
  | .error error => pure { outcome with cancelError := some error.display }
  | .ok response =>
    match server.cancelSession outcome.smdpAddress opened.start.transactionIdRaw response with
    | .error error => pure { outcome with cancelError := some error.message }
    | .ok acknowledgement =>
      pure { outcome with http := outcome.http
        ++ [⟨"cancelSession", acknowledgement.httpStatus, acknowledgement.elapsedMs⟩] }

/-- The gate says no: the session is cancelled. -/
def refuseProfile (outcome : DownloadOutcome) (refused : List String) :
    Session DownloadOutcome := do
  let outcome := { outcome with
    refusedPolicyRules := refused
    stoppedAfter := some ("the profile carries " ++ " and ".intercalate refused
      ++ ", which cannot be removed once installed") }
  let outcome ← giveBackSession server card opened outcome .pprNotAllowed
  let after ← snapshot card
  pure { outcome with after := some after }

/-- The notification goes to the server, and only then off the chip. -/
def deliverNotification (installation : InstallationResult) (outcome : DownloadOutcome) :
    Session DownloadOutcome :=
  match server.handleNotification outcome.smdpAddress installation.notification with
  | .error error => pure { outcome with notificationDeliveryError := some error.message }
  | .ok acknowledgement =>
    let outcome := { outcome with
      notificationDelivered := true
      http := outcome.http
        ++ [⟨"handleNotification", acknowledgement.httpStatus, acknowledgement.elapsedMs⟩] }
    match installation.sequenceNumber with
    | none => pure outcome
    | some sequenceNumber => do
      match ← (removeNotification card sequenceNumber).attempt with
      | .ok code => pure { outcome with notificationRemoved := some code }
      | .error error => pure { outcome with
          notificationDeliveryError :=
            some ("delivered, but the card would not remove it: " ++ error.display) }

/-- From `PrepareDownload` to the notification. -/
def installProfile (opened : Opened) (authentication : ClientAuthentication)
    (outcome : DownloadOutcome) : Session DownloadOutcome := do
  let (prepared, blocks) ← prepareDownload card hash authentication request.confirmationCode
  let bound ← es9p (server.getBoundProfilePackage outcome.smdpAddress
    opened.start.transactionIdRaw prepared)
  let (installation, transfers) ← loadBoundProfilePackage card bound.package
  let outcome ← deliverNotification server card installation { outcome with
    prepareDownloadBlocks := blocks
    http := outcome.http ++ [⟨"getBoundProfilePackage", bound.httpStatus, bound.elapsedMs⟩]
    bppBytes := bound.package.length
    bppBlocks := transfers.foldl (fun blocks transfer => blocks + transfer.blocks) 0
    bppSegments := transfers
    installed := installation.success
    notificationBytes := installation.notification.length
    installation := some installation }
  let after ← snapshot card
  pure { outcome with
    after := some after
    stoppedAfter :=
      if !outcome.installed then some "the eUICC refused the profile package"
      else outcome.stoppedAfter }

def completeDownload (opened : Opened) : Session DownloadOutcome :=
  match server.authenticateClient opened.outcome.smdpAddress opened.start.transactionIdRaw
      opened.serverResponse with
  | .error error => do
    let _ ← (cancelSession card opened.transactionBytes .undefinedReason).attempt
    .ofExcept (.error (.es9p error))
  | .ok authentication => do
    let metadata ← es10c (parseProfileMetadata authentication.profileMetadata)
    let required ← es10c (confirmationCodeRequired authentication.smdpSigned2)
    let outcome := { opened.outcome with
      http := opened.outcome.http
        ++ [⟨"authenticateClient", authentication.httpStatus, authentication.elapsedMs⟩]
      confirmationCodeRequired := required
      metadata := some metadata }
    let refused := metadata.irreversiblePolicyRules
    if !refused.isEmpty then refuseProfile server card opened outcome refused
    else installProfile server card hash request opened authentication outcome

def runDownload : Session DownloadOutcome := do
  let opened ← openSession server card request
  completeDownload server card hash request opened

end VodogeEdge.Esim
