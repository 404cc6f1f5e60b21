import VodogeEdge.Chunks
import VodogeEdge.EsimReads

/-!
# The download half of ES10b

The requests a profile installation sends to the eUICC and the answers it
reads, of `es10c`: `STORE DATA` chains, `AuthenticateServer`,
`PrepareDownload`, the pieces of a Bound Profile Package and its
installation result, `CancelSession`, and the `StoreMetadataRequest` that
says what the profile is before any of it is released.
-/

namespace VodogeEdge.Esim

/-- `char::to_digit`, for radices of at most 36. -/
def toDigit (radix : Nat) (c : Char) : Option Nat :=
  let digit :=
    if '0' ≤ c ∧ c ≤ '9' then some (c.toNat - '0'.toNat)
    else if 'a' ≤ c ∧ c ≤ 'z' then some (c.toNat - 'a'.toNat + 10)
    else if 'A' ≤ c ∧ c ≤ 'Z' then some (c.toNat - 'A'.toNat + 10)
    else none
  digit.filter (· < radix)

/-! ## `STORE DATA` -/

def storeDataBlockBytes : Nat := 255

def maxStoreDataBlocks : Nat := 256

def maxStoreDataBytes : Nat := storeDataBlockBytes * maxStoreDataBlocks

/-- `store_data_chain`: `P1` says whether more blocks follow, `P2` counts
them. -/
def storeDataChain (payload : Bytes) : Except Es10cError (List Bytes) :=
  if payload.isEmpty then .error .emptyPayload
  else if maxStoreDataBytes < payload.length then
    .error (.payloadTooLarge payload.length maxStoreDataBytes)
  else
    let blocks := chunks storeDataBlockBytes payload
    let last := blocks.length - 1
    .ok (blocks.zipIdx.map fun (block, index) =>
      [0x80, 0xe2, if index = last then 0x91 else 0x11, UInt8.ofNat index,
        UInt8.ofNat block.length] ++ block)

/-! ## Integers -/

def toBeBytes (value : Nat) : Bytes :=
  (List.range 8).map fun i => UInt8.ofNat (value >>> (8 * (7 - i)))

def minimalInteger (value : Nat) : Bytes :=
  let bytes := toBeBytes value
  bytes.drop ((bytes.findIdx? (· ≠ 0)).getD 7)

/-! ## Answers with two alternatives

`[0]` is the success case of every ES10b response, `[1]` the error case. The
response is returned verbatim, as it travels on to the SM-DP+. -/

def parseChoice (tag : Bytes) (refusal : Bytes → Es10cError) (response : Bytes) :
    Except Es10cError Bytes := do
  let whole ← firstTlv response
  let body ← expectTag whole tag
  let (choice, _) ← readTlv body
  match choice.tag with
  | [0xa0] => .ok whole
  | [0xa1] => .error (refusal choice.value)
  | tag => .error (.unexpectedTag [0xa0] tag)

/-- The error for the code in `[1]`; without one it is the undefined error. -/
def refusalCode (refused : Nat → Es10cError) (value : Bytes) : Es10cError :=
  match findTag value [0x81] with
  | none => refused 127
  | some code =>
    match integer code with
    | .error error => error
    | .ok code => refused code

/-! ## `AuthenticateServer` -/

def tagAuthenticateServer : Bytes := [0xbf, 0x38]

/-- The type allocation code of an IMEI: its first eight digits, packed. -/
def tacFromImei (imei : String) : Except Es10cError Bytes :=
  match (imei.toList.filter fun c => !isWhitespace c).mapM (toDigit 10) with
  | none => .error .invalidImei
  | some digits =>
    if digits.length < 8 then .error .invalidImei
    else .ok ((chunks 2 (digits.take 8)).map fun pair =>
      UInt8.ofNat (pair.getD 0 0 <<< 4 ||| pair.getD 1 0))

def authenticateServerPayload (serverSigned1 serverSignature1 euiccCiPkid serverCertificate :
    Bytes) (matchingId : Option String) (tac : Bytes) :
    Except Es10cError Bytes := do
  let matching := match matchingId with
    | some id => wrap [0x80] (utf8 id.toList)
    | none => []
  -- the type allocation code, then an empty `DeviceCapabilities`
  let deviceInfo := wrap [0xa1] (wrap [0x80] tac ++ wrap [0xa1] [])
  let signed ← firstTlv serverSigned1
  let signature ← firstTlv serverSignature1
  let pkid ← firstTlv euiccCiPkid
  let certificate ← firstTlv serverCertificate
  .ok (wrap tagAuthenticateServer
    (signed ++ signature ++ pkid ++ certificate ++ wrap [0xa0] (matching ++ deviceInfo)))

def authenticateError : Nat → String
  | 1 => "invalidCertificate"
  | 2 => "invalidSignature"
  | 3 => "unsupportedCurve"
  | 4 => "noSessionContext"
  | 5 => "invalidOid"
  | 6 => "euiccChallengeMismatch"
  | 7 => "ciPKUnknown"
  | 127 => "undefinedError"
  | _ => "unknown error code"

def parseAuthenticateServerResponse : Bytes → Except Es10cError Bytes :=
  parseChoice tagAuthenticateServer
    (refusalCode fun code => .authenticationRefused code (authenticateError code))

/-! ## `PrepareDownload` -/

def tagPrepareDownload : Bytes := [0xbf, 0x21]

def confirmationCodeRequired (smdpSigned2 : Bytes) : Except Es10cError Bool := do
  let whole ← firstTlv smdpSigned2
  let (signed, _) ← readTlv whole
  match findTag signed.value [0x01] with
  | some value => .ok (value.headD 0 ≠ 0)
  | none => .ok false

def smdpSigned2TransactionId (smdpSigned2 : Bytes) : Except Es10cError Bytes := do
  let whole ← firstTlv smdpSigned2
  let (signed, _) ← readTlv whole
  match findTag signed.value [0x80] with
  | some value => .ok value
  | none => .error (.missingField "smdpSigned2.transactionId")

def prepareDownloadPayload (smdpSigned2 smdpSignature2 smdpCertificate : Bytes)
    (hashCc : Option Bytes) : Except Es10cError Bytes := do
  let signed ← firstTlv smdpSigned2
  let signature ← firstTlv smdpSignature2
  let hash := match hashCc with
    | some hash => wrap [0x04] hash
    | none => []
  let certificate ← firstTlv smdpCertificate
  .ok (wrap tagPrepareDownload (signed ++ signature ++ hash ++ certificate))

def downloadError : Nat → String
  | 1 => "invalidCertificate"
  | 2 => "invalidSignature"
  | 3 => "unsupportedCurve"
  | 4 => "noSessionContext"
  | 5 => "invalidTransactionId"
  | 127 => "undefinedError"
  | _ => "unknown error code"

def parsePrepareDownloadResponse : Bytes → Except Es10cError Bytes :=
  parseChoice tagPrepareDownload
    (refusalCode fun code => .downloadRefused code (downloadError code))

/-! ## Profile metadata -/

def tagStoreMetadata : Bytes := [0xbf, 0x25]

/-- What an SM-DP+ says a profile is, before the profile itself is released. -/
structure ProfileMetadata where
  iccid : Option String := none
  serviceProviderName : Option String := none
  profileName : Option String := none
  /-- 0 test, 1 provisioning, 2 operational -/
  profileClass : Option UInt8 := none
  policyRules : List String := []
  raw : Bytes := []

/-- `ppr1` forbids disabling the profile, `ppr2` forbids deleting it. -/
def ProfileMetadata.irreversiblePolicyRules (metadata : ProfileMetadata) : List String :=
  metadata.policyRules.filter fun rule => rule = "ppr1" ∨ rule = "ppr2"

/-- What the loop of `parse_profile_metadata` does with one child: a field
that comes twice keeps its last value. -/
def ProfileMetadata.assign (metadata : ProfileMetadata) (child : Tlv) : ProfileMetadata :=
  match child.tag with
  | [0x5a] => { metadata with iccid := (decodeIccid child.value).toOption }
  | [0x91] => { metadata with serviceProviderName := text child.value }
  | [0x92] => { metadata with profileName := text child.value }
  | [0x95] => { metadata with profileClass := child.value.head? }
  | [0x99] => { metadata with policyRules := namedBits child.value pprIds }
  | _ => metadata

def parseProfileMetadata (bytes : Bytes) : Except Es10cError ProfileMetadata := do
  let whole ← firstTlv bytes
  let body ← expectTag whole tagStoreMetadata
  walk (fun metadata child => .ok (metadata.assign child)) { raw := whole } body

/-! ## The Bound Profile Package -/

def tagBoundProfilePackage : Bytes := [0xbf, 0x36]

def tagInitialiseSecureChannel : Bytes := [0xbf, 0x23]

/-- One piece of a Bound Profile Package as it has to reach the eUICC. -/
structure BppSegment where
  label : String
  bytes : Bytes
deriving DecidableEq

structure BppSplit where
  segments : List BppSegment
  seenFirst87 : Bool := false
  seen88 : Bool := false
  seen86 : Bool := false

/-- The two sequences that travel as a header and one segment for each
member. -/
def splitMembers (name member : String) (element : Tlv) : Except Es10cError (List BppSegment) := do
  let header := element.raw.take (element.raw.length - element.value.length)
  let members ← walk (fun (members : List BppSegment) child =>
    .ok (members ++ [⟨member ++ "[" ++ toString members.length ++ "]", child.raw⟩])) []
    element.value
  .ok (⟨name ++ " header", header⟩ :: members)

def splitElement (split : BppSplit) (element : Tlv) : Except Es10cError BppSplit :=
  match element.tag with
  | [0xa0] | [0xa2] =>
    let label := if split.seenFirst87 then "secondSequenceOf87" else "firstSequenceOf87"
    .ok { split with
      segments := split.segments ++ [⟨label, element.raw⟩]
      seenFirst87 := true }
  | [0xa1] => do
    let segments ← splitMembers "sequenceOf88" "88" element
    .ok { split with segments := split.segments ++ segments, seen88 := true }
  | [0xa3] => do
    let segments ← splitMembers "sequenceOf86" "86" element
    .ok { split with segments := split.segments ++ segments, seen86 := true }
  | tag => .error (.unexpectedTag [0xa0, 0xa1, 0xa2, 0xa3] tag)

def boundProfilePackageSegments (bpp : Bytes) : Except Es10cError (List BppSegment) := do
  let whole ← firstTlv bpp
  let (package, _) ← readTlv whole
  if package.tag ≠ tagBoundProfilePackage then
    .error (.unexpectedTag tagBoundProfilePackage package.tag)
  else
    let header := whole.take (whole.length - package.value.length)
    let (secureChannel, rest) ← readTlv package.value
    if secureChannel.tag ≠ tagInitialiseSecureChannel then
      .error (.unexpectedTag tagInitialiseSecureChannel secureChannel.tag)
    else
      let split ← walk splitElement
        { segments := [⟨"header+initialiseSecureChannelRequest", header ++ secureChannel.raw⟩] }
        rest
      if !split.seenFirst87 || !split.seen88 || !split.seen86 then
        .error (.missingField "boundProfilePackage element")
      else .ok split.segments

/-! ## The installation result -/

def tagInstallationResult : Bytes := [0xbf, 0x37]

def tagInstallationResultData : Bytes := [0xbf, 0x27]

structure InstallationResult where
  success : Bool := false
  sequenceNumber : Option Nat := none
  iccid : Option String := none
  bppCommand : Option String := none
  errorReason : Option String := none
  /-- the whole structure, which is also the notification to deliver -/
  notification : Bytes := []

def bppCommand : Nat → String
  | 0 => "initialiseSecureChannel"
  | 1 => "configureISDP"
  | 2 => "storeMetadata"
  | 3 => "storeMetadata2"
  | 4 => "replaceSessionKeys"
  | 5 => "loadProfileElements"
  | _ => "unknown BPP command"

def installationError : Nat → String
  | 1 => "incorrectInputValues"
  | 2 => "invalidSignature"
  | 3 => "invalidTransactionId"
  | 4 => "unsupportedCrtValues"
  | 5 => "unsupportedRemoteOperationType"
  | 6 => "unsupportedProfileClass"
  | 7 => "scp03tStructureError"
  | 8 => "scp03tSecurityError"
  | 9 => "installFailedDueToIccidAlreadyExistsOnEuicc"
  | 10 => "installFailedDueToInsufficientMemoryForProfile"
  | 11 => "installFailedDueToInterruption"
  | 12 => "installFailedDueToPEProcessingError"
  | 13 => "installFailedDueToDataMismatch"
  | 14 => "testProfileInstallFailedDueToInvalidNaaKey"
  | 15 => "pprNotAllowed"
  | 127 => "installFailedDueToUnknownError"
  | _ => "unknown error reason"

/-- `find_tag(body, tag).map(integer).transpose()?`. -/
def findInteger (body tag : Bytes) : Except Es10cError (Option Nat) :=
  match findTag body tag with
  | none => .ok none
  | some value => (integer value).map some

/-- `find_tag(body, tag).ok_or(MissingField { name })?`. -/
def requireTag (body tag : Bytes) (name : String) : Except Es10cError Bytes :=
  match findTag body tag with
  | none => .error (.missingField name)
  | some value => .ok value

def parseInstallationResult (response : Bytes) : Except Es10cError InstallationResult := do
  let whole ← firstTlv response
  let body ← expectTag whole tagInstallationResult
  let data ← expectTag body tagInstallationResultData
  let metadata ← requireTag data tagNotificationMetadata "notificationMetadata"
  let finalResult ← requireTag data [0xa2] "finalResult"
  let sequenceNumber ← findInteger metadata [0x80]
  let result : InstallationResult :=
    { sequenceNumber
      iccid := (findTag metadata [0x5a]).bind fun value => (decodeIccid value).toOption
      notification := whole }
  let (choice, _) ← readTlv finalResult
  match choice.tag with
  | [0xa0] => .ok { result with success := true }
  | [0xa1] => do
    let command ← findInteger choice.value [0x80]
    let reason ← findInteger choice.value [0x81]
    .ok { result with
      bppCommand := command.map bppCommand
      errorReason := reason.map installationError }
  | tag => .error (.unexpectedTag [0xa0] tag)

/-! ## `RemoveNotificationFromList` and `CancelSession` -/

def tagNotificationSent : Bytes := [0xbf, 0x30]

def removeNotificationPayload (sequenceNumber : Nat) : Bytes :=
  wrap tagNotificationSent (wrap [0x80] (minimalInteger sequenceNumber))

def parseRemoveNotificationResponse (response : Bytes) : Except Es10cError Nat := do
  let whole ← firstTlv response
  let body ← expectTag whole tagNotificationSent
  let (code, _) ← readTlv body
  if code.tag ≠ [0x80] then .error (.unexpectedTag [0x80] code.tag) else integer code.value

inductive CancelSessionReason where
  | endUserRejection
  | postponed
  | timeout
  | pprNotAllowed
  | metadataMismatch
  | loadBppExecutionError
  | undefinedReason

namespace CancelSessionReason

def code : CancelSessionReason → UInt8
  | .endUserRejection => 0
  | .postponed => 1
  | .timeout => 2
  | .pprNotAllowed => 3
  | .metadataMismatch => 4
  | .loadBppExecutionError => 5
  | .undefinedReason => 16

def label : CancelSessionReason → String
  | .endUserRejection => "endUserRejection"
  | .postponed => "postponed"
  | .timeout => "timeout"
  | .pprNotAllowed => "pprNotAllowed"
  | .metadataMismatch => "metadataMismatch"
  | .loadBppExecutionError => "loadBppExecutionError"
  | .undefinedReason => "undefinedReason"

end CancelSessionReason

def tagCancelSession : Bytes := [0xbf, 0x41]

def cancelSessionPayload (transactionId : Bytes) (reason : CancelSessionReason) : Bytes :=
  wrap tagCancelSession (wrap [0x80] transactionId ++ wrap [0x81] [reason.code])

def parseCancelSessionResponse : Bytes → Except Es10cError Bytes :=
  parseChoice tagCancelSession fun _ => .sessionNotCancelled

end VodogeEdge.Esim
