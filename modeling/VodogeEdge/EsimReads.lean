import VodogeEdge.EsimTlv
import VodogeEdge.Utf8

/-!
# What an eUICC says about itself

The reads of `es10c` that a download makes before it starts and after it
ends: the EID, `GetEUICCInfo1` and `GetEUICCInfo2`, the challenge, the
profile list and the pending notifications, with the fields they share.
-/

namespace VodogeEdge.Esim

/-! ## Fields -/

variable (response value : Bytes)

/-- The names of the bits set in a BER BIT STRING: the first byte counts the
unused bits at the end, bit zero is the most significant one. -/
def namedBits (names : List String) : List String :=
  match value with
  | [] => []
  | unused :: bytes =>
    let significant := bytes.length * 8 - unused.toNat
    ((List.range significant).filter fun bit =>
        bytes.getD (bit / 8) 0 &&& (0x80 >>> UInt8.ofNat (bit % 8)) ≠ 0).map fun bit =>
      names[bit]?.getD ("bit" ++ toString bit)

/-- The bits of a notification event, by name. -/
def notificationEvents : List String := ["install", "enable", "disable", "delete"]

def rspCapabilities : List String :=
  ["additionalProfile", "crlSupport", "rpmSupport", "testProfileSupport",
   "deviceInfoExtensibilitySupport", "serviceSpecificDataSupport", "hriServerAddressSupport",
   "serviceProviderMessageSupport"]

/-- The bits of the UICC capability, by name. -/
def uiccCapabilities : List String :=
  ["contactlessSupport", "usimSupport", "isimSupport", "csimSupport", "akaMilenage", "akaCave",
   "akaTuak128", "akaTuak256", "usimTestAlgorithm", "rfu2", "gbaAuthenUsim", "gbaAuthenISim",
   "mbmsAuthenUsim", "eapClient", "javacard", "multos", "multipleUsimSupport",
   "multipleIsimSupport", "multipleCsimSupport", "berTlvFileSupport", "dfLinkSupport", "catTp",
   "getIdentity", "profile-a-x25519", "profile-b-p256", "suciCalculatorApi"]

/-- The profile policy rules. -/
def pprIds : List String := ["pprUpdateControl", "ppr1", "ppr2"]

def version : String :=
  ".".intercalate (value.map fun byte => toString byte.toNat)

/-- A text that is not blank. -/
def text (value : Bytes) : Option String :=
  let text := trimBy isWhitespace (decodeLossy value)
  if text.isEmpty then none else some (String.ofList text)

/-- `hex(value).to_uppercase()`. -/
def hexUpper : String := (hex value).map Char.toUpper

def keyIdentifiers : Except Es10cError (List String) :=
  walk (fun out child => .ok (if child.tag = [0x04] then out ++ [hexUpper child.value] else out))
    [] value

/-- What a card read comes to. -/
inductive UimError where
  | truncatedEid
  | missingEidTag
  | unexpectedEidLength (actual : Nat)
  | emptyIccid
  | apduFailed (sw1 sw2 : UInt8)
deriving DecidableEq

/-- The text of the error. -/
def UimError.display : UimError → String
  | .truncatedEid => "EID TLV is truncated"
  | .missingEidTag => "APDU response does not contain an EID"
  | .unexpectedEidLength actual => "EID has " ++ toString actual ++ " bytes, expected 16"
  | .emptyIccid => "EF_ICCID is empty or not numeric"
  | .apduFailed sw1 sw2 => "APDU failed with SW " ++ hexPadded 2 sw1.toNat ++ hexPadded 2 sw2.toNat

/-- `decode_iccid`: nibble-swapped digits, padding removed wherever it is. -/
def decodeIccid (bytes : Bytes) : Except UimError String :=
  if bytes.isEmpty then .error .emptyIccid
  else
    let digits := (bytes.flatMap fun byte : UInt8 =>
      [Nat.digitChar (byte &&& 0x0f).toNat, Nat.digitChar (byte >>> 4).toNat]).filter (· ≠ 'f')
    if !digits.all Char.isDigit then .error .emptyIccid
    else if digits.length < 19 ∨ 20 < digits.length ∨ ¬ ['8', '9'].isPrefixOf digits then
      .error .emptyIccid
    else .ok (String.ofList digits)

/-! ## The EID -/

/-- `GetEuiccData`. -/
def tagGetEuiccData : Bytes := [0xbf, 0x3e]

def getEidPayload : Bytes := tagGetEuiccData ++ [0x03, 0x5c, 0x01, 0x5a]

/-- `GET_EID_APDU`, the GlobalPlatform form. -/
def getEidApdu : Bytes := [0x80, 0xca, 0x00, 0x5a, 0x00]

def bcdDigits (bytes : Bytes) : String :=
  String.ofList (bytes.flatMap fun byte : UInt8 =>
    [Nat.digitChar (byte >>> 4).toNat, Nat.digitChar (byte &&& 0x0f).toNat])

/-- The EID, sixteen bytes of digits. -/
def parseEidResponse : Except Es10cError String := do
  let body ← expectTag response tagGetEuiccData
  let (eid, _) ← readTlv body
  if eid.tag ≠ [0x5a] then .error (.unexpectedTag [0x5a] eid.tag)
  else if eid.value.length ≠ 16 then .error .truncated
  else .ok (bcdDigits eid.value)

/-- `eid_bytes`: with its tag and length, or bare. -/
def eidBytes (data : Bytes) : Except UimError Bytes :=
  match data with
  | 0x5a :: length :: rest =>
    if length.toNat ≤ rest.length then .ok (rest.take length.toNat) else .error .truncatedEid
  | _ => if data.length = 16 then .ok data else .error .missingEidTag

/-! ## Chip information -/

/-- `GetEUICCInfo2`. -/
def tagEuiccInfo2 : Bytes := [0xbf, 0x22]

def euiccInfo2Payload : Bytes := tagEuiccInfo2 ++ [0x00]

/-- What the chip says about itself. -/
structure EuiccInfo2 where
  profileVersion : Option String := none
  svn : Option String := none
  firmwareVersion : Option String := none
  installedApplications : Option Nat := none
  freeNonVolatileMemory : Option Nat := none
  freeVolatileMemory : Option Nat := none
  uiccCapabilities : List String := []
  ts102241Version : Option String := none
  globalPlatformVersion : Option String := none
  rspCapabilities : List String := []
  ciKeyIdsForVerification : List String := []
  ciKeyIdsForSigning : List String := []
  category : Option Nat := none
  forbiddenProfilePolicyRules : List String := []
  ppVersion : Option String := none
  sasAccreditationNumber : Option String := none

/-- The memory that is left. -/
def readCardResource (info : EuiccInfo2) : Except Es10cError EuiccInfo2 :=
  walk (fun info child =>
    match child.tag with
    | [0x81] => do .ok { info with installedApplications := some (← integer child.value) }
    | [0x82] => do .ok { info with freeNonVolatileMemory := some (← integer child.value) }
    | [0x83] => do .ok { info with freeVolatileMemory := some (← integer child.value) }
    | _ => .ok info) info value

/-- One child, by its tag. -/
def EuiccInfo2.assign (info : EuiccInfo2) (child : Tlv) : Except Es10cError EuiccInfo2 :=
  match child.tag with
  | [0x81] => .ok { info with profileVersion := some (version child.value) }
  | [0x82] => .ok { info with svn := some (version child.value) }
  | [0x83] => .ok { info with firmwareVersion := some (version child.value) }
  | [0x84] => readCardResource child.value info
  | [0x85] => .ok { info with uiccCapabilities := namedBits child.value Esim.uiccCapabilities }
  | [0x86] => .ok { info with ts102241Version := some (version child.value) }
  | [0x87] => .ok { info with globalPlatformVersion := some (version child.value) }
  | [0x88] => .ok { info with rspCapabilities := namedBits child.value Esim.rspCapabilities }
  | [0xa9] => do .ok { info with ciKeyIdsForVerification := ← keyIdentifiers child.value }
  | [0xaa] => do .ok { info with ciKeyIdsForSigning := ← keyIdentifiers child.value }
  | [0x8b] => do .ok { info with category := some (← integer child.value) }
  | [0x99] => .ok { info with forbiddenProfilePolicyRules := namedBits child.value pprIds }
  | [0x04] => .ok { info with ppVersion := some (version child.value) }
  | [0x0c] => .ok { info with sasAccreditationNumber := text child.value }
  | _ => .ok info

/-- The version is required. -/
def parseEuiccInfo2 : Except Es10cError EuiccInfo2 := do
  let body ← expectTag response tagEuiccInfo2
  let info ← walk EuiccInfo2.assign {} body
  if info.svn.isNone then .error (.missingField "svn") else .ok info

/-- `GetEUICCInfo1`. -/
def tagEuiccInfo1 : Bytes := [0xbf, 0x20]

def euiccInfo1Payload : Bytes := tagEuiccInfo1 ++ [0x00]

/-- What the server is told first. -/
structure EuiccInfo1 where
  svn : Option String := none
  ciKeyIdsForVerification : List String := []
  ciKeyIdsForSigning : List String := []
  /-- the element exactly as the card produced it -/
  raw : Bytes := []

/-- One child, by its tag. -/
def EuiccInfo1.assign (info : EuiccInfo1) (child : Tlv) : Except Es10cError EuiccInfo1 :=
  match child.tag with
  | [0x82] => .ok { info with svn := some (version child.value) }
  | [0xa9] => do .ok { info with ciKeyIdsForVerification := ← keyIdentifiers child.value }
  | [0xaa] => do .ok { info with ciKeyIdsForSigning := ← keyIdentifiers child.value }
  | _ => .ok info

/-- The version and the keys for verification are required. -/
def parseEuiccInfo1 : Except Es10cError EuiccInfo1 := do
  let (whole, _) ← readTlv response
  if whole.tag ≠ tagEuiccInfo1 then .error (.unexpectedTag tagEuiccInfo1 whole.tag)
  else
    let info ← walk EuiccInfo1.assign { raw := whole.raw } whole.value
    if info.svn.isNone then .error (.missingField "svn")
    else if info.ciKeyIdsForVerification.isEmpty then
      .error (.missingField "euiccCiPKIdListForVerification")
    else .ok info

/-- `GetEUICCChallenge`. -/
def tagEuiccChallenge : Bytes := [0xbf, 0x2e]

def euiccChallengePayload : Bytes := tagEuiccChallenge ++ [0x00]

/-- Sixteen bytes. -/
def parseEuiccChallenge : Except Es10cError Bytes := do
  let body ← expectTag response tagEuiccChallenge
  let (challenge, _) ← readTlv body
  if challenge.tag ≠ [0x80] then .error (.unexpectedTag [0x80] challenge.tag)
  else if challenge.value.length ≠ 16 then .error (.challengeLength challenge.value.length)
  else .ok challenge.value

/-! ## Profiles -/

/-- `GetProfilesInfo`. -/
def tagGetProfilesInfo : Bytes := [0xbf, 0x2d]

def getProfilesPayload : Bytes := tagGetProfilesInfo ++ [0x00]

/-- A profile of the listing. -/
structure Profile where
  iccid : String := ""
  isdpAid : Option String := none
  enabled : Bool := false
  nickname : Option String := none
  provider : Option String := none
  name : Option String := none
  /-- 0 test, 1 provisioning, 2 operational -/
  profileClass : Option UInt8 := none
deriving DecidableEq

/-- One child, by its tag; a later one replaces an earlier one. -/
def Profile.assign (profile : Profile) (child : Tlv) : Except Es10cError Profile :=
  match child.tag with
  | [0x5a] => do
    .ok { profile with iccid := ← (decodeIccid child.value).mapError fun _ => .invalidIccid }
  | [0x4f] => .ok { profile with isdpAid := some (hexUpper child.value) }
  | [0x90] => .ok { profile with nickname := text child.value }
  | [0x91] => .ok { profile with provider := text child.value }
  | [0x92] => .ok { profile with name := text child.value }
  | [0x95] => .ok { profile with profileClass := child.value.head? }
  | [0x9f, 0x70] => .ok { profile with enabled := child.value.head? = some 1 }
  | _ => .ok profile

/-- All children of one element. -/
def parseProfile (body : Bytes) : Except Es10cError Profile := walk Profile.assign {} body

def parseProfiles : Except Es10cError (List Profile) := do
  let body ← expectTag response tagGetProfilesInfo
  let (list, _) ← readTlv body
  if list.tag ≠ [0xa0] then .error .missingProfileList
  else
    walk (fun profiles child =>
      if child.tag ≠ [0xe3] then .ok profiles
      else do .ok (profiles ++ [← parseProfile child.value])) [] list.value

/-! ## Pending notifications -/

/-- `ListNotification`. -/
def tagListNotification : Bytes := [0xbf, 0x28]

def listNotificationPayload : Bytes := tagListNotification ++ [0x00]

/-- The metadata of one notification. -/
def tagNotificationMetadata : Bytes := [0xbf, 0x2f]

structure NotificationMetadata where
  sequenceNumber : Nat := 0
  operations : List String := []
  address : String := ""
  iccid : Option String := none

/-- One child; the flag says whether a sequence number has been seen. -/
def NotificationMetadata.assign : NotificationMetadata × Bool → Tlv →
    Except Es10cError (NotificationMetadata × Bool)
  | (metadata, hasSequence), child =>
    match child.tag with
    | [0x80] => do .ok ({ metadata with sequenceNumber := ← integer child.value }, true)
    | [0x81] =>
      .ok ({ metadata with operations := namedBits child.value notificationEvents },
        hasSequence)
    | [0x0c] =>
      .ok ({ metadata with
        address := String.ofList (trimBy isWhitespace (decodeLossy child.value)) },
        hasSequence)
    | [0x5a] =>
      .ok ({ metadata with iccid := (decodeIccid child.value).toOption }, hasSequence)
    | _ => .ok (metadata, hasSequence)

/-- The sequence number is required. -/
def parseNotificationMetadata (body : Bytes) : Except Es10cError NotificationMetadata := do
  let (metadata, hasSequence) ← walk NotificationMetadata.assign ({}, false) body
  if !hasSequence then .error (.missingField "seqNumber")
  else if metadata.address.isEmpty then .error (.missingField "notificationAddress")
  else .ok metadata

/-- The `[0]` list, or the `[1]` error code the card sends instead of one. -/
def notificationList (body : Bytes) : Except Es10cError Bytes := do
  let (list, _) ← readTlv body
  match list.tag with
  | [0xa0] => .ok list.value
  | [0x81] => do .error (.notificationsUnavailable (← integer list.value))
  | tag => .error (.unexpectedTag [0xa0] tag)

/-- The pending notifications, in the order of the card. -/
def parseNotificationMetadataList : Except Es10cError (List NotificationMetadata) := do
  let body ← expectTag response tagListNotification
  let list ← notificationList body
  walk (fun out child =>
    if child.tag ≠ tagNotificationMetadata then .ok out
    else do .ok (out ++ [← parseNotificationMetadata child.value])) [] list

end VodogeEdge.Esim
