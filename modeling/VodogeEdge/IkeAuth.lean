import VodogeEdge.Trim
import VodogeEdge.IkeInit

/-!
# The IKE_AUTH runner

`AuthRunner.Run` as a dialogue: it asks for random octets, for the answers
to its protected requests, and for the response to an AKA challenge, which
the mirror builds with the card. The first request offers the CHILD_SA and
asks for EAP; then every EAP request is answered, until EAP-Success comes in
a message of its own; the last request carries our AUTH, and its response
the AUTH of the gateway and the CHILD_SA.

The functions of the mirror (`ikev2`, `eapaka`) are a parameter, and so are
the payloads of the first request.
-/

namespace VodogeEdge.Ike

/-! ## Errors -/

/-- The sentinel an error wraps. -/
inductive AuthErrorKind where
  | invalidAuthConfig
  | invalidAuthResponse
  | peerAuthFailed
  | peerAuthMissing
  | peerAuthMethod
  | responderIgnoredEapOnly
  | eapSuccessWithChildSa
  | eapRoundsExhausted
  | internalAddressFailure
  | failedCpRequired
  | eapFailure
  | eapUnexpected
  | akaSyncFailure
  | akaAuthFailure
  | noAkaProvider
  | noEapKeys
  | invalidAuthPayload
  | missingInitiatorId
  /-- An error of another package, passed on as it is. -/
  | other

def AuthErrorKind.text : AuthErrorKind → String
  | .invalidAuthConfig => "vowifi/ike: invalid IKE_AUTH config"
  | .invalidAuthResponse => "vowifi/ike: invalid IKE_AUTH response"
  | .peerAuthFailed => "vowifi/ike: responder AUTH did not verify"
  | .peerAuthMissing => "vowifi/ike: responder sent no AUTH payload"
  | .peerAuthMethod => "vowifi/ike: responder used an unexpected AUTH method"
  | .responderIgnoredEapOnly => "vowifi/ike: responder authenticated before EAP completed"
  | .eapSuccessWithChildSa => "vowifi/ike: EAP-Success arrived together with the CHILD_SA"
  | .eapRoundsExhausted => "vowifi/ike: too many EAP rounds"
  | .internalAddressFailure =>
    "vowifi/ike: the responder refused to assign an internal address"
  | .failedCpRequired => "vowifi/ike: the responder requires a configuration payload"
  | .eapFailure => "vowifi/ike: EAP failed"
  | .eapUnexpected => "vowifi/ike: unexpected EAP packet"
  | .akaSyncFailure => "vowifi/ike: EAP-AKA synchronisation failure"
  | .akaAuthFailure => "vowifi/ike: EAP-AKA authentication reject"
  | .noAkaProvider => "vowifi/ike: no AKA provider"
  | .noEapKeys => "vowifi/ike: EAP method produced no MSK"
  | .invalidAuthPayload => "vowifi/ike: invalid AUTH payload"
  | .missingInitiatorId => "vowifi/ike: IKE_AUTH needs an IDi"
  | .other => ""

structure AuthError where
  kind : AuthErrorKind
  message : String

def AuthError.because (kind : AuthErrorKind) (reason : String) : AuthError :=
  ⟨kind, kind.text ++ ": " ++ reason⟩

/-- An error of `eapaka`, with what the driver looks for in it. -/
structure EapError where
  text : String
  unsupportedKdf : Bool := false
  invalidKeyMaterial : Bool := false

def MirrorError.auth (e : MirrorError) : AuthError := ⟨.other, e.text⟩

def EapError.auth (e : EapError) : AuthError := ⟨.other, e.text⟩

/-! ## Payloads -/

/-- An ID payload. -/
structure Identity where
  type : UInt8 := 0
  data : Bytes := []

def Identity.missing (id : Identity) : Bool := id.type = 0 || id.data = []

structure AuthValue where
  method : UInt8
  data : Bytes

structure ChildProposal extends Proposal where
  spi : Bytes

/-- The SA a run is for. -/
structure ChildSa where
  selected : List ChildProposal
  nextMessageId : UInt32
  eapSuccess : Bool

/-! ## EAP -/

def codeRequest : UInt8 := 1
def codeSuccess : UInt8 := 3
def codeFailure : UInt8 := 4

def subtypeChallenge : UInt8 := 1
def subtypeIdentity : UInt8 := 5

def attributePermanentIdReq : UInt8 := 10
def attributeAnyIdReq : UInt8 := 13
def attributeFullAuthIdReq : UInt8 := 17

structure EapAttribute where
  type : UInt8
  value : Bytes

/-- EAP, with the attributes of AKA. -/
structure EapPacket where
  code : UInt8
  identifier : UInt8
  subtype : UInt8
  attributes : List EapAttribute

structure EapKeys where
  msk : Bytes := []
  kAut : Bytes := []
  kEncr : Bytes := []

structure IdentityState where
  nextPseudonym : Bytes := []
  nextReauthId : Bytes := []

/-- What `BuildChallengeResponseFromProvider` makes of a challenge. -/
structure ChallengeResult where
  response : EapPacket
  syncFailure : Bool
  authFailure : Bool
  keys : EapKeys

/-- What the second runner uses of the mirror. -/
structure AuthMirror extends Mirror where
  protectMessage : Header → IkeKeys → List Payload → Bytes → Except MirrorError Bytes
  unprotectMessage : Bytes → IkeKeys → Except MirrorError Message
  prf : Nat → Bytes → Bytes → Except MirrorError Bytes
  prfAvailable : Nat → Bool
  marshalIdentity : Identity → Except MirrorError Bytes
  parseIdentity : Bytes → Except MirrorError Identity
  eapPayload : Bytes → Payload
  parseChildSaResultWithNonces :
    InitResult → List Payload → Bytes → Bytes → Bytes → Except MirrorError ChildSa
  isInternalAddressFailure : MirrorError → Bool
  isFailedCpRequired : MirrorError → Bool
  /-- `strings.TrimSpace`. -/
  trimUnicode : Bytes → Bytes
  parsePacket : Bytes → Except EapError EapPacket
  marshalPacket : EapPacket → Except EapError Bytes
  buildIdentityResponse : Bytes → EapPacket → Except EapError EapPacket
  buildKdfNegotiationResponse : EapPacket → Except EapError (Option EapPacket)
  challengeIdentityState : EapPacket → EapKeys → Except EapError IdentityState
  buildNotificationResponse : EapPacket → Except EapError (Option EapPacket)
  buildAuthenticatedNotificationResponse :
    EapPacket → Bytes → Except EapError (Option EapPacket)
  buildClientErrorResponse : EapPacket → Except EapError EapPacket

/-! ## Configuration -/

/-- `AuthRunner`, as configured. -/
structure AuthRunner where
  responderId : Identity
  initiatorId : Identity
  authMethod : UInt8
  expectedPeerAuthMethod : UInt8
  allowMissingPeerAuth : Bool
  allowUnverifiedResponderAuth : Bool
  configVariant : String
  maxEapRounds : Int
  maxResyncAttempts : Int
  childSpi : Bytes
  pinnedIvs : List Bytes

/-- What IKE_SA_INIT has left. -/
structure FullAuthConfig where
  init : InitResult
  keys : IkeKeys
  initiatorId : Identity
  childSpi : Bytes
  childSa : List ChildProposal
  /-- What `BuildAuthInitialPayloads` makes of the initiator's identity and the
  SPI of the CHILD_SA, with the runner's options. -/
  initialPayloads : Identity → Bytes → Except AuthError (List Payload)
  /-- The configuration as it is printed. -/
  describedConfiguration : String
  eapIdentity : Bytes
  eapPseudonym : Bytes
  eapReauthIdentity : Bytes
  eapKeys : EapKeys
  /-- Whether there is a card to ask. -/
  sim : Bool
  initialMessageId : UInt32

structure FullAuthResult where
  childSa : ChildSa
  nextMessageId : UInt32
  eapKeys : EapKeys
  eapIdentityUsed : Bytes
  identityTranscript : List Bytes
  eapNextPseudonym : Bytes
  eapNextReauthId : Bytes
  finalResponseBytes : Bytes
  finalResponseInner : List Payload

/-! ## What the runner asks for -/

/-- A message and what it protects. -/
structure Request where
  header : Header
  payloads : List Payload
  iv : Bytes
  bytes : Bytes

/-- What a run asks for. -/
inductive AuthQuestion where
  | childSpi
  /-- `RandomIV`. -/
  | iv
  /-- `Transport.ExchangeIKE`, of the bytes of the request. -/
  | exchange (request : Request)
  /-- `BuildChallengeResponseFromProvider`. -/
  | challenge (identity : Bytes) (request : EapPacket) (transcript : List Bytes)

def AuthAnswer : AuthQuestion → Type
  | .childSpi => Except AuthError Bytes
  | .iv => Except AuthError Bytes
  | .exchange _ => Except AuthError Bytes
  | .challenge _ _ _ => Except AuthError ChallengeResult

abbrev AuthDialogue : Type → Type := Dialogue AuthQuestion AuthAnswer AuthError

namespace AuthRunner

def passed {α : Type} (result : Except MirrorError α) : AuthDialogue α :=
  .ofExcept (result.mapError MirrorError.auth)

def askChildSpi : AuthDialogue Bytes :=
  .ask .childSpi fun (octets : Except AuthError Bytes) => .ofExcept octets

def askIv : AuthDialogue Bytes :=
  .ask .iv fun (octets : Except AuthError Bytes) => .ofExcept octets

def askExchange (request : Request) : AuthDialogue Bytes :=
  .ask (.exchange request) fun (response : Except AuthError Bytes) => .ofExcept response

def askChallenge (identity : Bytes) (request : EapPacket) (transcript : List Bytes) :
    AuthDialogue ChallengeResult :=
  .ask (.challenge identity request transcript)
    fun (result : Except AuthError ChallengeResult) => .ofExcept result

/-! ## AUTH -/

def authMethodSharedKeyMic : UInt8 := 2

def authKeyPad : Bytes := "Key Pad for IKEv2".toUTF8.toList

def authPayload (method : UInt8) (data : Bytes) : Except AuthError Payload :=
  if method = 0 then .error (.because .invalidAuthPayload "auth method is zero")
  else if data = [] then .error (.because .invalidAuthPayload "no authentication data")
  else .ok ⟨payloadAuth, method :: 0 :: 0 :: 0 :: data⟩

/-- The reserved octets are not looked at. -/
def parseAuthPayload : Bytes → Except AuthError AuthValue
  | method :: _ :: _ :: _ :: first :: rest =>
    if method = 0 then .error (.because .invalidAuthPayload "auth method is zero")
    else .ok ⟨method, first :: rest⟩
  | body =>
    .error (.because .invalidAuthPayload
      ("body is " ++ toString body.length ++ " octets, need more than 4"))

variable (M : AuthMirror)

def macedIdentityBody (prf : Nat) (skP idBody : Bytes) : Except AuthError Bytes :=
  if skP = [] then .error (.because .invalidAuthPayload "SK_p is empty")
  else if idBody.length < 4 then
    .error (.because .invalidAuthPayload
      ("ID payload body is " ++ toString idBody.length ++ " octets"))
  else (M.prf prf skP idBody).mapError MirrorError.auth

/-- The prf over an ID body. -/
def macedIdentity (prf : Nat) (skP : Bytes) (id : Identity) : Except AuthError Bytes := do
  let body ← (M.marshalIdentity id).mapError MirrorError.auth
  macedIdentityBody M prf skP body

def initiatorSignedOctets (initRequest nonceR macedIdForI : Bytes) : Bytes :=
  initRequest ++ nonceR ++ macedIdForI

def responderSignedOctets (initResponse nonceI macedIdForR : Bytes) : Bytes :=
  initResponse ++ nonceI ++ macedIdForR

/-- The AUTH a shared secret gives. -/
def sharedKeyAuth (prf : Nat) (secret signedOctets : Bytes) : Except AuthError Bytes :=
  if secret = [] then .error (.because .invalidAuthPayload "shared secret is empty")
  else if signedOctets = [] then
    .error (.because .invalidAuthPayload "signed octets are empty")
  else do
    let inner ← (M.prf prf secret authKeyPad).mapError MirrorError.auth
    (M.prf prf inner signedOctets).mapError MirrorError.auth

/-! ## The EAP driver -/

/-- The EAP side of a run. -/
structure Driver where
  permanentIdentity : Bytes
  pseudonym : Bytes
  reauthIdentity : Bytes
  /-- Whether there is a provider. -/
  provider : Bool
  settled : Bytes := []
  keys : EapKeys := {}
  transcript : List Bytes := []

def Driver.identity (d : Driver) : Bytes :=
  if d.settled ≠ [] then d.settled else M.trimUnicode d.permanentIdentity

/-- What one EAP request is answered with. -/
structure EapStep where
  raw : Bytes
  identity : Bytes := []
  keys : Option EapKeys := none
  syncFailure : Bool := false
  authFailure : Bool := false
  identityState : IdentityState := {}

def hasEapAttribute (request : EapPacket) (type : UInt8) : Bool :=
  request.attributes.any (·.type = type)

def firstNonEmpty (values : List Bytes) : Bytes :=
  ((values.map M.trimUnicode).find? (· ≠ [])).getD []

/-- The identity a request asks for. -/
def eapIdentityFor (request : EapPacket) (d : Driver) : Bytes :=
  let permanent := M.trimUnicode d.permanentIdentity
  let pseudonym := M.trimUnicode d.pseudonym
  let reauth := M.trimUnicode d.reauthIdentity
  if hasEapAttribute request attributePermanentIdReq then permanent
  else if hasEapAttribute request attributeFullAuthIdReq then
    firstNonEmpty M [pseudonym, permanent]
  else if hasEapAttribute request attributeAnyIdReq then
    firstNonEmpty M [reauth, pseudonym, permanent]
  else permanent

def packetRaw (request : EapPacket) (requestRaw : Bytes) : Except AuthError Bytes :=
  if requestRaw = [] then (M.marshalPacket request).mapError EapError.auth else .ok requestRaw

section

variable (d : Driver) (request : EapPacket)

def respondIdentity (requestRaw : Bytes) : Except AuthError (Driver × EapStep) := do
  let identity := eapIdentityFor M request d
  ensure (identity ≠ []) (.because .eapUnexpected "no identity to answer with")
  let response ← (M.buildIdentityResponse identity request).mapError EapError.auth
  let raw ← (M.marshalPacket response).mapError EapError.auth
  let requestRaw ← packetRaw M request requestRaw
  return ({ d with settled := identity, transcript := d.transcript ++ [requestRaw, raw] },
    { raw, identity })

/-- What the keys of a challenge leave in the driver and in the step. -/
def takeKeys (result : ChallengeResult) (step : EapStep) : Except AuthError (Driver × EapStep) :=
  if result.keys.msk = [] ∧ result.keys.kAut = [] then .ok (d, step)
  else if result.syncFailure ∨ result.authFailure then
    .ok ({ d with keys := result.keys }, { step with keys := some result.keys })
  else do
    let identityState ← (M.challengeIdentityState request result.keys).mapError EapError.auth
    return ({ d with keys := result.keys },
      { step with keys := some result.keys, identityState })

def takeChallenge (result : ChallengeResult) : Except AuthError (Driver × EapStep) := do
  let raw ← (M.marshalPacket result.response).mapError EapError.auth
  takeKeys M d request result
    { raw
      identity := d.identity M
      syncFailure := result.syncFailure
      authFailure := result.authFailure }

def askCard : AuthDialogue (Driver × EapStep) :=
  if !d.provider then .fail ⟨.noAkaProvider, AuthErrorKind.noAkaProvider.text⟩
  else do
    let result ← askChallenge (d.identity M) request d.transcript
    .ofExcept (takeChallenge M d request result)

/-- An AKA challenge, or a negotiation of its KDF. -/
def respondChallenge : AuthDialogue (Driver × EapStep) :=
  match M.buildKdfNegotiationResponse request with
  | .error e => if e.unsupportedKdf then askCard M d request else .fail e.auth
  | .ok none => askCard M d request
  | .ok (some response) => do
    let raw ← .ofExcept ((M.marshalPacket response).mapError EapError.auth)
    return (d, { raw })

def respondControl : Except AuthError (Driver × EapStep) := do
  let notified := match M.buildNotificationResponse request with
    | .error e =>
      if e.invalidKeyMaterial ∧ d.keys.kAut ≠ [] then
        M.buildAuthenticatedNotificationResponse request d.keys.kAut
      else .error e
    | handled => handled
  match ← notified.mapError EapError.auth with
  | some response =>
    let raw ← (M.marshalPacket response).mapError EapError.auth
    return (d, { raw })
  | none =>
    let response ← (M.buildClientErrorResponse request).mapError EapError.auth
    let raw ← (M.marshalPacket response).mapError EapError.auth
    return (d, { raw })

/-- The answer to one EAP request. -/
def respond (requestRaw : Bytes) : AuthDialogue (Driver × EapStep) :=
  if request.code ≠ codeRequest then
    .fail (.because .eapUnexpected
      ("code " ++ toString request.code.toNat ++ " is not a request"))
  else if request.subtype = subtypeIdentity then
    .ofExcept (respondIdentity M d request requestRaw)
  else if request.subtype = subtypeChallenge then respondChallenge M d request
  else .ofExcept (respondControl M d request)

end

/-! ## Sessions -/

/-- What a run settles before its first request. -/
structure Setup where
  keys : IkeKeys
  initiatorId : Identity
  childSpi : Bytes

/-- What changes along a run. -/
structure Session where
  messageId : UInt32
  /-- The message id of the last exchange. -/
  lastRound : Option UInt32 := none
  peerIdBody : Bytes := []
  driver : Driver
  ivQueue : List Bytes
  syncFailures : Nat := 0
  eapKeys : EapKeys
  eapNextPseudonym : Bytes := []
  eapNextReauthId : Bytes := []

def Session.lastRoundMessageId (s : Session) : UInt32 := s.lastRound.getD s.messageId

def Session.message (s : Session) : String := "message " ++ toString s.lastRoundMessageId.toNat

def firstAuthMessageId (configured : UInt32) : UInt32 := if configured = 0 then 1 else configured

def trimSpace (value : Bytes) : Bytes := trimBy (· ∈ [32, 9, 10, 13]) value

section

variable (r : AuthRunner) (cfg : FullAuthConfig)

def authIdentity (initiatorId : Identity) : Bytes :=
  if trimSpace cfg.eapIdentity ≠ [] then trimSpace cfg.eapIdentity
  else trimSpace initiatorId.data

/-- An address if there is an at sign in it, a key id if not. -/
def identityFromString (value : Bytes) : Except AuthError Identity :=
  if value = [] then .error (.because .missingInitiatorId "empty identity")
  else if 64 ∈ value then .ok ⟨3, value⟩
  else .ok ⟨11, value⟩

/-- The keys of the configuration, or those of IKE_SA_INIT. -/
def sessionKeys : Except AuthError IkeKeys := do
  let keys := if cfg.keys.profile.requiredLength = 0 then cfg.init.keys else cfg.keys
  ensure (keys.profile.requiredLength ≠ 0) (.because .invalidAuthConfig "no IKE SA keys")
  ensure (keys.profile.prf ≠ 0 ∧ M.prfAvailable keys.profile.prf)
    (.because .invalidAuthConfig ("PRF " ++ toString keys.profile.prf ++ " is unavailable"))
  ensure (keys.skPi ≠ [] ∧ keys.skPr ≠ [])
    (.because .invalidAuthConfig "SK_pi/SK_pr are missing, so no AUTH can be computed")
  ensure (cfg.init.initiatorSpi ≠ 0 ∧ cfg.init.responderSpi ≠ 0)
    (.because .invalidAuthConfig "missing IKE SPIs")
  ensure (cfg.init.requestBytes ≠ [] ∧ cfg.init.responseBytes ≠ [])
    (.because .invalidAuthConfig
      ("InitResult has no RequestBytes/ResponseBytes, "
        ++ "so InitiatorSignedOctets cannot be built"))
  ensure (cfg.init.nonceI ≠ [] ∧ cfg.init.nonceR ≠ [])
    (.because .invalidAuthConfig "InitResult has no nonces")
  return keys

def sessionInitiatorId : Except AuthError Identity :=
  if !r.initiatorId.missing then .ok r.initiatorId
  else if !cfg.initiatorId.missing then .ok cfg.initiatorId
  else (identityFromString cfg.eapIdentity).mapError fun _ =>
    .because .missingInitiatorId "no IDi and no EAP identity to derive one from"

def pickChildSpi : AuthDialogue Bytes :=
  match [r.childSpi, cfg.childSpi].find? (· ≠ []) with
  | some candidate =>
    if candidate.length ≠ 4 then
      .fail (.because .invalidAuthConfig
        ("child SPI is " ++ toString candidate.length ++ " octets, want 4"))
    else .ret candidate
  | none =>
    match cfg.childSa.head? with
    | some proposal => if proposal.spi.length = 4 then .ret proposal.spi else askChildSpi
    | none => askChildSpi

def newSetup : AuthDialogue Setup := do
  let keys ← .ofExcept (sessionKeys M cfg)
  let initiatorId ← .ofExcept (sessionInitiatorId r cfg)
  let childSpi ← pickChildSpi r cfg
  return ⟨keys, initiatorId, childSpi⟩

def newSession (setup : Setup) : Session where
  messageId := firstAuthMessageId cfg.initialMessageId
  driver :=
    { permanentIdentity := authIdentity cfg setup.initiatorId
      pseudonym := cfg.eapPseudonym
      reauthIdentity := cfg.eapReauthIdentity
      provider := cfg.sim }
  ivQueue := r.pinnedIvs
  eapKeys := cfg.eapKeys

/-! ## Exchanges -/

variable (setup : Setup)

def nextIv (s : Session) : AuthDialogue (Bytes × Session) :=
  match s.ivQueue with
  | [] => do
    let iv ← askIv
    return (iv, s)
  | iv :: queue =>
    if iv.length ≠ setup.keys.profile.encryptionBlockSize then
      .fail (.because .invalidAuthConfig
        ("pinned IV is " ++ toString iv.length ++ " octets, profile wants "
          ++ toString setup.keys.profile.encryptionBlockSize))
    else .ret (iv, { s with ivQueue := queue })

def authHeader (messageId : UInt32) : Header where
  initiatorSpi := cfg.init.initiatorSpi
  responderSpi := cfg.init.responderSpi
  exchangeType := exchangeIkeAuth
  flags := flagInitiator
  messageId := messageId

/-- `nameNotifyError`: the notifies about the configuration have a name. -/
def nameNotifyError (messageId : UInt32) (e : MirrorError) : AuthError :=
  let wrapped := AuthError.because .invalidAuthResponse
    ("message " ++ toString messageId.toNat ++ ": " ++ e.text)
  let variant := if r.configVariant = "" then "unnamed" else r.configVariant
  if M.isInternalAddressFailure e then
    .because .internalAddressFailure (wrapped.message
      ++ "; authentication had already succeeded, so this is a verdict on the CFG_REQUEST "
      ++ "variant \"" ++ variant ++ "\": " ++ cfg.describedConfiguration)
  else if M.isFailedCpRequired e then
    .because .failedCpRequired (wrapped.message ++ "; the request under variant \"" ++ variant
      ++ "\" sent " ++ cfg.describedConfiguration
      ++ ", and the responder reads the configuration payload closely enough to mind that it "
      ++ "was absent")
  else wrapped

/-- Unprotect a response and judge its header and its notifies. -/
def openResponse (keys : IkeKeys) (messageId : UInt32) (response : Bytes) :
    Except AuthError (List Payload) := do
  let message ← (M.unprotectMessage response keys).mapError fun e =>
    .because .invalidAuthResponse
      ("message " ++ toString messageId.toNat ++ ": " ++ e.text)
  let h := message.header
  ensure (h.initiatorSpi = cfg.init.initiatorSpi ∧ h.responderSpi = cfg.init.responderSpi ∧
      h.exchangeType = exchangeIkeAuth ∧ h.messageId = messageId ∧ h.isResponse)
    (.because .invalidAuthResponse
      ("unexpected header on message " ++ toString messageId.toNat))
  match M.firstNotifyError message.payloads with
  | some e => .error (nameNotifyError M r cfg messageId e)
  | none => .ok message.payloads

/-- What an exchange brings: the session after it, the response, and the
payloads in it. -/
structure Exchanged where
  session : Session
  response : Bytes
  inner : List Payload

/-- Protect, send, unprotect. -/
def exchange (s : Session) (payloads : List Payload) : AuthDialogue Exchanged := do
  let (iv, s) ← nextIv setup s
  let header := authHeader cfg s.messageId
  let bytes ← passed (M.protectMessage header setup.keys payloads iv)
  let response ← askExchange ⟨header, payloads, iv, bytes⟩
  let inner ← .ofExcept (openResponse M r cfg setup.keys s.messageId response)
  return ⟨{ s with messageId := s.messageId + 1, lastRound := some s.messageId },
    response, inner⟩

/-! ## Responses -/

/-- What a response may carry. -/
structure AuthResponseParts where
  idrBody : Bytes := []
  auth : Option AuthValue := none
  eap : Option EapPacket := none
  eapRaw : Bytes := []
  hasSa : Bool := false

/-- One payload of the response; a later one of its type takes its place. -/
def AuthResponseParts.take (out : AuthResponseParts) (p : Payload) :
    Except AuthError AuthResponseParts :=
  if p.type = payloadIdr then do
    let _ ← (M.parseIdentity p.body).mapError fun e =>
      .because .invalidAuthResponse ("IDr: " ++ e.text)
    return { out with idrBody := p.body }
  else if p.type = payloadAuth then do
    let value ← parseAuthPayload p.body
    return { out with auth := some value }
  else if p.type = payloadEap then do
    let packet ← (M.parsePacket p.body).mapError fun e =>
      .because .invalidAuthResponse ("EAP: " ++ e.text)
    return { out with eap := some packet, eapRaw := p.body }
  else if p.type = payloadSa then return { out with hasSa := true }
  else return out

def parseAuthResponse (inner : List Payload) : Except AuthError AuthResponseParts :=
  inner.foldlM (AuthResponseParts.take M) {}

def Session.absorbIdr (s : Session) (parts : AuthResponseParts) : Session :=
  if parts.idrBody = [] then s else { s with peerIdBody := parts.idrBody }

def Session.absorbStep (s : Session) (step : EapStep) : Session :=
  { s with
    eapKeys := step.keys.getD s.eapKeys
    syncFailures := if step.syncFailure then s.syncFailures + 1 else s.syncFailures
    eapNextPseudonym :=
      if step.identityState.nextPseudonym ≠ [] then step.identityState.nextPseudonym
      else s.eapNextPseudonym
    eapNextReauthId :=
      if step.identityState.nextReauthId ≠ [] then step.identityState.nextReauthId
      else s.eapNextReauthId }

/-! ## The ladder -/

def maxRounds : Nat := if r.maxEapRounds ≤ 0 then 8 else r.maxEapRounds.toNat

def maxResync : Nat :=
  if r.maxResyncAttempts ≤ 0 then 1 else r.maxResyncAttempts.toNat

/-- The EAP packet of a response, once the response may go on. -/
def eapOf (s : Session) (parts : AuthResponseParts) : Except AuthError EapPacket :=
  match parts.auth with
  | some value =>
    if r.allowUnverifiedResponderAuth then eapIn
    else
      .error (.because .responderIgnoredEapOnly
        ("AUTH method " ++ toString value.method.toNat ++ " arrived in " ++ s.message
          ++ ", before EAP finished; the responder ignored EAP_ONLY_AUTHENTICATION and is "
          ++ "presenting a certificate this stack cannot validate (set "
          ++ "AllowUnverifiedResponderAuth to record it and continue)"))
  | none => eapIn
where
  eapIn : Except AuthError EapPacket :=
    match parts.eap with
    | some packet => .ok packet
    | none =>
      .error (.because .invalidAuthResponse
        (s.message ++ " carried no EAP payload and EAP has not finished"))

/-- The loop over the EAP rounds, with `left` of them to go. It ends with the
session in which EAP-Success has come. -/
def eapRounds : (left : Nat) → Session → List Payload → AuthDialogue Session
  | 0, _, _ =>
    .fail (.because .eapRoundsExhausted (toString r.maxRounds ++ " rounds"))
  | left + 1, s, inner => do
    let parts ← .ofExcept (parseAuthResponse M inner)
    let s := s.absorbIdr parts
    let packet ← .ofExcept (eapOf r s parts)
    if packet.code = codeSuccess then
      if parts.hasSa then
        .fail (.because .eapSuccessWithChildSa
          (s.message ++ "; accepting it would mean taking a CHILD_SA from a peer whose AUTH "
            ++ "we have not seen yet"))
      else return s
    else if packet.code = codeFailure then
      .fail (.because .eapFailure ("EAP-Failure in " ++ s.message))
    else if packet.code = codeRequest then do
      let (driver, step) ← respond M s.driver packet parts.eapRaw
      let s := { s with driver }.absorbStep step
      let next ← exchange M r cfg setup s [M.eapPayload step.raw]
      if step.authFailure then
        .fail (.because .akaAuthFailure
          ("the USIM rejected AUTN, EAP-Response/AKA-Authentication-Reject sent in "
            ++ next.session.message))
      else if step.syncFailure ∧ r.maxResync < next.session.syncFailures then
        .fail (.because .akaSyncFailure
          (toString next.session.syncFailures ++ " AT_AUTS responses sent, budget is "
            ++ toString r.maxResync))
      else eapRounds left next.session next.inner
    else .fail (.because .eapUnexpected ("EAP code " ++ toString packet.code.toNat))

def sharedSecret (s : Session) : Bytes :=
  if s.driver.keys.msk = [] then cfg.eapKeys.msk else s.driver.keys.msk

def ourMethod : UInt8 :=
  if r.authMethod = 0 then authMethodSharedKeyMic else r.authMethod

def expectedMethod : UInt8 :=
  if r.expectedPeerAuthMethod = 0 then r.ourMethod else r.expectedPeerAuthMethod

/-- The identity the AUTH of the peer is verified over: the last it sent, or
the one we asserted. -/
def peerIdBody (received : Bytes) : Except AuthError Bytes :=
  if received = [] then
    (M.marshalIdentity r.responderId).mapError fun e =>
      .because .peerAuthFailed
        ("the responder sent no IDr and we have none to fall back on: " ++ e.text)
  else .ok received

/-- The AUTH of the gateway, required unless it may be missing. -/
def verifyPeerAuth (s : Session) (parts : AuthResponseParts) (msk : Bytes) :
    Except AuthError Unit :=
  match parts.auth with
  | none =>
    if r.allowMissingPeerAuth then .ok () else .error (.because .peerAuthMissing s.message)
  | some value => do
    ensure (value.method = r.expectedMethod)
      (.because .peerAuthMethod
        ("got " ++ toString value.method.toNat ++ ", expected "
          ++ toString r.expectedMethod.toNat ++ "; RFC 5998 EAP-only authentication has the "
          ++ "responder use the same shared-secret syntax we do"))
    let idBody ← peerIdBody M r s.peerIdBody
    let maced ← macedIdentityBody M setup.keys.profile.prf setup.keys.skPr idBody
    let signed := responderSignedOctets cfg.init.responseBytes cfg.init.nonceI maced
    let expected ← sharedKeyAuth M setup.keys.profile.prf msk signed
    ensure (expected = value.data)
      (.because .peerAuthFailed
        (toString value.data.length ++ " octets received, method "
          ++ toString value.method.toNat ++ ", over IDr of " ++ toString idBody.length
          ++ " octets"))

/-- The AUTH of this side. -/
def ourAuthPayload (msk : Bytes) : Except AuthError Payload := do
  let maced ← macedIdentity M setup.keys.profile.prf setup.keys.skPi setup.initiatorId
  let signed := initiatorSignedOctets cfg.init.requestBytes cfg.init.nonceR maced
  let data ← sharedKeyAuth M setup.keys.profile.prf msk signed
  authPayload r.ourMethod data

/-- The last response: its AUTH and the CHILD_SA. -/
def conclude (msk : Bytes) (last : Exchanged) : Except AuthError FullAuthResult := do
  let parts ← parseAuthResponse M last.inner
  let s := last.session.absorbIdr parts
  verifyPeerAuth M r cfg setup s parts msk
  ensure parts.hasSa
    (.because .invalidAuthResponse "the AUTH response carried no CHILD_SA")
  let child ← (M.parseChildSaResultWithNonces cfg.init last.inner setup.childSpi cfg.init.nonceI
    cfg.init.nonceR).mapError MirrorError.auth
  return {
    childSa := { child with nextMessageId := s.messageId, eapSuccess := true }
    nextMessageId := s.messageId
    eapKeys := if s.driver.keys.kAut ≠ [] then s.driver.keys else s.eapKeys
    eapIdentityUsed := s.driver.identity M
    identityTranscript := s.driver.transcript
    eapNextPseudonym := s.eapNextPseudonym
    eapNextReauthId := s.eapNextReauthId
    finalResponseBytes := last.response
    finalResponseInner := last.inner }

/-- The exchange after EAP-Success. -/
def finish (s : Session) : AuthDialogue FullAuthResult :=
  let msk := sharedSecret cfg s
  if msk = [] then
    .fail (.because .noEapKeys "EAP-Success arrived but no MSK was derived")
  else do
    let payload ← .ofExcept (ourAuthPayload M r cfg setup msk)
    let last ← exchange M r cfg setup s [payload]
    .ofExcept (conclude M r cfg setup msk last)

/-- `Run`. -/
def run : AuthDialogue FullAuthResult := do
  let setup ← newSetup M r cfg
  let initial ← .ofExcept (cfg.initialPayloads setup.initiatorId setup.childSpi)
  let first ← exchange M r cfg setup (newSession r cfg setup) initial
  let s ← eapRounds M r cfg setup r.maxRounds first.session first.inner
  finish M r cfg setup s

end

end AuthRunner

end VodogeEdge.Ike
