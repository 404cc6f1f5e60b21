import VodogeEdge.Dialogue
import VodogeEdge.IkeMessage

/-!
# The IKE_SA_INIT runner

`InitRunner.Run` as a dialogue: it asks for random octets, for key pairs,
and for the answers to its requests. The requests of one run all have the
same initiator SPI and message id 0. They differ in the cookie that the
responder demanded, and in the group that is keyed: the runner follows a
responder to another group it has offered, and tries no group twice.

The NAT_DETECTION payloads are given.
-/

namespace VodogeEdge.Ike

/-! ## Errors -/

/-- The sentinel an error wraps. -/
inductive InitErrorKind where
  | invalidInitResponse
  | groupNegotiationFailed
  /-- An error of another package, passed on as it is. -/
  | other
deriving DecidableEq

def InitErrorKind.text : InitErrorKind → String
  | .invalidInitResponse => "vowifi/ike: invalid IKE_SA_INIT response"
  | .groupNegotiationFailed => "vowifi/ike: exhausted DH group retries"
  | .other => ""

structure InitError where
  kind : InitErrorKind
  message : String
  /-- What `InvalidKEPayloadAlternativeGroupFromError` finds in it. -/
  alternativeGroup : Option UInt16 := none
deriving DecidableEq

def InitError.because (kind : InitErrorKind) (reason : String) : InitError :=
  ⟨kind, kind.text ++ ": " ++ reason, none⟩

def InitError.wrapping (kind : InitErrorKind) (reason : String) (alternative : Option UInt16) :
    InitError :=
  ⟨kind, kind.text ++ ": " ++ reason, alternative⟩

def MirrorError.passed (e : MirrorError) : InitError := ⟨.other, e.text, e.alternativeGroup⟩

def MirrorError.invalid (e : MirrorError) : InitError :=
  .wrapping .invalidInitResponse e.text e.alternativeGroup

def SuiteError.passed (e : SuiteError) : InitError := ⟨.other, e.message, none⟩

/-- Why an attempt has failed, and the group to go on with; 0 is none. -/
structure Refusal where
  error : InitError
  next : UInt16 := 0

def InitError.refusal (e : InitError) : Refusal := ⟨e, e.alternativeGroup.getD 0⟩

/-! ## Keys -/

structure KeyHalves where
  privateKey : Bytes
  publicKey : Bytes

structure KeyPair extends KeyHalves where
  group : UInt16

/-- The key exchange, as given. -/
structure Dh where
  keyPairFromPrivate : UInt16 → Bytes → Except InitError KeyHalves
  computeSharedSecret : KeyPair → Bytes → Except InitError Bytes

/-! ## Configuration -/

/-- Values fixed in advance. -/
structure Seed where
  initiatorSpi : UInt64 := 0
  nonceI : Bytes := []
  dhGroup : UInt16 := 0
  dhPrivate : Bytes := []

/-- `InitRunner`, as configured. -/
structure InitRunner where
  groups : List UInt16
  suites : List Suite
  maxCookieRounds : Int
  maxGroupRetries : Int
  seed : Seed
  mobike : Bool

structure InitConfig where
  initiatorSpi : UInt64
  nonceI : Bytes
  sa : SecurityAssociation
  /-- The NAT_DETECTION payloads for an initiator SPI, or why there are none. -/
  natPayloads : UInt64 → Except InitError (List Payload)
  keyMaterialLength : Int

structure InitResult where
  request : Message
  requestBytes : Bytes
  response : Message
  responseBytes : Bytes
  selectedSa : SecurityAssociation
  initiatorSpi : UInt64
  responderSpi : UInt64
  nonceI : Bytes
  nonceR : Bytes
  publicKeyI : Bytes
  publicKeyR : Bytes
  sharedSecret : Bytes
  prf : Nat
  skeyseed : Bytes
  keyMaterial : Bytes
  keys : IkeKeys
  mobikeSupported : Bool
deriving DecidableEq

/-! ## What the runner asks for -/

/-- What a run asks for. -/
inductive InitQuestion where
  /-- Eight octets for the SPI. -/
  | spi (attempt : Nat)
  | nonce
  /-- `GenerateKeyPair`. -/
  | keyPair (group : UInt16)
  /-- `Transport.ExchangeIKE`. -/
  | exchange (request : Bytes)

def InitAnswer : InitQuestion → Type
  | .spi _ => Except InitError Bytes
  | .nonce => Except InitError Bytes
  | .keyPair _ => Except InitError KeyHalves
  | .exchange _ => Except InitError Bytes

abbrev InitDialogue : Type → Type := Dialogue InitQuestion InitAnswer InitError

namespace InitRunner

def passed {α : Type} (result : Except MirrorError α) : InitDialogue α :=
  .ofExcept (result.mapError MirrorError.passed)

def askSpi (attempt : Nat) : InitDialogue Bytes :=
  .ask (.spi attempt) fun (octets : Except InitError Bytes) => .ofExcept octets

def askNonce : InitDialogue Bytes :=
  .ask .nonce fun (octets : Except InitError Bytes) => .ofExcept octets

def askKeyPair (group : UInt16) : InitDialogue KeyHalves :=
  .ask (.keyPair group) fun (halves : Except InitError KeyHalves) => .ofExcept halves

def askExchange (request : Bytes) : InitDialogue Bytes :=
  .ask (.exchange request) fun (response : Except InitError Bytes) => .ofExcept response

def bigEndian (octets : Bytes) : UInt64 :=
  octets.foldl (fun n octet => n <<< 8 ||| octet.toUInt64) 0

/-- `randomSPI`: draw until the SPI is not zero, `left` times more. -/
def randomSpi : (left attempt : Nat) → InitDialogue UInt64
  | 0, _ => .fail (.because .invalidInitResponse "could not draw a non-zero initiator SPI")
  | left + 1, attempt => do
    let octets ← askSpi attempt
    if bigEndian octets ≠ 0 then return bigEndian octets
    else randomSpi left (attempt + 1)

/-! ## Responses -/

variable (M : Mirror)

def validateResponseHeader (response : Message) (spiI : UInt64) : Except InitError Unit :=
  let h := response.header
  if h.initiatorSpi ≠ spiI then .error (.because .invalidInitResponse "initiator SPI mismatch")
  else if h.exchangeType ≠ exchangeIkeSaInit ∨ h.messageId ≠ 0 ∨ !h.isResponse then
    .error (.because .invalidInitResponse "unexpected header")
  else
    match M.firstNotifyError response.payloads with
    | some e => .error e.invalid
    | none => .ok ()

/-- The cookie demanded, if any. -/
def responseCookie : List Payload → Except InitError (Option Bytes)
  | [] => .ok none
  | p :: ps =>
    if p.type ≠ payloadNotify then responseCookie ps
    else do
      let notify ← (M.parseNotify p.body).mapError MirrorError.invalid
      match ← (M.notifyCookie notify).mapError MirrorError.invalid with
      | some cookie => return some cookie
      | none => responseCookie ps

structure ParsedInitResponse where
  sa : SecurityAssociation := ⟨[]⟩
  keyExchange : KeyExchange := {}
  nonceR : Bytes := []
  mobikeSupported : Bool := false

/-- One payload of the response; a later one of its type takes its place. -/
def ParsedInitResponse.take (out : ParsedInitResponse) (p : Payload) :
    Except InitError ParsedInitResponse :=
  if p.type = payloadSa then do
    let sa ← (M.parseSecurityAssociation p.body).mapError MirrorError.passed
    return { out with sa }
  else if p.type = payloadKe then do
    let keyExchange ← (M.parseKeyExchange p.body).mapError MirrorError.passed
    return { out with keyExchange }
  else if p.type = payloadNonce then return { out with nonceR := p.body }
  else if p.type = payloadNotify then do
    let notify ← (M.parseNotify p.body).mapError MirrorError.passed
    return { out with
      mobikeSupported := out.mobikeSupported || notify.notifyType = notifyMobikeSupported }
  else return out

/-- SA, key exchange and nonce of a response. -/
def parseInitResponse (response : Message) (spiI : UInt64)
    (expectGroup : UInt16) : Except InitError ParsedInitResponse := do
  validateResponseHeader M response spiI
  ensure (response.header.responderSpi ≠ 0)
    (.because .invalidInitResponse "responder SPI is zero")
  let out ← response.payloads.foldlM (ParsedInitResponse.take M) {}
  ensure (out.sa.proposals ≠ []) (.because .invalidInitResponse "missing SA")
  ensure (out.keyExchange.keyData ≠ []) (.because .invalidInitResponse "missing KE")
  ensure (16 ≤ out.nonceR.length ∧ out.nonceR.length ≤ 256)
    (.because .invalidInitResponse
      ("responder nonce is " ++ toString out.nonceR.length ++ " octets"))
  ensure (out.keyExchange.dhGroup = expectGroup)
    (.because .invalidInitResponse
      ("responder KE is " ++ dhGroupName out.keyExchange.dhGroup ++ ", we sent "
        ++ dhGroupName expectGroup))
  return out

/-! ## One group -/

structure Exchanged where
  request : Message
  requestBytes : Bytes
  response : Message
  responseBytes : Bytes

variable (D : Dh) (r : InitRunner) (cfg : InitConfig) (offered : SecurityAssociation)
  (spiI : UInt64) (nonceI : Bytes)

def initRequest (payloads : List Payload) : Message where
  header :=
    { initiatorSpi := spiI, exchangeType := exchangeIkeSaInit, flags := flagInitiator }
  payloads := payloads

def withCookie (cookie : Bytes) (payloads : List Payload) : Except MirrorError (List Payload) :=
  if cookie = [] then .ok payloads
  else do
    let cookiePayload ← M.cookieNotify cookie
    return cookiePayload :: payloads

/-- One request with its response, and the cookie that is demanded. -/
def exchangeOnce (payloads : List Payload) (cookie : Bytes) :
    InitDialogue (Exchanged × Option Bytes) := do
  let reqPayloads ← passed (withCookie M cookie payloads)
  let request := initRequest spiI reqPayloads
  let requestBytes ← passed (M.marshalMessage request)
  let responseBytes ← askExchange requestBytes
  let response ← passed (M.parseMessage responseBytes)
  let _ ← (.ofExcept (validateResponseHeader M response spiI) : InitDialogue Unit)
  let next ← .ofExcept (responseCookie M response.payloads)
  return (⟨request, requestBytes, response, responseBytes⟩, next)

/-- The exchange, with `left` rounds for a cookie after this one. -/
def exchange (payloads : List Payload) :
    (left round : Nat) → (cookie : Bytes) → InitDialogue Exchanged
  | 0, round, cookie => do
    let (exchanged, next) ← exchangeOnce M spiI payloads cookie
    match next with
    | none => return exchanged
    | some _ =>
      .fail (.because .invalidInitResponse
        ("responder demanded a COOKIE " ++ toString (round + 1) ++ " times"))
  | left + 1, round, cookie => do
    let (exchanged, next) ← exchangeOnce M spiI payloads cookie
    match next with
    | none => return exchanged
    | some next => exchange payloads left (round + 1) next

def attemptPayloads (keys : KeyPair) : Except InitError (List Payload) := do
  let sa ← (M.securityAssociationPayload offered).mapError MirrorError.passed
  let nat ← cfg.natPayloads spiI
  return [sa, M.keyExchangePayload keys.group keys.publicKey, M.noncePayload nonceI] ++ nat ++
    if r.mobike then [M.mobikeSupportedNotify] else []

def splitKeys (profile : KeyMaterialProfile) (keyMaterial : Bytes) : Except Refusal IkeKeys :=
  if profile.requiredLength ≤ keyMaterial.length then
    (M.splitIkeKeys profile keyMaterial).mapError fun e => { error := e.passed }
  else .ok {}

/-- Selection, secret and keys. -/
def conclude (keys : KeyPair) (exchanged : Exchanged) : Except Refusal InitResult := do
  let parsed ← (parseInitResponse M exchanged.response spiI keys.group).mapError
    InitError.refusal
  let selection ← (validateSelection M.prfError offered parsed.sa).mapError
    fun e => { error := e.passed }
  ensure (selection.dhGroup = keys.group)
    ⟨.because .invalidInitResponse
      ("selected " ++ dhGroupName selection.dhGroup ++ " but the KE payload used "
        ++ dhGroupName keys.group), selection.dhGroup⟩
  ensure (parsed.keyExchange.dhGroup = keys.group)
    ⟨.because .invalidInitResponse
      ("responder KE is " ++ dhGroupName parsed.keyExchange.dhGroup ++ " but the SA selected "
        ++ dhGroupName keys.group), parsed.keyExchange.dhGroup⟩
  let shared ← (D.computeSharedSecret keys parsed.keyExchange.keyData).mapError
    fun e => { error := e }
  let profile ← (M.keyMaterialProfileFromSa parsed.sa).mapError
    fun e => { error := e.passed }
  let skeyseed ← (M.skeyseed profile.prf nonceI parsed.nonceR shared).mapError
    fun e => { error := e.passed }
  let responderSpi := exchanged.response.header.responderSpi
  let keyMaterialLength :=
    if cfg.keyMaterialLength ≤ 0 then (profile.requiredLength : Int) else cfg.keyMaterialLength
  let keyMaterial ← (M.deriveIkeSaKeyMaterial profile.prf skeyseed nonceI parsed.nonceR spiI
    responderSpi keyMaterialLength).mapError fun e => { error := e.passed }
  let ikeKeys ← splitKeys M profile keyMaterial
  return {
    request := exchanged.request
    requestBytes := exchanged.requestBytes
    response := exchanged.response
    responseBytes := exchanged.responseBytes
    selectedSa := parsed.sa
    initiatorSpi := spiI
    responderSpi
    nonceI
    nonceR := parsed.nonceR
    publicKeyI := keys.publicKey
    publicKeyR := parsed.keyExchange.keyData
    sharedSecret := shared
    prf := profile.prf
    skeyseed
    keyMaterial
    keys := ikeKeys
    mobikeSupported := parsed.mobikeSupported }

/-- One group: offer, cookie, conclusion. -/
def attempt (keys : KeyPair) : Dialogue InitQuestion InitAnswer Refusal InitResult :=
  match attemptPayloads M r cfg offered spiI nonceI keys with
  | .error e => .fail { error := e }
  | .ok payloads =>
    (exchange M spiI payloads r.maxCookieRounds.toNat 0 []).andThen fun
      | .error e => .fail e.refusal
      | .ok exchanged => .ofExcept (conclude M D cfg offered spiI nonceI keys exchanged)

/-! ## The run -/

def keyHalvesFor (group : UInt16) : InitDialogue KeyHalves :=
  if r.seed.dhGroup = group ∧ r.seed.dhPrivate ≠ [] then
    .ofExcept (D.keyPairFromPrivate group r.seed.dhPrivate)
  else askKeyPair group

def keyPairFor (group : UInt16) : InitDialogue KeyPair := do
  let halves ← keyHalvesFor D r group
  return { halves with group }

def suggested (why : String) (next : UInt16) (e : InitError) : InitError :=
  .wrapping .groupNegotiationFailed
    ("responder suggested " ++ dhGroupName next ++ why ++ ": " ++ e.message) e.alternativeGroup

/-- The attempts, with `left` more after this one. -/
def attempts (total : Nat) :
    (left : Nat) → (tried : List UInt16) → (group : UInt16) → InitDialogue InitResult
  | left, tried, group =>
    if group ∈ tried then
      .fail (.because .groupNegotiationFailed
        ("responder keeps proposing " ++ dhGroupName group))
    else do
      let keys ← keyPairFor D r group
      (attempt M D r cfg offered spiI nonceI keys).andThen fun
        | .ok result => .ret result
        | .error ⟨e, next⟩ =>
          if next = 0 then .fail e
          else if !dhGroupSupported next then
            .fail (suggested " which we cannot key" next e)
          else if next ∉ offeredGroups offered then
            .fail (suggested " which we never offered" next e)
          else
            match left with
            | 0 => .fail (.because .groupNegotiationFailed
                ("after " ++ toString total ++ " attempts"))
            | left + 1 =>
              attempts total left (group :: tried) next

def maxRetries : Nat :=
  if r.maxGroupRetries ≤ 0 then 1 else r.maxGroupRetries.toNat

def initiatorSpi : InitDialogue UInt64 :=
  if cfg.initiatorSpi ≠ 0 then return cfg.initiatorSpi
  else if r.seed.initiatorSpi ≠ 0 then return r.seed.initiatorSpi
  else randomSpi 16 0

def nonce : InitDialogue Bytes :=
  if cfg.nonceI ≠ [] then return cfg.nonceI
  else if r.seed.nonceI ≠ [] then return r.seed.nonceI
  else askNonce

def offeredGroupsOf : List UInt16 :=
  if r.groups = [] then defaultProposalGroups else r.groups

/-- `Run`: the first group, then those the responder asks for. -/
def run : InitDialogue InitResult := do
  let spiI ← initiatorSpi r cfg
  let nonceI ← nonce r cfg
  let groups := offeredGroupsOf r
  let built ← .ofExcept ((buildProposal M.encodesSa r.suites groups).mapError SuiteError.passed)
  let offered := if cfg.sa.proposals ≠ [] then cfg.sa else built
  let group := if r.seed.dhGroup ≠ 0 then r.seed.dhGroup else groups.headD 0
  attempts M D r cfg offered spiI nonceI (maxRetries r + 1) (maxRetries r) [] group

end InitRunner

end VodogeEdge.Ike
