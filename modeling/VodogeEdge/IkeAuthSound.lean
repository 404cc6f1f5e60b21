import VodogeEdge.IkeAuth

/-!
# What a successful IKE_AUTH has seen

Every request of a run is numbered by the exchanges before it, and there are
at most one more than the EAP rounds allowed. A run that succeeds has got,
in its last two exchanges, an EAP-Success without a CHILD_SA, and then an
AUTH that verifies under a secret from the card or the configuration
together with the CHILD_SA it returns. Message ids are consecutive modulo
2^32.
-/

namespace VodogeEdge.Ike.AuthRunner

open List

open Dialogue

/-! ## Exchanges in a history -/

def exchangeOf : Turn AuthAnswer → Option (Request × Except AuthError Bytes)
  | ⟨.exchange request, result⟩ => some (request, result)
  | _ => none

def exchanges (turns : List (Turn AuthAnswer)) : List (Request × Except AuthError Bytes) :=
  turns.filterMap exchangeOf

theorem exchanges_append (turns more : List (Turn AuthAnswer)) :
    exchanges (turns ++ more) = exchanges turns ++ exchanges more :=
  filterMap_append

/-- Every exchange so far was answered, as in `talk`. -/
def Went (turns : List (Turn AuthAnswer)) (talk : List (Request × Bytes)) : Prop :=
  exchanges turns = talk.map fun turn => (turn.1, .ok turn.2)

variable {turns : List (Turn AuthAnswer)}
  {talk : List (Request × Bytes)} {more : List (Turn AuthAnswer)} {response : Bytes}
  {M : AuthMirror} {request : Request} {keys : IkeKeys} {msk : Bytes}

theorem Went.length (h : Went turns talk) : (exchanges turns).length = talk.length := by
  rw [h, length_map]

theorem Went.still
    (h : Went turns talk) (hmore : exchanges more = []) : Went (turns ++ more) talk := by
  rw [Went, exchanges_append, hmore, append_nil, h]

theorem Went.snoc (h : Went turns talk) (hmore : exchanges more = [(request, .ok response)]) :
    Went (turns ++ more) (talk ++ [(request, response)]) := by
  rw [Went, exchanges_append, h, hmore, map_append, map_singleton]

def readResponse (M : AuthMirror) (keys : IkeKeys) (response : Bytes) :
    Option AuthResponseParts :=
  match M.unprotectMessage response keys with
  | .error _ => none
  | .ok message => (parseAuthResponse M message.payloads).toOption

def lastIdr (M : AuthMirror) (keys : IkeKeys) (responses : List Bytes) : Bytes :=
  responses.foldl (fun body response =>
    match readResponse M keys response with
    | none => body
    | some parts => if parts.idrBody = [] then body else parts.idrBody) []

theorem lastIdr_snoc {responses : List Bytes} {parts : AuthResponseParts}
    (h : readResponse M keys response = some parts) :
    lastIdr M keys (responses ++ [response]) =
      if parts.idrBody = [] then lastIdr M keys responses else parts.idrBody := by
  rw [lastIdr, foldl_append, foldl_cons, h]
  rfl

/-! ## Requests -/

def messageIdAt (cfg : FullAuthConfig) (k : Nat) : UInt32 :=
  firstAuthMessageId cfg.initialMessageId + UInt32.ofNat k

/-- A request is numbered by the exchanges before it and protected with the
keys of the session, and there are not too many before it. -/
structure Numbered (M : AuthMirror) (r : AuthRunner) (cfg : FullAuthConfig) (k : Nat)
    (request : Request) : Prop where
  header : request.header = authHeader cfg (messageIdAt cfg k)
  bytes : ∃ keys, sessionKeys M cfg = .ok keys ∧
    M.protectMessage request.header keys request.payloads request.iv = .ok request.bytes
  room : k ≤ r.maxRounds

def Asks (M : AuthMirror) (r : AuthRunner) (cfg : FullAuthConfig)
    (history : List (Turn AuthAnswer)) : AuthQuestion → Prop
  | .exchange request => Numbered M r cfg (exchanges history).length request
  | _ => True

/-! ## Challenges -/

/-- The card was asked a challenge, its response was sent in a later
exchange, and the secret came with it. -/
def Answered (M : AuthMirror) (turns : List (Turn AuthAnswer)) (msk : Bytes) : Prop :=
  ∃ before identity packet transcript after, ∃ result : ChallengeResult,
    turns = before ++ ⟨.challenge identity packet transcript, Except.ok result⟩ :: after ∧
    result.keys.msk = msk ∧
    ∃ raw, M.marshalPacket result.response = .ok raw ∧
      ∃ request response, (request, .ok response) ∈ exchanges after ∧
        request.payloads = [M.eapPayload raw]

theorem Answered.append (h : Answered M turns msk)
    (more : List (Turn AuthAnswer)) : Answered M (turns ++ more) msk := by
  obtain ⟨before, identity, packet, transcript, after, result, rfl, hmsk, raw, hraw, request,
    response, hmem, hpayloads⟩ := h
  refine ⟨before, identity, packet, transcript, after ++ more, result, ?_, hmsk, raw, hraw,
    request, response, ?_, hpayloads⟩
  · rw [append_assoc, cons_append]
  · rw [exchanges_append]
    exact mem_append_left _ hmem

section
variable {r : AuthRunner} {cfg : FullAuthConfig} {setup : Setup} {history : List (Turn AuthAnswer)}
  {s : Session}

/-! ## One exchange -/

theorem holds_nextIv :
    Holds (Asks M r cfg) (onOk fun history' out =>
        ∃ more, history' = history ++ more ∧ exchanges more = [] ∧
          ∃ queue, out.2 = { s with ivQueue := queue })
      history (nextIv setup s) := by
  unfold nextIv
  split
  · exact holds_ask_bind trivial fun _ iv _ => ⟨_, rfl, rfl, s.ivQueue, rfl⟩
  · split_ifs
    · trivial
    · exact ⟨[], (append_nil _).symm, rfl, _, rfl⟩

variable {d : Driver} {packet : EapPacket} {parts : AuthResponseParts} {inner : List Payload}
  {out : Driver × EapStep} {step : EapStep} {raw : Bytes} {n : Nat}

theorem openResponse_ok {messageId : UInt32}
    (h : openResponse M r cfg keys messageId response = .ok inner) :
    ∃ message, M.unprotectMessage response keys = .ok message ∧ message.payloads = inner := by
  obtain ⟨message, hmessage, h⟩ := exists_ok_of_bind h
  obtain ⟨-, -, h⟩ := exists_ok_of_bind h
  refine ⟨message, mapError_eq_ok.mp hmessage, ?_⟩
  cases hnotify : M.firstNotifyError message.payloads with
  | none =>
    rw [hnotify] at h
    exact Except.ok.inj h
  | some e =>
    rw [hnotify] at h
    cases h

/-- What an exchange brings about: one more request that was answered, and
the payloads of the answer. The session goes on with the next message id. -/
structure Brought (M : AuthMirror) (cfg : FullAuthConfig) (setup : Setup) (s : Session)
    (talk : List (Request × Bytes)) (payloads : List Payload)
    (more : List (Turn AuthAnswer)) (next : Exchanged) (request : Request) : Prop where
  exchanged : exchanges more = [(request, .ok next.response)]
  payloads : request.payloads = payloads
  opened : ∃ message, M.unprotectMessage next.response setup.keys = .ok message ∧
    message.payloads = next.inner
  messageId : next.session.messageId = messageIdAt cfg (talk.length + 1)
  driver : next.session.driver = s.driver
  peerIdBody : next.session.peerIdBody = s.peerIdBody

theorem messageIdAt_succ (cfg : FullAuthConfig) (k : Nat) :
    messageIdAt cfg k + 1 = messageIdAt cfg (k + 1) := by
  simp only [messageIdAt, UInt32.ofNat_add, UInt32.add_assoc]
  rfl

theorem holds_exchange {payloads : List Payload} (hkeys : sessionKeys M cfg = .ok setup.keys)
    (hwent : Went history talk) (hid : s.messageId = messageIdAt cfg talk.length)
    (hroom : talk.length ≤ r.maxRounds) :
    Holds (Asks M r cfg) (onOk fun history' next =>
        ∃ more request, history' = history ++ more ∧
          Brought M cfg setup s talk payloads more next request)
      history (exchange M r cfg setup s payloads) := by
  refine holds_onOk_bind holds_nextIv ?_
  rintro _ ⟨iv, s'⟩ ⟨drawn, rfl, hdrawn, queue, rfl⟩
  refine holds_ofExcept_bind fun bytes hbytes => ?_
  have hlength := (hwent.still hdrawn).length
  have hnumbered : Asks M r cfg (history ++ drawn)
      (.exchange ⟨authHeader cfg s.messageId, payloads, iv, bytes⟩) := by
    refine ⟨?_, ⟨setup.keys, hkeys, mapError_eq_ok.mp hbytes⟩, ?_⟩
    · rw [hlength, ← hid]
    · rwa [hlength]
  refine holds_ask_bind hnumbered fun result response hresult => ?_
  refine holds_ofExcept_bind fun inner hinner => ?_
  obtain rfl : result = .ok response := hresult
  refine ⟨drawn ++ [_], ⟨authHeader cfg s.messageId, payloads, iv, bytes⟩,
    append_assoc _ _ _, ?_, rfl, openResponse_ok hinner, ?_, rfl, rfl⟩
  · rw [exchanges_append, hdrawn]
    rfl
  · rw [← messageIdAt_succ, ← hid]

/-! ## The EAP driver -/

/-- What the driver brings about: nothing, or a challenge to the card, and
then the keys it holds may be those of the challenge. -/
def Responded (M : AuthMirror) (d : Driver) (more : List (Turn AuthAnswer))
    (out : Driver × EapStep) : Prop :=
  exchanges more = [] ∧ (out.1.keys = d.keys ∨
    ∃ identity packet transcript, ∃ result : ChallengeResult,
      more = [⟨.challenge identity packet transcript, Except.ok result⟩] ∧
      out.1.keys = result.keys ∧ M.marshalPacket result.response = .ok out.2.raw)

theorem takeKeys_ok {result : ChallengeResult} (h : takeKeys M d packet result step = .ok out) :
    (out.1.keys = d.keys ∨ out.1.keys = result.keys) ∧ out.2.raw = step.raw := by
  unfold takeKeys at h
  split_ifs at h
  · obtain rfl := Except.ok.inj h
    exact ⟨.inl rfl, rfl⟩
  · obtain rfl := Except.ok.inj h
    exact ⟨.inr rfl, rfl⟩
  · obtain ⟨identityState, -, h⟩ := exists_ok_of_bind h
    obtain rfl := Except.ok.inj h
    exact ⟨.inr rfl, rfl⟩

theorem holds_askCard :
    Holds (Asks M r cfg) (onOk fun history' out =>
        ∃ more, history' = history ++ more ∧ Responded M d more out)
      history (askCard M d packet) := by
  unfold askCard
  split_ifs
  · trivial
  refine holds_ask_bind trivial fun answer result hresult => ?_
  obtain rfl : answer = .ok result := hresult
  refine holds_onOk_ofExcept fun out hout => ?_
  obtain ⟨raw, hraw, hout⟩ := exists_ok_of_bind hout
  obtain ⟨hkeys, hstep⟩ := takeKeys_ok hout
  refine ⟨_, rfl, rfl, hkeys.imp id fun hkeys => ?_⟩
  refine ⟨_, _, _, result, rfl, hkeys, ?_⟩
  rw [hstep]
  exact mapError_eq_ok.mp hraw

theorem respondIdentity_keys (h : respondIdentity M d packet raw = .ok out) :
    out.1.keys = d.keys := by
  obtain ⟨-, -, h⟩ := exists_ok_of_bind h
  obtain ⟨response, -, h⟩ := exists_ok_of_bind h
  obtain ⟨responseRaw, -, h⟩ := exists_ok_of_bind h
  obtain ⟨requestRaw, -, h⟩ := exists_ok_of_bind h
  obtain rfl := Except.ok.inj h
  rfl

theorem respondControl_keys (h : respondControl M d packet = .ok out) : out.1.keys = d.keys := by
  obtain ⟨handled, -, h⟩ := exists_ok_of_bind h
  cases handled with
  | some response =>
    obtain ⟨raw, -, h⟩ := exists_ok_of_bind h
    obtain rfl := Except.ok.inj h
    rfl
  | none =>
    obtain ⟨response, -, h⟩ := exists_ok_of_bind h
    obtain ⟨raw, -, h⟩ := exists_ok_of_bind h
    obtain rfl := Except.ok.inj h
    rfl

theorem responded_nil (h : out.1.keys = d.keys) :
    ∃ more, history = history ++ more ∧ Responded M d more out :=
  ⟨[], (append_nil _).symm, rfl, .inl h⟩

theorem holds_respondChallenge :
    Holds (Asks M r cfg) (onOk fun history' out =>
        ∃ more, history' = history ++ more ∧ Responded M d more out)
      history (respondChallenge M d packet) := by
  unfold respondChallenge
  split
  · split_ifs
    · exact holds_askCard
    · trivial
  · exact holds_askCard
  · exact holds_ofExcept_bind fun raw _ => responded_nil rfl

theorem holds_respond :
    Holds (Asks M r cfg) (onOk fun history' out =>
        ∃ more, history' = history ++ more ∧ Responded M d more out)
      history (respond M d packet raw) := by
  unfold respond
  split_ifs
  · trivial
  · exact holds_onOk_ofExcept fun out hout => responded_nil (respondIdentity_keys hout)
  · exact holds_respondChallenge
  · exact holds_onOk_ofExcept fun out hout => responded_nil (respondControl_keys hout)

/-! ## The ladder -/

/-- The session is in step with the exchanges, and the keys of its driver are
from the card. -/
structure InStep (M : AuthMirror) (cfg : FullAuthConfig) (history : List (Turn AuthAnswer))
    (talk : List (Request × Bytes)) (s : Session) : Prop where
  went : Went history talk
  messageId : s.messageId = messageIdAt cfg talk.length
  keys : s.driver.keys.msk ≠ [] → Answered M history s.driver.keys.msk

/-- The last response is `inner`, and its identity is not yet absorbed. -/
structure Reached (M : AuthMirror) (cfg : FullAuthConfig) (setup : Setup)
    (history : List (Turn AuthAnswer)) (talk : List (Request × Bytes)) (s : Session)
    (response : Bytes) (inner : List Payload) : Prop where
  inStep : InStep M cfg history talk s
  last : ∃ earlier request, talk = earlier ++ [(request, response)] ∧
    s.peerIdBody = lastIdr M setup.keys (earlier.map Prod.snd)
  opened : ∃ message, M.unprotectMessage response setup.keys = .ok message ∧
    message.payloads = inner

/-- EAP-Success came with the last response, without a CHILD_SA. -/
structure Succeeded (M : AuthMirror) (cfg : FullAuthConfig) (setup : Setup)
    (history : List (Turn AuthAnswer)) (talk : List (Request × Bytes)) (s : Session) :
    Prop where
  inStep : InStep M cfg history talk s
  peerIdBody : s.peerIdBody = lastIdr M setup.keys (talk.map Prod.snd)
  success : ∃ earlier request response parts packet, talk = earlier ++ [(request, response)] ∧
    readResponse M setup.keys response = some parts ∧ parts.eap = some packet ∧
    packet.code = codeSuccess ∧ parts.hasSa = false

theorem Reached.read (h : Reached M cfg setup history talk s response inner)
    (hparts : parseAuthResponse M inner = .ok parts) :
    readResponse M setup.keys response = some parts := by
  obtain ⟨message, hmessage, rfl⟩ := h.opened
  rw [readResponse, hmessage]
  change (parseAuthResponse M message.payloads).toOption = some parts
  rw [hparts]
  rfl

theorem peerIdBody_absorbIdr (s : Session) (parts : AuthResponseParts) :
    (s.absorbIdr parts).peerIdBody =
      if parts.idrBody = [] then s.peerIdBody else parts.idrBody := by
  unfold Session.absorbIdr
  split_ifs <;> rfl

theorem absorbIdr_frame (s : Session) (parts : AuthResponseParts) :
    (s.absorbIdr parts).messageId = s.messageId ∧ (s.absorbIdr parts).driver = s.driver := by
  unfold Session.absorbIdr
  split_ifs <;> exact ⟨rfl, rfl⟩

theorem Reached.absorbIdr (h : Reached M cfg setup history talk s response inner)
    (hparts : parseAuthResponse M inner = .ok parts) :
    InStep M cfg history talk (s.absorbIdr parts) ∧
      (s.absorbIdr parts).peerIdBody = lastIdr M setup.keys (talk.map Prod.snd) := by
  obtain ⟨hid, hdriver⟩ := absorbIdr_frame s parts
  refine ⟨⟨h.inStep.went, hid.trans h.inStep.messageId, ?_⟩, ?_⟩
  · rw [hdriver]
    exact h.inStep.keys
  · obtain ⟨earlier, request, rfl, hpeer⟩ := h.last
    rw [peerIdBody_absorbIdr, map_append, map_singleton, lastIdr_snoc (h.read hparts), hpeer]

theorem eapOf_ok (h : eapOf r s parts = .ok packet) : parts.eap = some packet := by
  have heap : ∀ {packet}, eapOf.eapIn s parts = .ok packet → parts.eap = some packet := by
    intro packet h
    unfold eapOf.eapIn at h
    split at h
    case h_1 packet' heap => rw [heap, Except.ok.inj h]
    · cases h
  unfold eapOf at h
  split at h
  · split_ifs at h
    exact heap h
  · exact heap h

theorem InStep.exchanged {asked : List (Turn AuthAnswer)} {s' : Session}
    {next : Exchanged} (h : InStep M cfg history talk s)
    (hasked : Responded M s.driver asked (d, step)) (hdriver : s'.driver = d)
    (hnext : Brought M cfg setup s' talk [M.eapPayload step.raw] more next request) :
    InStep M cfg (history ++ asked ++ more) (talk ++ [(request, next.response)])
      next.session where
  went := (h.went.still hasked.1).snoc hnext.exchanged
  messageId := by
    rw [hnext.messageId, length_append]
    rfl
  keys hne := by
    rw [hnext.driver, hdriver] at hne ⊢
    rcases hasked.2 with hkeys | ⟨identity, packet, transcript, result, rfl, hkeys, hraw⟩
    · rw [hkeys] at hne ⊢
      exact ((h.keys hne).append _).append _
    · refine ⟨history, identity, packet, transcript, more, result, ?_, by rw [hkeys], step.raw,
        hraw, request, next.response, ?_, hnext.payloads⟩
      · rw [append_assoc, singleton_append]
      · rw [hnext.exchanged]
        exact mem_singleton_self _

theorem holds_eapRounds (hkeys : sessionKeys M cfg = .ok setup.keys) {left : Nat} :
    ∀ {history : List (Turn AuthAnswer)} {talk : List (Request × Bytes)} {s : Session}
      {response : Bytes} {inner : List Payload},
      Reached M cfg setup history talk s response inner →
      talk.length + left = r.maxRounds + 1 →
      Holds (Asks M r cfg) (onOk fun history' s' =>
          ∃ talk', Succeeded M cfg setup history' talk' s' ∧ talk'.length ≤ r.maxRounds)
        history (eapRounds M r cfg setup left s inner) := by
  induction left with
  | zero =>
    intro history talk s response inner _ _
    trivial
  | succ left ih =>
    intro history talk s response inner h hleft
    have hroom : talk.length ≤ r.maxRounds := by omega
    refine holds_ofExcept_bind fun parts hparts => ?_
    obtain ⟨hstep, hpeer⟩ := h.absorbIdr hparts
    refine holds_ofExcept_bind fun packet hpacket => ?_
    by_cases hsuccess : packet.code = codeSuccess
    · split_ifs with hsa
      · trivial
      · obtain ⟨earlier, request, htalk, -⟩ := h.last
        exact ⟨talk, ⟨hstep, hpeer, earlier, request, response, parts, packet, htalk,
          h.read hparts, eapOf_ok hpacket, hsuccess, Bool.eq_false_iff.mpr hsa⟩, hroom⟩
    · rw [if_neg hsuccess]
      split_ifs
      · trivial
      · refine holds_onOk_bind holds_respond ?_
        rintro _ ⟨d, step⟩ ⟨asked, rfl, hasked⟩
        have hwent := hstep.went.still hasked.1
        refine holds_onOk_bind (holds_exchange hkeys hwent hstep.messageId hroom) ?_
        rintro _ next ⟨more, request, rfl, hnext⟩
        split_ifs
        · trivial
        · trivial
        · refine ih ⟨hstep.exchanged hasked rfl hnext, ?_, hnext.opened⟩ ?_
          · exact ⟨talk, request, rfl, hnext.peerIdBody.trans hpeer⟩
          · rw [length_append, length_singleton]
            omega
      · trivial

/-! ## The end -/

/-- What a run that returns a CHILD_SA has seen last: EAP-Success in a response
without a CHILD_SA, then one with the CHILD_SA and the AUTH of the expected
method that the secret gives over the IKE_SA_INIT response, our nonce and the
identity of the responder. -/
structure Authenticates (M : AuthMirror) (r : AuthRunner) (cfg : FullAuthConfig)
    (keys : IkeKeys) (turns : List (Turn AuthAnswer)) (talk : List (Request × Bytes))
    (granted last : Request × Bytes) (msk : Bytes) (result : FullAuthResult) : Prop where
  session : sessionKeys M cfg = .ok keys
  went : Went turns (talk ++ [granted, last])
  success : ∃ parts packet, readResponse M keys granted.2 = some parts ∧
    parts.eap = some packet ∧ packet.code = codeSuccess ∧ parts.hasSa = false
  auth : ∃ parts idBody maced data, readResponse M keys last.2 = some parts ∧
    parts.hasSa ∧ parts.auth = some ⟨r.expectedMethod, data⟩ ∧
    peerIdBody M r (lastIdr M keys ((talk ++ [granted, last]).map Prod.snd)) = .ok idBody ∧
    macedIdentityBody M keys.profile.prf keys.skPr idBody = .ok maced ∧
    sharedKeyAuth M keys.profile.prf msk
      (responderSignedOctets cfg.init.responseBytes cfg.init.nonceI maced) = .ok data
  secret : msk ≠ [] ∧ (Answered M turns msk ∨ msk = cfg.eapKeys.msk)
  childSa : ∃ message childSpi child, M.unprotectMessage last.2 keys = .ok message ∧
    M.parseChildSaResultWithNonces cfg.init message.payloads childSpi cfg.init.nonceI
      cfg.init.nonceR = .ok child ∧ result.childSa.selected = child.selected

theorem verifyPeerAuth_ok (hpeer : r.allowMissingPeerAuth = false)
    (h : verifyPeerAuth M r cfg setup s parts msk = .ok ()) :
    ∃ idBody maced data, parts.auth = some ⟨r.expectedMethod, data⟩ ∧
      peerIdBody M r s.peerIdBody = .ok idBody ∧
      macedIdentityBody M setup.keys.profile.prf setup.keys.skPr idBody = .ok maced ∧
      sharedKeyAuth M setup.keys.profile.prf msk
        (responderSignedOctets cfg.init.responseBytes cfg.init.nonceI maced) = .ok data := by
  unfold verifyPeerAuth at h
  split at h
  · rw [hpeer] at h
    cases h
  case h_2 value hvalue =>
    obtain ⟨_, hmethod, h⟩ := exists_ok_of_bind h
    obtain ⟨idBody, hidBody, h⟩ := exists_ok_of_bind h
    obtain ⟨maced, hmaced, h⟩ := exists_ok_of_bind h
    obtain ⟨data, hdata, h⟩ := exists_ok_of_bind h
    refine ⟨idBody, maced, data, ?_, hidBody, hmaced, hdata⟩
    rw [hvalue, ← ensure_eq_ok.mp hmethod, ensure_eq_ok.mp h]

theorem sharedSecret_from (h : InStep M cfg history talk s) :
    Answered M history (sharedSecret cfg s) ∨ sharedSecret cfg s = cfg.eapKeys.msk := by
  unfold sharedSecret
  split_ifs with hmsk
  · exact .inr rfl
  · exact .inl (h.keys hmsk)

theorem holds_finish (hpeer : r.allowMissingPeerAuth = false)
    (hkeys : sessionKeys M cfg = .ok setup.keys) (h : Succeeded M cfg setup history talk s)
    (hroom : talk.length ≤ r.maxRounds) :
    Holds (Asks M r cfg) (onOk fun turns result => ∃ keys talk granted last msk,
        Authenticates M r cfg keys turns talk granted last msk result)
      history (finish M r cfg setup s) := by
  unfold finish
  dsimp only
  split_ifs with hmsk
  · trivial
  refine holds_ofExcept_bind fun payload _ => ?_
  refine holds_onOk_bind (holds_exchange hkeys h.inStep.went h.inStep.messageId hroom) ?_
  rintro _ next ⟨more, request, rfl, hnext⟩
  refine holds_onOk_ofExcept fun result hresult => ?_
  obtain ⟨earlier, granted, response, parts, packet, rfl, hread, heap, hcode, hsa⟩ := h.success
  obtain ⟨message, hmessage, hinner⟩ := hnext.opened
  -- the last response is read like those before it
  obtain ⟨final, hfinal, hresult⟩ := exists_ok_of_bind hresult
  have hlast : readResponse M setup.keys next.response = some final := by
    rw [readResponse, hmessage]
    change (parseAuthResponse M message.payloads).toOption = some final
    rw [hinner, hfinal]
    rfl
  obtain ⟨_, hverified, hresult⟩ := exists_ok_of_bind hresult
  obtain ⟨_, hchildSa, hresult⟩ := exists_ok_of_bind hresult
  obtain ⟨child, hchild, hresult⟩ := exists_ok_of_bind hresult
  obtain ⟨idBody, maced, data, hauth, hidBody, hmaced, hdata⟩ := verifyPeerAuth_ok hpeer hverified
  have htalk : earlier ++ [(granted, response), (request, next.response)] =
      earlier ++ [(granted, response)] ++ [(request, next.response)] := by
    rw [append_assoc]
    rfl
  have hpeerId : (next.session.absorbIdr final).peerIdBody = lastIdr M setup.keys
      ((earlier ++ [(granted, response), (request, next.response)]).map Prod.snd) := by
    rw [htalk, map_append, map_singleton, lastIdr_snoc hlast, peerIdBody_absorbIdr,
      hnext.peerIdBody, h.peerIdBody]
  refine ⟨setup.keys, earlier, (granted, response), (request, next.response),
    sharedSecret cfg s, hkeys, ?_, ⟨parts, packet, hread, heap, hcode, hsa⟩,
    ⟨final, idBody, maced, data, hlast, ensure_eq_ok.mp hchildSa, hauth, hpeerId ▸ hidBody,
      hmaced, hdata⟩, ⟨hmsk, ?_⟩,
    ⟨message, setup.childSpi, child, hmessage, hinner ▸ mapError_eq_ok.mp hchild, ?_⟩⟩
  · rw [htalk]
    exact h.inStep.went.snoc hnext.exchanged
  · exact (sharedSecret_from h.inStep).imp_left fun hanswered => hanswered.append more
  · rw [← Except.ok.inj hresult]

theorem holds_newSetup :
    Holds (Asks M r cfg) (onOk fun history' setup =>
        sessionKeys M cfg = .ok setup.keys ∧ exchanges history' = exchanges history)
      history (newSetup M r cfg) := by
  refine holds_ofExcept_bind fun keys hkeys => ?_
  refine holds_ofExcept_bind fun initiatorId _ => ?_
  have hask : Holds (Asks M r cfg) (onOk fun history' (_) =>
      exchanges history' = exchanges history) history askChildSpi := by
    refine ⟨trivial, fun octets => holds_onOk_ofExcept fun _ _ => ?_⟩
    rw [exchanges_append]
    exact append_nil _
  have hpick : Holds (Asks M r cfg) (onOk fun history' (_) =>
      exchanges history' = exchanges history) history (pickChildSpi r cfg) := by
    unfold pickChildSpi
    split
    · split_ifs
      · trivial
      · exact rfl
    · split
      · split_ifs
        · exact rfl
        · exact hask
      · exact hask
  refine holds_onOk_bind hpick fun history' childSpi hsame => ?_
  exact ⟨hkeys, hsame⟩

theorem holds_run (hpeer : r.allowMissingPeerAuth = false) :
    Holds (Asks M r cfg) (onOk fun turns result => ∃ keys talk granted last msk,
        Authenticates M r cfg keys turns talk granted last msk result)
      [] (run M r cfg) := by
  refine holds_onOk_bind holds_newSetup ?_
  rintro history setup ⟨hkeys, hnone⟩
  refine holds_ofExcept_bind fun initial _ => ?_
  have hwent : Went history [] := hnone
  have hid : (newSession r cfg setup).messageId = messageIdAt cfg 0 := by
    rw [messageIdAt, show UInt32.ofNat 0 = 0 from rfl, UInt32.add_zero]
    rfl
  refine holds_onOk_bind (holds_exchange hkeys hwent hid (Nat.zero_le _)) ?_
  rintro _ first ⟨more, request, rfl, hfirst⟩
  have hreached : Reached M cfg setup (history ++ more) [(request, first.response)]
      first.session first.response first.inner := by
    refine ⟨⟨hwent.snoc hfirst.exchanged, hfirst.messageId, fun hne => ?_⟩,
      ⟨[], request, rfl, hfirst.peerIdBody⟩, hfirst.opened⟩
    rw [hfirst.driver] at hne
    exact (hne rfl).elim
  refine holds_onOk_bind (holds_eapRounds hkeys hreached (Nat.add_comm 1 _)) ?_
  rintro history' s ⟨talk, hsuccess, hroom⟩
  exact holds_finish hpeer hkeys hsuccess hroom

/-! ## Message ids -/

def messageIds (turns : List (Turn AuthAnswer)) : List UInt32 :=
  (exchanges turns).map (·.1.header.messageId)

theorem numbered_of_asks
    (h : ∀ before q result after, turns = before ++ ⟨q, result⟩ :: after →
      Asks M r cfg before q) :
    messageIds turns = (List.range (exchanges turns).length).map (messageIdAt cfg) ∧
      (exchanges turns).length ≤ r.maxRounds + 1 := by
  induction turns using reverseRecOn with
  | nil => exact ⟨rfl, Nat.zero_le _⟩
  | append_singleton turns turn ih =>
    obtain ⟨q, result⟩ := turn
    obtain ⟨hids, hlength⟩ := ih fun before q' result' after heq =>
      h before q' result' (after ++ [⟨q, result⟩]) (by rw [heq, append_assoc, cons_append])
    have hasks := h turns q result [] rfl
    have hsame (hnone : exchanges [(⟨q, result⟩)] = []) :
        messageIds (turns ++ [⟨q, result⟩]) = (List.range
            (exchanges (turns ++ [⟨q, result⟩])).length).map (messageIdAt cfg) ∧
          (exchanges (turns ++ [⟨q, result⟩])).length ≤ r.maxRounds + 1 := by
      rw [messageIds, exchanges_append, hnone, append_nil]
      exact ⟨hids, hlength⟩
    cases q with
    | exchange request =>
      have hnumbered : Numbered M r cfg (exchanges turns).length request := hasks
      have hlast : exchanges (turns ++ [⟨.exchange request, result⟩]) =
          exchanges turns ++ [((request, result) : Request × Except AuthError Bytes)] :=
        exchanges_append _ _
      rw [messageIds, hlast, map_append, length_append, length_singleton,
        range_succ, map_append, map_singleton, ← hids]
      refine ⟨?_, Nat.succ_le_succ hnumbered.room⟩
      rw [hnumbered.header]
      rfl
    | childSpi | iv | challenge => exact hsame rfl

theorem toNat_messageIdAt (cfg : FullAuthConfig) (k : Nat) :
    (messageIdAt cfg k).toNat =
      ((firstAuthMessageId cfg.initialMessageId).toNat + k) % UInt32.size := by
  exact Nat.add_mod_mod _ _ _

theorem nodup_messageIdAt (cfg : FullAuthConfig) (hn : n ≤ UInt32.size) :
    ((List.range n).map (messageIdAt cfg)).Nodup := by
  refine nodup_range.map_on fun k hk k' hk' heq => ?_
  have hmod := congrArg UInt32.toNat heq
  rw [toNat_messageIdAt, toNat_messageIdAt] at hmod
  rw [mem_range] at hk hk'
  simp only [UInt32.size] at hmod hn
  omega

theorem map_toNat_messageIdAt (cfg : FullAuthConfig)
    (hn : (firstAuthMessageId cfg.initialMessageId).toNat + n ≤ UInt32.size) :
    ((List.range n).map (messageIdAt cfg)).map UInt32.toNat =
      List.range' (firstAuthMessageId cfg.initialMessageId).toNat n := by
  rw [map_map, range'_eq_map_range]
  refine map_congr_left fun k hk => ?_
  rw [mem_range] at hk
  rw [Function.comp_apply, toNat_messageIdAt]
  exact Nat.mod_eq_of_lt (by omega)

end

/-- A run that succeeds has authenticated the gateway. Its message ids count
on modulo 2^32, so none is used twice unless there can be more exchanges than
ids, and they are consecutive unless they wrap. -/
theorem run_authenticates (M : AuthMirror) (r : AuthRunner) (cfg : FullAuthConfig)
    (hpeer : r.allowMissingPeerAuth = false) (turns : List (Turn AuthAnswer))
    (p : AuthDialogue FullAuthResult) (hrun : Leads (run M r cfg) turns p) :
    (∀ result, p = .ret result → ∃ keys talk granted last msk,
      Authenticates M r cfg keys turns talk granted last msk result) ∧
    messageIds turns = (List.range (exchanges turns).length).map (messageIdAt cfg) ∧
    (r.maxRounds < UInt32.size → (messageIds turns).Nodup) ∧
    ((firstAuthMessageId cfg.initialMessageId).toNat + r.maxRounds < UInt32.size →
      (messageIds turns).map UInt32.toNat = range'
        (firstAuthMessageId cfg.initialMessageId).toNat (exchanges turns).length) ∧
    (exchanges turns).length ≤ r.maxRounds + 1 := by
  obtain ⟨hend, hasks⟩ := Holds.leads hrun (holds_run hpeer)
  obtain ⟨hids, hlength⟩ := numbered_of_asks hasks
  refine ⟨?_, hids, fun hfew => ?_, fun hfew => ?_, hlength⟩
  · rintro result rfl
    exact hend
  · rw [hids]
    exact nodup_messageIdAt cfg (by omega)
  · rw [hids]
    exact map_toNat_messageIdAt cfg (by omega)

namespace Sample

def octets (id : UInt32) : Bytes :=
  [(id >>> 24).toUInt8, (id >>> 16).toUInt8, (id >>> 8).toUInt8, id.toUInt8]

def ofOctets (bytes : Bytes) : UInt32 :=
  bytes.foldl (fun n octet => n <<< 8 ||| octet.toUInt32) 0

/-- Payloads of one octet each; that of an AUTH follows its method. -/
def payloadsOf : Bytes → List Payload
  | type :: value :: rest =>
    ⟨type, if type = payloadAuth then [authMethodSharedKeyMic, 0, 0, 0, value] else [value]⟩
      :: payloadsOf rest
  | _ => []

/-- A codec that puts the message id and the payloads on the wire, with a sum
for the PRF. -/
def mirror : AuthMirror where
  toMirror := sampleMirror
  protectMessage header _ payloads _ :=
    .ok (octets header.messageId ++ payloads.map Payload.type)
  unprotectMessage
    | first :: second :: third :: fourth :: rest, _ =>
      .ok ⟨⟨1, 9, exchangeIkeAuth, flagResponse, ofOctets [first, second, third, fourth]⟩,
        payloadsOf rest⟩
    | _, _ => .error ⟨"short", none⟩
  prf _ key text := .ok [(key ++ text).foldl (· + ·) 0]
  prfAvailable _ := true
  marshalIdentity id := .ok (id.type :: 0 :: 0 :: 0 :: id.data)
  parseIdentity _ := .ok {}
  eapPayload raw := ⟨payloadEap, raw⟩
  parseChildSaResultWithNonces _ _ _ _ _ := .ok ⟨[], 0, false⟩
  isInternalAddressFailure _ := false
  isFailedCpRequired _ := false
  trimUnicode value := value
  parsePacket
    | code :: _ => .ok ⟨code, 0, subtypeChallenge, []⟩
    | [] => .error { text := "empty" }
  marshalPacket packet := .ok [packet.code]
  buildIdentityResponse _ packet := .ok packet
  buildKdfNegotiationResponse _ := .ok none
  challengeIdentityState _ _ := .ok {}
  buildNotificationResponse _ := .ok none
  buildAuthenticatedNotificationResponse _ _ := .ok none
  buildClientErrorResponse packet := .ok packet

def runner : AuthRunner where
  responderId := ⟨2, [5]⟩
  initiatorId := ⟨3, [6]⟩
  authMethod := 0
  expectedPeerAuthMethod := 0
  allowMissingPeerAuth := false
  allowUnverifiedResponderAuth := false
  configVariant := ""
  maxEapRounds := 0
  maxResyncAttempts := 0
  childSpi := []
  pinnedIvs := []

def initResult : InitResult where
  request := InitRunner.initRequest 1 []
  requestBytes := [1]
  response := InitRunner.initRequest 1 []
  responseBytes := [1]
  selectedSa := sampleSelection
  initiatorSpi := 1
  responderSpi := 9
  nonceI := [1]
  nonceR := [1]
  publicKeyI := []
  publicKeyR := []
  sharedSecret := []
  prf := 5
  skeyseed := []
  keyMaterial := []
  keys := { profile := ⟨5, 1, 1⟩, skPi := [2], skPr := [2] }
  mobikeSupported := false

def config (initialMessageId : UInt32) : FullAuthConfig where
  init := initResult
  keys := {}
  initiatorId := {}
  childSpi := []
  childSa := []
  initialPayloads id _ := .ok [⟨35, id.data⟩]
  describedConfiguration := ""
  eapIdentity := [6]
  eapPseudonym := []
  eapReauthIdentity := []
  eapKeys := {}
  sim := true
  initialMessageId := initialMessageId

def gatewayAuth : UInt8 :=
  match macedIdentityBody mirror 5 [2] [2, 0, 0, 0, 5] >>= fun maced =>
      sharedKeyAuth mirror 5 [7] (responderSignedOctets [1] [1] maced) with
  | .ok [octet] => octet
  | _ => 0

def reply (payloads : List Payload) : Bytes :=
  match payloads.head?.map Payload.type with
  | some 35 => [payloadEap, codeRequest]
  | some 48 => [payloadEap, codeSuccess]
  | _ => [payloadAuth, gatewayAuth, payloadSa, 0]

def answers : ∀ q, AuthAnswer q
  | .childSpi => Except.ok [1, 2, 3, 4]
  | .iv => Except.ok [0]
  | .exchange request => Except.ok (octets request.header.messageId ++ reply request.payloads)
  | .challenge _ _ _ =>
    Except.ok ⟨⟨2, 0, subtypeChallenge, []⟩, false, false, { msk := [7], kAut := [8] }⟩

def program (initialMessageId : UInt32) : AuthDialogue FullAuthResult :=
  run mirror runner (config initialMessageId)

end Sample

theorem run_authenticates_sample :
    messageIds ((Sample.program 0).trace Sample.answers) = [1, 2, 3] ∧
      ∃ result keys talk granted last msk, Authenticates Sample.mirror Sample.runner
        (Sample.config 0) keys ((Sample.program 0).trace Sample.answers) talk granted last msk
        result := by
  have hok : ((Sample.program 0).against Sample.answers).isOk := by decide +kernel
  cases hresult : (Sample.program 0).against Sample.answers with
  | error e =>
    rw [hresult] at hok
    cases hok
  | ok result =>
    have hrun := leads_trace Sample.answers (Sample.program 0)
    rw [hresult] at hrun
    exact ⟨by decide +kernel, result,
      (run_authenticates Sample.mirror Sample.runner (Sample.config 0) rfl _ _ hrun).1 result rfl⟩

/-- The message id after the last of 32 bits is that of IKE_SA_INIT. -/
theorem messageIds_wrap :
    ((Sample.program 4294967295).against Sample.answers).isOk ∧
      messageIds ((Sample.program 4294967295).trace Sample.answers) = [4294967295, 0, 1] := by
  decide +kernel

end VodogeEdge.Ike.AuthRunner
