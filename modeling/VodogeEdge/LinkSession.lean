import VodogeEdge.LinkContract

/-!
# The link session

`LinkSession` of `edge-uplink`: Resume first, then heartbeat, then
backoff. Instants and durations are milliseconds. Transport and
persistence stay outside, as in the source.
-/

namespace VodogeEdge

/-- Durations are milliseconds. -/
def pingInterval : Nat := 30000

def idleTimeout : Nat := 90000

def initialBackoff : Nat := 1000

def maxBackoff : Nat := 60000

/-- What Resume tells the peer. -/
structure ResumeSnapshot where
  lastAssignedSeq : Nat
  lastAckedSeq : Nat
  lowestRetainedSeq : Option Nat
  pendingGapIds : List String
  capabilityMatrixVersion : String
  cardPolicyVersion : Option String
  edgeVersion : Option String
  queueRecords : Option Int
  queueBytes : Option Int
deriving DecidableEq

/-- `LinkConfig`, with the four durations. -/
structure LinkConfig where
  deviceId : String
  snapshot : ResumeSnapshot
  pingInterval : Nat
  idleTimeout : Nat
  initialBackoff : Nat
  maxBackoff : Nat
deriving DecidableEq

/-- Where a session stands. -/
inductive Phase where
  | idle
  | resuming
  | live
  | backoff
deriving DecidableEq

/-- What an accepted envelope was. -/
inductive Inbound (J : Type) where
  | resumeAck (ack : ResumeAckPayload)
  | uplinkAck (ack : UplinkAckPayload)
  | pong (pong : PongPayload)
  | protocolError (error : ProtocolErrorPayload)
  | commandDeliver (envelope : Envelope J)
  | ignoredStale
deriving DecidableEq

/-- Why a call of the session is refused. -/
inductive SessionError where
  | emptyDeviceId
  | emptyConnectionId
  | alreadyConnected
  | notResuming
  | notLive
  | deviceMismatch
  | connectionMismatch
  | unexpectedKind (kind : String)
  | invalidEnvelope (reason : String)
deriving DecidableEq

/-- `LinkSession`, with instants as milliseconds of one clock. -/
structure LinkSession where
  config : LinkConfig
  phase : Phase
  connectionId : Option String
  committedThrough : Option Nat
  maxInFlight : Option Int
  nextId : Nat
  origin : Option Nat
  nextPingAt : Option Nat
  lastRecvAt : Option Nat
  reconnectAt : Option Nat
  backoff : Nat
deriving DecidableEq

namespace LinkSession

variable {J : Type} (wire : Wire J)

/-- An idle session. -/
def new (config : LinkConfig) : LinkSession where
  config := config
  phase := .idle
  connectionId := none
  committedThrough := none
  maxInFlight := none
  nextId := 0
  origin := none
  nextPingAt := none
  lastRecvAt := none
  reconnectAt := none
  backoff := config.initialBackoff

variable (self : LinkSession)

/-- The snapshot the next Resume is built from. -/
def setSnapshot (snapshot : ResumeSnapshot) : LinkSession :=
  { self with config := { self.config with snapshot := snapshot } }

/-- Milliseconds since the origin, 0 without one. -/
def timestamp (now : Nat) : Int :=
  match self.origin with
  | some origin => ((now - origin : Nat) : Int)
  | none => 0

/-- The next envelope id, a counter in the form of a UUID. -/
def allocId : String × LinkSession :=
  ("00000000-0000-4000-8000-" ++ zeroPadded12 (self.nextId + 1),
    { self with nextId := self.nextId + 1 })

/-- An envelope of this device, stamped and numbered. -/
def envelope (kind : MessageKind) (payload : J) (seq : Option Nat)
    (now : Nat) : Envelope J × LinkSession :=
  let (id, self) := self.allocId
  (⟨protocolVersion, kind, id, self.timestamp now, self.config.deviceId, seq, none, payload⟩,
    self)

/-- Nothing was received for the idle timeout. -/
def idleExpired (now : Nat) : Bool :=
  match self.lastRecvAt with
  | some last => self.config.idleTimeout ≤ now - last
  | none => false

/-- Gives the connection up, and doubles the backoff. -/
def dropConnection (now : Nat) : LinkSession :=
  { self with
    phase := .backoff
    connectionId := none
    origin := none
    nextPingAt := none
    lastRecvAt := none
    reconnectAt := some (now + self.backoff)
    backoff := if self.backoff * 2 > self.config.maxBackoff then self.config.maxBackoff
      else self.backoff * 2 }

/-- The payload of Resume. -/
def resumePayload (snapshot : ResumeSnapshot) (connectionId : String) : ResumePayload where
  connectionId := connectionId
  lastAssignedSeq := snapshot.lastAssignedSeq
  lowestRetainedSeq := snapshot.lowestRetainedSeq
  lastAckedSeq := snapshot.lastAckedSeq
  pendingGapIds := snapshot.pendingGapIds
  capabilityMatrixVersion := snapshot.capabilityMatrixVersion
  cardPolicyVersion := snapshot.cardPolicyVersion
  edgeVersion := snapshot.edgeVersion
  queueRecords := snapshot.queueRecords
  queueBytes := snapshot.queueBytes

/-- After the socket is up, emit Resume as the first outbound envelope. -/
def handshake (connectionId : String) (now : Nat) :
    Except SessionError (Envelope J) × LinkSession :=
  if self.phase = .resuming ∨ self.phase = .live then (.error .alreadyConnected, self)
  else if trimIsEmpty connectionId then (.error .emptyConnectionId, self)
  else
    let payload := resumePayload self.config.snapshot connectionId
    let self := { self with
      phase := .resuming
      connectionId := some connectionId
      committedThrough := none
      maxInFlight := none
      origin := some now
      nextPingAt := none
      lastRecvAt := some now
      reconnectAt := none }
    let (resume, self) := self.envelope .resume (wire.encodeResume payload) none now
    (.ok resume, self)

variable (envelope : Envelope J)

/-- ResumeAck counts while resuming, for this connection only. -/
def onResumeAck (now : Nat) : Except SessionError (Inbound J) × LinkSession :=
  if self.phase ≠ .resuming then (.error .notResuming, self)
  else
    match wire.decodeResumeAck envelope.payload with
    | .error reason => (.error (.invalidEnvelope reason), self)
    | .ok ack =>
      if self.connectionId ≠ some ack.connectionId then (.error .connectionMismatch, self)
      else
        (.ok (.resumeAck ack),
          { self with
            phase := .live
            committedThrough := some ack.committedThrough
            maxInFlight := some ack.maxInFlight
            lastRecvAt := some now
            nextPingAt := some (now + self.config.pingInterval)
            backoff := self.config.initialBackoff
            reconnectAt := none })

/-- UplinkAck counts while live; for another connection it is stale. -/
def onUplinkAck (now : Nat) : Except SessionError (Inbound J) × LinkSession :=
  if self.phase ≠ .live then (.error .notLive, self)
  else
    match wire.decodeUplinkAck envelope.payload with
    | .error reason => (.error (.invalidEnvelope reason), self)
    | .ok ack =>
      if self.connectionId ≠ some ack.connectionId then (.ok .ignoredStale, self)
      else
        (.ok (.uplinkAck ack),
          { self with
            lastRecvAt := some now
            committedThrough := some ack.committedThrough })

/-- Pong counts while live; for another connection it is stale. -/
def onPong (now : Nat) : Except SessionError (Inbound J) × LinkSession :=
  if self.phase ≠ .live then (.error .notLive, self)
  else
    match wire.decodePong envelope.payload with
    | .error reason => (.error (.invalidEnvelope reason), self)
    | .ok pong =>
      if self.connectionId ≠ some pong.connectionId then (.ok .ignoredStale, self)
      else (.ok (.pong pong), { self with lastRecvAt := some now })

/-- A protocol error drops the connection. -/
def onProtocolError (now : Nat) : Except SessionError (Inbound J) × LinkSession :=
  match wire.decodeProtocolError envelope.payload with
  | .error reason => (.error (.invalidEnvelope reason), self)
  | .ok error => (.ok (.protocolError error), self.dropConnection now)

/-- The handler of the kind, for a valid envelope of this device. -/
def onInbound (now : Nat) : Except SessionError (Inbound J) × LinkSession :=
  match envelope.validateSequence with
  | .error reason => (.error (.invalidEnvelope reason), self)
  | .ok () =>
    if envelope.deviceId ≠ self.config.deviceId then (.error .deviceMismatch, self)
    else
      match envelope.kind with
      | .resumeAck => self.onResumeAck wire envelope now
      | .uplinkAck => self.onUplinkAck wire envelope now
      | .pong => self.onPong wire envelope now
      | .protocolError => self.onProtocolError wire envelope now
      | .commandDeliver => (.ok (.commandDeliver envelope), self)
      | other => (.error (.unexpectedKind other.asStr), self)

/-- While live: drops an idle connection, or pings when it is time. -/
def poll (now : Nat) : Option (Envelope J) × LinkSession :=
  if self.phase ≠ .live then (none, self)
  else if self.idleExpired now then (none, self.dropConnection now)
  else
    match self.nextPingAt with
    | none => (none, self)
    | some due =>
      if now < due then (none, self)
      else
        match self.connectionId with
        | none => (none, self)
        | some connectionId =>
          let payload : PingPayload := ⟨connectionId, self.timestamp now⟩
          let self := { self with nextPingAt := some (now + self.config.pingInterval) }
          let (ping, self) := self.envelope .ping (wire.encodePing payload) none now
          (some ping, self)

/-- The transport is gone. -/
def onDisconnect (now : Nat) : LinkSession :=
  if self.phase = .idle then
    { self with reconnectAt := some (now + self.backoff), phase := .backoff }
  else self.dropConnection now

/-! ## What one envelope or poll can do -/

/-- The session a handshake leaves that goes through. -/
def opening (connectionId : String) (now : Nat) : LinkSession :=
  { self with
    phase := .resuming
    connectionId := some connectionId
    committedThrough := none
    maxInFlight := none
    nextId := self.nextId + 1
    origin := some now
    nextPingAt := none
    lastRecvAt := some now
    reconnectAt := none }

/-- The outcomes of a handshake. -/
inductive Greeted (self : LinkSession) (connectionId : String) (now : Nat) :
    Except SessionError (Envelope J) × LinkSession → Prop
  | refused (e : SessionError) : Greeted self connectionId now (.error e, self)
  | opened (resume : Envelope J) (hkind : resume.kind = .resume) (hseq : resume.seq = none) :
      Greeted self connectionId now (.ok resume, self.opening connectionId now)

variable (self : LinkSession) (envelope : Envelope J) (now : Nat)

theorem handshake_greeted (connectionId : String) (now : Nat) :
    Greeted self connectionId now (self.handshake wire connectionId now) := by
  unfold handshake
  split
  · exact .refused _
  split
  · exact .refused _
  · exact .opened _ rfl rfl

theorem handshake_ok {self session : LinkSession} {connectionId : String} {now : Nat}
    {resume : Envelope J} (h : self.handshake wire connectionId now = (.ok resume, session)) :
    resume.kind = .resume ∧ resume.seq = none ∧ session.phase = .resuming := by
  have hgreeted := self.handshake_greeted wire connectionId now
  rw [h] at hgreeted
  cases hgreeted with
  | opened resume hkind hseq => exact ⟨hkind, hseq, rfl⟩

/-- The session after an accepted ResumeAck. -/
def resumed (ack : ResumeAckPayload) (now : Nat) : LinkSession :=
  { self with
    phase := .live
    committedThrough := some ack.committedThrough
    maxInFlight := some ack.maxInFlight
    lastRecvAt := some now
    nextPingAt := some (now + self.config.pingInterval)
    backoff := self.config.initialBackoff
    reconnectAt := none }

/-- The outcomes of an inbound envelope: what it returned, what it left
and the phase it needed. -/
inductive Handled (wire : Wire J) (self : LinkSession) (envelope : Envelope J) (now : Nat) :
    Except SessionError (Inbound J) × LinkSession → Prop
  | refused (e : SessionError) : Handled wire self envelope now (.error e, self)
  | resumed (ack : ResumeAckPayload) (hphase : self.phase = .resuming)
      (hconn : self.connectionId = some ack.connectionId) (hkind : envelope.kind = .resumeAck)
      (hdecode : wire.decodeResumeAck envelope.payload = .ok ack) :
      Handled wire self envelope now (.ok (.resumeAck ack), self.resumed ack now)
  | acked (ack : UplinkAckPayload) (hphase : self.phase = .live)
      (hconn : self.connectionId = some ack.connectionId) (hkind : envelope.kind = .uplinkAck)
      (hdecode : wire.decodeUplinkAck envelope.payload = .ok ack) :
      Handled wire self envelope now (.ok (.uplinkAck ack),
        { self with
          lastRecvAt := some now
          committedThrough := some ack.committedThrough })
  | ponged (pong : PongPayload) (hphase : self.phase = .live)
      (hconn : self.connectionId = some pong.connectionId) :
      Handled wire self envelope now (.ok (.pong pong), { self with lastRecvAt := some now })
  | stale (hphase : self.phase = .live) : Handled wire self envelope now (.ok .ignoredStale, self)
  | protocolError (error : ProtocolErrorPayload) :
      Handled wire self envelope now (.ok (.protocolError error), self.dropConnection now)
  | delivered : Handled wire self envelope now (.ok (.commandDeliver envelope), self)

section
variable {wire self envelope now}

theorem onResumeAck_handled (hkind : envelope.kind = .resumeAck) :
    Handled wire self envelope now (self.onResumeAck wire envelope now) := by
  unfold onResumeAck
  split
  · exact .refused _
  rename_i hphase
  split
  · exact .refused _
  rename_i ack hdecode
  split
  · exact .refused _
  rename_i hconn
  exact .resumed ack (Decidable.not_not.mp hphase) (Decidable.not_not.mp hconn) hkind hdecode

theorem onUplinkAck_handled (hkind : envelope.kind = .uplinkAck) :
    Handled wire self envelope now (self.onUplinkAck wire envelope now) := by
  unfold onUplinkAck
  split
  · exact .refused _
  rename_i hphase
  split
  · exact .refused _
  rename_i ack hdecode
  split
  · exact .stale (Decidable.not_not.mp hphase)
  rename_i hconn
  exact .acked ack (Decidable.not_not.mp hphase) (Decidable.not_not.mp hconn) hkind hdecode

theorem onPong_handled : Handled wire self envelope now (self.onPong wire envelope now) := by
  unfold onPong
  split
  · exact .refused _
  rename_i hphase
  split
  · exact .refused _
  rename_i pong _
  split
  · exact .stale (Decidable.not_not.mp hphase)
  rename_i hconn
  exact .ponged pong (Decidable.not_not.mp hphase) (Decidable.not_not.mp hconn)

end

theorem onInbound_handled : Handled wire self envelope now (self.onInbound wire envelope now) := by
  unfold onInbound
  split
  · exact .refused _
  split
  · exact .refused _
  split
  next hkind => exact onResumeAck_handled hkind
  next hkind => exact onUplinkAck_handled hkind
  · exact onPong_handled
  · unfold onProtocolError
    split
    · exact .refused _
    · exact .protocolError _
  · exact .delivered
  · exact .refused _

/-- The outcomes of a poll. -/
inductive Polled (wire : Wire J) (self : LinkSession) (now : Nat) :
    Option (Envelope J) × LinkSession → Prop
  | quiet : Polled wire self now (none, self)
  | expired (hphase : self.phase = .live) : Polled wire self now (none, self.dropConnection now)
  | pinged (connectionId : String) (hphase : self.phase = .live)
      (hconn : self.connectionId = some connectionId) :
      Polled wire self now
        (some ⟨protocolVersion, .ping, "00000000-0000-4000-8000-" ++ zeroPadded12 (self.nextId + 1),
            self.timestamp now, self.config.deviceId, none, none,
            wire.encodePing ⟨connectionId, self.timestamp now⟩⟩,
          { self with
            nextPingAt := some (now + self.config.pingInterval)
            nextId := self.nextId + 1 })

theorem poll_polled : Polled wire self now (self.poll wire now) := by
  unfold poll
  split
  · exact .quiet
  rename_i hphase
  have hlive : self.phase = .live := Decidable.not_not.mp hphase
  split
  · exact .expired hlive
  split
  · exact .quiet
  split
  · exact .quiet
  split
  · exact .quiet
  rename_i connectionId hconn
  exact .pinged connectionId hlive hconn

theorem onDisconnect_phase : (self.onDisconnect now).phase = .backoff := by
  unfold onDisconnect
  split <;> rfl

end LinkSession

end VodogeEdge
