import VodogeEdge.LinkSession
import VodogeEdge.OutboxDurable
import Mathlib.Data.List.Sort

/-!
# The uplink worker

`UplinkWorker` of `edge-uplink`: Resume, replay, heartbeat and reconnect
against one outbox. The worker is generic in the outbox, as in the
source, and so is the model; the connection is the list of envelopes
handed to it together with the answers it will give.

A call returns its result, the worker it leaves and the connection. An
outbox call can be cut off by a crash of the process, which is then the
result of the call that made it.
-/

namespace VodogeEdge

inductive DialError where
  | plaintextRejected
  | unsupportedUrl (url : String)
  | tls (error : String)
  | io (error : String)
  | handshake (reason : String)
  | nonBinaryFrame
  | closed
  | timeout
  | protocol (error : SessionError)
deriving DecidableEq

/-- A dialled connection: what was handed to it, and how it will answer
the calls still to come (`none`, and the end of the list, is success). -/
structure Conn (J : Type) where
  sent : List (Envelope J)
  answers : List (Option DialError)

namespace Conn

variable {J : Type}

def dial (answers : List (Option DialError)) : Conn J := ⟨[], answers⟩

def sendEnvelope (self : Conn J) (envelope : Envelope J) : Except DialError Unit × Conn J :=
  match self.answers with
  | some error :: rest => (.error error, { self with answers := rest })
  | answers => (.ok (), ⟨self.sent ++ [envelope], answers.tail⟩)

def setReadTimeout (self : Conn J) (_timeout : Option Nat) : Except DialError Unit × Conn J :=
  match self.answers with
  | some error :: rest => (.error error, { self with answers := rest })
  | answers => (.ok (), { self with answers := answers.tail })

end Conn

/-- One retained sequenced envelope ready to send on the wire. -/
structure RetainedRecord where
  sequence : Nat
  envelopeId : String
  kind : String
  payload : Bytes
deriving DecidableEq

/-- The local journal behind the worker; errors are already texts. -/
class Outbox (O : Type) where
  lastAllocated : O → Nat
  committedThrough : O → Nat
  lowestRetainedSeq : O → Option Nat
  pendingGapIds : O → List String
  queueRecords : O → Int
  queueBytes : O → Option Int
  observeAck : O → UplinkAck → Except (Halt String) (List Nat) × O
  retained : O → Except String (List RetainedRecord)

/-- Unacknowledged records allowed on the wire at once. -/
def replayWindow : Nat := 32

inductive WorkerError where
  | dial (error : DialError)
  | session (error : SessionError)
  | uplink (error : UplinkError)
  | outbox (error : String)
  | invalidKind (kind : String)
  | invalidPayload (reason : String)
deriving DecidableEq

structure UplinkWorker (O : Type) where
  session : LinkSession
  outbox : O
  nextConnection : Nat
  lastConnectionId : Option String
  /-- Highest sequence handed to the transport. -/
  replayThrough : Nat
  /-- The gap head already rewound to. -/
  gapResentFrom : Option Nat

def parseKind (kind : String) : Except WorkerError MessageKind :=
  match MessageKind.ofStr? kind with
  | some kind => .ok kind
  | none => .error (.invalidKind kind)

def checkRanges : List WireRange → Except UplinkError (List SequenceRange)
  | [] => .ok []
  | range :: rest =>
    match SequenceRange.new range.fromSeq range.through with
    | .error e => .error e
    | .ok range =>
      match checkRanges rest with
      | .error e => .error e
      | .ok ranges => .ok (range :: ranges)

namespace UplinkWorker

variable {J : Type} (wire : Wire J) {O : Type} [Outbox O]

def new (config : LinkConfig) (outbox : O) : UplinkWorker O :=
  ⟨LinkSession.new config, outbox, 0, none, 0, none⟩

variable (self : UplinkWorker O) (conn : Conn J) (now : Nat)

/-- The connection is gone, unless the session knows already. -/
def markDropped : UplinkWorker O :=
  if self.session.phase ≠ .backoff then
    { self with session := self.session.onDisconnect now }
  else self

def onDisconnect : UplinkWorker O := self.markDropped now

def allocConnectionId : String × UplinkWorker O :=
  ("10000000-0000-4000-8000-" ++ zeroPadded12 (self.nextConnection + 1),
    { self with nextConnection := self.nextConnection + 1 })

def refreshSnapshot : UplinkWorker O :=
  let previous := self.session.config.snapshot
  let snapshot : ResumeSnapshot := {
    lastAssignedSeq := Outbox.lastAllocated self.outbox
    lastAckedSeq := Outbox.committedThrough self.outbox
    lowestRetainedSeq := Outbox.lowestRetainedSeq self.outbox
    pendingGapIds := Outbox.pendingGapIds self.outbox
    capabilityMatrixVersion := previous.capabilityMatrixVersion
    cardPolicyVersion := previous.cardPolicyVersion
    edgeVersion := previous.edgeVersion
    queueRecords := some (Outbox.queueRecords self.outbox)
    queueBytes := Outbox.queueBytes self.outbox }
  { self with session := self.session.setSnapshot snapshot }

/-- Sends Resume with cursors from the outbox and a new connection id. -/
def start : Except WorkerError String × UplinkWorker O × Conn J :=
  let self := self.refreshSnapshot
  let (connectionId, self) := self.allocConnectionId
  match self.session.handshake wire connectionId now with
  | (.error e, session) => (.error (.session e), { self with session }, conn)
  | (.ok resume, session) =>
    let self := { self with session }
    match conn.setReadTimeout (some VodogeEdge.pingInterval) with
    | (.error e, conn) => (.error (.dial e), self, conn)
    | (.ok (), conn) =>
      match conn.sendEnvelope resume with
      | (.error e, conn) => (.error (.dial e), self.markDropped now, conn)
      | (.ok (), conn) =>
        (.ok connectionId, { self with lastConnectionId := some connectionId }, conn)

def sequencedEnvelope (record : RetainedRecord) (now : Nat) : Except WorkerError (Envelope J) :=
  match parseKind record.kind with
  | .error e => .error e
  | .ok kind =>
    match wire.parse record.payload with
    | .error reason => .error (.invalidPayload reason)
    | .ok payload =>
      .ok ⟨protocolVersion, kind, record.envelopeId, self.session.timestamp now,
        self.session.config.deviceId, some record.sequence, none, payload⟩

def replayRecords (now : Nat) : UplinkWorker O → Conn J → Nat → List RetainedRecord →
    Except WorkerError Unit × UplinkWorker O × Conn J
  | self, conn, _, [] => (.ok (), self, conn)
  | self, conn, budget, record :: records =>
    if record.sequence ≤ self.replayThrough then
      replayRecords now self conn budget records
    else if budget = 0 then (.ok (), self, conn)
    else
      match self.sequencedEnvelope wire record now with
      | .error e => (.error e, self, conn)
      | .ok envelope =>
        match conn.sendEnvelope envelope with
        | (.error e, conn) => (.error (.dial e), self, conn)
        | (.ok (), conn) =>
          replayRecords now { self with replayThrough := record.sequence } conn
            (budget - 1) records

def replay : Except WorkerError Unit × UplinkWorker O × Conn J :=
  let committedThrough := Outbox.committedThrough self.outbox
  -- An ack that moved the cursor forward retires anything already sent.
  let self :=
    if self.replayThrough < committedThrough then
      { self with replayThrough := committedThrough }
    else self
  match Outbox.retained self.outbox with
  | .error reason => (.error (.outbox reason), self, conn)
  | .ok records =>
    let records := records.insertionSort (fun a b => a.sequence ≤ b.sequence)
    let inFlight := self.replayThrough - committedThrough
    replayRecords wire now self conn (replayWindow - inFlight) records

/-- A reported gap rewinds the cursor, once per gap head. -/
def rewind (ranges : List SequenceRange) : UplinkWorker O :=
  match (ranges.map (·.start)).min? with
  | some lowest =>
    if self.gapResentFrom ≠ some lowest then
      { self with
        replayThrough := min self.replayThrough (lowest - 1)
        gapResentFrom := some lowest }
    else self
  | none => { self with gapResentFrom := none }

def applyAck (committedThrough : Nat) (missingRanges : List WireRange) (moreMissing : Bool) :
    Except (Halt WorkerError) (List Nat) × UplinkWorker O :=
  match checkRanges missingRanges with
  | .error e => (.error (.failed (.uplink e)), self)
  | .ok ranges =>
    let self := self.rewind ranges
    match UplinkAck.new committedThrough ranges moreMissing with
    | .error e => (.error (.failed (.uplink e)), self)
    | .ok ack =>
      match Outbox.observeAck self.outbox ack with
      | (.error halt, outbox) => (.error (halt.map .outbox), { self with outbox })
      | (.ok retired, outbox) => (.ok retired, { self with outbox })

def acknowledge (committedThrough : Nat) (missingRanges : List WireRange) (moreMissing : Bool)
    (now : Nat) : Except (Halt WorkerError) Unit × UplinkWorker O × Conn J :=
  match self.applyAck committedThrough missingRanges moreMissing with
  | (.error halt, self) => (.error halt, self, conn)
  | (.ok _, self) =>
    let (result, self, conn) := self.replay wire conn now
    (result.mapError .failed, self, conn)

/-- The `match` of `on_inbound` over what the session made of the
envelope. -/
def dispatch : Inbound J → Except (Halt WorkerError) Unit × UplinkWorker O × Conn J
  | .resumeAck ack =>
    self.acknowledge wire conn ack.committedThrough ack.missingRanges ack.moreMissing now
  | .uplinkAck ack =>
    self.acknowledge wire conn ack.committedThrough ack.missingRanges ack.moreMissing now
  | .ignoredStale | .pong _ | .commandDeliver _ => (.ok (), self, conn)
  | .protocolError _ => (.ok (), self, conn)

def onInbound (envelope : Envelope J) (now : Nat) :
    Except (Halt WorkerError) (Inbound J) × UplinkWorker O × Conn J :=
  match self.session.onInbound wire envelope now with
  | (.error e, session) => (.error (.failed (.session e)), { self with session }, conn)
  | (.ok inbound, session) =>
    let (result, self, conn) := dispatch wire { self with session } conn now inbound
    (result.map fun _ => inbound, self, conn)

def sendPing : Option (Envelope J) → Except DialError Unit × Conn J
  | some envelope => conn.sendEnvelope envelope
  | none => (.ok (), conn)

def poll : Except WorkerError (Option (Envelope J)) × UplinkWorker O × Conn J :=
  let (ping, session) := self.session.poll wire now
  match sendPing conn ping with
  | (.error e, conn) => (.error (.dial e), { self with session }, conn)
  | (.ok (), conn) =>
    let (result, self, conn) := replay wire { self with session } conn now
    (result.map fun _ => ping, self, conn)

/-- The receive loop of `run`; a script that ends is a closed socket. -/
def receive (now : Nat) : UplinkWorker O → Conn J → List (Except DialError (Envelope J)) →
    Except (Halt WorkerError) Unit × UplinkWorker O × Conn J
  | self, conn, [] => (.ok (), self.markDropped now, conn)
  | self, conn, .ok envelope :: rest =>
    match self.onInbound wire conn envelope now with
    | (.error halt, self, conn) => (.error halt, self.markDropped now, conn)
    | (.ok _, self, conn) =>
      if self.session.phase = .backoff then (.ok (), self, conn)
      else receive now self conn rest
  | self, conn, .error .timeout :: rest =>
    match self.poll wire conn now with
    | (.error e, self, conn) => (.error (.failed e), self, conn)
    | (.ok _, self, conn) =>
      if self.session.phase = .backoff then (.ok (), self, conn)
      else receive now self conn rest
  | self, conn, .error .closed :: _ => (.ok (), self.markDropped now, conn)
  | self, conn, .error e :: _ => (.error (.failed (.dial e)), self.markDropped now, conn)

def run (received : List (Except DialError (Envelope J))) (now : Nat) :
    Except (Halt WorkerError) Unit × UplinkWorker O × Conn J :=
  match self.start wire conn now with
  | (.error e, self, conn) => (.error (.failed e), self, conn)
  | (.ok _, self, conn) => receive wire now self conn received

end UplinkWorker

/-! ## The durable outbox behind the worker -/

def SqliteError.display : SqliteError → String
  | .uniqueViolation column => "UNIQUE constraint failed: " ++ column
  | .unavailable => "unable to open database file"

def StoreError.display : StoreError → String
  | .sqlite error => "sqlite: " ++ error.display

def QueueError.display : QueueError → String
  | .store error => error.display
  | .uplink error => error.display

namespace DurableOutbox

def queueRecords (self : DurableOutbox) : Int := self.retainedCount

def queueBytes (self : DurableOutbox) : Option Int :=
  some ((self.state.retainedRecords.map fun record => (record.payload.length : Int)).sum)

/-- The rows the outbox table holds, as the worker sends them. -/
def retained (self : DurableOutbox) : List RetainedRecord :=
  self.store.db.loadOutbox.map fun row => ⟨row.seq, row.envelopeId, row.kind, row.payload⟩

end DurableOutbox

instance : Outbox DurableOutbox where
  lastAllocated := DurableOutbox.lastAllocated
  committedThrough := DurableOutbox.committedThrough
  lowestRetainedSeq := DurableOutbox.lowestRetainedSeq
  pendingGapIds := DurableOutbox.pendingGapIds
  queueRecords := DurableOutbox.queueRecords
  queueBytes := DurableOutbox.queueBytes
  observeAck self ack :=
    match self.observeAck ack with
    | (.error halt, self) => (.error (halt.map QueueError.display), self)
    | (.ok retired, self) => (.ok retired, self)
  retained self := .ok self.retained

end VodogeEdge
