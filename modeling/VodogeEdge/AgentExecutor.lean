import VodogeEdge.AgentCommand
import VodogeEdge.Faults
import VodogeEdge.GateStrategy
import VodogeEdge.LinkContract
import VodogeEdge.UplinkState

/-!
# The command executor

`CommandExecutor` of `edge-agent` with the command journal of
`edge-store` behind it. A call returns its result and the executor it
leaves. The journal is a `Disk`: any of its writes can be refused, and
the process can stop before any of them or inside a port call; the result
is then the halt `crashed`.

`trace` is not part of the source: it keeps what was done to the outside,
in order, so that statements about whole runs can count it.
-/

namespace VodogeEdge

open Std

/-! ## Other components, as far as the executor reads them -/

/-- The answer of the strategy registry; the bearer is not read here. -/
inductive Support where
  | supported
  | unsupported (layer : RefusedBy) (reason : String)

inductive VersionCheck where
  | notRequired
  | satisfied
  | tooOld (required running : String)
  | unreadable (required running : String)

/-- What the executor takes from libraries and from `edge-core`. -/
structure AgentLib (J V M C : Type) where
  null : J
  isNull : J → Bool
  contextValue : J → V
  /-- The payload under the key `inventory` of a reading. -/
  readInventory : J → Option EsimInventoryPayload
  resultBytes : CommandResultPayload V → Bytes
  resultText : CommandResultPayload V → String
  readResult : String → Option (CommandResultPayload V)
  matrixBytes : V → Except String Bytes
  matrixText : V → Except String String
  parseMatrix : V → Except String M
  matrixVersion : M → String
  versionCheck : M → String → VersionCheck
  hexSha256 : Bytes → String
  /-- `{:?}` of a string. -/
  debug : String → String
  resolve : M → C → Operation → Except String Support

/-! ## Self-update guard -/

/-- The version to go back to. -/
structure UpdateGuard where
  current : String
  previous : Option String

namespace UpdateGuard

def new (current : String) : UpdateGuard := ⟨current, none⟩

def start (self : UpdateGuard) (next : String) : UpdateGuard := ⟨next, some self.current⟩

def rollbackIfHandshakeFailed (self : UpdateGuard) (handshakeOk : Bool) :
    Option String × UpdateGuard :=
  if handshakeOk then (none, { self with previous := none })
  else
    match self.previous with
    | none => (none, self)
    | some previous => (some previous, ⟨previous, none⟩)

end UpdateGuard

/-! ## The journal -/

/-- A row of `command_journal`; `updated_at` orders and prunes only. -/
structure JournalRow where
  phase : String
  result : Option String
  resultSequence : Option Int

abbrev JournalDb : Type := ExtTreeMap String JournalRow

/-- The upsert of `record_command_phase`: a stored result is never
overwritten by an absent one. -/
def JournalDb.recordCommandPhase (cmdId phase : String) (result : Option String)
    (resultSequence : Option Int) (db : JournalDb) : JournalDb :=
  match db[cmdId]? with
  | none => db.insert cmdId ⟨phase, result, resultSequence⟩
  | some row => db.insert cmdId
      ⟨phase, result.or row.result, resultSequence.or row.resultSequence⟩

def journalRefusal : String := "sqlite: unable to open database file"

inductive CommandPhase where
  | recorded
  | executing
  | terminal

/-- A command in memory. -/
structure StoredCommand (V : Type) where
  phase : CommandPhase
  result : Option (CommandResultPayload V)
  resultSequence : Option Nat

structure RestoredCommand (V : Type) where
  cmdId : String
  phase : String
  result : Option (CommandResultPayload V)
  resultSequence : Option Nat

/-- What was done to the outside: an `executing` row written, a port action
called, an update staged under the version `running`, a handshake confirmed. -/
inductive AgentNote (J : Type) where
  | marked (cmdId : String)
  | called (cmdId : String) (action : PortAction J)
  | staged (cmdId : String) (running : String) (accepted : Bool)
  | confirmed (handshakeOk : Bool)

/-- `CommandExecutor`, with its journal and the trace. -/
structure CommandExecutor (P U J V M : Type) where
  port : P
  updater : U
  guard : UpdateGuard
  commands : ExtTreeMap String (StoredCommand V)
  rows : Disk JournalDb
  uplink : UplinkState
  matrix : M
  trace : List (AgentNote J)

/-- What an arm of `execute` comes to. -/
structure Executed (V : Type) where
  result : CommandResultPayload V
  executed : Bool
  inventory : Option EsimInventoryPayload

/-! ## Results -/

def terminalResult {V : Type} (cmdId status : String) (completedAt attempts : Int)
    (reasonCode reason : Option String) : CommandResultPayload V :=
  ⟨cmdId, status, completedAt, attempts, reasonCode, reason, none⟩

def receipt (cmdId deliveryId status : String) (receivedAt : Int) : CommandReceiptPayload :=
  ⟨cmdId, deliveryId, status, receivedAt, none, none⟩

section
variable {J V M C : Type} (lib : AgentLib J V M C)

def diagnosticResult (cmdId : String) (now attempts : Int) :
    Except (SendError J) J → CommandResultPayload V
  | .ok details =>
    let result : CommandResultPayload V :=
      terminalResult cmdId resultSucceeded now attempts none none
    if lib.isNull details then result
    else { result with details := some (lib.contextValue details) }
  | .error error =>
    let result : CommandResultPayload V := terminalResult cmdId resultFailed now attempts
      (some error.reasonCode) (some error.message)
    { result with details := error.details.map lib.contextValue }

/-! ## The chip inventory -/

def maxEpochMillis : Int := 253402300799999

def maxInventoryProfiles : Nat := 64

def profileStates : List String := ["enabled", "disabled", "deleted", "unknown"]

def digitsWithin (value : String) (shortest longest : Nat) : Bool :=
  shortest ≤ value.utf8ByteSize && value.utf8ByteSize ≤ longest && value.toList.all Char.isDigit

/-- Whether an inventory payload matches every shape the uplink schema
fixes. -/
def inventoryFitsContract (payload : EsimInventoryPayload) : Bool :=
  digitsWithin payload.modemImei 14 16
    && digitsWithin payload.eid 32 32
    && (0 ≤ payload.collectedAt && payload.collectedAt ≤ maxEpochMillis)
    && payload.profiles.length ≤ maxInventoryProfiles
    && payload.profiles.all fun profile =>
        digitsWithin profile.iccid 19 20 && profileStates.contains profile.state
          && (profile.nickname.all fun nickname => nickname.length ≤ 256)

/-- The inventory of a reading, if it is well formed. -/
def esimInventory : Except (SendError J) J → Option EsimInventoryPayload
  | .ok reading => (lib.readInventory reading).filter inventoryFitsContract
  | .error _ => none

/-! ## Installing a capability matrix -/

def trimText (value : String) : String :=
  String.ofList ((value.toList.dropWhile isWhitespace).reverse.dropWhile isWhitespace).reverse

def eqIgnoreAsciiCase (a b : String) : Bool :=
  a.toList.map Char.toLower == b.toList.map Char.toLower

/-- The checks of a new matrix. -/
def installMatrix (matrixVersion matrixSha256 : String) (matrix : V) (runningVersion : String) :
    Except (String × String) M :=
  match lib.matrixBytes matrix with
  | .error e => .error ("matrix_invalid", e)
  | .ok bytes =>
    if ¬eqIgnoreAsciiCase (lib.hexSha256 bytes) (trimText matrixSha256) then
      .error ("matrix_sha256_mismatch", "capability matrix sha256 does not match")
    else
      match lib.parseMatrix matrix with
      | .error e => .error ("matrix_invalid", e)
      | .ok parsed =>
        if lib.matrixVersion parsed ≠ matrixVersion then
          .error ("matrix_version_mismatch",
            "matrix version " ++ lib.matrixVersion parsed ++ " does not match command "
              ++ matrixVersion)
        else
          match lib.versionCheck parsed runningVersion with
          | .notRequired | .satisfied => .ok parsed
          | .tooOld required running =>
            .error ("matrix_needs_newer_agent",
              "capability matrix requires agent " ++ required ++ ", this one is " ++ running
                ++ "; keeping the previous matrix")
          | .unreadable required running =>
            .error ("matrix_needs_newer_agent",
              "capability matrix requires agent " ++ lib.debug required
                ++ " and this one reports " ++ lib.debug running
                ++ "; neither can be compared, so the matrix is refused rather "
                ++ "than assumed compatible")

end

/-- `u8::try_from(cid).unwrap_or(u8::MAX)`. -/
def clampCid (cid : Int) : Nat := if 0 ≤ cid ∧ cid ≤ 255 then cid.toNat else 255

/-- `try_from(value).ok()` into an unsigned type with that maximum. -/
def tryUnsigned (maximum : Nat) (value : Int) : Option Nat :=
  if 0 ≤ value ∧ value ≤ maximum then some value.toNat else none

namespace CommandExecutor

variable {P U J V M C : Type} (lib : AgentLib J V M C)

/-! ## Journal writes -/

variable (self : CommandExecutor P U J V M) (cmdId : String) (payload : CommandDeliverPayload J V)
  (now : Int)

def journal (phase : String) (result : Option (CommandResultPayload V))
    (resultSequence : Option Nat) : Except (Halt CommandError) Unit × CommandExecutor P U J V M :=
  match self.rows.execute journalRefusal (Disk.always _ (JournalDb.recordCommandPhase cmdId phase
      (result.map lib.resultText) (resultSequence.map asI64))) with
  | (.error halt, rows) => (.error (halt.map .journal), { self with rows })
  | (.ok (), rows) => (.ok (), { self with rows })

/-- The row that is written before the port is called. -/
def markExecuting : Except (Halt CommandError) Unit × CommandExecutor P U J V M :=
  match self.journal lib cmdId "executing" none none with
  | (.error halt, self) => (.error halt, self)
  | (.ok (), self) =>
    (.ok (),
      { self with
        commands :=
          match self.commands[cmdId]? with
          | some stored => self.commands.insert cmdId { stored with phase := .executing }
          | none => self.commands
        trace := self.trace ++ [.marked cmdId] })

def resultEnvelopeId : Except CommandError EnvelopeId :=
  match EnvelopeId.new cmdId with
  | .error e => .error (.uplink e)
  | .ok envelopeId => .ok envelopeId

/-- The tail of `store_terminal`, once the result has a sequence. -/
def settle (result : CommandResultPayload V) (sequence : Nat) :
    Except (Halt CommandError) Nat × CommandExecutor P U J V M :=
  match self.journal lib cmdId "terminal" (some result) (some sequence) with
  | (.error halt, self) => (.error halt, self)
  | (.ok (), self) =>
    match self.commands[cmdId]? with
    | none => (.error (.failed .emptyCmdId), self)
    | some _ =>
      (.ok sequence,
        { self with
          commands := self.commands.insert cmdId ⟨.terminal, some result, some sequence⟩ })

/-- Sequences the result in memory, then stores the terminal row. -/
def storeTerminal (result : CommandResultPayload V) :
    Except (Halt CommandError) Nat × CommandExecutor P U J V M :=
  match resultEnvelopeId cmdId with
  | .error e => (.error (.failed e), self)
  | .ok envelopeId =>
    match self.uplink.append envelopeId (lib.resultBytes result) .protected_ with
    | (.ok sequence, uplink) => settle lib { self with uplink } cmdId result sequence
    | (.error (.duplicateEnvelopeId _ sequence), uplink) =>
      settle lib { self with uplink } cmdId result sequence
    | (.error e, uplink) => (.error (.failed (.uplink e)), { self with uplink })

/-! ## Port calls -/

variable [SendPort P J C] [UpdatePort U J]

/-- One call of the port. -/
def perform (action : PortAction J) :
    Except (Halt CommandError) (Except (SendError J) J) × CommandExecutor P U J V M :=
  let (reply, port) := SendPort.perform self.port action
  let self := { self with port, trace := self.trace ++ [.called cmdId action] }
  match reply with
  | none => (.error .crashed, self)
  | some outcome => (.ok outcome, self)

def relay (action : PortAction J) :
    Except (Halt CommandError) (Except (SendError J) J) × CommandExecutor P U J V M :=
  match self.markExecuting lib cmdId with
  | (.error halt, self) => (.error halt, self)
  | (.ok (), self) => self.perform cmdId action

/-- `some refusal` when the operation must not be attempted. -/
def refuseUnsupported (imei : Option String) (operation : Operation) :
    Except (Halt CommandError) (Option (SendError J)) × CommandExecutor P U J V M :=
  let (reply, port) := SendPort.operatingContext self.port imei
  let self := { self with port }
  match reply with
  | none => (.error .crashed, self)
  | some (.error error) =>
    (.ok (some (.new "operating_context_unavailable"
      ("could not establish which module and card this is, so " ++ operation.wire
        ++ " was not attempted: " ++ error.message))), self)
  | some (.ok context) =>
    match lib.resolve self.matrix context operation with
    | .error reason => (.ok (some (.new "strategy_registry_invalid" reason)), self)
    | .ok .supported => (.ok none, self)
    | .ok (.unsupported layer reason) =>
      (.ok (some (.new (operation.wire ++ "_refused_by_" ++ layer.wire)
        (match layer with
          | .ledger => reason ++ ". Nothing is attempted on an untested pairing; measure it "
              ++ "and record the result."
          | _ => reason))), self)

def relaySms (send : SmsSend) :
    Except (Halt CommandError) (Except (SendError J) J) × CommandExecutor P U J V M :=
  match self.markExecuting lib cmdId with
  | (.error halt, self) => (.error halt, self)
  | (.ok (), self) =>
    match self.refuseUnsupported lib send.modemImei .smsSend with
    | (.error halt, self) => (.error halt, self)
    | (.ok (some refusal), self) => (.ok (.error refusal), self)
    | (.ok none, self) => self.perform cmdId (.sendSms send)

/-- The arm of `UpdateCapabilityMatrix`; a failure to persist is only
reported on standard error. -/
def updateMatrix (matrixVersion matrixSha256 : String) (matrix : V) (now attempts : Int) :
    Except (Halt CommandError) (Executed V) × CommandExecutor P U J V M :=
  match installMatrix lib matrixVersion matrixSha256 matrix self.guard.current with
  | .error (reasonCode, message) =>
    (.ok ⟨terminalResult cmdId resultFailed now attempts (some reasonCode) (some message),
      false, none⟩, self)
  | .ok parsed =>
    let self := { self with matrix := parsed }
    let installed : Executed V :=
      ⟨terminalResult cmdId resultSucceeded now attempts none none, true, none⟩
    match lib.matrixText matrix with
    | .error _ => (.ok installed, self)
    | .ok document =>
      let (reply, port) :=
        SendPort.persistCapabilityMatrix self.port matrixVersion matrixSha256 document
      match reply with
      | none => (.error .crashed, { self with port })
      | some _ => (.ok installed, { self with port })

def stageUpdate (request : SelfUpdateRequest) (now attempts : Int) :
    Except (Halt CommandError) (Executed V) × CommandExecutor P U J V M :=
  let (reply, updater) := UpdatePort.stage self.updater request
  let staged (accepted : Bool) : CommandExecutor P U J V M :=
    { self with updater, trace := self.trace ++ [.staged cmdId self.guard.current accepted] }
  match reply with
  | none => (.error .crashed, staged false)
  | some (.ok ()) =>
    (.ok ⟨terminalResult cmdId resultSucceeded now attempts none none, true, none⟩,
      { staged true with guard := self.guard.start request.version })
  | some (.error error) =>
    (.ok ⟨terminalResult cmdId resultFailed now attempts (some error.reasonCode)
      (some error.message), true, none⟩, staged false)

def restartResult (attempts : Int) : Except (SendError J) J → CommandResultPayload V
  | .ok _ => terminalResult cmdId resultSucceeded now attempts none none
  | .error error => terminalResult cmdId resultFailed now attempts (some error.reasonCode)
      (some error.message)

def answered (finish : Except (SendError J) J → Executed V)
    (relayed : Except (Halt CommandError) (Except (SendError J) J) × CommandExecutor P U J V M) :
    Except (Halt CommandError) (Executed V) × CommandExecutor P U J V M :=
  (relayed.1.map finish, relayed.2)

/-- One arm for each command. -/
def execute (attempts : Int) :
    Except (Halt CommandError) (Executed V) × CommandExecutor P U J V M :=
  let cmdId := payload.cmdId
  -- the diagnostic relay: mark, call, report what came back
  let diagnostic (action : PortAction J) :=
    answered (fun outcome => ⟨diagnosticResult lib cmdId now attempts outcome, true, none⟩)
      (self.relay lib cmdId action)
  -- the two commands that read a whole chip
  let withInventory (action : PortAction J) :=
    answered (fun outcome => ⟨diagnosticResult lib cmdId now attempts outcome, true,
      esimInventory lib outcome⟩) (self.relay lib cmdId action)
  match payload.command with
  | .sendSms recipient body modemImei iccid =>
    answered (fun outcome => ⟨diagnosticResult lib cmdId now attempts outcome, true, none⟩)
      (self.relaySms lib cmdId ⟨recipient, body, modemImei, iccid⟩)
  | .restartModem modemImei =>
    answered (fun outcome => ⟨restartResult cmdId now attempts outcome, true, none⟩)
      (self.relay lib cmdId (.restartModem modemImei))
  | .updateCapabilityMatrix matrixVersion matrixSha256 matrix =>
    self.updateMatrix lib cmdId matrixVersion matrixSha256 matrix now attempts
  | .selfUpdate version url sha256 signature =>
    self.stageUpdate cmdId ⟨version, url, sha256, signature⟩ now attempts
  | .runAtCommand modemImei command timeoutMs force =>
    diagnostic (.runAt modemImei command timeoutMs (force.getD false))
  | .sendUssd modemImei code stage => diagnostic (.sendUssd modemImei code (stage.getD "start"))
  | .setRadio modemImei enabled =>
    -- `set_radio` returns no value; the result carries no details
    answered (fun outcome =>
        ⟨diagnosticResult lib cmdId now attempts (outcome.map fun _ => lib.null), true, none⟩)
      (self.relay lib cmdId (.setRadio modemImei enabled))
  | .configureApn modemImei cid pdpType apn username password auth =>
    diagnostic (.configureApn ⟨modemImei, clampCid cid, pdpType, apn, username, password, auth⟩)
  | .renameEsimProfile modemImei iccid nickname =>
    diagnostic (.renameEsimProfile modemImei iccid (nickname.getD ""))
  | .disableEsimProfile modemImei iccid => diagnostic (.disableEsimProfile modemImei iccid)
  | .deleteEsimProfile modemImei iccid => diagnostic (.deleteEsimProfile modemImei iccid)
  | .claimModemCandidate candidateKey => diagnostic (.claimModemCandidate candidateKey)
  | .revokeModemCandidate candidateKey => diagnostic (.revokeModemCandidate candidateKey)
  | .registerModem modemImei note => diagnostic (.registerModem modemImei note)
  | .unregisterModem modemImei => diagnostic (.unregisterModem modemImei)
  | .createModem modemImei family note => diagnostic (.createModem modemImei family note)
  | .updateModem modemImei note => diagnostic (.updateModem modemImei note)
  | .reconfirmModem modemImei => diagnostic (.reconfirmModem modemImei)
  | .readLogs after limit contains =>
    diagnostic (.readLogs (after.bind (tryUnsigned u64Max))
      (limit.bind (tryUnsigned (2 ^ 32 - 1))) contains)
  | .scanOperators modemImei => diagnostic (.scanOperators modemImei)
  | .selectOperator modemImei mode plmn => diagnostic (.selectOperator modemImei mode plmn)
  | .modemReport modemImei => diagnostic (.modemReport modemImei)
  | .resetModemUsb modemImei => diagnostic (.resetUsb modemImei)
  | .setDataNetwork modemImei enabled => diagnostic (.setDataNetwork modemImei enabled)
  | .setUsbnetMode modemImei mode => diagnostic (.setUsbnetMode modemImei mode)
  | .reregisterNetwork modemImei => diagnostic (.reregisterNetwork modemImei)
  | .refreshModems => diagnostic .refreshModems
  | .updateCardPolicy policyVersion policies =>
    diagnostic (.updateCardPolicies policyVersion policies)
  | .listEsimProfiles modemImei => diagnostic (.listEsimProfiles modemImei)
  | .switchEsimProfile modemImei targetIccid =>
    withInventory (.switchEsimProfile modemImei targetIccid)
  | .readEsimInfo modemImei => withInventory (.readEsimInfo modemImei)
  | .retrieveEsimNotification modemImei sequenceNumber =>
    diagnostic (.retrieveEsimNotification modemImei sequenceNumber)
  | .initiateEsimAuthentication modemImei smdpAddress =>
    diagnostic (.initiateEsimAuthentication modemImei smdpAddress)
  | .downloadEsimProfile modemImei activationCode confirmationCode =>
    diagnostic (.downloadEsimProfile modemImei activationCode confirmationCode)
  | .configureProxy instances upstreams => diagnostic (.configureProxy instances upstreams)
  | .proxyLifecycle instanceId action => diagnostic (.proxyLifecycle instanceId action)
  | .probeUpstreamProxy upstreamId => diagnostic (.probeUpstreamProxy upstreamId)
  | .rotateIp modemImei => diagnostic (.rotateIp modemImei)

/-! ## Deliveries -/

/-- The stored result of a terminal command. -/
def replay (deliveryId : String) (now : Int) : Option (DeliveryOutcome V) :=
  match self.commands[cmdId]? with
  | some ⟨_, some result, some sequence⟩ =>
    some ⟨receipt cmdId deliveryId receiptDuplicate now, result, sequence, false, none⟩
  | _ => none

/-- A command cut off while executing ends as unknown. -/
def finishUnknown (deliveryId : String) (now : Int) :
    Except (Halt CommandError) (DeliveryOutcome V) × CommandExecutor P U J V M :=
  let result : CommandResultPayload V :=
    terminalResult payload.cmdId resultUnknown now (payload.attempt.getD 1)
      (some "outcome_unknown")
      (some "command was executing when the agent lost the modem result")
  match self.storeTerminal lib payload.cmdId result with
  | (.error halt, self) => (.error halt, self)
  | (.ok sequence, self) =>
    (.ok ⟨receipt payload.cmdId deliveryId receiptDuplicate now, result, sequence, false, none⟩,
      self)

/-- The first delivery of a command: the row, then the memory. -/
def recordFirst : Except (Halt CommandError) Unit × CommandExecutor P U J V M :=
  if cmdId ∈ self.commands then (.ok (), self)
  else
    match self.journal lib cmdId "recorded" none none with
    | (.error halt, self) => (.error halt, self)
    | (.ok (), self) =>
      (.ok (), { self with commands := self.commands.insert cmdId ⟨.recorded, none, none⟩ })

def attempt : Except (Halt CommandError) (Executed V) × CommandExecutor P U J V M :=
  let attempts := payload.attempt.getD 1
  if payload.expiresAt ≤ now then
    (.ok ⟨terminalResult payload.cmdId resultExpired now attempts (some "expired")
      (some "command expired before execution"), false, none⟩, self)
  else self.execute lib payload now attempts

def conclude (receipt : CommandReceiptPayload) (now : Int) :
    Except (Halt CommandError) (DeliveryOutcome V) × CommandExecutor P U J V M :=
  match self.attempt lib payload now with
  | (.error halt, self) => (.error halt, self)
  | (.ok executed, self) =>
    match self.storeTerminal lib payload.cmdId executed.result with
    | (.error halt, self) => (.error halt, self)
    | (.ok sequence, self) =>
      (.ok ⟨receipt, executed.result, sequence, executed.executed, executed.inventory⟩, self)

/-- The tail of `deliver`, for a command that is new or recorded. -/
def run (receipt : CommandReceiptPayload) (now : Int) :
    Except (Halt CommandError) (DeliveryOutcome V) × CommandExecutor P U J V M :=
  match self.recordFirst lib payload.cmdId with
  | (.error halt, self) => (.error halt, self)
  | (.ok (), self) => self.conclude lib payload receipt now

/-- Persists `cmd_id`, executes at most once, and sequences a result. -/
def deliver (deliveryId : String) (payload : CommandDeliverPayload J V) (now : Int) :
    Except (Halt CommandError) (DeliveryOutcome V) × CommandExecutor P U J V M :=
  if trimIsEmpty deliveryId then (.error (.failed .emptyDeliveryId), self)
  else if trimIsEmpty payload.cmdId then (.error (.failed .emptyCmdId), self)
  else
    match (self.commands[payload.cmdId]?).map StoredCommand.phase with
    | some .terminal =>
      match self.replay payload.cmdId deliveryId now with
      | some outcome => (.ok outcome, self)
      | none => (.error (.failed .emptyCmdId), self)
    | some .executing => self.finishUnknown lib payload deliveryId now
    | some .recorded | none =>
      let status :=
        if payload.cmdId ∈ self.commands then receiptDuplicate else receiptAccepted
      self.run lib payload (receipt payload.cmdId deliveryId status now) now

/-- After Resume, keeps the staged binary or restores the previous one. -/
def confirmHandshake (handshakeOk : Bool) :
    Except (Halt (SendError J)) (Option String) × CommandExecutor P U J V M :=
  let trace := self.trace ++ [.confirmed handshakeOk]
  match self.guard.rollbackIfHandshakeFailed handshakeOk with
  | (none, guard) => (.ok none, { self with guard, trace })
  | (some previous, guard) =>
    let (reply, updater) := UpdatePort.restore self.updater previous
    let self := { self with guard, updater, trace }
    match reply with
    | none => (.error .crashed, self)
    | some (.error error) => (.error (.failed error), self)
    | some (.ok ()) => (.ok (some previous), self)

/-! ## Starting from the journal -/

/-- One row of `restore_commands`; a row with an unknown phase is skipped,
a terminal without its result counts as executing. -/
def restoredCommand (row : RestoredCommand V) : Option (StoredCommand V) :=
  match row.phase with
  | "recorded" => some ⟨.recorded, row.result, row.resultSequence⟩
  | "executing" => some ⟨.executing, row.result, row.resultSequence⟩
  | "terminal" =>
    match row.result, row.resultSequence with
    | some result, some sequence => some ⟨.terminal, some result, some sequence⟩
    | _, _ => some ⟨.executing, none, none⟩
  | _ => none

/-- The loop over the journal rows. -/
def restoreCommands : CommandExecutor P U J V M → List (RestoredCommand V) →
    Nat × CommandExecutor P U J V M
  | self, [] => (0, self)
  | self, row :: rest =>
    match restoredCommand row with
    | none =>
      let (skipped, self) := restoreCommands self rest
      (skipped + 1, self)
    | some stored =>
      restoreCommands { self with commands := self.commands.insert row.cmdId stored } rest

def restoreRow (row : JournalRow) : RestoredCommand V :=
  ⟨cmdId, row.phase, row.result.bind lib.readResult, row.resultSequence.map asU64⟩

/-- `with_updater`, then `with_journal`. -/
def withJournal (port : P) (updater : U) (rows : Disk JournalDb) (matrix : M)
    (trace : List (AgentNote J)) : CommandExecutor P U J V M where
  port := port
  updater := updater
  guard := UpdateGuard.new (UpdatePort.current updater)
  commands := ∅
  rows := rows
  uplink := UplinkState.new
  matrix := matrix
  trace := trace

/-- A new process over the old journal. -/
def restart (port : P) (updater : U) (matrix : M) : CommandExecutor P U J V M :=
  ((withJournal port updater ⟨self.rows.db, []⟩ matrix self.trace).restoreCommands
    (self.rows.db.toList.map fun entry => restoreRow lib entry.1 entry.2)).2

def planned (fates : List Fate) : CommandExecutor P U J V M :=
  { self with rows := ⟨self.rows.db, fates⟩ }

end CommandExecutor

/-! ## The machine -/

/-- A running agent, or one that crashed and left only its journal. -/
inductive AgentHost (P U J V M : Type) where
  | up (executor : CommandExecutor P U J V M)
  | down (executor : CommandExecutor P U J V M)

/-- What can happen to an agent. The event says how the journal will
treat the writes of the call, and what a new process finds. -/
inductive AgentEvent (P U J V M : Type) where
  | deliver (fates : List Fate) (deliveryId : String) (payload : CommandDeliverPayload J V)
      (now : Int)
  | confirmHandshake (handshakeOk : Bool)
  | restart (port : P) (updater : U) (matrix : M)

namespace AgentHost

variable {P U J V M C : Type} (lib : AgentLib J V M C)

def executor : AgentHost P U J V M → CommandExecutor P U J V M
  | .up executor => executor
  | .down executor => executor

def settle {E A : Type} :
    Except (Halt E) A × CommandExecutor P U J V M → AgentHost P U J V M
  | (.error .crashed, executor) => .down executor
  | (_, executor) => .up executor

variable [SendPort P J C] [UpdatePort U J]

/-- One event of a run. -/
def step (host : AgentHost P U J V M) : AgentEvent P U J V M → AgentHost P U J V M
  | .deliver fates deliveryId payload now =>
    match host with
    | .up executor => settle ((executor.planned fates).deliver lib deliveryId payload now)
    | .down executor => .down executor
  | .confirmHandshake handshakeOk =>
    match host with
    | .up executor => settle (executor.confirmHandshake handshakeOk)
    | .down executor => .down executor
  | .restart port updater matrix => .up (host.executor.restart lib port updater matrix)

def fresh (port : P) (updater : U) (matrix : M) : AgentHost P U J V M :=
  .up (CommandExecutor.withJournal port updater ⟨∅, []⟩ matrix [])

end AgentHost

/-! ## A small agent

A port and an updater that accept everything, for runs on concrete
commands. -/

inductive SilentPort where
  | mk

instance : SendPort SilentPort Unit Unit where
  perform port _ := (some (.ok ()), port)
  operatingContext port _ := (some (.ok ()), port)
  persistCapabilityMatrix port _ _ _ := (some (.ok ()), port)

structure ReadyUpdater where
  version : String

instance : UpdatePort ReadyUpdater Unit where
  stage updater _ := (some (.ok ()), updater)
  restore updater _ := (some (.ok ()), updater)
  current updater := updater.version

def plainLib : AgentLib Unit Unit Unit Unit where
  null := ()
  isNull _ := true
  contextValue _ := ()
  readInventory _ := none
  resultBytes _ := []
  resultText result := result.status
  readResult _ := none
  matrixBytes _ := .ok []
  matrixText _ := .ok ""
  parseMatrix _ := .ok ()
  matrixVersion _ := ""
  versionCheck _ _ := .notRequired
  hexSha256 _ := ""
  debug text := text
  resolve _ _ _ := .ok .supported

end VodogeEdge
