import VodogeEdge.OutboxStore

/-!
# The durable outbox

`DurableOutbox` of `edge-store`: an `UplinkState` kept in step with the
outbox tables by separately committed statements. A call returns its
result and the object it leaves; a crash in the middle of a call is the
halt `crashed`, after which only the tables of that object matter.

The capacity check runs after every append.
-/

namespace VodogeEdge

open Std

/-- Once over the limit, the warning is repeated only after this many
further records. -/
def overflowWarnStride : Nat := 1000

/-- Reported when the capacity check dropped an evictable record. -/
structure CapacityAlert where
  gapId : String
  evictedSeq : Nat
deriving DecidableEq

/-- The queue is over its limit and no record may be evicted. -/
structure CapacityOverflow where
  retained : Nat
  maxRecords : Nat
  oldestSeq : Option Nat
deriving DecidableEq

def CapacityOverflow.overBy (self : CapacityOverflow) : Nat := self.retained - self.maxRecords

def CapacityOverflow.display (self : CapacityOverflow) : String :=
  "outbox over capacity: " ++ toString self.retained ++ " retained against a limit of "
    ++ toString self.maxRecords ++ " (over by " ++ toString self.overBy ++ "), "
    ++ "and not one record is evictable"
    ++ (match self.oldestSeq with
      | some sequence => "; head of line is seq " ++ toString sequence
      | none => "")
    ++ "; the queue will keep growing until the disk fills"

inductive CapacityOutcome where
  | withinCapacity
  | evicted (alert : CapacityAlert)
  | overflowing (overflow : CapacityOverflow)
deriving DecidableEq

inductive QueueError where
  | store (error : StoreError)
  | uplink (error : UplinkError)
deriving DecidableEq

structure DurableOutbox where
  store : Store
  state : UplinkState
  maxRecords : Nat
  overflowWarnedAt : Option Nat
deriving DecidableEq

def overflowWarningDue (retained : Nat) : Option Nat → Bool
  | none => true
  | some previous => min (previous + overflowWarnStride) u64Max ≤ retained

namespace DurableOutbox

variable (self : DurableOutbox)

def committedThrough : Nat := self.state.committedThrough

def lastAllocated : Nat := self.state.lastAllocated

def retainedCount : Nat := self.state.retainedRecords.length

def lowestRetainedSeq : Option Nat :=
  self.state.retainedRecords.head?.map (·.sequence)

def pendingGapIds : List String :=
  (tableValues self.state.pendingGaps).map (·.gapId.asStr)

def oldestEvictable : Option Nat :=
  (self.state.retainedRecords.find? (·.retention = .evictable)).map (·.sequence)

def capacityOverflow : Option CapacityOverflow :=
  if self.retainedCount ≤ self.maxRecords ∨ self.oldestEvictable.isSome then none
  else some ⟨self.retainedCount, self.maxRecords, self.lowestRetainedSeq⟩

/-- Decides whether to warn; the text goes to standard error. -/
def overflowWarning (overflow : CapacityOverflow) : Option String × DurableOutbox :=
  if overflowWarningDue overflow.retained self.overflowWarnedAt then
    (some overflow.display, { self with overflowWarnedAt := some overflow.retained })
  else (none, self)

def warnOverflow (overflow : CapacityOverflow) : DurableOutbox :=
  (self.overflowWarning overflow).2

/-- One row of `from_store`: a stored envelope id must still be valid. -/
def restoreRow (row : OutboxRow) : Except UplinkError UplinkRecord :=
  match EnvelopeId.new row.envelopeId with
  | .error e => .error e
  | .ok envelopeId =>
    .ok ⟨row.seq, envelopeId, row.payload,
      if row.isProtected then .protected_ else .evictable⟩

def restoreRows : List OutboxRow → Except UplinkError (List UplinkRecord)
  | [] => .ok []
  | row :: rest =>
    match restoreRow row with
    | .error e => .error e
    | .ok record =>
      match restoreRows rest with
      | .error e => .error e
      | .ok records => .ok (record :: records)

def fromStore (store : Store) (maxRecords : Nat) : Except QueueError DurableOutbox :=
  match restoreRows store.db.loadOutbox with
  | .error e => .error (.uplink e)
  | .ok records =>
    match UplinkState.rehydrate store.db.readCursor.1 store.db.readCursor.2 records with
    | .error e => .error (.uplink e)
    | .ok state =>
      let outbox : DurableOutbox := ⟨store, state, max maxRecords 1, none⟩
      match outbox.capacityOverflow with
      | some overflow => .ok (outbox.warnOverflow overflow)
      | none => .ok outbox

/-- The text of the first range of a gap (a gap always has one). -/
def firstRangeText : List SequenceRange → String
  | [] => ""
  | range :: _ => toString range.start ++ "-" ++ toString range.through

/-- The tail of an eviction, once the gap is declared in memory. -/
def persistEviction (sequence : Nat) (gap : UplinkGap) :
    Except (Halt QueueError) CapacityOutcome × DurableOutbox :=
  match self.store.deleteSequences [sequence] with
  | (.error halt, store) => (.error (halt.map .store), { self with store })
  | (.ok (), store) =>
    match store.insertGap gap.gapId.asStr (firstRangeText gap.ranges) gap.reason with
    | (.error halt, store) => (.error (halt.map .store), { self with store })
    | (.ok (), store) =>
      match store.setCursor self.state.committedThrough self.state.lastAllocated with
      | (.error halt, store) => (.error (halt.map .store), { self with store })
      | (.ok (), store) =>
        (.ok (.evicted ⟨gap.gapId.asStr, sequence⟩),
          { self with store, overflowWarnedAt := none })

def evictIfNeeded : Except (Halt QueueError) CapacityOutcome × DurableOutbox :=
  if self.retainedCount ≤ self.maxRecords then
    (.ok .withinCapacity, { self with overflowWarnedAt := none })
  else
    match self.oldestEvictable with
    | none =>
      let overflow : CapacityOverflow :=
        ⟨self.retainedCount, self.maxRecords, self.lowestRetainedSeq⟩
      (.ok (.overflowing overflow), self.warnOverflow overflow)
    | some sequence =>
      match GapId.new ("capacity-" ++ toString sequence) with
      | .error e => (.error (.failed (.uplink e)), self)
      | .ok gapId =>
        match self.state.declareLoss gapId [sequence] "queue_capacity" with
        | (.error e, state) => (.error (.failed (.uplink e)), { self with state })
        | (.ok gap, state) => persistEviction { self with state } sequence gap

/-- Persists a new sequenced envelope, then makes it visible for replay. -/
def append (envelopeId : EnvelopeId) (kind : String) (payload : Bytes)
    (retention : RetentionClass) :
    Except (Halt QueueError) (Nat × CapacityOutcome) × DurableOutbox :=
  match self.state.append envelopeId payload retention with
  | (.error e, _) => (.error (.failed (.uplink e)), self)
  | (.ok sequence, next) =>
    match self.store.enqueue (asI64 sequence) envelopeId.asStr kind payload
        (retention = .protected_) with
    | (.error halt, store) => (.error (halt.map .store), { self with store })
    | (.ok (), store) =>
      match store.setCursor next.committedThrough next.lastAllocated with
      | (.error halt, store) => (.error (halt.map .store), { self with store })
      | (.ok (), store) =>
        match evictIfNeeded { self with store, state := next } with
        | (.error halt, self) => (.error halt, self)
        | (.ok outcome, self) => (.ok (sequence, outcome), self)

/-- Applies an acknowledgement: memory first, then the rows one by one,
then the cursor. -/
def observeAck (ack : UplinkAck) : Except (Halt QueueError) (List Nat) × DurableOutbox :=
  match self.state.observeAck ack with
  | (.error e, state) => (.error (.failed (.uplink e)), { self with state })
  | (.ok outcome, state) =>
    match (if outcome.deletedSequences.isEmpty then (.ok (), self.store)
        else self.store.deleteSequences outcome.deletedSequences) with
    | (.error halt, store) => (.error (halt.map .store), { self with store, state })
    | (.ok (), store) =>
      match store.setCursor state.committedThrough state.lastAllocated with
      | (.error halt, store) => (.error (halt.map .store), { self with store, state })
      | (.ok (), store) =>
        (.ok outcome.deletedSequences, { self with store, state })

end DurableOutbox

end VodogeEdge
