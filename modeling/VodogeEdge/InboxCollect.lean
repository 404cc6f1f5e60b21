import VodogeEdge.InboxSettle
import VodogeEdge.PduDecode
import VodogeEdge.Runs
import VodogeEdge.Tables
import VodogeEdge.Text

/-!
# Collecting a module's messages

One module, its message store, and the passes of `sweep_inbox_over_at`
over it. A pass lists the store, asks the ingest ledger which fragments
an earlier pass has stored, settles the rest, stores what is ready, writes
its fingerprints down, and only then deletes.

Between passes anything may arrive; a pass may see the rows in any order,
and any of its deletes may fail. The label of a step carries these
choices.
-/

namespace VodogeEdge

open Std

/-! ## Rows and fragments -/

structure StoredMessage where
  index : UInt32
  status : String
  pdu : Bytes
deriving DecidableEq

def StoredMessage.isReceived (self : StoredMessage) : Bool :=
  self.status == "0" || self.status == "1" || "REC".toList.isPrefixOf self.status.toList

def fnv1a64 (bytes : Bytes) : UInt64 :=
  bytes.foldl (fun hash byte => (hash ^^^ byte.toUInt64) * 0x100000001b3) 0xcbf29ce484222325

def fragmentFingerprint (sender : String) (receivedAt : Option Int) (refId total seq : Nat)
    (body : String) : String :=
  "v1|" ++ sender ++ "|" ++ (receivedAt.map toString).getD "-" ++ "|" ++ hexPadded 4 refId ++ "|"
    ++ toString total ++ "|" ++ toString seq ++ "|"
    ++ hexPadded 16 (fnv1a64 body.toUTF8.toList).toNat

section
variable (decode : Bytes → Deliver)

def fragmentOf (row : StoredMessage) (slot : Nat) : InboundFragment :=
  let decoded := decode row.pdu
  let (refId, total, seq) := decoded.concat.getD (0, 1, 1)
  ⟨slot, decoded.encoding,
    fragmentFingerprint decoded.peer decoded.receivedAt refId total seq decoded.body,
    ⟨decoded.peer, refId, total, seq, decoded.body, decoded.receivedAt⟩⟩

def fingerprintOf (row : StoredMessage) : String := (fragmentOf decode row 0).fingerprint

def fragmentsOf (received : List StoredMessage) : List InboundFragment :=
  received.zipIdx.map fun (row, slot) => fragmentOf decode row slot

end

/-! ## The ingest ledger -/

/-- The rows of `ingested_sms` for one module: copies by fingerprint. -/
abbrev IngestLedger : Type := ExtTreeMap String Nat

namespace IngestLedger

/-- `copies as u32`: the column is wider than what is handed out. -/
def ingestedSmsCopies (ledger : IngestLedger) (fingerprint : String) : Nat :=
  ledger.getD fingerprint 0 % 2 ^ 32

def recordIngestedSms (ledger : IngestLedger) (fingerprints : List String) : IngestLedger :=
  fingerprints.foldl (fun ledger fingerprint =>
    ledger.insert fingerprint (ledger.getD fingerprint 0 + 1)) ledger

def ingestedCounts (ledger : IngestLedger) (fingerprints : List String) : ExtTreeMap String Nat :=
  fingerprints.foldl (fun counts fingerprint =>
    if fingerprint ∈ counts then counts
    else if 0 < ledger.ingestedSmsCopies fingerprint then
      counts.insert fingerprint (ledger.ingestedSmsCopies fingerprint)
    else counts) ∅

end IngestLedger

/-- The loop of `seen_before`, with the copies matched so far. -/
def seenFrom (ingested : ExtTreeMap String Nat) :
    ExtTreeMap String Nat → List String → List Bool
  | _, [] => []
  | matched, fingerprint :: rest =>
    let already := ingested.getD fingerprint 0
    let used := matched.getD fingerprint 0
    if used < already then true :: seenFrom ingested (matched.insert fingerprint (used + 1)) rest
    else false :: seenFrom ingested (matched.insert fingerprint used) rest

/-- Which fragments of this pass our books already account for. -/
def seenBefore (fingerprints : List String) (ingested : ExtTreeMap String Nat) : List Bool :=
  seenFrom ingested ∅ fingerprints

/-! ## The module -/

structure ModuleStore where
  rows : List StoredMessage
  distinct : (rows.map StoredMessage.index).Nodup

namespace ModuleStore

def empty : ModuleStore := ⟨[], List.nodup_nil⟩

def arrive (store : ModuleStore) (row : StoredMessage)
    (h : row.index ∉ store.rows.map StoredMessage.index) : ModuleStore where
  rows := store.rows ++ [row]
  distinct := by
    rw [List.map_append]
    refine List.nodup_append.mpr ⟨store.distinct, List.nodup_singleton _, ?_⟩
    intro index hindex other hother heq
    obtain rfl := List.mem_singleton.mp hother
    exact h (heq ▸ hindex)

def delete (store : ModuleStore) (indices : List UInt32) : ModuleStore where
  rows := store.rows.filter fun row => row.index ∉ indices
  distinct := store.distinct.sublist (List.filter_sublist.map _)

end ModuleStore

/-! ## Passes -/

/-- What a pass decides: the settlement, the ledger it leaves, and the
indices it asks the module to delete. -/
structure Sweep where
  settlement : InboundSettlement
  ledger : IngestLedger
  deletes : List UInt32

/-- `sweep_inbox_over_at`, up to the deletes. With nothing received, or
nothing ready, its early exits are the same as going on. -/
def sweepInboxOverAt (decode : Bytes → Deliver) (ledger : IngestLedger)
    (listing : List StoredMessage) (now : Int) : Sweep :=
  let received := listing.filter StoredMessage.isReceived
  let fragments := fragmentsOf decode received
  let fingerprints := fragments.map InboundFragment.fingerprint
  let seen := seenBefore fingerprints (ledger.ingestedCounts fingerprints)
  let settlement := settleInbound fragments seen now
  ⟨settlement, ledger.recordIngestedSms settlement.readyFingerprints,
    settlement.deletable.filterMap fun slot => (received[slot]?).map StoredMessage.index⟩

/-- One module and our books about it; `inbox` has every message stored
so far, and `arrived` every row the module ever got. -/
structure Collector where
  store : ModuleStore
  ledger : IngestLedger
  inbox : List SettledMessage
  arrived : List StoredMessage

inductive CollectEvent where
  | arrive (row : StoredMessage)
  | pass (listing : List StoredMessage) (now : Int) (failed : List UInt32)

namespace Collector

def new : Collector := ⟨.empty, ∅, [], []⟩

/-- An arrival needs a free index, and a listing is the rows in some
order; other labels do nothing. -/
def step (decode : Bytes → Deliver) (self : Collector) : CollectEvent → Collector
  | .arrive row =>
    if h : row.index ∉ self.store.rows.map StoredMessage.index then
      { self with store := self.store.arrive row h, arrived := self.arrived ++ [row] }
    else self
  | .pass listing now failed =>
    if listing.Perm self.store.rows then
      let sweep := sweepInboxOverAt decode self.ledger listing now
      { self with
        store := self.store.delete (sweep.deletes.filter fun index => index ∉ failed)
        ledger := sweep.ledger
        inbox := self.inbox ++ sweep.settlement.ready }
    else self

end Collector

end VodogeEdge
