import VodogeEdge.InboxSettle
import VodogeEdge.Runs
import VodogeEdge.Tables

/-!
# The local inbox

Every settled message is written to `local_messages` under a number made
of the clock and its position in the pass, and the insert replaces a row
with the same number. The clock is taken modulo a million and one
millisecond leaves room for a thousand messages, and neither the module
nor the transport is part of the number.

`ownRows_iff`: every message has a row of its own exactly if no two passes
use overlapping ranges of numbers.
-/

namespace VodogeEdge

open Std List

structure LocalMessage where
  seq : Nat
  peer : String
  body : String
  bearer : String
  direction : String
  receivedAt : Int
  modemImei : Option String
  iccid : Option String

abbrev LocalMessages : Type := ExtTreeMap Nat LocalMessage

variable (table : LocalMessages)

/-- An upsert; a row keeps its card if the new one does not know it. -/
def LocalMessages.insertLocalMessage (message : LocalMessage) : LocalMessages :=
  table.insert message.seq <| match table[message.seq]? with
    | none => message
    | some stored => { message with iccid := message.iccid.or stored.iccid }

/-! ## The two collectors -/

/-- `position + (now as u64 % 1_000_000) * 1000`; no pass is long enough
for the sum to leave `u64`. -/
def localSeq (position : Nat) (now : Int) : Nat :=
  position + asU64 now % 1000000 * 1000

def localMessage (imei : String) (iccid : Option String) (now : Int) (position : Nat)
    (message : AssembledSms) : LocalMessage :=
  ⟨localSeq position now, message.sender, message.body, "cellular", "inbound", now, some imei,
    iccid⟩

/-- The store loop of `sweep_inbox_over_at`, which counts what it
carried. -/
def storeOverAt (imei : String) (card : Option String) (now : Int) (ready : List SettledMessage)
    (table : LocalMessages) : LocalMessages :=
  (ready.foldl (fun (state : LocalMessages × Nat) settled =>
    (state.1.insertLocalMessage (localMessage imei card now state.2 settled.message),
      state.2 + 1)) (table, 0)).1

def storeOverQmi (imei : String) (iccid : Option String) (now : Int)
    (ready : List SettledMessage) (table : LocalMessages) : LocalMessages :=
  ready.zipIdx.foldl (fun table entry =>
    table.insertLocalMessage (localMessage imei iccid now entry.2 entry.1.message)) table

inductive Transport where
  | overQmi
  | overAt

structure InboxPass where
  transport : Transport
  imei : String
  iccid : Option String
  now : Int
  ready : List SettledMessage

namespace InboxPass

variable (pass : InboxPass)

def store : LocalMessages :=
  match pass.transport with
  | .overQmi => storeOverQmi pass.imei pass.iccid pass.now pass.ready table
  | .overAt => storeOverAt pass.imei pass.iccid pass.now pass.ready table

def rows : List LocalMessage :=
  pass.ready.zipIdx.map fun entry =>
    localMessage pass.imei pass.iccid pass.now entry.2 entry.1.message

theorem foldl_carried (imei : String) (card : Option String) (now : Int)
    (ready : List SettledMessage) (table : LocalMessages) (carried : Nat) :
    (ready.foldl (fun state settled =>
      (state.1.insertLocalMessage (localMessage imei card now state.2 settled.message),
        state.2 + 1)) (table, carried)).1
      = ((ready.zipIdx carried).map fun entry =>
        localMessage imei card now entry.2 entry.1.message).foldl
          LocalMessages.insertLocalMessage table := by
  induction ready generalizing table carried with
  | nil => rfl
  | cons settled ready ih => exact ih _ (carried + 1)

theorem store_eq : pass.store table = pass.rows.foldl LocalMessages.insertLocalMessage table := by
  unfold store rows
  cases pass.transport with
  | overQmi => exact foldl_map.symm
  | overAt => exact foldl_carried _ _ _ _ _ 0

def base : Nat := localSeq 0 pass.now

theorem seqs_rows : pass.rows.map LocalMessage.seq = range' pass.base pass.ready.length := by
  have hpositions := zipIdx_map_snd 0 pass.ready
  have hseqs : pass.rows.map LocalMessage.seq
      = (pass.ready.zipIdx.map Prod.snd).map fun position => pass.base + position := by
    unfold rows
    rw [map_map, map_map]
    refine map_congr_left fun entry _ => ?_
    show localSeq entry.2 pass.now = localSeq 0 pass.now + entry.2
    unfold localSeq
    omega
  rw [hseqs, hpositions, map_add_range', add_zero]

end InboxPass

/-! ## What the table holds -/

theorem getElem?_insertLocalMessage (message : LocalMessage) (seq : Nat)
    (hfresh : message.seq ∉ table) :
    (table.insertLocalMessage message)[seq]?
      = if message.seq = seq then some message else table[seq]? := by
  unfold LocalMessages.insertLocalMessage
  rw [ExtTreeMap.getElem?_eq_none hfresh, ExtTreeMap.getElem?_insert]
  simp

theorem getElem?_insertAll (rows : List LocalMessage) (table : LocalMessages)
    (hnodup : (rows.map LocalMessage.seq).Nodup) (hfresh : ∀ row ∈ rows, row.seq ∉ table) :
    (∀ row ∈ rows, (rows.foldl LocalMessages.insertLocalMessage table)[row.seq]? = some row)
      ∧ ∀ seq, seq ∉ rows.map LocalMessage.seq →
        (rows.foldl LocalMessages.insertLocalMessage table)[seq]? = table[seq]? := by
  induction rows generalizing table with
  | nil => exact ⟨fun row hrow => absurd hrow not_mem_nil, fun seq _ => rfl⟩
  | cons first rows ih =>
    rw [map_cons, nodup_cons] at hnodup
    have hread := getElem?_insertLocalMessage table first
    have hfirst : first.seq ∉ table := hfresh first mem_cons_self
    have hothers : ∀ row ∈ rows, row.seq ∉ table.insertLocalMessage first := by
      intro row hrow hmem
      have hne : first.seq ≠ row.seq := fun heq => hnodup.1 (heq ▸ mem_map_of_mem hrow)
      unfold LocalMessages.insertLocalMessage at hmem
      rw [ExtTreeMap.mem_insert, Std.compare_eq_iff_eq] at hmem
      exact hmem.elim hne (hfresh row (mem_cons_of_mem _ hrow))
    obtain ⟨hrows, hrest⟩ := ih (table.insertLocalMessage first) hnodup.2 hothers
    rw [foldl_cons]
    constructor
    · intro row hrow
      rcases mem_cons.mp hrow with rfl | hrow
      · rw [hrest _ hnodup.1, hread _ hfirst, if_pos rfl]
      · exact hrows row hrow
    · intro seq hseq
      rw [map_cons, mem_cons, not_or] at hseq
      rw [hrest seq hseq.2, hread _ hfirst, if_neg fun heq => hseq.1 heq.symm]

/-! ## Runs -/

def localInbox (passes : List InboxPass) : LocalMessages := runFrom InboxPass.store ∅ passes

def settledRows (passes : List InboxPass) : List LocalMessage := passes.flatMap InboxPass.rows

theorem localInbox_eq (passes : List InboxPass) :
    localInbox passes = (settledRows passes).foldl LocalMessages.insertLocalMessage ∅ := by
  unfold localInbox settledRows runFrom
  rw [foldl_flatMap]
  congr 1
  funext table pass
  exact InboxPass.store_eq table pass

/-- No two messages share a number, and each is found under its own. -/
structure OwnRows (passes : List InboxPass) : Prop where
  distinct : ((settledRows passes).map LocalMessage.seq).Nodup
  kept : ∀ row ∈ settledRows passes, (localInbox passes)[row.seq]? = some row

def InboxPass.Apart (pass other : InboxPass) : Prop :=
  pass.ready = [] ∨ other.ready = [] ∨ pass.base + pass.ready.length ≤ other.base
    ∨ other.base + other.ready.length ≤ pass.base

theorem disjoint_iff_apart (pass other : InboxPass) :
    List.Disjoint (pass.rows.map LocalMessage.seq) (other.rows.map LocalMessage.seq)
      ↔ pass.Apart other := by
  rw [InboxPass.seqs_rows, InboxPass.seqs_rows]
  unfold InboxPass.Apart
  rw [← length_eq_zero_iff, ← length_eq_zero_iff]
  constructor
  · intro hdisjoint
    by_contra hmeet
    -- the later of the two beginnings is in both ranges
    refine hdisjoint (a := max pass.base other.base) ?_ ?_
    · rw [mem_range'_1]
      omega
    · rw [mem_range'_1]
      omega
  · intro hapart seq hpass hother
    rw [mem_range'_1] at hpass hother
    omega

/-- Every message has a row of its own exactly if the number ranges of the
passes do not meet. -/
theorem ownRows_iff (passes : List InboxPass) :
    OwnRows passes ↔ passes.Pairwise InboxPass.Apart := by
  have hseqs : ((settledRows passes).map LocalMessage.seq).Nodup
      ↔ passes.Pairwise InboxPass.Apart := by
    unfold settledRows
    rw [map_flatMap, nodup_flatMap]
    constructor
    · rintro ⟨-, hpairs⟩
      exact hpairs.imp fun {pass other} => (disjoint_iff_apart pass other).mp
    · intro hpairs
      refine ⟨fun pass _ => ?_, hpairs.imp fun {pass other} => (disjoint_iff_apart pass other).mpr⟩
      rw [InboxPass.seqs_rows]
      exact nodup_range'
  refine ⟨fun h => hseqs.mp h.distinct, fun hpairs => ⟨hseqs.mpr hpairs, ?_⟩⟩
  rw [localInbox_eq]
  exact (getElem?_insertAll _ ∅ (hseqs.mpr hpairs) fun row _ => ExtTreeMap.not_mem_empty).1

def onePass (transport : Transport) (imei body : String) (now : Int) : InboxPass :=
  ⟨transport, imei, none, now, [⟨⟨"10086", body, 1, [0], []⟩, "gsm7", [0], [body]⟩]⟩

/-- Two modules polled in one cycle, one message each. -/
def oneCycle : List InboxPass :=
  [onePass .overQmi "861536030196001" "your code is 1" 1700000000123,
    onePass .overAt "867018069509705" "your code is 2" 1700000000123]

/-- The second module's message takes the place of the first's. -/
theorem oneCycle_overwritten : ¬OwnRows oneCycle ∧ (localInbox oneCycle).size = 1 := by
  refine ⟨fun h => absurd h.distinct (by decide), by decide⟩

end VodogeEdge
