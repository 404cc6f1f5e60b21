import VodogeEdge.InboxDedup

/-!
# When a delivery is swallowed

The ledger's count is one of a lifetime, but a pass compares it with the
rows on the module now. Once a stored row has been deleted, its copy on
the books vouches for the next row with the same fingerprint, which is
then deleted without having been stored.

As long as no pass meets such a row, every row that went had been stored;
the condition is exact (`swallows_of_reuse`).
-/

namespace VodogeEdge

open Std List InboundFragment Pdu StoredMessage

/-! ## What a pass deletes -/

section
variable (decode : Bytes → Deliver)

theorem slots_fragmentsOf (received : List StoredMessage) :
    (fragmentsOf decode received).map InboundFragment.slot = List.range received.length := by
  rw [fragmentsOf, map_map, range_eq_range']
  exact zipIdx_map_snd 0 received

section
variable (ledger : IngestLedger) (listing : List StoredMessage) (now : Int)

def seenOf : List Bool :=
  let fingerprints := (fragmentsOf decode (listing.filter StoredMessage.isReceived)).map
    InboundFragment.fingerprint
  seenBefore fingerprints (ledger.ingestedCounts fingerprints)

section

variable (hdistinct : (listing.map StoredMessage.index).Nodup)
include hdistinct

theorem index_mem_deletes {slot : Nat}
    {row : StoredMessage} (h : (listing.filter isReceived)[slot]? = some row) :
    row.index ∈ (sweepInboxOverAt decode ledger listing now).deletes
      ↔ slot ∈ (sweepInboxOverAt decode ledger listing now).settlement.deletable := by
  have hnodup : ((listing.filter isReceived).map StoredMessage.index).Nodup :=
    hdistinct.sublist (filter_sublist.map _)
  constructor
  · intro hdeleted
    obtain ⟨other, hother, hindex⟩ := mem_filterMap.mp hdeleted
    -- an index is that of one position only
    have hsame : ((listing.filter isReceived).map StoredMessage.index)[other]?
        = ((listing.filter isReceived).map StoredMessage.index)[slot]? := by
      rwa [getElem?_map, getElem?_map, h]
    have hlt : other < ((listing.filter isReceived).map StoredMessage.index).length := by
      obtain ⟨_, hrow, -⟩ := Option.map_eq_some_iff.mp hindex
      rw [length_map]
      exact (List.getElem?_eq_some_iff.mp hrow).1
    rwa [← (getElem?_inj hlt hnodup).mp hsame]
  · intro hslot
    exact mem_filterMap.mpr ⟨slot, hslot, by rw [h]; rfl⟩

theorem fingerprints_deleted :
    ((fragmentsOf decode (listing.filter isReceived)).filter fun fragment =>
        fragment.slot ∈ (sweepInboxOverAt decode ledger listing now).settlement.deletable).map
          fingerprint
      = ((listing.filter isReceived).filter fun row =>
        row.index ∈ (sweepInboxOverAt decode ledger listing now).deletes).map
          (fingerprintOf decode) := by
  have hrows : ∀ (received : List StoredMessage) p,
      received.filter p = (received.zipIdx.filter (p ∘ Prod.fst)).map Prod.fst := by
    intro received p
    rw [← filter_map, zipIdx_map_fst]
  rw [hrows (listing.filter isReceived), fragmentsOf, filter_map, map_map, map_map]
  refine congrArg₂ List.map rfl (filter_congr fun entry hentry => ?_)
  exact decide_eq_decide.mpr
    (index_mem_deletes decode ledger listing now hdistinct (mem_zipIdx_iff_getElem?.mp hentry)).symm

/-- Of each fingerprint a pass asks for the rows the ledger vouches for,
and for those it has just stored. -/
theorem copiesOf_deleted (f : String) :
    copiesOf decode f (listing.filter fun row =>
        row.index ∈ (sweepInboxOverAt decode ledger listing now).deletes)
      = min (copiesOf decode f listing) (ledger.ingestedSmsCopies f)
        + storedCopies f (sweepInboxOverAt decode ledger listing now).settlement.ready := by
  let fragments := fragmentsOf decode (listing.filter isReceived)
  have hnodup : (fragments.map InboundFragment.slot).Nodup := by
    rw [slots_fragmentsOf]
    exact nodup_range
  have hdeleted := ((deletable_perm fragments (seenOf decode ledger listing) now hnodup).map
    fingerprint).count_eq f
  have hrows := congrArg (List.count f) (fingerprints_deleted decode ledger listing now hdistinct)
  have hsplit := ((seen_new_perm fragments (seenOf decode ledger listing)).map
    fingerprint).count_eq f
  have hnew := count_newOf decode ledger listing f
  have hready : storedCopies f (sweepInboxOverAt decode ledger listing now).settlement.ready
      = ((readyFragments fragments (seenOf decode ledger listing) now).map fingerprint).count f :=
    congrArg (List.count f) (readyFingerprints_eq fragments (seenOf decode ledger listing) now)
  rw [map_append, count_append] at hdeleted hsplit
  rw [fingerprints_fragmentsOf] at hsplit
  have hours : ((seenFragments fragments (seenOf decode ledger listing)).map
      fingerprint).count f
      = min (copiesOf decode f listing) (ledger.ingestedSmsCopies f) := by
    change _ + ((newOf decode ledger listing).map fingerprint).count f
      = copiesOf decode f listing at hsplit
    omega
  rw [hready, ← hours, ← hdeleted, copiesOf, filter_comm]
  exact hrows.symm

end

end

theorem copiesOf_delete (store : ModuleStore) (indices : List UInt32) (f : String) :
    copiesOf decode f (store.delete indices).rows
        + copiesOf decode f (store.rows.filter fun row => row.index ∈ indices)
      = copiesOf decode f store.rows := by
  have hsplit := filter_append_perm (fun row : StoredMessage => decide (row.index ∈ indices))
    store.rows
  have hcount := copiesOf_perm decode (f := f) hsplit
  rw [copiesOf_append] at hcount
  simp only [← decide_not] at hcount
  rwa [add_comm]

end

/-! ## Runs -/

namespace Collector

variable (decode : Bytes → Deliver) {self : Collector} (index : UInt32)

/-- How many rows with that fingerprint are gone from the module. -/
def deletedCopies (self : Collector) (f : String) : Nat :=
  copiesOf decode f self.arrived - copiesOf decode f self.store.rows

/-- Of every fingerprint, at least as much was stored as is gone. -/
def NoneSwallowed (self : Collector) : Prop :=
  ∀ f, self.deletedCopies decode f ≤ storedCopies f self.inbox

/-- Before a pass, a fingerprint of which a row is gone has no row that
was not stored. -/
def NoReuse (self : Collector) : CollectEvent → Prop
  | .arrive _ => True
  | .pass _ _ _ => ∀ f, 0 < self.deletedCopies decode f →
      copiesOf decode f self.arrived ≤ storedCopies f self.inbox

section
variable {listing : List StoredMessage} (hperm : listing.Perm self.store.rows) (now : Int)
  (failed : List UInt32) (f : String)
include hperm

theorem copiesOf_asked : let sweep := sweepInboxOverAt decode self.ledger listing now
    copiesOf decode f (self.store.rows.filter fun row => row.index ∈ sweep.deletes)
      = min (copiesOf decode f self.store.rows) (self.ledger.ingestedSmsCopies f)
        + storedCopies f sweep.settlement.ready := by
  have hdistinct : (listing.map StoredMessage.index).Nodup :=
    (hperm.map _).nodup_iff.mpr self.store.distinct
  have hasked := copiesOf_deleted decode self.ledger listing now hdistinct f
  rwa [copiesOf_perm decode hperm, copiesOf_perm decode (hperm.filter _)] at hasked

/-- What goes in a pass was vouched for or has just been stored, and all of
that goes if no deletion fails. -/
theorem deletedCopies_pass (hheld : copiesOf decode f self.store.rows
      ≤ copiesOf decode f self.arrived) :
    let settled := self.deletedCopies decode f
      + (min (copiesOf decode f self.store.rows) (self.ledger.ingestedSmsCopies f)
        + storedCopies f (sweepInboxOverAt decode self.ledger listing now).settlement.ready)
    let deleted := (self.step decode (.pass listing now failed)).deletedCopies decode f
    deleted ≤ settled ∧ (failed = [] → deleted = settled) := by
  have hasked := copiesOf_asked decode hperm now f
  unfold deletedCopies step
  dsimp only
  rw [if_pos hperm]
  dsimp only
  have hsplit := copiesOf_delete decode self.store
    ((sweepInboxOverAt decode self.ledger listing now).deletes.filter fun index => index ∉ failed) f
  have hfewer : copiesOf decode f (self.store.rows.filter fun row =>
        row.index ∈ (sweepInboxOverAt decode self.ledger listing now).deletes.filter fun index =>
          index ∉ failed)
      ≤ copiesOf decode f (self.store.rows.filter fun row =>
        row.index ∈ (sweepInboxOverAt decode self.ledger listing now).deletes) := by
    refine copiesOf_sublist decode (monotone_filter_right _ fun row hrow => ?_)
    exact decide_eq_true (mem_filter.mp (of_decide_eq_true hrow)).1
  refine ⟨by omega, ?_⟩
  rintro rfl
  have hall : ∀ deletes : List UInt32, (deletes.filter fun index => index ∉ []) = deletes :=
    fun deletes => filter_eq_self.mpr fun _ _ => rfl
  rw [hall] at hsplit ⊢
  omega

theorem storedCopies_pass :
    storedCopies f (self.step decode (.pass listing now failed)).inbox
      = storedCopies f self.inbox
        + storedCopies f (sweepInboxOverAt decode self.ledger listing now).settlement.ready := by
  unfold step
  dsimp only
  rw [if_pos hperm, storedCopies_append]

end

theorem deletedCopies_arrive (self : Collector) (row : StoredMessage) (f : String) :
    (self.step decode (.arrive row)).deletedCopies decode f = self.deletedCopies decode f := by
  unfold deletedCopies step
  dsimp only
  split
  · unfold ModuleStore.arrive
    rw [copiesOf_append, copiesOf_append]
    omega
  · rfl

theorem NoneSwallowed.step (h : self.NoneSwallowed decode)
    (hbooked : self.Booked decode) (event : CollectEvent) (hreuse : self.NoReuse decode event) :
    (self.step decode event).NoneSwallowed decode := by
  intro f
  have hbefore := h f
  cases event with
  | arrive row =>
    have hinbox : (self.step decode (.arrive row)).inbox = self.inbox := by
      unfold Collector.step
      dsimp only
      split <;> rfl
    rwa [deletedCopies_arrive, hinbox]
  | pass listing now failed =>
    by_cases hperm : listing.Perm self.store.rows
    · have hgone := (deletedCopies_pass decode hperm now failed f (hbooked.held f)).1
      have hledger := hbooked.ledger f
      have hread : self.ledger.ingestedSmsCopies f ≤ storedCopies f self.inbox := by
        rw [← hledger]
        exact Nat.mod_le _ _
      rw [storedCopies_pass decode hperm]
      -- nothing gone yet: the ledger vouches for no more than was stored
      rcases eq_zero_or_pos (self.deletedCopies decode f) with hzero | hpos
      · omega
      · have hall := hreuse f hpos
        unfold deletedCopies at hgone hbefore ⊢
        omega
    · unfold Collector.step
      dsimp only
      rwa [if_neg hperm]

/-- In every run in which no pass meets a row whose fingerprint stands for
one that is gone, every row that is deleted had been stored. -/
theorem no_delivery_swallowed (events : List CollectEvent)
    (hreuse : Along (step decode) (NoReuse decode) new events) :
    (runFrom (step decode) new events).NoneSwallowed decode :=
  (Along.invariant
    (I := fun state : Collector => state.Booked decode ∧ state.NoneSwallowed decode)
    (fun _ event hstate hevent =>
      ⟨hstate.1.step decode event, hstate.2.step decode hstate.1 event hevent⟩)
    events ⟨booked_new decode, fun _ => Nat.le_refl _⟩ hreuse).2

/-- The condition is exact: a pass that meets such a row, reads the ledger
right and has its deletes go through swallows a delivery. -/
theorem swallows_of_reuse (hbooked : self.Booked decode) {f : String}
    (hread : storedCopies f self.inbox < 2 ^ 32) (hgone : 0 < self.deletedCopies decode f)
    (hnew : storedCopies f self.inbox < copiesOf decode f self.arrived) (now : Int) :
    ¬(self.step decode (.pass self.store.rows now [])).NoneSwallowed decode := by
  intro h
  have hafter := h f
  have hledger : self.ledger.ingestedSmsCopies f = storedCopies f self.inbox := by
    rw [IngestLedger.ingestedSmsCopies, hbooked.ledger, Nat.mod_eq_of_lt hread]
  rw [(deletedCopies_pass decode (List.Perm.refl _) now [] f (hbooked.held f)).2 rfl,
    storedCopies_pass decode (List.Perm.refl _)] at hafter
  unfold deletedCopies at hgone hafter
  omega

/-! ## One message, twice -/

def helloRow (index : UInt32) : StoredMessage :=
  ⟨index, "0", [0x07, 0x91, 0x44, 0x87, 0x20, 0x00, 0x30, 0x23, 0x24, 0x0c, 0x91, 0x44, 0x77, 0x58,
    0x10, 0x06, 0x50, 0x00, 0x00, 0x91, 0x60, 0x42, 0x11, 0x33, 0x12, 0x80, 0x0a, 0xe8, 0x32, 0x9b,
    0xfd, 0x46, 0x97, 0xd9, 0xec, 0x37]⟩

theorem helloRow_alone : (deliverOf (helloRow index).pdu).concat = none := by
  change (deliverOf (helloRow 0).pdu).concat = none
  decide +kernel

def helloFingerprint : String := fingerprintOf Pdu.deliverOf (helloRow 0)

theorem copiesOf_helloRow : copiesOf deliverOf helloFingerprint [helloRow index] = 1 :=
  count_singleton_self

/-- It arrives, is stored and deleted, and arrives once more. -/
def helloTwice : List CollectEvent :=
  [.arrive (helloRow 0), .pass [helloRow 0] 0 [], .arrive (helloRow 1)]

theorem nodup_helloRow : ([helloRow 0].map StoredMessage.index).Nodup := nodup_singleton 0

def helloArrived : Collector := ⟨⟨[helloRow 0], nodup_helloRow⟩, ∅, [], [helloRow 0]⟩

theorem hello_stored : let first := helloArrived.step deliverOf (.pass [helloRow 0] 0 [])
    storedCopies helloFingerprint first.inbox = 1 ∧ first.store.rows = []
      ∧ first.arrived = [helloRow 0] := by
  have hperm : [helloRow 0].Perm helloArrived.store.rows := List.Perm.refl _
  have hcopies := copiesOf_helloRow 0
  have hledger : helloArrived.ledger.ingestedSmsCopies helloFingerprint = 0 := by
    exact congrArg (· % 2 ^ 32) ExtTreeMap.getD_empty
  have hpending : (sweepInboxOverAt deliverOf helloArrived.ledger [helloRow 0]
      0).settlement.pending = 0 :=
    pending_alone deliverOf _ 0 (forall_mem_singleton.mpr (helloRow_alone 0))
  have hready := storedCopies_sweep_eq deliverOf helloArrived.ledger [helloRow 0] 0
    helloFingerprint hpending
  rw [hcopies] at hready
  have hgone := (deletedCopies_pass Pdu.deliverOf hperm 0 [] helloFingerprint (Nat.le_refl _)).2 rfl
  intro first
  have hstep : first.arrived = [helloRow 0] ∧ first.store.rows.Sublist [helloRow 0] := by
    change (helloArrived.step _ _).arrived = _ ∧ List.Sublist (helloArrived.step _ _).store.rows _
    unfold step
    dsimp only
    exact ⟨rfl, filter_sublist⟩
  refine ⟨?_, ?_, hstep.1⟩
  · rw [storedCopies_pass deliverOf hperm, hready]
    rfl
  · -- were the row still there, nothing would be gone
    rcases sublist_singleton.mp hstep.2 with hrows | hrows
    · exact hrows
    · rw [deletedCopies, hstep.1, hrows] at hgone
      omega

theorem arrive_at_empty (h : self.store.rows = []) (row : StoredMessage) :
    let after := self.step decode (.arrive row)
    after.inbox = self.inbox ∧ after.store.rows = [row]
      ∧ after.arrived = self.arrived ++ [row] := by
  have hfree : row.index ∉ self.store.rows.map StoredMessage.index := by
    rw [h]
    exact not_mem_nil
  unfold step
  dsimp only
  rw [dif_pos hfree]
  refine ⟨rfl, ?_, rfl⟩
  change self.store.rows ++ [row] = [row]
  rw [h, nil_append]

/-- The second copy counts as the first, and goes without having been
stored. -/
theorem hello_swallowed :
    ¬(runFrom (step deliverOf) new
      (helloTwice ++ [.pass [helloRow 1] 0 []])).NoneSwallowed deliverOf := by
  obtain ⟨hstored, hempty, hone⟩ := hello_stored
  obtain ⟨hinbox, hrows, harrived⟩ := arrive_at_empty deliverOf hempty (helloRow 1)
  have hrun : runFrom (step deliverOf) new helloTwice
      = (helloArrived.step deliverOf (.pass [helloRow 0] 0 [])).step deliverOf
        (.arrive (helloRow 1)) := by
    rfl
  have hbooked : (runFrom (step deliverOf) new helloTwice).Booked deliverOf :=
    runFrom_invariant
      (fun _ event hstate => hstate.step deliverOf event) helloTwice
      (booked_new deliverOf)
  rw [← hinbox, ← hrun] at hstored
  rw [hone, ← hrun] at harrived
  rw [← hrun] at hrows
  have hboth : copiesOf deliverOf helloFingerprint ([helloRow 0] ++ [helloRow 1]) = 2 := by
    rw [copiesOf_append, copiesOf_helloRow, copiesOf_helloRow]
  have hgone : (runFrom (step deliverOf) new helloTwice).deletedCopies deliverOf
      helloFingerprint = 1 := by
    rw [deletedCopies, harrived, hrows, hboth, copiesOf_helloRow]
  refine swallows_of_reuse deliverOf hbooked (f := helloFingerprint) ?_ ?_ ?_ 0
  · rw [hstored]
    decide
  · rw [hgone]
    exact one_pos
  · rw [hstored, harrived, hboth]
    exact Nat.lt_succ_self 1

/-- Until a row is gone, no pass meets one it could be taken for. -/
theorem hello_not_swallowed :
    (runFrom (step deliverOf) new
      [.arrive (helloRow 0), .pass [helloRow 0] 0 []]).NoneSwallowed deliverOf := by
  refine no_delivery_swallowed deliverOf [.arrive (helloRow 0), .pass [helloRow 0] 0 []]
    ⟨trivial, fun f hgone => ?_, trivial⟩
  have hnone : helloArrived.deletedCopies Pdu.deliverOf f = 0 := Nat.sub_self _
  exact absurd (hgone.trans_eq hnone) (lt_irrefl 0)

end Collector

end VodogeEdge
