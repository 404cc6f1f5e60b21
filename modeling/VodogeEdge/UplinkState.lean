import VodogeEdge.UplinkRecord

/-!
# The cumulative-acknowledgement state machine

`UplinkState` of `edge-uplink` with its four mutating operations and
`rehydrate`. An operation takes `&mut self` and returns a `Result`, so it
is modelled as a function to the result *and* the state it leaves, on the
error paths too.

Each operation comes with one inversion theorem (`append_cases`,
`declareLoss_cases`, `acceptGap_cases`, `observeAck_cases`) that says
everything the call can do; later files reason from these and never
unfold an operation.
-/

namespace VodogeEdge

open Std List ExtTreeSet

/-- The retained records by sequence. -/
abbrev Records : Type := ExtTreeMap Nat UplinkRecord

structure UplinkState where
  lastAllocated : Nat
  committedThrough : Nat
  records : Records
  envelopeSequences : ExtTreeMap EnvelopeId Nat
  missingRanges : List SequenceRange
  moreMissing : Bool
  pendingGaps : ExtTreeMap GapId UplinkGap
  acceptedGaps : ExtTreeMap GapId UplinkGap
  acceptedLossSequences : ExtTreeSet Nat
deriving DecidableEq

namespace UplinkState

/-- Starts a device journal whose first allocated sequence will be `1`. -/
def new : UplinkState where
  lastAllocated := 0
  committedThrough := 0
  records := ∅
  envelopeSequences := ∅
  missingRanges := []
  moreMissing := false
  pendingGaps := ∅
  acceptedGaps := ∅
  acceptedLossSequences := ∅

/-- Starts after a fully restored contiguous committed prefix. -/
def fromCommittedThrough (committedThrough : Nat) : UplinkState :=
  { new with lastAllocated := committedThrough, committedThrough := committedThrough }

def restoreRecord (committedThrough lastAllocated : Nat) (state : UplinkState)
    (record : UplinkRecord) : Except UplinkError UplinkState :=
  if record.sequence ≤ committedThrough ∨ record.sequence > lastAllocated then
    .error .invalidRestoredJournal
  else if record.sequence ∈ state.records
      ∨ record.envelopeId ∈ state.envelopeSequences then
    .error .invalidRestoredJournal
  else
    .ok { state with
      envelopeSequences := state.envelopeSequences.insert record.envelopeId record.sequence
      records := state.records.insert record.sequence record }

def rehydrate (committedThrough lastAllocated : Nat) (records : List UplinkRecord) :
    Except UplinkError UplinkState :=
  if lastAllocated < committedThrough then .error .invalidRestoredJournal
  else
    records.foldlM (restoreRecord committedThrough lastAllocated)
      { fromCommittedThrough committedThrough with lastAllocated := lastAllocated }

variable (self : UplinkState)

/-- Allocates the next sequence and retains the original envelope
identity. -/
def append (envelopeId : EnvelopeId) (payload : Bytes)
    (retention : RetentionClass) : Except UplinkError Nat × UplinkState :=
  match self.envelopeSequences[envelopeId]? with
  | some sequence => (.error (.duplicateEnvelopeId envelopeId sequence), self)
  | none =>
    match checkedSucc self.lastAllocated with
    | none => (.error .sequenceExhausted, self)
    | some sequence =>
      (.ok sequence,
        { self with
          lastAllocated := sequence
          envelopeSequences := self.envelopeSequences.insert envelopeId sequence
          records := self.records.insert sequence
            ⟨sequence, envelopeId, payload, retention⟩ })

/-- Replay candidates in ascending sequence order with stable IDs. -/
def retainedRecords : List UplinkRecord := tableValues self.records

def checkEvictable (records : Records) : List Nat → Except UplinkError Unit
  | [] => .ok ()
  | sequence :: rest =>
    match records[sequence]? with
    | some record =>
      if record.retention = .evictable then checkEvictable records rest
      else .error (.protectedRecordCannotBeEvicted sequence)
    | none => .error (.unknownRetainedSequence sequence)

/-- Stores one explicit loss marker and removes only the eligible records
it names. -/
def declareLoss (gapId : GapId) (sequences : List Nat)
    (reason : String) : Except UplinkError UplinkGap × UplinkState :=
  if gapId ∈ self.pendingGaps ∨ gapId ∈ self.acceptedGaps then
    (.error (.duplicateGapId gapId), self)
  else if trimIsEmpty reason then (.error .emptyGapReason, self)
  else
    match selectedSequences sequences with
    | .error e => (.error e, self)
    | .ok selected =>
      match checkEvictable self.records selected.toList with
      | .error e => (.error e, self)
      | .ok () =>
        let gap : UplinkGap := ⟨gapId, rangesFor selected, reason⟩
        (.ok gap,
          { self with
            records := selected.toList.foldl (fun m q => m.erase q) self.records
            pendingGaps := self.pendingGaps.insert gapId gap })

/-- The `while let` loop of `advance_across_accepted_losses`. Every turn
removes one element, so the size of the set bounds the turns. -/
def crossLosses : Nat → Nat → ExtTreeSet Nat → Nat × ExtTreeSet Nat
  | 0, cursor, losses => (cursor, losses)
  | fuel + 1, cursor, losses =>
    match checkedSucc cursor with
    | none => (cursor, losses)
    | some next =>
      if next ∈ losses then crossLosses fuel next (losses.erase next)
      else (cursor, losses)

/-- What is left of one range once everything up to the cursor is
committed. -/
def pruneRange (committedThrough : Nat) (range : SequenceRange) : Option SequenceRange :=
  if h : range.through ≤ committedThrough then none
  else if range.start ≤ committedThrough then
    some ⟨committedThrough + 1, range.through, by omega⟩
  else some range

def pruneCommittedMissingRanges : UplinkState :=
  if self.committedThrough = u64Max then
    { self with missingRanges := [], moreMissing := false }
  else
    { self with
      missingRanges := self.missingRanges.filterMap (pruneRange self.committedThrough) }

def advanceAcrossAcceptedLosses : Bool × UplinkState :=
  let (cursor, losses) := crossLosses self.acceptedLossSequences.size
    self.committedThrough self.acceptedLossSequences
  let moved := { self with committedThrough := cursor, acceptedLossSequences := losses }
  if cursor ≠ self.committedThrough then (true, moved.pruneCommittedMissingRanges)
  else (false, moved)

def acceptGap (gapId : GapId) : Except UplinkError GapAckOutcome × UplinkState :=
  if gapId ∈ self.acceptedGaps then
    (.ok ⟨gapId, self.committedThrough, false, true⟩, self)
  else
    match self.pendingGaps[gapId]? with
    | none => (.error (.unknownGapId gapId), self)
    | some gap =>
      let (advanced, self) := advanceAcrossAcceptedLosses
        { self with
          pendingGaps := self.pendingGaps.erase gapId
          acceptedLossSequences := gap.ranges.foldl
            (fun losses range =>
              (upto range.start range.through).foldl (fun s q => s.insert q) losses)
            self.acceptedLossSequences
          acceptedGaps := self.acceptedGaps.insert gapId gap }
      (.ok ⟨gapId, self.committedThrough, advanced, false⟩, self)

def validateMissingHint (self : UplinkState) (committedThrough : Nat) :
    List SequenceRange → Except UplinkError Unit
  | [] => .ok ()
  | range :: rest =>
    if range.start ≤ committedThrough then
      .error (.missingRangeAtOrBelowCursor range committedThrough)
    else if range.through > self.lastAllocated then
      .error (.missingRangeBeyondAllocated range self.lastAllocated)
    else validateMissingHint self committedThrough rest

/-- The first sequence of the list that is neither retained nor an
accepted loss. -/
def firstUnresolved (sequences : List Nat) : Option Nat :=
  sequences.find? fun q => q ∉ self.records ∧ q ∉ self.acceptedLossSequences

structure Retiring where
  records : Records
  losses : ExtTreeSet Nat
  deleted : List Nat

def Retiring.retire (acc : Retiring) (sequence : Nat) : Retiring :=
  if sequence ∈ acc.records then
    { acc with records := acc.records.erase sequence, deleted := acc.deleted ++ [sequence] }
  else { acc with losses := acc.losses.erase sequence }

/-- Applies a cloud cumulative acknowledgement without trusting its holes
as permission to delete records. -/
def observeAck (ack : UplinkAck) : Except UplinkError AckOutcome × UplinkState :=
  if ack.committedThrough < self.committedThrough then
    (.ok ⟨self.committedThrough, [], false⟩, self)
  else if ack.committedThrough > self.lastAllocated then
    (.error (.ackBeyondAllocated ack.committedThrough self.lastAllocated), self)
  else
    match self.validateMissingHint ack.committedThrough ack.missingRanges with
    | .error e => (.error e, self)
    | .ok () =>
      if ack.committedThrough = self.committedThrough then
        (.ok ⟨self.committedThrough, [], false⟩,
          { self with missingRanges := ack.missingRanges, moreMissing := ack.moreMissing })
      else
        let crossed := upto (self.committedThrough + 1) ack.committedThrough
        match self.firstUnresolved crossed with
        | some sequence => (.error (.ackCrossesUnresolvedSequence sequence), self)
        | none =>
          let retired := crossed.foldl Retiring.retire
            ⟨self.records, self.acceptedLossSequences, []⟩
          (.ok ⟨ack.committedThrough, retired.deleted, true⟩,
            { self with
              records := retired.records
              acceptedLossSequences := retired.losses
              committedThrough := ack.committedThrough
              missingRanges := ack.missingRanges
              moreMissing := ack.moreMissing })

/-! ## What each call can do -/

variable (self : UplinkState) (ack : UplinkAck)

/-- The journal with one record more. -/
def appendedAs (envelopeId : EnvelopeId) (payload : Bytes) (retention : RetentionClass) :
    UplinkState :=
  { self with
    lastAllocated := self.lastAllocated + 1
    envelopeSequences := self.envelopeSequences.insert envelopeId (self.lastAllocated + 1)
    records := self.records.insert (self.lastAllocated + 1)
      ⟨self.lastAllocated + 1, envelopeId, payload, retention⟩ }

variable (gapId : GapId) (fuel cursor : Nat) (losses : ExtTreeSet Nat) (envelopeId : EnvelopeId)
  (payload : Bytes) (retention : RetentionClass) (q : Nat)

/-- `append` refuses a known envelope and an exhausted sequence space; a
new envelope gets the next sequence. -/
theorem append_cases :
    (∃ e, self.append envelopeId payload retention = (.error e, self)
        ∧ (envelopeId ∈ self.envelopeSequences
          ∨ u64Max ≤ self.lastAllocated ∧ e = .sequenceExhausted))
      ∨ (envelopeId ∉ self.envelopeSequences ∧ self.lastAllocated < u64Max
        ∧ self.append envelopeId payload retention = (.ok (self.lastAllocated + 1),
          self.appendedAs envelopeId payload retention)) := by
  unfold append
  split
  next sequence h => exact .inl ⟨_, rfl, .inl (mem_table.mpr ⟨_, h⟩)⟩
  next hnone =>
    rw [← not_mem_table] at hnone
    split
    next h => exact .inl ⟨_, rfl, .inr ⟨checkedSucc_eq_none.mp h, rfl⟩⟩
    next sequence h =>
      obtain ⟨hlt, rfl⟩ := checkedSucc_eq_some.mp h
      exact .inr ⟨hnone, hlt, rfl⟩

theorem appendedAs_records :
    (self.appendedAs envelopeId payload retention).records[q]?
      = if self.lastAllocated + 1 = q then
          some ⟨self.lastAllocated + 1, envelopeId, payload, retention⟩
        else self.records[q]? := by
  simp [appendedAs, ExtTreeMap.getElem?_insert]

variable {self} in
theorem append_ok {envelopeId : EnvelopeId} (hid : envelopeId ∉ self.envelopeSequences)
    (hlt : self.lastAllocated < u64Max) (payload : Bytes) (retention : RetentionClass) :
    self.append envelopeId payload retention
      = (.ok (self.lastAllocated + 1), self.appendedAs envelopeId payload retention) := by
  rcases self.append_cases envelopeId payload retention with ⟨e, -, hno⟩ | ⟨-, -, heq⟩
  · rcases hno with hno | hno
    · exact absurd hno hid
    · omega
  · exact heq

theorem checkEvictable_ok_iff {records : Records} : ∀ {sequences : List Nat},
    checkEvictable records sequences = .ok () ↔ ∀ q ∈ sequences, ∃ record : UplinkRecord,
      records[q]? = some record ∧ record.retention = .evictable
  | [] => by simp [checkEvictable]
  | a :: rest => by
    rw [checkEvictable, forall_mem_cons, ← checkEvictable_ok_iff]
    cases records[a]? with
    | none => simp
    | some record => by_cases hev : record.retention = .evictable <;> simp [hev]

/-- `declare_loss` either changes nothing, or moves evictable records it
was given into one new pending gap that covers exactly them. -/
theorem declareLoss_cases (sequences : List Nat) (reason : String) :
    (∃ e, self.declareLoss gapId sequences reason = (.error e, self))
      ∨ (∃ gap records, gapId ∉ self.pendingGaps ∧ gapId ∉ self.acceptedGaps
        ∧ (∀ q ∈ sequences, ∃ record, self.records[q]? = some record
            ∧ record.retention = .evictable)
        ∧ (∀ q, rangesCover gap.ranges q ↔ q ∈ sequences)
        ∧ (∀ q, records[q]? = if q ∈ sequences then none else self.records[q]?)
        ∧ self.declareLoss gapId sequences reason
          = (.ok gap,
              { self with
                records := records
                pendingGaps := self.pendingGaps.insert gapId gap })) := by
  unfold declareLoss
  split
  · exact .inl ⟨_, rfl⟩
  next hid =>
    rw [not_or] at hid
    split
    · exact .inl ⟨_, rfl⟩
    · split
      · exact .inl ⟨_, rfl⟩
      next selected hsel =>
        have hmem := mem_selectedSequences hsel
        split
        · exact .inl ⟨_, rfl⟩
        next hev =>
          refine .inr ⟨_, _, hid.1, hid.2, ?_, ?_, ?_, rfl⟩
          · intro q hq
            exact checkEvictable_ok_iff.mp hev q (mem_toList.mpr ((hmem q).mpr hq))
          · intro q
            rw [rangesFor_cover, hmem]
          · intro q
            simp [getElem?_foldl_erase, hmem]

/-- The loop crosses only losses, and takes out what it crossed. -/
theorem crossLosses_spec :
    cursor ≤ (crossLosses fuel cursor losses).1
      ∧ (∀ q, cursor < q → q ≤ (crossLosses fuel cursor losses).1 → q ∈ losses)
      ∧ ∀ q, q ∈ (crossLosses fuel cursor losses).2 ↔
          q ∈ losses ∧ ¬(cursor < q ∧ q ≤ (crossLosses fuel cursor losses).1) := by
  induction fuel generalizing cursor losses with
  | zero =>
    refine ⟨Nat.le_refl _, fun q h1 h2 => ?_, fun q => ?_⟩
    · simp only [crossLosses] at h2; omega
    · simp only [crossLosses]
      exact ⟨fun h => ⟨h, by omega⟩, And.left⟩
  | succ fuel ih =>
    unfold crossLosses
    split
    · exact ⟨Nat.le_refl _, fun q h1 h2 => by omega, fun q => ⟨fun h => ⟨h, by omega⟩, And.left⟩⟩
    next next hnext =>
      obtain ⟨-, rfl⟩ := checkedSucc_eq_some.mp hnext
      split
      next hin =>
        obtain ⟨hle, hcross, hrest⟩ := ih (cursor + 1) (losses.erase (cursor + 1))
        refine ⟨by omega, fun q h1 h2 => ?_, fun q => ?_⟩
        · rcases eq_or_lt_of_le (show cursor + 1 ≤ q from h1) with rfl | hlt
          · exact hin
          · exact (mem_erase.mp (hcross q hlt h2)).2
        · rw [hrest, mem_erase, ne_eq, Std.compare_eq_iff_eq]
          constructor
          · rintro ⟨⟨hne, hq⟩, hout⟩
            exact ⟨hq, by omega⟩
          · rintro ⟨hq, hout⟩
            exact ⟨⟨by omega, hq⟩, by omega⟩
      · exact ⟨Nat.le_refl _, fun q h1 h2 => by omega, fun q => ⟨fun h => ⟨h, by omega⟩, And.left⟩⟩

/-- The fuel is enough: the loop stops because its own condition fails. -/
theorem crossLosses_stops (hfuel : losses.size ≤ fuel) :
    ∀ next, checkedSucc (crossLosses fuel cursor losses).1 = some next →
      next ∉ (crossLosses fuel cursor losses).2 := by
  induction fuel generalizing cursor losses with
  | zero =>
    intro next _
    have hempty : losses = ∅ := eq_empty_iff_size_eq_zero.mpr (by omega)
    simp [crossLosses, hempty]
  | succ fuel ih =>
    unfold crossLosses
    split
    next h =>
      intro next hnext
      rw [h] at hnext
      cases hnext
    next next' hnext' =>
      split
      next hin =>
        refine ih next' (losses.erase next') ?_
        rw [size_erase, if_pos (contains_iff_mem.mpr hin)]
        omega
      next hout =>
        intro next hnext
        rw [hnext'] at hnext
        cases hnext
        exact hout

theorem mem_foldl_ranges (ranges : List SequenceRange) (losses : ExtTreeSet Nat) (q : Nat) :
    q ∈ ranges.foldl (fun losses range =>
        (upto range.start range.through).foldl (fun s q => s.insert q) losses) losses ↔
      q ∈ losses ∨ rangesCover ranges q := by
  induction ranges generalizing losses with
  | nil => simp [rangesCover]
  | cons range rest ih =>
    rw [foldl_cons, ih, mem_foldl_insert, or_assoc]
    simp [rangesCover]

theorem pruneCommittedMissingRanges_eq :
    ∃ missing more, self.pruneCommittedMissingRanges
      = { self with missingRanges := missing, moreMissing := more } := by
  unfold pruneCommittedMissingRanges
  split <;> exact ⟨_, _, rfl⟩

/-- Accepting moves the cursor over losses only; the hints may be pruned
but nothing else changes. -/
theorem advanceAcrossAcceptedLosses_cases :
    ∃ cursor losses missing more,
      self.committedThrough ≤ cursor
        ∧ (∀ q, self.committedThrough < q → q ≤ cursor → q ∈ self.acceptedLossSequences)
        ∧ (∀ q, q ∈ losses ↔ q ∈ self.acceptedLossSequences
            ∧ ¬(self.committedThrough < q ∧ q ≤ cursor))
        ∧ self.advanceAcrossAcceptedLosses
          = (decide (cursor ≠ self.committedThrough),
              { self with
                committedThrough := cursor
                acceptedLossSequences := losses
                missingRanges := missing
                moreMissing := more }) := by
  have hspec := crossLosses_spec self.acceptedLossSequences.size self.committedThrough
    self.acceptedLossSequences
  unfold advanceAcrossAcceptedLosses
  generalize crossLosses self.acceptedLossSequences.size self.committedThrough
    self.acceptedLossSequences = moved at hspec ⊢
  obtain ⟨cursor, losses⟩ := moved
  obtain ⟨hle, hcross, hrest⟩ := hspec
  by_cases hne : cursor ≠ self.committedThrough
  · obtain ⟨missing, more, hprune⟩ := pruneCommittedMissingRanges_eq
      { self with committedThrough := cursor, acceptedLossSequences := losses }
    refine ⟨cursor, losses, missing, more, hle, hcross, hrest, ?_⟩
    simp [if_pos hne, hprune, decide_eq_true hne]
  · refine ⟨cursor, losses, self.missingRanges, self.moreMissing, hle, hcross, hrest, ?_⟩
    simp [if_neg hne, decide_eq_false hne]

/-- `accept_gap` either changes nothing, or turns one pending gap into
accepted losses and lets the cursor cross the losses right above it. -/
theorem acceptGap_cases :
    (gapId ∉ self.pendingGaps ∧ self.acceptGap gapId = (.error (.unknownGapId gapId), self))
      ∨ (gapId ∈ self.acceptedGaps
        ∧ self.acceptGap gapId = (.ok ⟨gapId, self.committedThrough, false, true⟩, self))
      ∨ (∃ gap cursor losses missing more, self.pendingGaps[gapId]? = some gap
        ∧ gapId ∉ self.acceptedGaps
        ∧ self.committedThrough ≤ cursor
        ∧ (∀ q, self.committedThrough < q → q ≤ cursor →
            q ∈ self.acceptedLossSequences ∨ rangesCover gap.ranges q)
        ∧ (∀ q, q ∈ losses ↔ (q ∈ self.acceptedLossSequences ∨ rangesCover gap.ranges q)
            ∧ ¬(self.committedThrough < q ∧ q ≤ cursor))
        ∧ self.acceptGap gapId
          = (.ok ⟨gapId, cursor, decide (cursor ≠ self.committedThrough), false⟩,
              { self with
                committedThrough := cursor
                pendingGaps := self.pendingGaps.erase gapId
                acceptedGaps := self.acceptedGaps.insert gapId gap
                acceptedLossSequences := losses
                missingRanges := missing
                moreMissing := more })) := by
  unfold acceptGap
  split
  next hacc => exact .inr (.inl ⟨hacc, rfl⟩)
  next hacc =>
    split
    next hgap => exact .inl ⟨not_mem_table.mpr hgap, rfl⟩
    next gap hgap =>
      refine .inr (.inr ?_)
      obtain ⟨cursor, losses, missing, more, hle, hcross, hrest, heq⟩ :=
        advanceAcrossAcceptedLosses_cases
          { self with
            pendingGaps := self.pendingGaps.erase gapId
            acceptedLossSequences := gap.ranges.foldl
              (fun losses range =>
                (upto range.start range.through).foldl (fun s q => s.insert q) losses)
              self.acceptedLossSequences
            acceptedGaps := self.acceptedGaps.insert gapId gap }
      simp only [mem_foldl_ranges] at hcross hrest
      refine ⟨gap, cursor, losses, missing, more, hgap, hacc, hle, hcross, hrest, ?_⟩
      rw [heq]

theorem validateMissingHint_ok {self : UplinkState} {committedThrough : Nat} :
    ∀ {ranges : List SequenceRange},
      self.validateMissingHint committedThrough ranges = .ok () ↔
        ∀ range ∈ ranges, committedThrough < range.start
          ∧ range.through ≤ self.lastAllocated
  | [] => by simp [validateMissingHint]
  | range :: rest => by
    unfold validateMissingHint
    rw [forall_mem_cons]
    split
    · simp only [reduceCtorEq, false_iff]; omega
    · split
      · simp only [reduceCtorEq, false_iff]; omega
      · rw [validateMissingHint_ok]
        exact ⟨fun h => ⟨by omega, h⟩, And.right⟩

/-- Every sequence above the cursor up to `c` is retained or an accepted
loss. -/
def Crossable (c : Nat) : Prop :=
  ∀ q, self.committedThrough < q → q ≤ c →
    q ∈ self.records ∨ q ∈ self.acceptedLossSequences

theorem firstUnresolved_eq_none {self : UplinkState} {c : Nat} :
    self.firstUnresolved (upto (self.committedThrough + 1) c) = none ↔
      self.Crossable c := by
  rw [firstUnresolved, List.find?_eq_none]
  constructor
  · intro h q h1 h2
    have := h q (mem_upto.mpr ⟨h1, h2⟩)
    simp only [decide_eq_true_eq] at this
    tauto
  · intro h q hq
    obtain ⟨h1, h2⟩ := mem_upto.mp hq
    have := h q h1 h2
    simp only [decide_eq_true_eq]
    tauto

/-- The removal loop empties the records at the crossed sequences, takes
the others out of the losses, and lists the former in order. -/
theorem foldl_retire : ∀ (qs : List Nat) acc, qs.Nodup →
    (∀ q, (qs.foldl Retiring.retire acc).records[q]? = if q ∈ qs then none else acc.records[q]?)
      ∧ (∀ q, q ∈ (qs.foldl Retiring.retire acc).losses ↔
          q ∈ acc.losses ∧ (q ∈ qs → q ∈ acc.records))
      ∧ (qs.foldl Retiring.retire acc).deleted = acc.deleted ++ qs.filter (· ∈ acc.records)
  | [], acc, _ => by simp
  | a :: qs, acc, hnd => by
    obtain ⟨hnot, hnd⟩ := nodup_cons.mp hnd
    rw [foldl_cons]
    by_cases ha : a ∈ acc.records
    · rw [show acc.retire a = { acc with
          records := acc.records.erase a, deleted := acc.deleted ++ [a] } from if_pos ha]
      obtain ⟨hrec, hloss, hdel⟩ := foldl_retire qs
        { acc with records := acc.records.erase a, deleted := acc.deleted ++ [a] } hnd
      refine ⟨fun q => ?_, fun q => ?_, ?_⟩
      · rw [hrec]
        by_cases hq : q ∈ qs
        · simp [hq]
        · by_cases hqa : q = a
          · simp [hqa]
          · simp [hqa, ExtTreeMap.getElem?_erase, Ne.symm]
      · rw [hloss]
        refine and_congr_right fun _ => ?_
        by_cases hqa : q = a
        · subst hqa; simp [hnot, ha]
        · simp [hqa, Ne.symm]
      · rw [hdel, filter_cons_of_pos (by simpa using ha), append_assoc]
        rw [singleton_append]
        congr 2
        refine filter_congr fun q hq => ?_
        have hqa : a ≠ q := fun h => hnot (h ▸ hq)
        simp [hqa]
    · rw [show acc.retire a = { acc with losses := acc.losses.erase a } from if_neg ha]
      obtain ⟨hrec, hloss, hdel⟩ := foldl_retire qs
        { acc with losses := acc.losses.erase a } hnd
      refine ⟨fun q => ?_, fun q => ?_, ?_⟩
      · rw [hrec]
        by_cases hqa : q = a
        · subst hqa; simp [not_mem_table.mp ha]
        · simp [hqa]
      · rw [hloss, mem_erase, ne_eq]
        by_cases hqa : q = a
        · subst hqa; simp [ha]
        · simp [hqa, Ne.symm]
      · rw [hdel, filter_cons_of_neg (by simpa using ha)]

def retireThrough (ack : UplinkAck) : UplinkState :=
  let retired := (upto (self.committedThrough + 1) ack.committedThrough).foldl Retiring.retire
    ⟨self.records, self.acceptedLossSequences, []⟩
  { self with
    records := retired.records
    acceptedLossSequences := retired.losses
    committedThrough := ack.committedThrough
    missingRanges := ack.missingRanges
    moreMissing := ack.moreMissing }

theorem retireThrough_records :
    (self.retireThrough ack).records[q]?
      = if self.committedThrough < q ∧ q ≤ ack.committedThrough then none
        else self.records[q]? := by
  simpa [retireThrough, Nat.succ_le_iff] using (foldl_retire
    (upto (self.committedThrough + 1) ack.committedThrough)
    ⟨self.records, self.acceptedLossSequences, []⟩ (nodup_upto _ _)).1 q

theorem mem_retireThrough_losses :
    q ∈ (self.retireThrough ack).acceptedLossSequences ↔
      q ∈ self.acceptedLossSequences
        ∧ (self.committedThrough < q → q ≤ ack.committedThrough → q ∈ self.records) := by
  simpa [retireThrough, Nat.succ_le_iff] using (foldl_retire
    (upto (self.committedThrough + 1) ack.committedThrough)
    ⟨self.records, self.acceptedLossSequences, []⟩ (nodup_upto _ _)).2.1 q

variable {self ack} in
theorem retireThrough_sub {q : Nat} {r : UplinkRecord}
    (h : (self.retireThrough ack).records[q]? = some r) : self.records[q]? = some r := by
  rw [retireThrough_records] at h
  split at h
  · cases h
  · exact h

theorem retireThrough_no_losses (h : self.acceptedLossSequences = ∅) :
    (self.retireThrough ack).acceptedLossSequences = ∅ := by
  refine eq_empty_iff_forall_not_mem.mpr fun q hq => ?_
  have hold := ((mem_retireThrough_losses _ _ q).mp hq).1
  rw [h] at hold
  simp at hold

/-- The sequences an applied acknowledgement reports as deleted. -/
def retiredSequences (c : Nat) : List Nat :=
  (upto (self.committedThrough + 1) c).filter (· ∈ self.records)

/-- `observe_ack` ignores a stale cursor, refuses without changing
anything, or retires everything up to the cursor it was given. -/
theorem observeAck_cases :
    (ack.committedThrough < self.committedThrough
        ∧ self.observeAck ack = (.ok ⟨self.committedThrough, [], false⟩, self))
      ∨ (∃ e, self.observeAck ack = (.error e, self)
        ∧ self.committedThrough ≤ ack.committedThrough
        ∧ ¬(ack.committedThrough ≤ self.lastAllocated
          ∧ self.validateMissingHint ack.committedThrough ack.missingRanges = .ok ()
          ∧ self.Crossable ack.committedThrough))
      ∨ (self.committedThrough ≤ ack.committedThrough
        ∧ ack.committedThrough ≤ self.lastAllocated
        ∧ self.validateMissingHint ack.committedThrough ack.missingRanges = .ok ()
        ∧ self.Crossable ack.committedThrough
        ∧ self.observeAck ack
          = (.ok ⟨ack.committedThrough, self.retiredSequences ack.committedThrough,
                decide (self.committedThrough < ack.committedThrough)⟩,
              self.retireThrough ack)) := by
  unfold observeAck
  split
  next h => exact .inl ⟨h, rfl⟩
  next hstale =>
    have hle : self.committedThrough ≤ ack.committedThrough := by omega
    split
    · exact .inr (.inl ⟨_, rfl, hle, fun h => by omega⟩)
    next hbeyond =>
      split
      next e hhint =>
        refine .inr (.inl ⟨e, rfl, hle, fun h => ?_⟩)
        rw [h.2.1] at hhint
        cases hhint
      next hhint =>
        split
        · -- the cursor stays: the crossed range is empty, so retiring it is a no-op
          rename_i heq
          have hnil : upto (self.committedThrough + 1) self.committedThrough = [] :=
            upto_eq_nil (by omega)
          refine .inr (.inr ⟨hle, by omega, hhint, fun q h1 h2 => by omega, ?_⟩)
          simp [retiredSequences, retireThrough, heq, hnil]
        next hne =>
          dsimp only
          split
          next sequence hun =>
            refine .inr (.inl ⟨_, rfl, hle, fun h => ?_⟩)
            rw [firstUnresolved_eq_none.mpr h.2.2] at hun
            cases hun
          next hun =>
            refine .inr (.inr ⟨hle, by omega, hhint, firstUnresolved_eq_none.mp hun, ?_⟩)
            have hlt : self.committedThrough < ack.committedThrough := by omega
            simp [retiredSequences, retireThrough, hlt, (foldl_retire _ _ (nodup_upto
              (self.committedThrough + 1) ack.committedThrough)).2.2]

/-- An acknowledgement is accepted if it is stale, or stays within what was
allocated, with its hints above its cursor and all it crosses resolved. -/
theorem observeAck_isOk :
    (self.observeAck ack).1.isOk ↔
      ack.committedThrough < self.committedThrough
        ∨ (ack.committedThrough ≤ self.lastAllocated
          ∧ self.validateMissingHint ack.committedThrough ack.missingRanges = .ok ()
          ∧ self.Crossable ack.committedThrough) := by
  rcases self.observeAck_cases ack with ⟨h, heq⟩ | ⟨e, heq, hle, hno⟩ | ⟨-, h1, h2, h3, heq⟩
  · simp [heq, h, Except.toBool]
  · simp only [heq, Except.toBool, Bool.false_eq_true, false_iff, not_or]
    exact ⟨by omega, hno⟩
  · simp [heq, h1, h2, h3, Except.toBool]

end UplinkState

inductive UplinkOp where
  | append (envelopeId : EnvelopeId) (payload : Bytes) (retention : RetentionClass)
  | declareLoss (gapId : GapId) (sequences : List Nat) (reason : String)
  | acceptGap (gapId : GapId)
  | observeAck (ack : UplinkAck)

def UplinkState.step (self : UplinkState) : UplinkOp → UplinkState
  | .append envelopeId payload retention => (self.append envelopeId payload retention).2
  | .declareLoss gapId sequences reason => (self.declareLoss gapId sequences reason).2
  | .acceptGap gapId => (self.acceptGap gapId).2
  | .observeAck ack => (self.observeAck ack).2

/-! ## Ranges of a set -/

variable {sequences : List Nat}

theorem exists_selectInto {selected : ExtTreeSet Nat}
    (hnodup : sequences.Nodup) (hnew : ∀ q ∈ sequences, q ∉ selected) :
    ∃ result, selectInto selected sequences = .ok result := by
  induction sequences generalizing selected with
  | nil => exact ⟨selected, rfl⟩
  | cons a rest ih =>
    obtain ⟨ha, hrest⟩ := nodup_cons.mp hnodup
    rw [selectInto, if_neg (hnew a mem_cons_self)]
    refine ih hrest fun q hq hmem => ?_
    rw [mem_insert, Std.compare_eq_iff_eq] at hmem
    rcases hmem with rfl | hmem
    · exact ha hq
    · exact hnew q (mem_cons_of_mem a hq) hmem

/-- Before and not next to. -/
def SequenceRange.Apart (a b : SequenceRange) : Prop := a.through + 1 < b.start

theorem rangesFrom_apart {current : SequenceRange}
    (hsorted : (current.through :: sequences).Pairwise (· < ·))
    (hmax : ∀ q ∈ sequences, q ≤ u64Max) :
    (rangesFrom current sequences).Pairwise SequenceRange.Apart := by
  induction sequences generalizing current with
  | nil => exact pairwise_singleton _ _
  | cons a rest ih =>
    obtain ⟨hfirst, hrest⟩ := pairwise_cons.mp hsorted
    obtain ⟨ha, hmax⟩ := forall_mem_cons.mp hmax
    rw [rangesFrom]
    split
    · exact @ih ⟨current.start, a, _⟩ hrest hmax
    next hgap =>
      have hfar : current.through + 1 < a := by
        have hlt := hfirst a mem_cons_self
        rw [checkedSucc_eq_some] at hgap
        omega
      refine .cons (fun range hrange => ?_) (@ih ⟨a, a, Nat.le_refl a⟩ hrest hmax)
      rcases (rangesFrom_cover _ _ _).mp ⟨range, hrange, Nat.le_refl _, range.le⟩ with h | h
      · exact hfar.trans_le h.1
      · exact hfar.trans ((pairwise_cons.mp hrest).1 _ h)

theorem validate_of_apart {ranges : List SequenceRange}
    (h : ranges.Pairwise SequenceRange.Apart) : validateSortedNonOverlapping ranges = .ok () := by
  fun_induction validateSortedNonOverlapping ranges with
  | case1 a b rest hbad =>
    have hapart := (pairwise_cons.mp h).1 b mem_cons_self
    have := a.le
    rw [SequenceRange.Apart] at hapart
    omega
  | case2 a b rest hgood ih => exact ih (pairwise_cons.mp h).2
  | case3 => rfl

/-- The loop of `accept_gap` over the ranges of a gap. -/
def spread (ranges : List SequenceRange) : ExtTreeSet Nat :=
  ranges.foldl (fun losses range =>
    (upto range.start range.through).foldl (fun s q => s.insert q) losses) ∅

/-- The ranges have just these sequences, and are as few as can be. -/
structure Compresses (ranges : List SequenceRange) (sequences : List Nat) : Prop where
  apart : ranges.Pairwise SequenceRange.Apart
  canonical : validateSortedNonOverlapping ranges = .ok ()
  cover : ∀ q, rangesCover ranges q ↔ q ∈ sequences
  spread : ∀ q, q ∈ spread ranges ↔ q ∈ sequences

theorem rangesFor_compresses {sequences : List Nat} (hne : sequences ≠ [])
    (hnodup : sequences.Nodup) (hmax : ∀ q ∈ sequences, q ≤ u64Max) :
    ∃ selected, selectedSequences sequences = .ok selected ∧
      Compresses (rangesFor selected) sequences := by
  obtain ⟨selected, hselected⟩ := @exists_selectInto sequences ∅ hnodup (by simp)
  have hok : selectedSequences sequences = .ok selected := by
    rw [selectedSequences, if_neg (by simpa using hne), hselected]
  have hmem := mem_selectedSequences hok
  have hcover : ∀ q, rangesCover (rangesFor selected) q ↔ q ∈ sequences := by
    intro q
    rw [rangesFor_cover, hmem]
  have hapart : (rangesFor selected).Pairwise SequenceRange.Apart := by
    have hsorted := ordered_toList (t := selected)
    rw [rangesFor]
    split
    · exact .nil
    next start rest hlist =>
      rw [hlist] at hsorted
      refine rangesFrom_apart (hsorted.imp compare_eq_lt.mp) fun q hq => hmax q ?_
      rw [← hmem, ← mem_toList, hlist]
      exact mem_cons_of_mem _ hq
  refine ⟨selected, hok, hapart, validate_of_apart hapart, hcover, fun q => ?_⟩
  rw [spread, UplinkState.mem_foldl_ranges, hcover]
  simp

theorem last_sequence_compresses :
    ∃ selected, selectedSequences [7, u64Max, 6] = .ok selected ∧
      Compresses (rangesFor selected) [7, u64Max, 6] :=
  rangesFor_compresses (by decide) (by decide) (by decide)

end VodogeEdge
