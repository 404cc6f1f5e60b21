import VodogeEdge.OutboxRebuild
import VodogeEdge.UplinkCoverage

/-!
# Memory and tables in step

As long as every statement is committed, the tables hold exactly the
records and the cursors the journal in memory holds (`Backed`). If every
record is protected as well, nothing is ever given up: the retained
sequences are the whole window between the two cursors. `InStep` is that
invariant; the specifications of the two calls below say in closed form
what they return and leave behind.
-/

namespace VodogeEdge

open Std Db Disk List Store UplinkState

namespace DurableOutbox

/-- The tables hold the records and the cursors of the journal. -/
structure Backed (o : DurableOutbox) : Prop where
  le : o.state.committedThrough ≤ o.state.lastAllocated
  bounded : o.state.lastAllocated ≤ u64Max
  window : ∀ {q : Nat}, q ∈ o.state.records →
    o.state.committedThrough < q ∧ q ≤ o.state.lastAllocated
  sequence : ∀ {q : Nat} {r : UplinkRecord}, o.state.records[q]? = some r → r.sequence = q
  known : ∀ {q : Nat} {r : UplinkRecord}, o.state.records[q]? = some r →
    o.state.envelopeSequences[r.envelopeId]? = some q
  rows : Rows o.store.db o.state.records
  cursor : o.store.db.cursor
    = (asI64 o.state.committedThrough, asI64 o.state.lastAllocated)
  unplanned : o.store.fates = []

variable {o : DurableOutbox} (maxRecords : Nat) {state : UplinkState} {envelopeId : EnvelopeId}

theorem Backed.keyed (h : o.Backed) : Keyed o.state.records where
  sequence hr := h.sequence hr
  bounded hq := Nat.le_trans (h.window hq).2 h.bounded
  envelope {q q' r r'} hr hr' heq := by
    have hq := h.known hr
    rw [heq, h.known hr'] at hq
    exact (Option.some.inj hq).symm

theorem Backed.disk_eq (h : o.Backed) : o.store = ⟨o.store.db, []⟩ := by
  obtain ⟨⟨db, fates⟩, state, maxRecords, warned⟩ := o
  obtain rfl : fates = [] := h.unplanned
  rfl

/-- Memory and tables say the same and no sequence was given up. -/
structure InStep (o : DurableOutbox) : Prop extends backed : Backed o where
  covered : o.state.Covered
  no_gaps : o.state.pendingGaps = ∅
  no_losses : o.state.acceptedLossSequences = ∅
  all_protected : ∀ {q : Nat} {r : UplinkRecord}, o.state.records[q]? = some r →
    r.retention = .protected_

theorem InStep.mem_records (h : o.InStep) {q : Nat} :
    q ∈ o.state.records ↔ o.state.committedThrough < q ∧ q ≤ o.state.lastAllocated := by
  refine ⟨h.window, ?_⟩
  rintro ⟨h1, h2⟩
  obtain ⟨p, hp, -⟩ := h.covered.placed.unique h1 h2
  cases p with
  | retained => exact hp
  | pending g =>
    obtain ⟨gap, hgap, -⟩ := hp
    rw [h.no_gaps] at hgap
    simp at hgap
  | acceptedLoss =>
    have hmem : q ∈ o.state.acceptedLossSequences := hp
    rw [h.no_losses] at hmem
    simp at hmem

/-! ## The capacity check with protected records only -/

/-- How a capacity check ends when no record may be evicted. -/
def protectedOutcome (records : Records) (maxRecords : Nat) : CapacityOutcome :=
  if (tableValues records).length ≤ maxRecords then .withinCapacity
  else .overflowing ⟨(tableValues records).length, maxRecords,
    (tableValues records).head?.map (·.sequence)⟩

theorem evictIfNeeded_protected
    (h : ∀ (q : Nat) r, o.state.records[q]? = some r → r.retention = .protected_) :
    ∃ warned, o.evictIfNeeded = (.ok (protectedOutcome o.state.records o.maxRecords),
      { o with overflowWarnedAt := warned }) := by
  have hnone : o.oldestEvictable = none := by
    rw [oldestEvictable, Option.map_eq_none_iff, List.find?_eq_none]
    intro r hr
    obtain ⟨q, hq⟩ := mem_tableValues.mp hr
    simp [h q r hq]
  unfold evictIfNeeded protectedOutcome
  rw [show o.retainedCount = (tableValues o.state.records).length from rfl]
  by_cases hcap : (tableValues o.state.records).length ≤ o.maxRecords
  · simp only [if_pos hcap]
    exact ⟨none, rfl⟩
  · simp only [if_neg hcap, hnone, warnOverflow, overflowWarning]
    split
    · exact ⟨_, rfl⟩
    · exact ⟨o.overflowWarnedAt, rfl⟩

/-! ## Appending -/

/-- The tables with the row of the record and the advanced cursor. -/
def appendedDbAs (db : Db) (state : UplinkState) (envelopeId : EnvelopeId) (kind : String)
    (payload : Bytes) (retention : RetentionClass) : Db :=
  { db with
    outbox := db.outbox.insert (asI64 (state.lastAllocated + 1))
      ⟨envelopeId.asStr, kind, payload, decide (retention = .protected_)⟩
    cursor := (asI64 state.committedThrough, asI64 (state.lastAllocated + 1)) }

/-- The outbox with the record stored and the capacity not yet checked. -/
def stored (o : DurableOutbox) (envelopeId : EnvelopeId) (kind : String) (payload : Bytes)
    (retention : RetentionClass) (warned : Option Nat) : DurableOutbox :=
  ⟨⟨appendedDbAs o.store.db o.state envelopeId kind payload retention, []⟩,
    o.state.appendedAs envelopeId payload retention, o.maxRecords, warned⟩

/-- The journal takes the envelope: it is new and a sequence is left. -/
def Takes (o : DurableOutbox) (envelopeId : EnvelopeId) : Prop :=
  envelopeId ∉ o.state.envelopeSequences ∧ o.state.lastAllocated < u64Max

section
variable {kind : String} {payload : Bytes} {retention : RetentionClass} {q : Nat}

theorem mem_appendedAs :
    q ∈ (state.appendedAs envelopeId payload retention).records ↔
      q = state.lastAllocated + 1 ∨ q ∈ state.records := by
  simp only [appendedAs, ExtTreeMap.mem_insert, Std.compare_eq_iff_eq]
  rw [eq_comm]

theorem InStep.appended_protected (h : o.InStep) {r : UplinkRecord}
    (hr : (o.state.appendedAs envelopeId payload .protected_).records[q]? = some r) :
    r.retention = .protected_ := by
  rw [appendedAs_records] at hr
  split at hr
  · cases hr
    rfl
  · exact h.all_protected hr

theorem Backed.insert_ok (h : o.Backed) (htakes : o.Takes envelopeId) (kind : String)
    (payload : Bytes) (isProtected : Bool) :
    o.store.enqueue (asI64 (o.state.lastAllocated + 1)) envelopeId.asStr kind payload isProtected
      = (.ok (), ⟨{ o.store.db with
          outbox := o.store.db.outbox.insert (asI64 (o.state.lastAllocated + 1))
            ⟨envelopeId.asStr, kind, payload, isProtected⟩ }, []⟩) := by
  rw [enqueue, h.disk_eq, execute_unplanned, insertOutbox_ok.mpr ⟨?_, ?_, rfl⟩]
  · intro hmem
    obtain ⟨q, hq, hkey⟩ := h.rows.only hmem
    have hbound := h.window hq
    have := asI64_inj htakes.2 (h.keyed.bounded hq) hkey
    omega
  · intro k cell hcell heq
    obtain ⟨q, hq, rfl⟩ := h.rows.only (mem_table.mpr ⟨cell, hcell⟩)
    obtain ⟨r, hr⟩ := mem_table.mp hq
    obtain ⟨kind', hstored⟩ := h.rows.stored hr
    rw [hcell] at hstored
    cases hstored
    have hsame : r.envelopeId = envelopeId := NonBlank.ext_val heq
    exact htakes.1 (hsame ▸ mem_table.mpr ⟨q, h.known hr⟩)

theorem append_of_stored {o' : DurableOutbox} {sequence : Nat} {next : UplinkState}
    {stored moved : Store} {outcome : CapacityOutcome}
    (hstate : o.state.append envelopeId payload retention = (.ok sequence, next))
    (hrow : o.store.enqueue (asI64 sequence) envelopeId.asStr kind payload (retention = .protected_)
      = (.ok (), stored))
    (hcursor : stored.setCursor next.committedThrough next.lastAllocated = (.ok (), moved))
    (hcap : evictIfNeeded { o with store := moved, state := next } = (.ok outcome, o')) :
    o.append envelopeId kind payload retention = (.ok (sequence, outcome), o') := by
  simp [append, hstate, hrow, hcursor, hcap]

end

section
variable (envelopeId : EnvelopeId) (kind : String) (payload : Bytes)
  (retention : RetentionClass)

/-- An append that the journal refuses leaves no trace. -/
def Refuses (o : DurableOutbox) : Prop :=
  ∃ e, ¬o.Takes envelopeId ∧ (envelopeId ∉ o.state.envelopeSequences → e = .sequenceExhausted)
    ∧ o.append envelopeId kind payload retention = (.error (.failed (.uplink e)), o)

/-- An append is refused by the journal, or stored and handed to the
capacity check. -/
theorem Backed.append_cases (h : o.Backed) :
    o.Refuses envelopeId kind payload retention
      ∨ (o.Takes envelopeId ∧ ∀ outcome o',
        (o.stored envelopeId kind payload retention o.overflowWarnedAt).evictIfNeeded
          = (.ok outcome, o') →
        o.append envelopeId kind payload retention
          = (.ok (o.state.lastAllocated + 1, outcome), o')) := by
  rcases o.state.append_cases envelopeId payload retention with ⟨e, heq, hno⟩ | ⟨hid, hlt, heq⟩
  · refine .inl ⟨e, fun htakes => ?_, fun hid => (hno.resolve_left hid).2, ?_⟩
    · rcases hno with hno | ⟨hfull, -⟩
      · exact htakes.1 hno
      · exact absurd htakes.2 (Nat.not_lt.mpr hfull)
    · unfold append
      rw [heq]
  · have hrow := h.insert_ok ⟨hid, hlt⟩ kind payload (retention = .protected_)
    exact .inr ⟨⟨hid, hlt⟩, fun outcome o' hev => append_of_stored heq hrow rfl hev⟩

variable {envelopeId}

theorem Backed.stored (h : o.Backed) (htakes : o.Takes envelopeId) (warned : Option Nat) :
    (o.stored envelopeId kind payload retention warned).Backed where
  le := Nat.le_succ_of_le h.le
  bounded := htakes.2
  window {q} hq := by
    have hle := h.le
    rcases mem_appendedAs.mp hq with rfl | hold
    · exact ⟨Nat.lt_succ_of_le hle, Nat.le_refl _⟩
    · exact ⟨(h.window hold).1, Nat.le_succ_of_le (h.window hold).2⟩
  sequence {q r} hr := by
    rw [DurableOutbox.stored, UplinkState.appendedAs_records] at hr
    split at hr
    next hq =>
      cases hr
      exact hq
    · exact h.sequence hr
  known {q r} hr := by
    rw [DurableOutbox.stored, UplinkState.appendedAs_records] at hr
    simp only [DurableOutbox.stored, appendedAs, ExtTreeMap.getElem?_insert]
    split at hr
    next hq =>
      cases hr
      rw [if_pos ReflOrd.compare_self, hq]
    · have hknown := h.known hr
      have hne : envelopeId ≠ r.envelopeId := by
        intro heq
        exact htakes.1 (heq ▸ mem_table.mpr ⟨q, hknown⟩)
      rw [if_neg (mt Std.compare_eq_iff_eq.mp hne), hknown]
  rows := by
    refine ⟨fun {q r} hr => ?_, fun {k} hk => ?_⟩
    · rw [DurableOutbox.stored, UplinkState.appendedAs_records] at hr
      simp only [DurableOutbox.stored, appendedDbAs, ExtTreeMap.getElem?_insert]
      split at hr
      next hq =>
        cases hr
        rw [hq, if_pos ReflOrd.compare_self]
        exact ⟨kind, rfl⟩
      · have hbound := h.window (mem_table.mpr ⟨r, hr⟩)
        have hne : asI64 (o.state.lastAllocated + 1) ≠ asI64 q := by
          intro heq
          have := asI64_inj htakes.2 (by have := h.bounded; omega) heq
          omega
        rw [if_neg (mt Std.compare_eq_iff_eq.mp hne)]
        exact h.rows.stored hr
    · simp only [DurableOutbox.stored, appendedDbAs, ExtTreeMap.mem_insert,
        Std.compare_eq_iff_eq] at hk
      rcases hk with rfl | hk
      · exact ⟨o.state.lastAllocated + 1, mem_appendedAs.mpr (.inl rfl), rfl⟩
      · obtain ⟨q, hq, rfl⟩ := h.rows.only hk
        exact ⟨q, mem_appendedAs.mpr (.inr hq), rfl⟩
  cursor := rfl
  unplanned := rfl

theorem InStep.stored (h : o.InStep) (htakes : o.Takes envelopeId) (warned : Option Nat) :
    (o.stored envelopeId kind payload .protected_ warned).InStep := by
  have hcov := h.covered.append envelopeId payload .protected_
  rw [append_ok htakes.1 htakes.2] at hcov
  have hbacked := h.backed.stored kind payload .protected_ htakes warned
  exact ⟨hbacked, hcov, h.no_gaps, h.no_losses, fun hr => h.appended_protected hr⟩

variable (envelopeId)

/-- A protected append that finds everything in step is refused by the
journal, or stored. -/
theorem InStep.append_cases (h : o.InStep) :
    o.Refuses envelopeId kind payload .protected_
      ∨ (o.Takes envelopeId ∧ ∃ warned, o.append envelopeId kind payload .protected_
        = (.ok (o.state.lastAllocated + 1, protectedOutcome
              (o.state.appendedAs envelopeId payload .protected_).records o.maxRecords),
            o.stored envelopeId kind payload .protected_ warned)) := by
  refine (h.backed.append_cases envelopeId kind payload .protected_).imp_right ?_
  rintro ⟨htakes, hstored⟩
  obtain ⟨warned, hev⟩ := evictIfNeeded_protected
    (o := o.stored envelopeId kind payload .protected_ o.overflowWarnedAt)
    fun q r hr => h.appended_protected hr
  exact ⟨htakes, warned, hstored _ _ hev⟩

theorem InStep.append (h : o.InStep) : (o.append envelopeId kind payload .protected_).2.InStep := by
  rcases h.append_cases envelopeId kind payload with ⟨e, -, -, heq⟩ | ⟨htakes, warned, heq⟩
  · rw [heq]; exact h
  · rw [heq]; exact h.stored kind payload htakes warned

end

/-! ## Acknowledging -/

def ackStatements (deleted : List Nat) (state : UplinkState) : List (Db → Db) :=
  deleted.map Db.deleteSequence
    ++ [Db.updateCursor state.committedThrough state.lastAllocated]

variable {c : Nat} {ack : UplinkAck}

/-- After the journal accepted an acknowledgement, the call is nothing but
its statements. -/
theorem observeAck_eq {outcome : AckOutcome} (h : o.state.observeAck ack = (.ok outcome, state)) :
    o.observeAck ack =
      match o.store.executeAll refusal
          ((ackStatements outcome.deletedSequences state).map (always _)) with
      | (.ok (), store) => (.ok outcome.deletedSequences, { o with store, state })
      | (.error halt, store) => (.error (halt.map .store), { o with store, state }) := by
  have hskip : (if outcome.deletedSequences.isEmpty then (.ok (), o.store)
      else o.store.deleteSequences outcome.deletedSequences)
      = o.store.deleteSequences outcome.deletedSequences := by
    cases outcome.deletedSequences <;> rfl
  unfold observeAck
  simp only [h]
  rw [hskip]
  simp only [ackStatements, map_append, executeAll_append, deleteSequences, setCursor]
  generalize o.store.executeAll refusal
    ((outcome.deletedSequences.map deleteSequence).map (always _)) = r
  obtain ⟨result, store⟩ := r
  cases result with
  | error halt => rfl
  | ok u =>
    simp only [map_cons, executeAll]
    generalize store.execute refusal (always StoreError
      (updateCursor state.committedThrough state.lastAllocated)) = r
    obtain ⟨result, store⟩ := r
    cases result <;> rfl

theorem Rows.delete {db : Db} {records records' : Records}
    (h : Rows db records) (hk : Keyed records) {qs : List Nat} (hqs : ∀ q ∈ qs, q ≤ u64Max)
    (hrec : ∀ q, records'[q]? = if q ∈ qs then none else records[q]?) :
    Rows (applyAll db (qs.map deleteSequence)) records' := by
  have hkey : ∀ {q : Nat}, q ∈ records → (asI64 q ∈ qs.map asI64 ↔ q ∈ qs) := by
    intro q hq
    constructor
    · intro hmem
      obtain ⟨q', hq', heq⟩ := mem_map.mp hmem
      exact asI64_inj (hqs q' hq') (hk.bounded hq) heq ▸ hq'
    · intro hmem
      exact mem_map_of_mem hmem
  rw [applyAll_delete]
  refine ⟨fun {q r} hr => ?_, fun {k} hmem => ?_⟩
  · rw [hrec] at hr
    split at hr
    · cases hr
    next hout =>
      obtain ⟨kind, hcell⟩ := h.stored hr
      refine ⟨kind, ?_⟩
      rwa [getElem?_foldl_erase, if_neg (mt (hkey (mem_table.mpr ⟨r, hr⟩)).mp hout)]
  · obtain ⟨cell, hcell⟩ := mem_table.mp hmem
    rw [getElem?_foldl_erase] at hcell
    split at hcell
    · cases hcell
    next hout =>
      obtain ⟨q, hq, rfl⟩ := h.only (mem_table.mpr ⟨cell, hcell⟩)
      obtain ⟨r, hr⟩ := mem_table.mp hq
      refine ⟨q, mem_table.mpr ⟨r, ?_⟩, rfl⟩
      rwa [hrec, if_neg (mt (hkey hq).mpr hout)]

theorem Backed.updateCursor_self (h : o.Backed) :
    updateCursor o.state.committedThrough o.state.lastAllocated o.store.db = o.store.db := by
  rw [updateCursor, ← h.cursor]

/-- The outbox with everything up to the acknowledged cursor retired. -/
def retired (o : DurableOutbox) (ack : UplinkAck) : DurableOutbox :=
  ⟨⟨Disk.applyAll o.store.db (ackStatements (o.state.retiredSequences ack.committedThrough)
      (o.state.retireThrough ack)), []⟩,
    o.state.retireThrough ack, o.maxRecords, o.overflowWarnedAt⟩

/-- An acknowledgement is stale, refused without a trace, or applied to
memory and tables. -/
theorem Backed.observeAck_cases (h : o.Backed) (ack : UplinkAck) :
    (ack.committedThrough < o.state.committedThrough ∧ o.observeAck ack = (.ok [], o))
      ∨ (∃ e, o.state.observeAck ack = (.error e, o.state)
        ∧ o.observeAck ack = (.error (.failed (.uplink e)), o))
      ∨ (o.state.committedThrough ≤ ack.committedThrough
        ∧ ack.committedThrough ≤ o.state.lastAllocated
        ∧ o.state.Crossable ack.committedThrough
        ∧ (o.state.observeAck ack).1.isOk
        ∧ o.observeAck ack
          = (.ok (o.state.retiredSequences ack.committedThrough), o.retired ack)) := by
  rcases o.state.observeAck_cases ack with
    ⟨hstale, heq⟩ | ⟨e, heq, -⟩ | ⟨hle, hlast, -, hcross, heq⟩
  · refine .inl ⟨hstale, ?_⟩
    rw [observeAck_eq heq, h.disk_eq, executeAll_always_unplanned]
    simp [ackStatements, h.updateCursor_self, ← h.disk_eq]
  · refine .inr (.inl ⟨e, heq, ?_⟩)
    unfold observeAck
    rw [heq]
  · refine .inr (.inr ⟨hle, hlast, hcross, by rw [heq]; rfl, ?_⟩)
    rw [observeAck_eq heq, h.disk_eq, executeAll_always_unplanned]
    rfl

theorem Backed.retired (h : o.Backed) (hlast : ack.committedThrough ≤ o.state.lastAllocated) :
    (o.retired ack).Backed := by
  have hrows : Rows (applyAll o.store.db
      ((o.state.retiredSequences ack.committedThrough).map deleteSequence))
      (o.state.retireThrough ack).records := by
    refine h.rows.delete h.keyed (fun q hq => ?_) (fun q => ?_)
    · have hcrossed := mem_upto.mp (mem_filter.mp hq).1
      have := h.bounded
      omega
    · rw [retireThrough_records]
      simp only [retiredSequences, mem_filter, mem_upto, Nat.succ_le_iff, decide_eq_true_eq]
      by_cases hmem : q ∈ o.state.records
      · simp [hmem]
      · simp [not_mem_table.mp hmem]
  have hdb : (o.retired ack).store.db
      = updateCursor ack.committedThrough o.state.lastAllocated
        (applyAll o.store.db
          ((o.state.retiredSequences ack.committedThrough).map deleteSequence)) := by
    rw [DurableOutbox.retired, ackStatements, Disk.applyAll_append]
    rfl
  refine ⟨hlast, h.bounded, fun {q} hq => ?_,
    fun hr => h.sequence (retireThrough_sub hr),
    fun hr => h.known (retireThrough_sub hr), ?_, ?_, rfl⟩
  · obtain ⟨r, hr⟩ := mem_table.mp hq
    obtain ⟨hlow, hhigh⟩ := h.window (mem_table.mpr ⟨r, retireThrough_sub hr⟩)
    refine ⟨?_, hhigh⟩
    by_contra hcrossed
    rw [DurableOutbox.retired, UplinkState.retireThrough_records,
      if_pos ⟨hlow, Nat.not_lt.mp hcrossed⟩] at hr
    cases hr
  · rw [hdb]
    exact ⟨hrows.stored, hrows.only⟩
  · rw [hdb]
    rfl

theorem InStep.retiredSequences_eq (h : o.InStep) (hc : c ≤ o.state.lastAllocated) :
    o.state.retiredSequences c = upto (o.state.committedThrough + 1) c := by
  refine filter_eq_self.mpr fun q hq => ?_
  obtain ⟨h1, h2⟩ := mem_upto.mp hq
  exact decide_eq_true (h.mem_records.mpr ⟨h1, Nat.le_trans h2 hc⟩)

theorem InStep.crossable (h : o.InStep) (hc : c ≤ o.state.lastAllocated) : o.state.Crossable c :=
  fun _ h1 h2 => .inl (h.mem_records.mpr ⟨h1, Nat.le_trans h2 hc⟩)

/-- The statements an acknowledgement up to `c` issues when in step. -/
def retireStatements (state : UplinkState) (c : Nat) : List (Db → Db) :=
  (upto (state.committedThrough + 1) c).map Db.deleteSequence
    ++ [Db.updateCursor c state.lastAllocated]

theorem InStep.retired (h : o.InStep) (hle : o.state.committedThrough ≤ ack.committedThrough)
    (hlast : ack.committedThrough ≤ o.state.lastAllocated) : (o.retired ack).InStep := by
  exact ⟨h.backed.retired hlast, h.covered.retireThrough hle hlast (h.crossable hlast), h.no_gaps,
    o.state.retireThrough_no_losses ack h.no_losses,
    fun hr => h.all_protected (retireThrough_sub hr)⟩

theorem InStep.observeAck (h : o.InStep) (ack : UplinkAck) : (o.observeAck ack).2.InStep := by
  rcases h.backed.observeAck_cases ack with ⟨-, heq⟩ | ⟨e, -, heq⟩ | ⟨hle, hlast, -, -, heq⟩
  · rw [heq]; exact h
  · rw [heq]; exact h
  · rw [heq]; exact h.retired hle hlast

/-! ## Reopening -/

/-- The tables open again on the same cursors and records; only the
envelopes of retained records are known, and no loss is. -/
theorem Backed.reopen (h : o.Backed) (maxRecords : Nat) :
    ∃ ids warned, fromStore ⟨o.store.db, []⟩ maxRecords
        = .ok ⟨⟨o.store.db, []⟩, rebuiltState o.state.committedThrough o.state.lastAllocated
            o.state.records ids, max maxRecords 1, warned⟩
      ∧ (∀ id q, ids[id]? = some q ↔
          ∃ r : UplinkRecord, o.state.records[q]? = some r ∧ r.envelopeId = id)
      ∧ Backed ⟨⟨o.store.db, []⟩, rebuiltState o.state.committedThrough o.state.lastAllocated
            o.state.records ids, max maxRecords 1, warned⟩ := by
  obtain ⟨ids, warned, hopen, hids⟩ := fromStore_rows ⟨o.store.db, []⟩ h.rows h.keyed
    (fun q hq => h.window hq) h.le h.bounded h.cursor maxRecords
  exact ⟨ids, warned, hopen, hids, h.le, h.bounded, h.window, h.sequence,
    fun {q r} hr => (hids _ q).mpr ⟨r, hr, rfl⟩, h.rows, h.cursor, rfl⟩

/-- The tables of an outbox in step open again, in step, on the same
journal; only the envelopes of retained records are known. -/
theorem InStep.reopen (h : o.InStep) (maxRecords : Nat) :
    ∃ o', fromStore ⟨o.store.db, []⟩ maxRecords = .ok o' ∧ o'.InStep
      ∧ o'.store = o.store ∧ o'.maxRecords = max maxRecords 1
      ∧ o'.state.committedThrough = o.state.committedThrough
      ∧ o'.state.lastAllocated = o.state.lastAllocated
      ∧ o'.state.records = o.state.records
      ∧ ∀ id, id ∈ o'.state.envelopeSequences → id ∈ o.state.envelopeSequences := by
  obtain ⟨ids, warned, hopen, hids, hbacked⟩ := h.backed.reopen maxRecords
  have hretained : ∀ q p,
      (rebuiltState o.state.committedThrough o.state.lastAllocated o.state.records ids).Holds q p
        ↔ q ∈ o.state.records ∧ p = .retained := by
    intro q p
    cases p with
    | retained => simp [UplinkState.Holds, rebuiltState]
    | pending g =>
      simp [UplinkState.Holds, UplinkState.InPendingGap, rebuiltState,
        fromCommittedThrough, UplinkState.new]
    | acceptedLoss => simp [UplinkState.Holds, rebuiltState, fromCommittedThrough, UplinkState.new]
  refine ⟨_, hopen, ?_, h.backed.disk_eq.symm, rfl, rfl, rfl, rfl, fun id hid => ?_⟩
  · refine ⟨hbacked, ⟨h.covered.keyed, fun {g} hg => ?_, ⟨hbacked.le, fun {q p} hq => ?_,
        fun {q} h1 h2 => ?_⟩⟩, rfl, rfl, h.all_protected⟩
    · simp [rebuiltState, fromCommittedThrough, UplinkState.new] at hg
    · exact h.mem_records.mp ((hretained q p).mp hq).1
    · refine ⟨.retained, (hretained q _).mpr ⟨h.mem_records.mpr ⟨h1, h2⟩, rfl⟩, fun p hp => ?_⟩
      exact ((hretained q p).mp hp).2
  · obtain ⟨q, hq⟩ := mem_table.mp hid
    obtain ⟨r, hr, rfl⟩ := (hids id q).mp hq
    exact mem_table.mpr ⟨q, h.known hr⟩

theorem InStep.accepts_plain (h : o.InStep) (hc : c ≤ o.state.lastAllocated) :
    (o.observeAck (.plain c)).1.isOk := by
  have hok : (o.state.observeAck (.plain c)).1.isOk :=
    (o.state.observeAck_isOk _).mpr (.inr ⟨hc, rfl, h.crossable hc⟩)
  rcases h.backed.observeAck_cases (.plain c) with
    ⟨-, heq⟩ | ⟨e, herr, -⟩ | ⟨-, -, -, -, heq⟩
  · rw [heq]; rfl
  · rw [herr] at hok
    cases hok
  · rw [heq]; rfl

/-! ## Runs without failures -/

def openFresh (maxRecords : Nat) : DurableOutbox :=
  ⟨⟨Db.fresh, []⟩, UplinkState.new, max maxRecords 1, none⟩

/-- One call of a producer that keeps every record protected. -/
inductive Call where
  | append (envelopeId : EnvelopeId) (kind : String) (payload : Bytes)
  | observeAck (ack : UplinkAck)

inductive Answer where
  | appended (result : Except (Halt QueueError) (Nat × CapacityOutcome))
  | acked (result : Except (Halt QueueError) (List Nat))

def answer (o : DurableOutbox) : Call → Answer
  | .append envelopeId kind payload =>
    .appended (o.append envelopeId kind payload .protected_).1
  | .observeAck ack => .acked (o.observeAck ack).1

def step (o : DurableOutbox) : Call → DurableOutbox
  | .append envelopeId kind payload => (o.append envelopeId kind payload .protected_).2
  | .observeAck ack => (o.observeAck ack).2

theorem InStep.step (h : o.InStep) : ∀ call, (o.step call).InStep
  | .append envelopeId kind payload => h.append envelopeId kind payload
  | .observeAck ack => h.observeAck ack

theorem inStep_openFresh : (openFresh maxRecords).InStep where
  covered := covered_fromCommittedThrough 0
  no_gaps := rfl
  no_losses := rfl
  all_protected h := by simp [openFresh, UplinkState.new] at h
  le := Nat.le_refl _
  bounded := Nat.zero_le _
  window h := by simp [openFresh, UplinkState.new] at h
  sequence h := by simp [openFresh, UplinkState.new] at h
  known h := by simp [openFresh, UplinkState.new] at h
  rows := ⟨fun h => by simp [openFresh, UplinkState.new] at h,
    fun h => by simp [openFresh, Db.fresh] at h⟩
  cursor := rfl
  unplanned := rfl

theorem inStep_run (calls : List Call) :
    (runFrom DurableOutbox.step (openFresh maxRecords) calls).InStep :=
  runFrom_invariant (fun _ call h => h.step call) calls (inStep_openFresh maxRecords)

end DurableOutbox

end VodogeEdge
