import VodogeEdge.OutboxMirror

/-!
# Restart without failures is invisible

A restart drops the missing hints, the gap maps and the envelopes of
committed records. None of these is consulted as long as producers use
fresh envelope ids and keep their records protected, so an outbox
rebuilt from the tables answers every further call like the one that was
dropped and leaves the same tables: the two run in lockstep.
-/

namespace VodogeEdge

open Std List ExtTreeMap UplinkState

namespace UplinkState

/-! ## What an acknowledgement consults -/

theorem validateMissingHint_congr {s t : UplinkState} (h : s.lastAllocated = t.lastAllocated)
    (c : Nat) : ∀ ranges, s.validateMissingHint c ranges = t.validateMissingHint c ranges
  | [] => rfl
  | range :: rest => by
    rw [validateMissingHint, validateMissingHint, h, validateMissingHint_congr h]

/-- The answer depends on the cursors, the records and the losses only. -/
theorem observeAck_congr {s t : UplinkState} (hc : s.committedThrough = t.committedThrough)
    (hl : s.lastAllocated = t.lastAllocated) (hr : s.records = t.records)
    (hx : s.acceptedLossSequences = t.acceptedLossSequences) (ack : UplinkAck) :
    (s.observeAck ack).1 = (t.observeAck ack).1 := by
  have hfirst : ∀ qs, s.firstUnresolved qs = t.firstUnresolved qs := by
    intro qs
    rw [firstUnresolved, firstUnresolved, hr, hx]
  unfold observeAck
  rw [hc, hl, hr, hx, validateMissingHint_congr hl]
  split
  · rfl
  · split
    · rfl
    · split
      · rfl
      · split
        · rfl
        · dsimp only
          rw [hfirst]
          split <;> rfl

theorem retireThrough_congr {s t : UplinkState} (hc : s.committedThrough = t.committedThrough)
    (hr : s.records = t.records) (ack : UplinkAck) :
    (s.retireThrough ack).records = (t.retireThrough ack).records := by
  refine ext_getElem? fun {q} => ?_
  rw [retireThrough_records, retireThrough_records, hc, hr]

end UplinkState

/-! ## Rows in order -/

/-- The columns of a row that have a counterpart in memory. -/
def OutboxRow.contents (row : OutboxRow) : Nat × String × Bytes × Bool :=
  (row.seq, row.envelopeId, row.payload, row.isProtected)

def UplinkRecord.contents (r : UplinkRecord) : Nat × String × Bytes × Bool :=
  (r.sequence, r.envelopeId.asStr, r.payload, decide (r.retention = .protected_))

namespace DurableOutbox

variable {records : Records} {o : DurableOutbox} {envelopeId : EnvelopeId}
  {o' : DurableOutbox}

theorem pairwise_retainedRecords (hk : Keyed records) :
    (tableValues records).Pairwise (fun a b : UplinkRecord => a.sequence < b.sequence) := by
  rw [tableValues, pairwise_map]
  refine ordered_keys_toList.imp_of_mem fun {a b} ha hb hlt => ?_
  rw [hk.sequence (mem_toList_iff_getElem?_eq_some.mp ha),
    hk.sequence (mem_toList_iff_getElem?_eq_some.mp hb)]
  exact compare_lt_iff_lt.mp hlt

theorem pairwise_loadOutbox {db : Db} (h : Rows db records) (hsmall : ∀ q ∈ records, q < 2 ^ 63) :
    db.loadOutbox.Pairwise (fun a b : OutboxRow => a.seq < b.seq) := by
  have hkey : ∀ {p : Int × OutboxCell}, p ∈ db.outbox.toList →
      ∃ q : Nat, q < 2 ^ 63 ∧ p.1 = q := by
    intro p hp
    have hcell := mem_toList_iff_getElem?_eq_some.mp hp
    obtain ⟨q, hq, hpq⟩ := h.only (mem_table.mpr ⟨_, hcell⟩)
    exact ⟨q, hsmall q hq, by rw [hpq, asI64_of_lt (hsmall q hq)]⟩
  rw [Db.loadOutbox, pairwise_map]
  refine ordered_keys_toList.imp_of_mem fun {a b} ha hb hlt => ?_
  obtain ⟨q, hq, hqa⟩ := hkey ha
  obtain ⟨q', hq', hqb⟩ := hkey hb
  have hlt' : a.1 < b.1 := compare_lt_iff_lt.mp hlt
  simp only at hlt' ⊢
  unfold asU64
  omega

theorem InStep.loadOutbox_eq (h : o.InStep) (hsmall : o.state.lastAllocated < 2 ^ 63) :
    o.store.db.loadOutbox.map OutboxRow.contents
      = o.state.retainedRecords.map UplinkRecord.contents := by
  have hbelow : ∀ q ∈ o.state.records, q < 2 ^ 63 :=
    fun q hq => Nat.lt_of_le_of_lt (h.mem_records.mp hq).2 hsmall
  refine eq_of_sorted_of_mem_iff Prod.fst ?_ ?_ fun x => ?_
  · rw [pairwise_map]
    exact pairwise_loadOutbox h.rows hbelow
  · rw [pairwise_map]
    exact pairwise_retainedRecords h.keyed
  · rw [mem_map, mem_map]
    constructor
    · rintro ⟨row, hrow, rfl⟩
      obtain ⟨q, r, hr, hseq, hrestore⟩ := h.rows.restore h.keyed hrow
      obtain ⟨hs, hid, hp, hret⟩ := restoreRow_ok hrestore
      refine ⟨r, mem_tableValues.mpr ⟨q, hr⟩, ?_⟩
      rw [UplinkRecord.contents, OutboxRow.contents, hs, hid, hp, hret]
      cases row.isProtected <;> rfl
    · rintro ⟨r, hr, rfl⟩
      obtain ⟨q, hq⟩ := mem_tableValues.mp hr
      obtain ⟨kind, hcell⟩ := h.rows.stored hq
      refine ⟨_, Db.mem_loadOutbox.mpr ⟨_, _, hcell, rfl⟩, ?_⟩
      have hbound : q ≤ u64Max := h.keyed.bounded (mem_table.mpr ⟨r, hq⟩)
      rw [UplinkRecord.contents, OutboxRow.contents, h.keyed.sequence hq, asU64_asI64 hbound]

/-! ## Lockstep -/

def appendedIds : List Call → List EnvelopeId
  | [] => []
  | .append envelopeId _ _ :: rest => envelopeId :: appendedIds rest
  | .observeAck _ :: rest => appendedIds rest

theorem appendedIds_append : ∀ calls more,
    appendedIds (calls ++ more) = appendedIds calls ++ appendedIds more
  | [], _ => rfl
  | .append _ _ _ :: rest, more => by simp [appendedIds, appendedIds_append]
  | .observeAck _ :: rest, more => by simp [appendedIds, appendedIds_append]

/-- Same journal and tables; the rebuilt outbox knows fewer envelopes. -/
structure Same (o o' : DurableOutbox) : Prop where
  left : o.InStep
  right : o'.InStep
  store : o'.store = o.store
  maxRecords : o'.maxRecords = o.maxRecords
  committedThrough : o'.state.committedThrough = o.state.committedThrough
  lastAllocated : o'.state.lastAllocated = o.state.lastAllocated
  records : o'.state.records = o.state.records
  known : ∀ id, id ∈ o'.state.envelopeSequences → id ∈ o.state.envelopeSequences

theorem Same.append (h : Same o o')
    (hid : envelopeId ∉ o.state.envelopeSequences) (kind : String) (payload : Bytes) :
    (o.append envelopeId kind payload .protected_).1
        = (o'.append envelopeId kind payload .protected_).1
      ∧ Same (o.append envelopeId kind payload .protected_).2
        (o'.append envelopeId kind payload .protected_).2 := by
  have hid' : envelopeId ∉ o'.state.envelopeSequences := fun hmem => hid (h.known _ hmem)
  have hl := h.lastAllocated
  rcases h.left.append_cases envelopeId kind payload with
    ⟨e, hno, he, heq⟩ | ⟨htakes, warned, heq⟩
  · rcases h.right.append_cases envelopeId kind payload with
      ⟨e', -, he', heq'⟩ | ⟨htakes', -⟩
    · rw [heq, heq', he hid, he' hid']
      exact ⟨rfl, h⟩
    · exact absurd ⟨hid, hl ▸ htakes'.2⟩ hno
  · rcases h.right.append_cases envelopeId kind payload with
      ⟨e', hno, -⟩ | ⟨htakes', warned', heq'⟩
    · exact absurd ⟨hid', hl ▸ htakes.2⟩ hno
    · have hrecords : (o'.state.appendedAs envelopeId payload .protected_).records
          = (o.state.appendedAs envelopeId payload .protected_).records := by
        simp [appendedAs, hl, h.records]
      rw [heq, heq']
      refine ⟨by rw [hl, hrecords, h.maxRecords], h.left.stored kind payload htakes warned,
        h.right.stored kind payload htakes' warned', ?_, h.maxRecords, h.committedThrough, ?_,
        hrecords, fun id hmem => ?_⟩
      · simp [stored, appendedDbAs, hl, h.store, h.committedThrough]
      · simp [stored, appendedAs, hl]
      · simp only [stored, appendedAs, mem_insert] at hmem ⊢
        exact hmem.imp_right (h.known id)

theorem Same.observeAck (h : Same o o') (ack : UplinkAck) :
    (o.observeAck ack).1 = (o'.observeAck ack).1
      ∧ Same (o.observeAck ack).2 (o'.observeAck ack).2 := by
  have hc := h.committedThrough
  have hanswer : (o'.state.observeAck ack).1 = (o.state.observeAck ack).1 :=
    observeAck_congr hc h.lastAllocated h.records
      (h.right.no_losses.trans h.left.no_losses.symm) ack
  rcases h.left.backed.observeAck_cases ack with
    ⟨hstale, heq⟩ | ⟨e, herr, heq⟩ | ⟨hle, hlast, -, hok, heq⟩
  · rcases h.right.backed.observeAck_cases ack with ⟨-, heq'⟩ | ⟨e', herr', -⟩ | ⟨hle', -⟩
    · rw [heq, heq']
      exact ⟨rfl, h⟩
    · have hok := (o.state.observeAck_isOk ack).mpr (.inl hstale)
      rw [← hanswer, herr'] at hok
      cases hok
    · omega
  · rw [herr] at hanswer
    rcases h.right.backed.observeAck_cases ack with
      ⟨hstale, -⟩ | ⟨e', herr', heq'⟩ | ⟨-, -, -, hok', -⟩
    · have hok := (o'.state.observeAck_isOk ack).mpr (.inl hstale)
      rw [hanswer] at hok
      cases hok
    · rw [herr'] at hanswer
      cases hanswer
      rw [heq, heq']
      exact ⟨rfl, h⟩
    · rw [hanswer] at hok'
      cases hok'
  · rcases h.right.backed.observeAck_cases ack with
      ⟨hstale, -⟩ | ⟨e', herr', -⟩ | ⟨hle', hlast', -, -, heq'⟩
    · omega
    · rw [← hanswer, herr'] at hok
      cases hok
    · have hgone : o'.state.retiredSequences ack.committedThrough
          = o.state.retiredSequences ack.committedThrough := by
        simp [retiredSequences, hc, h.records]
      rw [heq, heq']
      refine ⟨by rw [hgone], h.left.retired hle hlast, h.right.retired hle' hlast', ?_,
        h.maxRecords, rfl, h.lastAllocated, retireThrough_congr hc h.records ack,
        h.known⟩
      simp [retired, ackStatements, hgone, h.store, retireThrough, h.lastAllocated]

/-- The relation the lockstep keeps: same outbox, and what is still to be
appended is fresh. -/
def Tracks (o o' : DurableOutbox) (calls : List Call) : Prop :=
  Same o o' ∧ (appendedIds calls).Nodup
    ∧ ∀ id ∈ appendedIds calls, id ∉ o.state.envelopeSequences

theorem append_known (h : o.InStep) {id : EnvelopeId} {kind : String} {payload : Bytes}
    (hmem : id ∈ (o.append envelopeId kind payload .protected_).2.state.envelopeSequences) :
    id = envelopeId ∨ id ∈ o.state.envelopeSequences := by
  rcases h.append_cases envelopeId kind payload with ⟨e, -, -, heq⟩ | ⟨-, warned, heq⟩
  · rw [heq] at hmem
    exact .inr hmem
  · rw [heq] at hmem
    simp only [stored, appendedAs, mem_insert, Std.compare_eq_iff_eq] at hmem
    exact hmem.imp_left Eq.symm

theorem observeAck_known (h : o.InStep) (ack : UplinkAck) :
    (o.observeAck ack).2.state.envelopeSequences = o.state.envelopeSequences := by
  rcases h.backed.observeAck_cases ack with ⟨-, heq⟩ | ⟨e, -, heq⟩ | ⟨-, -, -, -, heq⟩
  · rw [heq]
  · rw [heq]
  · rw [heq]
    rfl

theorem Tracks.step {call : Call} {calls : List Call} (h : Tracks o o' (call :: calls)) :
    o.answer call = o'.answer call ∧ Tracks (o.step call) (o'.step call) calls := by
  obtain ⟨hsame, hnodup, hfresh⟩ := h
  cases call with
  | append envelopeId kind payload =>
    rw [appendedIds, nodup_cons] at hnodup
    obtain ⟨hanswer, hnext⟩ := hsame.append (hfresh envelopeId mem_cons_self) kind payload
    refine ⟨congrArg Answer.appended hanswer, hnext, hnodup.2, fun id hid hmem => ?_⟩
    rcases append_known hsame.left hmem with rfl | hold
    · exact hnodup.1 hid
    · exact hfresh id (mem_cons_of_mem _ hid) hold
  | observeAck ack =>
    obtain ⟨hanswer, hnext⟩ := hsame.observeAck ack
    refine ⟨congrArg Answer.acked hanswer, hnext, hnodup, fun id hid => ?_⟩
    rw [DurableOutbox.step, observeAck_known hsame.left]
    exact hfresh id hid

/-! ## The boundary -/

theorem step_maxRecords (h : o.InStep) : ∀ call, (o.step call).maxRecords = o.maxRecords
  | .append envelopeId kind payload => by
    rcases h.append_cases envelopeId kind payload with ⟨e, -, -, heq⟩ | ⟨-, warned, heq⟩
    · rw [step, heq]
    · rw [step, heq]
      rfl
  | .observeAck ack => by
    rcases h.backed.observeAck_cases ack with ⟨-, heq⟩ | ⟨e, -, heq⟩ | ⟨-, -, -, -, heq⟩
    · rw [step, heq]
    · rw [step, heq]
    · rw [step, heq]
      rfl

/-- What a run keeps besides being in step: the limit it was opened with,
and no envelope it was not given. -/
theorem run_facts (maxRecords : Nat) (calls : List Call) :
    (runFrom step (openFresh maxRecords) calls).maxRecords = max maxRecords 1
      ∧ ∀ id ∈ (runFrom step (openFresh maxRecords) calls).state.envelopeSequences,
          id ∈ appendedIds calls := by
  refine runFrom_history (I := fun calls (o : DurableOutbox) => o.maxRecords = max maxRecords 1
    ∧ ∀ id ∈ o.state.envelopeSequences, id ∈ appendedIds calls) ⟨rfl, fun id hid => ?_⟩
    (fun calls call ih => ?_) calls
  · simp [openFresh, UplinkState.new] at hid
  · have hin := inStep_run maxRecords calls
    refine ⟨(step_maxRecords hin call).trans ih.1, fun id hid => ?_⟩
    rw [appendedIds_append, mem_append]
    cases call with
    | append envelopeId kind payload =>
      rcases append_known hin hid with rfl | hold
      · exact .inr mem_cons_self
      · exact .inl (ih.2 id hold)
    | observeAck ack =>
      rw [step, observeAck_known hin] at hid
      exact .inl (ih.2 id hid)

/-- After any protected calls with fresh envelope ids, every statement
committed: the rows are the retained records in order, the cursor row holds the
two cursors, and the outbox rebuilt from these tables answers every further
list of such calls like the original and leaves the same tables and cursors. -/
theorem restart_is_transparent (maxRecords : Nat) (calls more : List Call)
    (hfresh : (appendedIds (calls ++ more)).Nodup)
    (hsmall : (runFrom step (openFresh maxRecords) calls).lastAllocated < 2 ^ 63) :
    (runFrom step (openFresh maxRecords) calls).store.db.loadOutbox.map OutboxRow.contents
        = (runFrom step (openFresh maxRecords) calls).state.retainedRecords.map
          UplinkRecord.contents
      ∧ (runFrom step (openFresh maxRecords) calls).store.db.cursor
        = (((runFrom step (openFresh maxRecords) calls).committedThrough : Int),
          ((runFrom step (openFresh maxRecords) calls).lastAllocated : Int))
      ∧ ∃ o', fromStore ⟨(runFrom step (openFresh maxRecords) calls).store.db, []⟩ maxRecords
          = .ok o'
        ∧ outputs step answer o' more
          = outputs step answer (runFrom step (openFresh maxRecords) calls) more
        ∧ (runFrom step o' more).store.db
          = (runFrom step (openFresh maxRecords) (calls ++ more)).store.db
        ∧ (runFrom step o' more).committedThrough
          = (runFrom step (openFresh maxRecords) (calls ++ more)).committedThrough
        ∧ (runFrom step o' more).lastAllocated
          = (runFrom step (openFresh maxRecords) (calls ++ more)).lastAllocated := by
  have h := inStep_run maxRecords calls
  obtain ⟨hmax, hknown⟩ := run_facts maxRecords calls
  rw [appendedIds_append, nodup_append] at hfresh
  obtain ⟨-, hnodup, hdisjoint⟩ := hfresh
  simp only [runFrom_append]
  generalize runFrom step (openFresh maxRecords) calls = o at h hmax hknown hsmall ⊢
  obtain ⟨o', hopen, hin, hstore, hmax', hc, hl, hrecords, hids⟩ := h.reopen maxRecords
  have htracks : Tracks o o' more := by
    refine ⟨⟨h, hin, hstore, hmax'.trans hmax.symm, hc, hl, hrecords, hids⟩, hnodup,
      fun id hid hmem => ?_⟩
    exact hdisjoint id (hknown id hmem) id hid rfl
  have hstep : ∀ o o' call calls, Tracks o o' (call :: calls) →
      answer o call = answer o' call ∧ Tracks (step o call) (step o' call) calls :=
    fun _ _ _ _ ht => ht.step
  obtain ⟨hanswers, hend, -, -⟩ := lockstep hstep more htracks
  have hlast : o.state.lastAllocated < 2 ^ 63 := hsmall
  have hcommitted : o.state.committedThrough < 2 ^ 63 :=
    Nat.lt_of_le_of_lt h.covered.placed.le hlast
  refine ⟨h.loadOutbox_eq hsmall, ?_, o', hopen, hanswers.symm, ?_, hend.committedThrough,
    hend.lastAllocated⟩
  · rw [h.cursor, asI64_of_lt hcommitted, asI64_of_lt hlast]
    rfl
  · rw [hend.store]

/-- Two appends, the first acknowledged, then a restart and two more calls. -/
theorem restart_after_one_acknowledged :
    ∃ o', fromStore ⟨(runFrom step (openFresh 8)
        [.append (NonBlank.mk "a" (by decide)) "sms_received" [1],
         .append (NonBlank.mk "b" (by decide)) "sms_received" [2],
         .observeAck (.plain 1)]).store.db, []⟩ 8 = .ok o'
      ∧ (runFrom step o' [.append (NonBlank.mk "c" (by decide)) "sms_received" [3],
          .observeAck (.plain 3)]).committedThrough = 3 := by
  obtain ⟨-, -, o', hopen, -, -, hc, -⟩ := restart_is_transparent 8
    [.append (NonBlank.mk "a" (by decide)) "sms_received" [1],
     .append (NonBlank.mk "b" (by decide)) "sms_received" [2],
     .observeAck (.plain 1)]
    [.append (NonBlank.mk "c" (by decide)) "sms_received" [3], .observeAck (.plain 3)]
    (by decide) (by decide)
  exact ⟨o', hopen, hc.trans (by decide)⟩

end DurableOutbox

end VodogeEdge
