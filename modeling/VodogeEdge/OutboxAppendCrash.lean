import VodogeEdge.OutboxAckCrash

/-!
# A crash or an error inside an append

`append` inserts the row and moves the cursor row with two separately
committed statements, and only then takes over the new journal state. If
the second statement does not happen, the tables hold a row above their
own `last_allocated`: `rehydrate` refuses to open them. And if the
process lives on, its journal still has the old `last_allocated`, so the
next append is given the same sequence and fails on the stored row.
-/

namespace VodogeEdge

open Std Db Disk Store

/-! ## What the statements do to the cursor row -/

namespace Store

variable (store : Store)

theorem enqueue_cursor (seq : Int) (envelopeId kind : String) (payload : Bytes)
    (isProtected : Bool) :
    (store.enqueue seq envelopeId kind payload isProtected).2.db.cursor = store.db.cursor := by
  unfold enqueue
  rcases store.execute_cases refusal
    (insertOutbox seq ⟨envelopeId, kind, payload, isProtected⟩) with
    ⟨db, fates, hstmt, heq⟩ | ⟨halt, fates, heq⟩
  · obtain ⟨-, -, rfl⟩ := insertOutbox_ok.mp hstmt
    rw [heq]
  · rw [heq]

theorem deleteSequences_cursor (sequences : List Nat) :
    (store.deleteSequences sequences).2.db.cursor = store.db.cursor := by
  obtain ⟨k, hdb, -⟩ := executeAll_always_prefix refusal store (sequences.map deleteSequence)
  rw [deleteSequences, hdb, ← List.map_take, applyAll_delete]

theorem insertGap_cursor (gapId ranges reason : String) :
    (store.insertGap gapId ranges reason).2.db.cursor = store.db.cursor := by
  unfold insertGap
  rcases store.execute_cases refusal (Db.insertGap gapId ranges reason) with
    ⟨db, fates, hstmt, heq⟩ | ⟨halt, fates, heq⟩
  · rw [heq]
    unfold Db.insertGap at hstmt
    split at hstmt
    · cases hstmt
    · cases hstmt
      rfl
  · rw [heq]

/-- The cursor row is replaced when the statement goes through, and kept
otherwise. -/
theorem setCursor_cursor (c l : Nat) :
    (∃ moved, store.setCursor c l = (.ok (), moved) ∧ moved.db.cursor = (asI64 c, asI64 l))
      ∨ (∃ halt kept, store.setCursor c l = (.error halt, kept)
        ∧ kept.db = store.db) := by
  rcases store.execute_cases refusal (always _ (updateCursor c l)) with
    ⟨db, fates, hstmt, heq⟩ | ⟨halt, fates, heq⟩
  · cases hstmt
    exact .inl ⟨_, heq, rfl⟩
  · exact .inr ⟨halt, _, heq, rfl⟩

end Store

namespace DurableOutbox

def AllocationStored (o : DurableOutbox) : Prop :=
  o.store.db.cursor.2 = asI64 o.state.lastAllocated ∧ o.state.lastAllocated ≤ u64Max

variable (s : UplinkState)

theorem append_next (envelopeId : EnvelopeId) (payload : Bytes) (retention : RetentionClass) :
    (∃ e, s.append envelopeId payload retention = (.error e, s))
      ∨ ∃ next, s.lastAllocated < u64Max ∧ next.committedThrough = s.committedThrough
        ∧ next.lastAllocated = s.lastAllocated + 1
        ∧ s.append envelopeId payload retention = (.ok (s.lastAllocated + 1), next) := by
  rcases s.append_cases envelopeId payload retention with ⟨e, heq, -⟩ | ⟨-, hlt, heq⟩
  · exact .inl ⟨e, heq⟩
  · refine .inr ⟨_, hlt, ?_, ?_, heq⟩
    · rfl
    · rfl

theorem declareLoss_lastAllocated (gapId : GapId) (sequences : List Nat)
    (reason : String) : (s.declareLoss gapId sequences reason).2.lastAllocated
      = s.lastAllocated := by
  rcases s.declareLoss_cases gapId sequences reason with
    ⟨e, heq⟩ | ⟨gap, records, -, -, -, -, -, heq⟩
  · rw [heq]
  · rw [heq]

theorem observeAck_lastAllocated (ack : UplinkAck) :
    (s.observeAck ack).2.lastAllocated = s.lastAllocated := by
  rcases s.observeAck_cases ack with ⟨-, heq⟩ | ⟨e, heq, -⟩ | ⟨-, -, -, -, heq⟩
  · rw [heq]
  · rw [heq]
  · rw [heq]
    rfl

variable {o : DurableOutbox}

theorem AllocationStored.persistEviction (h : o.AllocationStored) (sequence : Nat)
    (gap : UplinkGap) : (o.persistEviction sequence gap).2.AllocationStored := by
  unfold DurableOutbox.persistEviction
  have hdel := deleteSequences_cursor o.store [sequence]
  generalize o.store.deleteSequences [sequence] = r at hdel ⊢
  obtain ⟨result, deleted⟩ := r
  cases result with
  | error halt => exact ⟨by rw [← h.1, ← hdel], h.2⟩
  | ok u =>
    dsimp only
    have hgap := insertGap_cursor deleted gap.gapId.asStr (firstRangeText gap.ranges) gap.reason
    generalize deleted.insertGap gap.gapId.asStr (firstRangeText gap.ranges)
      gap.reason = r at hgap ⊢
    obtain ⟨result, marked⟩ := r
    cases result with
    | error halt => exact ⟨by rw [← h.1, ← hdel, ← hgap], h.2⟩
    | ok u =>
      dsimp only
      rcases setCursor_cursor marked o.state.committedThrough
        o.state.lastAllocated with ⟨moved, heq, hcur⟩ | ⟨halt, kept, heq, hcur⟩
      · rw [heq]
        exact ⟨by rw [hcur], h.2⟩
      · rw [heq]
        exact ⟨by rw [hcur, ← h.1, ← hdel, ← hgap], h.2⟩

theorem AllocationStored.evictIfNeeded (h : o.AllocationStored) :
    o.evictIfNeeded.2.AllocationStored := by
  unfold DurableOutbox.evictIfNeeded
  split
  · exact h
  · split
    · dsimp only
      unfold warnOverflow overflowWarning
      split <;> exact h
    next sequence _ =>
      split
      · exact h
      next gapId _ =>
        have hlast := declareLoss_lastAllocated o.state gapId [sequence] "queue_capacity"
        generalize o.state.declareLoss gapId [sequence] "queue_capacity" = r at hlast ⊢
        obtain ⟨result, state⟩ := r
        have hkept : AllocationStored { o with state } := ⟨by rw [h.1, ← hlast], hlast ▸ h.2⟩
        cases result with
        | error e => exact hkept
        | ok gap => exact hkept.persistEviction sequence gap

theorem AllocationStored.append (h : o.AllocationStored) (envelopeId : EnvelopeId) (kind : String)
    (payload : Bytes) (retention : RetentionClass) :
    (o.append envelopeId kind payload retention).2.AllocationStored := by
  unfold DurableOutbox.append
  rcases append_next o.state envelopeId payload retention with
    ⟨e, heq⟩ | ⟨next, hlt, hc, hl, heq⟩
  · rwa [heq]
  · rw [heq]
    dsimp only
    have hrow := Store.enqueue_cursor o.store (asI64 (o.state.lastAllocated + 1))
      envelopeId.asStr kind payload (retention = .protected_)
    generalize o.store.enqueue (asI64 (o.state.lastAllocated + 1)) envelopeId.asStr kind
      payload (retention = .protected_) = r at hrow ⊢
    obtain ⟨result, stored⟩ := r
    cases result with
    | error halt => exact ⟨by rw [← h.1, ← hrow], h.2⟩
    | ok u =>
      dsimp only
      rcases Store.setCursor_cursor stored next.committedThrough next.lastAllocated with
        ⟨moved, hset, hcur⟩ | ⟨halt, kept, hset, hcur⟩
      · rw [hset]
        dsimp only
        have hev := AllocationStored.evictIfNeeded
          (o := ⟨moved, next, o.maxRecords, o.overflowWarnedAt⟩)
          ⟨by rw [hcur], hl ▸ hlt⟩
        generalize DurableOutbox.evictIfNeeded
          ⟨moved, next, o.maxRecords, o.overflowWarnedAt⟩ = r at hev ⊢
        obtain ⟨result, o'⟩ := r
        cases result <;> exact hev
      · rw [hset]
        exact ⟨by rw [hcur, ← h.1, ← hrow], h.2⟩

theorem AllocationStored.observeAck (h : o.AllocationStored) (ack : UplinkAck) :
    (o.observeAck ack).2.AllocationStored := by
  have hlast := observeAck_lastAllocated o.state ack
  cases hr : o.state.observeAck ack with
  | mk result state =>
    rw [hr] at hlast
    cases result with
    | error e =>
      simp only [DurableOutbox.observeAck, hr]
      exact ⟨by rw [h.1, ← hlast], hlast ▸ h.2⟩
    | ok outcome =>
      rw [observeAck_eq hr]
      obtain ⟨k, hdb, -⟩ := executeAll_always_prefix refusal o.store
        (ackStatements outcome.deletedSequences state)
      have hcur : (applyAll o.store.db
          ((ackStatements outcome.deletedSequences state).take k)).cursor.2
          = asI64 state.lastAllocated := by
        rw [ackStatements, List.take_append, ← List.map_take, applyAll_append, applyAll_delete]
        rcases k - (outcome.deletedSequences.map deleteSequence).length with _ | j
        · exact h.1.trans (by rw [← hlast])
        · rw [List.take_succ_cons, List.take_nil]
          rfl
      rw [← hdb] at hcur
      generalize o.store.executeAll refusal
        ((ackStatements outcome.deletedSequences state).map (always _)) = r at hcur ⊢
      obtain ⟨result, store⟩ := r
      cases result <;> exact ⟨hcur, hlast ▸ h.2⟩

theorem allocationStored_fromStore {db : Db} {n : Nat} (hn : db.cursor.2 = asI64 n)
    (hle : n ≤ u64Max) {maxRecords : Nat} (h : fromStore ⟨db, []⟩ maxRecords = .ok o) :
    o.AllocationStored := by
  obtain ⟨hstore, rs, -, hstate⟩ := fromStore_ok h
  have hlast : o.state.lastAllocated = n := by
    rw [(UplinkState.rehydrate_eq_ok hstate).2.2, readCursor, hn, asU64_asI64 hle]
  exact ⟨by rw [hstore, hn, hlast], hlast ▸ hle⟩

/-- The same outbox with the fates of the coming statements planned. -/
def planned (o : DurableOutbox) (fates : List Fate) : DurableOutbox :=
  { o with store := ⟨o.store.db, fates⟩ }

theorem AllocationStored.planned (h : o.AllocationStored) (fates : List Fate) :
    (o.planned fates).AllocationStored := h

end DurableOutbox

/-! ## An agent that calls, crashes and reopens -/

/-- The process is running on an outbox, or only the tables are left. -/
inductive OutboxHost where
  | up (outbox : DurableOutbox)
  | down (db : Db)

/-- What can happen to it; a call comes with the fates of its statements. -/
inductive OutboxEvent where
  | append (envelopeId : EnvelopeId) (kind : String) (payload : Bytes)
      (retention : RetentionClass) (fates : List Fate)
  | observeAck (ack : UplinkAck) (fates : List Fate)
  | reopen (maxRecords : Nat)

namespace OutboxHost

open DurableOutbox

def db : OutboxHost → Db
  | .up outbox => outbox.store.db
  | .down db => db

/-- What a call leaves: nothing but the tables after a crash. -/
def settle {A : Type} : Except (Halt QueueError) A × DurableOutbox → OutboxHost
  | (.error .crashed, outbox) => .down outbox.store.db
  | (_, outbox) => .up (outbox.planned [])

def step : OutboxHost → OutboxEvent → OutboxHost
  | .up outbox, .append envelopeId kind payload retention fates =>
    settle ((outbox.planned fates).append envelopeId kind payload retention)
  | .up outbox, .observeAck ack fates => settle ((outbox.planned fates).observeAck ack)
  | .down db, .append .. => .down db
  | .down db, .observeAck .. => .down db
  | host, .reopen maxRecords =>
    match fromStore ⟨host.db, []⟩ maxRecords with
    | .ok outbox => .up outbox
    | .error _ => .down host.db

/-- The stored `last_allocated` is a `u64`, and the one in memory while the
process runs. -/
def AllocationKept : OutboxHost → Prop
  | .up outbox => outbox.AllocationStored
  | .down db => ∃ n ≤ u64Max, db.cursor.2 = asI64 n

theorem AllocationKept.stored : ∀ {host : OutboxHost}, host.AllocationKept →
    ∃ n ≤ u64Max, host.db.cursor.2 = asI64 n
  | .up outbox, h => ⟨outbox.state.lastAllocated, h.2, h.1⟩
  | .down _, h => h

theorem allocationKept_settle {A : Type} {r : Except (Halt QueueError) A × DurableOutbox}
    (h : r.2.AllocationStored) : (settle r).AllocationKept := by
  obtain ⟨result, outbox⟩ := r
  unfold settle
  split
  next o heq =>
    cases heq
    exact ⟨_, h.2, h.1⟩
  next o _ heq =>
    cases heq
    exact h.planned []

theorem AllocationKept.step {host : OutboxHost} (h : host.AllocationKept)
    (event : OutboxEvent) : (host.step event).AllocationKept := by
  cases event with
  | append envelopeId kind payload retention fates =>
    cases host with
    | up outbox =>
      exact allocationKept_settle
        ((AllocationStored.planned h fates).append envelopeId kind payload retention)
    | down db => exact h
  | observeAck ack fates =>
    cases host with
    | up outbox => exact allocationKept_settle ((AllocationStored.planned h fates).observeAck ack)
    | down db => exact h
  | reopen maxRecords =>
    obtain ⟨n, hle, hn⟩ := h.stored
    have hstep : host.step (.reopen maxRecords) =
        match fromStore ⟨host.db, []⟩ maxRecords with
        | .ok outbox => .up outbox
        | .error _ => .down host.db := by
      cases host <;> rfl
    rw [hstep]
    split
    next outbox hopen => exact allocationStored_fromStore hn hle hopen
    · exact ⟨n, hle, hn⟩

/-- Everything an agent can be in, from a freshly migrated database on. -/
def after (events : List OutboxEvent) : OutboxHost := runFrom step (.down Db.fresh) events

theorem allocationKept_after (events : List OutboxEvent) : (after events).AllocationKept :=
  runFrom_invariant (fun _ event h => h.step event) events ⟨0, Nat.zero_le _, rfl⟩

end OutboxHost

namespace DurableOutbox

/-! ## The cut -/

/-- The outbox after an append whose INSERT was committed and whose cursor
UPDATE met `stop`. -/
def appendCut (o : DurableOutbox) (envelopeId : EnvelopeId) (kind : String)
    (payload : Bytes) (retention : RetentionClass) (stop : Fate) : DurableOutbox :=
  ((o.planned [.commit, stop]).append envelopeId kind payload retention).2

variable {cell : OutboxCell} {db : Db} {envelopeId : EnvelopeId} {o : DurableOutbox}

/-- The cut leaves the row, the old cursor and the old journal. -/
theorem appendCut_eq {kind : String} {payload : Bytes}
    {retention : RetentionClass} {stop : Fate} (hstop : stop = .crash ∨ stop = .refuse)
    (hid : envelopeId ∉ o.state.envelopeSequences) (hlt : o.state.lastAllocated < u64Max)
    (hrow : insertOutbox (asI64 (o.state.lastAllocated + 1))
      ⟨envelopeId.asStr, kind, payload, retention = .protected_⟩ o.store.db = .ok db) :
    o.appendCut envelopeId kind payload retention stop = { o with store := ⟨db, []⟩ } := by
  unfold appendCut append
  rw [show (o.planned [.commit, stop]).state = o.state from rfl, UplinkState.append_ok hid hlt]
  simp only [planned, enqueue, execute_commit, hrow]
  rcases hstop with rfl | rfl <;> rfl

theorem AllocationStored.cut_not_openable (h : o.AllocationStored)
    (hlt : o.state.lastAllocated < u64Max)
    (hrow : insertOutbox (asI64 (o.state.lastAllocated + 1)) cell o.store.db = .ok db)
    (maxRecords : Nat) : ¬∃ o', fromStore ⟨db, []⟩ maxRecords = .ok o' := by
  rintro ⟨o', hopen⟩
  obtain ⟨-, -, rfl⟩ := insertOutbox_ok.mp hrow
  have hcell : (o.store.db.outbox.insert (asI64 (o.state.lastAllocated + 1))
      cell)[asI64 (o.state.lastAllocated + 1)]? = some cell := ExtTreeMap.getElem?_insert_self
  have hwin := (fromStore_window hopen _ (mem_loadOutbox.mpr ⟨_, _, hcell, rfl⟩)).2
  have hseq : asU64 (asI64 (o.state.lastAllocated + 1)) = o.state.lastAllocated + 1 :=
    asU64_asI64 hlt
  have hread : asU64 o.store.db.cursor.2 = o.state.lastAllocated := by rw [h.1, asU64_asI64 h.2]
  simp only [readCursor] at hwin
  omega

/-- With the row stored and the journal unchanged, the next envelope is
given the same sequence and fails on it. -/
theorem append_on_stored_row (hlt : o.state.lastAllocated < u64Max)
    (hrow : insertOutbox (asI64 (o.state.lastAllocated + 1)) cell o.store.db = .ok db)
    (hid : envelopeId ∉ o.state.envelopeSequences) (kind : String) (payload : Bytes)
    (retention : RetentionClass) :
    (append { o with store := ⟨db, []⟩ } envelopeId kind payload retention).1
      = .error (.failed (.store (.sqlite (.uniqueViolation "uplink_outbox.seq")))) := by
  obtain ⟨-, -, rfl⟩ := insertOutbox_ok.mp hrow
  unfold append
  rw [UplinkState.append_ok hid hlt]
  simp only [enqueue, execute_unplanned]
  rw [insertOutbox, if_pos (by simp)]
  rfl

/-- In any state: if the INSERT of a fresh envelope is committed and the cursor
UPDATE is not, the tables cannot be opened again; and if the process lives on,
every further append fails on the sequence of the stored row. -/
theorem append_cut_never_survives (events : List OutboxEvent) {o : DurableOutbox}
    (hup : OutboxHost.after events = .up o) {envelopeId : EnvelopeId} {kind : String}
    {payload : Bytes} {retention : RetentionClass} {stop : Fate} {db : Db}
    (hstop : stop = .crash ∨ stop = .refuse)
    (hid : envelopeId ∉ o.state.envelopeSequences) (hlt : o.state.lastAllocated < u64Max)
    (hrow : insertOutbox (asI64 (o.state.lastAllocated + 1))
      ⟨envelopeId.asStr, kind, payload, retention = .protected_⟩ o.store.db = .ok db) :
    (∀ maxRecords, ¬∃ o', fromStore
        ⟨(o.appendCut envelopeId kind payload retention stop).store.db, []⟩ maxRecords = .ok o')
      ∧ ∀ (envelopeId' : EnvelopeId) (kind' : String) (payload' : Bytes)
          (retention' : RetentionClass), envelopeId' ∉ o.state.envelopeSequences →
          ((o.appendCut envelopeId kind payload retention stop).append envelopeId' kind' payload'
            retention').1
            = .error (.failed (.store (.sqlite (.uniqueViolation "uplink_outbox.seq")))) := by
  have hstored : o.AllocationStored := by
    have hkept := OutboxHost.allocationKept_after events
    rwa [hup] at hkept
  rw [appendCut_eq hstop hid hlt hrow]
  exact ⟨hstored.cut_not_openable hlt hrow, fun _ kind' payload' retention' hid' =>
      append_on_stored_row hlt hrow hid' kind' payload' retention'⟩

/-- The first append on a fresh database, cut before the cursor moves. -/
theorem first_append_cut :
    OutboxHost.after [.reopen 8] = .up (openFresh 8)
      ∧ (((openFresh 8).planned [.commit, .crash]).append (NonBlank.mk "a" (by decide))
          "sms_received" [1] .protected_).1 = .error .crashed
      ∧ fromStore ⟨((openFresh 8).appendCut (NonBlank.mk "a" (by decide)) "sms_received" [1]
          .protected_ .crash).store.db, []⟩ 8
        = .error (.uplink .invalidRestoredJournal)
      ∧ (((openFresh 8).appendCut (NonBlank.mk "a" (by decide)) "sms_received" [1]
          .protected_ .refuse).append (NonBlank.mk "b" (by decide)) "sms_received" [2]
          .protected_).1
        = .error (.failed (.store (.sqlite (.uniqueViolation "uplink_outbox.seq")))) := by
  exact ⟨rfl, by decide, by decide, by decide⟩

theorem first_append_cut_not_openable :
    ¬∃ o', fromStore ⟨((openFresh 8).appendCut (NonBlank.mk "a" (by decide)) "sms_received" [1]
      .protected_ .crash).store.db, []⟩ 8 = .ok o' :=
  (append_cut_never_survives [.reopen 8] rfl (.inl rfl) (not_mem_table.mpr rfl) (by decide) rfl).1 8

end DurableOutbox

end VodogeEdge
