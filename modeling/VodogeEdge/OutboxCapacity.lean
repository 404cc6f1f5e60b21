import VodogeEdge.OutboxEviction
import VodogeEdge.OutboxRestart

/-!
# The capacity of the outbox

The limit is enforced one eviction at a time, after each append. Started
within it, the queue stays within it or is left with protected records
only (`Bounded`), for any mixture of retention classes and
acknowledgements.

With the queue over its limit, a new evictable record is itself the
oldest evictable one: it is evicted at once, and `Evicted` is returned
with the limit still exceeded.
-/

namespace VodogeEdge

open Std ExtTreeMap List UplinkState

namespace DurableOutbox

/-- Within the limit, or left with nothing to evict. -/
def Bounded (o : DurableOutbox) : Prop :=
  o.retainedCount ≤ o.maxRecords
    ∨ ∀ (q : Nat) (r : UplinkRecord), o.state.records[q]? = some r → r.retention = .protected_

/-- The record at `q`, evictable and the lowest of its class, is gone from
`records` and has exactly one gap, in memory and in the table. -/
structure Shed (records : Records) (gaps : ExtTreeMap String GapCell)
    (after : DurableOutbox) (q : Nat) : Prop where
  evictable : ∃ r : UplinkRecord, records[q]? = some r ∧ r.retention = .evictable
  lowest : ∀ (x : Nat) (r : UplinkRecord), records[x]? = some r → r.retention = .evictable → q ≤ x
  records : after.state.records = records.erase q
  gap : ∃! gapId, after.state.InPendingGap q gapId
  written : capacityGap q ∉ gaps ∧ ∃ cell, after.store.db.gaps = gaps.insert (capacityGap q) cell

/-- An append that went through stored its record, and evicted the lowest
evictable one if it reports an eviction, and none if it does not. -/
def Stores (o after : DurableOutbox) (record : UplinkRecord) (outcome : CapacityOutcome) : Prop :=
  ((∀ alert, outcome ≠ .evicted alert)
      ∧ after.state.records = o.state.records.insert record.sequence record
      ∧ after.state.pendingGaps = o.state.pendingGaps
      ∧ after.store.db.gaps = o.store.db.gaps)
    ∨ ∃ q, outcome = .evicted ⟨capacityGap q, q⟩
      ∧ Shed (o.state.records.insert record.sequence record) o.store.db.gaps after q

/-- The append failed and changed nothing, or stored its record and evicted at
most one; the outcome tells whether the limit is exceeded afterwards exactly if
it was not exceeded before or the record is protected. -/
def Accounts (o after : DurableOutbox) (envelopeId : EnvelopeId) (payload : Bytes)
    (retention : RetentionClass) (result : Except (Halt QueueError) (Nat × CapacityOutcome)) :
    Prop :=
  (∃ halt, result = .error halt ∧ after = o)
    ∨ ∃ sequence outcome, result = .ok (sequence, outcome)
      ∧ Stores o after ⟨sequence, envelopeId, payload, retention⟩ outcome
      ∧ (((∃ overflow, outcome = .overflowing overflow) ↔ after.maxRecords < after.retainedCount)
        ↔ ¬(o.maxRecords < o.retainedCount ∧ retention = .evictable))

theorem retainedCount_eq_size (o : DurableOutbox) : o.retainedCount = o.state.records.size := by
  simp [retainedCount, retainedRecords, tableValues]

/-- The first evictable record of the listing has the lowest sequence. -/
theorem Backed.oldestEvictable_le {o : DurableOutbox} (h : o.Backed) {q x : Nat}
    {r : UplinkRecord} (hq : o.oldestEvictable = some q) (hr : o.state.records[x]? = some r)
    (hev : r.retention = .evictable) : q ≤ x := by
  rw [oldestEvictable, Option.map_eq_some_iff] at hq
  obtain ⟨oldest, hfound, rfl⟩ := hq
  obtain ⟨-, before, rest, hsplit, hbefore⟩ := List.find?_eq_some_iff_append.mp hfound
  have hsorted := pairwise_retainedRecords h.keyed
  have hmem : r ∈ before ++ oldest :: rest := by
    rw [← hsplit]
    exact mem_tableValues.mpr ⟨x, hr⟩
  rw [retainedRecords] at hsplit
  rw [hsplit, pairwise_append, pairwise_cons] at hsorted
  rw [← h.sequence hr]
  rcases mem_append.mp hmem with hmem | hmem
  · exact absurd hev (by simpa using hbefore r hmem)
  · rcases mem_cons.mp hmem with rfl | hmem
    · exact Nat.le_refl _
    · exact Nat.le_of_lt (hsorted.2.1.1 r hmem)

variable {o : DurableOutbox}

theorem Eviction.records_eq (e : o.Eviction) : e.records = o.state.records.erase e.sequence := by
  refine ext_getElem? fun {x} => ?_
  rw [e.removed, getElem?_erase]
  by_cases hx : x = e.sequence
  · simp [hx]
  · simp [hx, Ne.symm]

section
variable (h : o.Accounted)
include h

namespace Eviction

variable (e : o.Eviction)

theorem retainedCount_left : e.left.retainedCount + 1 = o.retainedCount := by
  have hmem := e.mem h
  have hpos : 0 < o.state.records.size := by
    rw [pos_iff_ne_zero, ne_eq, ← eq_empty_iff_size_eq_zero]
    intro hempty
    simp [hempty] at hmem
  rw [retainedCount_eq_size, retainedCount_eq_size]
  simp only [left, e.records_eq, size_erase, if_pos (contains_iff_mem.mpr hmem)]
  omega

theorem shed : Shed o.state.records o.store.db.gaps e.left e.sequence where
  evictable := h.backed.oldestEvictable_mem e.oldest
  lowest _ _ hr hev := h.backed.oldestEvictable_le e.oldest hr hev
  records := e.records_eq
  gap := by
    refine ⟨e.gapId, ⟨e.gap, getElem?_insert_self, (e.covers _).mpr rfl⟩, ?_⟩
    rintro gapId ⟨gap, hgap, hcovers⟩
    obtain ⟨q, hname, honly, -, -⟩ := (e.accounted h).pending hgap
    obtain rfl := (honly _).mp hcovers
    exact NonBlank.ext_val (hname.trans e.named.symm)
  written := ⟨e.unwritten, e.cell, rfl⟩

end Eviction

theorem Bounded.observeAck (hbounded : o.Bounded) (ack : UplinkAck) :
    (o.observeAck ack).2.Bounded := by
  rcases h.backed.observeAck_cases ack with ⟨-, heq⟩ | ⟨e, -, heq⟩ | ⟨-, -, -, -, heq⟩
  · rwa [heq]
  · rwa [heq]
  · rw [heq]
    refine hbounded.imp (fun hcount => ?_) fun hall q r hr => hall q r (retireThrough_sub hr)
    rw [retainedCount_eq_size] at hcount ⊢
    refine (size_le_of_subset fun q hq => ?_).trans hcount
    obtain ⟨r, hr⟩ := mem_table.mp hq
    exact mem_table.mpr ⟨r, retireThrough_sub hr⟩

section
variable (hbounded : o.Bounded) {envelopeId : EnvelopeId} {kind : String} {payload : Bytes}
  {retention : RetentionClass}
include hbounded

/-- With nothing else to evict, the record that goes is the new one. -/
theorem Bounded.left {warned : Option Nat}
    (e : (o.stored envelopeId kind payload retention warned).Eviction)
    (hstored : (o.stored envelopeId kind payload retention warned).Accounted) : e.left.Bounded := by
  have hcount := e.retainedCount_left hstored
  rw [h.retainedCount_stored] at hcount
  refine hbounded.imp (fun hwithin => (Nat.succ.inj hcount).trans_le hwithin) ?_
  intro hall q r hr
  have hold : ∀ {x : Nat} {r : UplinkRecord}, x ≠ o.state.lastAllocated + 1 →
      (o.stored envelopeId kind payload retention warned).state.records[x]? = some r →
      r.retention = .protected_ := by
    intro x r hx hr
    rw [DurableOutbox.stored, appendedAs_records, if_neg hx.symm] at hr
    exact hall x r hr
  obtain ⟨gone, hgone, hev⟩ := hstored.backed.oldestEvictable_mem e.oldest
  have hnew : e.sequence = o.state.lastAllocated + 1 := by
    by_contra hne
    rw [hold hne hgone] at hev
    cases hev
  refine hold (fun hq => ?_) (e.kept hr)
  exact e.not_mem (.inl (hq.trans hnew.symm)) (mem_table.mpr ⟨r, hr⟩)

theorem Bounded.append {result : Except (Halt QueueError) (Nat × CapacityOutcome)}
    {after : DurableOutbox}
    (happend : o.append envelopeId kind payload retention = (result, after)) :
    after.Bounded ∧ Accounts o after envelopeId payload retention result := by
  rcases h.append_cases envelopeId kind payload retention with
    ⟨-, halt, heq⟩ | ⟨htakes, hroom, warned, heq⟩ | ⟨htakes, hfull, e, heq⟩
  · cases heq.symm.trans happend
    exact ⟨hbounded, .inl ⟨halt, rfl, rfl⟩⟩
  · cases heq.symm.trans happend
    have hwithin := (h.hasRoom_iff envelopeId kind payload retention warned).mpr hroom
    refine ⟨hwithin.imp_right oldestEvictable_eq_none.mp, .inr ⟨_, _, rfl, .inl ?_, ?_⟩⟩
    · refine ⟨fun alert => ?_, rfl, rfl, rfl⟩
      unfold protectedOutcome
      split <;> simp
    · have hright : ¬(o.maxRecords < o.retainedCount ∧ retention = .evictable) := by
        rintro ⟨hover, rfl⟩
        rcases hroom with hlt | ⟨-, hclass⟩
        · omega
        · cases hclass
      refine iff_of_true ?_ hright
      change _ ↔ o.maxRecords
        < (tableValues (o.state.appendedAs envelopeId payload retention).records).length
      unfold protectedOutcome
      split
      next hle => simp [hle]
      next hover => simp [Nat.lt_of_not_le hover]
  · cases heq.symm.trans happend
    have hstored := h.stored htakes kind payload retention o.overflowWarnedAt
    have hcount := e.retainedCount_left hstored
    rw [h.retainedCount_stored] at hcount
    refine ⟨hbounded.left h e hstored, .inr ⟨_, _, rfl, .inr ⟨_, rfl, e.shed hstored⟩, ?_⟩⟩
    have hleft : e.left.maxRecords < e.left.retainedCount ↔ o.maxRecords < o.retainedCount := by
      rw [Nat.succ.inj hcount]
      rfl
    rw [hleft, iff_comm]
    simp only [reduceCtorEq, exists_false, false_iff]
    refine not_congr ⟨And.left, fun hover => ⟨hover, ?_⟩⟩
    -- over the limit only protected records were left, so the new one is not
    have hnone : o.oldestEvictable = none :=
      oldestEvictable_eq_none.mpr (hbounded.resolve_left (Nat.not_le.mpr hover))
    cases retention with
    | evictable => rfl
    | protected_ => exact absurd (.inr ⟨hnone, rfl⟩) hfull

end

end

theorem bounded_run : ∀ calls {start : DurableOutbox}, start.Accounted →
    start.Bounded → (∀ n, .restart n ∉ calls) →
    (runFrom DurableOutbox.live start calls).Accounted
      ∧ (runFrom DurableOutbox.live start calls).Bounded
  | [], _, h, hbounded, _ => ⟨h, hbounded⟩
  | call :: calls, start, h, hbounded, hcalls => by
    refine bounded_run calls (h.live call) ?_ fun n hn => hcalls n (mem_cons_of_mem _ hn)
    cases call with
    | append envelopeId kind payload retention => exact (hbounded.append h rfl).1
    | observeAck ack => exact hbounded.observeAck h ack
    | restart n => exact absurd mem_cons_self (hcalls n)

/-- From any point at which the queue is within its limit, over any appends
and acknowledgements: it stays within the limit or holds protected records
only, and an append evicts at most the lowest evictable record, with one gap
for it. Its outcome says whether the limit is exceeded unless the queue was
over it and the new record is evictable. -/
theorem capacity_kept_iff (limit : Nat) (earlier calls : List LifeCall) {start o : DurableOutbox}
    (hstart : runFrom DurableOutbox.live (openFresh limit) earlier = start)
    (hwithin : start.retainedCount ≤ start.maxRecords) (hcalls : ∀ n, .restart n ∉ calls)
    (ho : runFrom DurableOutbox.live start calls = o) {envelopeId : EnvelopeId} {kind : String}
    {payload : Bytes} {retention : RetentionClass}
    {result : Except (Halt QueueError) (Nat × CapacityOutcome)} {after : DurableOutbox}
    (happend : o.append envelopeId kind payload retention = (result, after)) :
    after.Bounded ∧ Accounts o after envelopeId payload retention result := by
  have haccounted : start.Accounted := hstart ▸ accounted_run limit earlier
  obtain ⟨h, hbounded⟩ := bounded_run calls haccounted (.inl hwithin) hcalls
  rw [ho] at h hbounded
  exact hbounded.append h happend

/-- Two protected records against a limit of one. -/
def overfull : List LifeCall :=
  [.append (NonBlank.mk "one" rfl) "sms_received" [1] .protected_,
   .append (NonBlank.mk "two" rfl) "sms_received" [2] .protected_]

theorem overfull_bounded :
    ((runFrom DurableOutbox.live (openFresh 1) overfull).append (NonBlank.mk "three" rfl)
      "device_state" [3] .evictable).2.Bounded :=
  (capacity_kept_iff 1 [] overfull rfl (by decide) (by simp [overfull]) rfl Prod.mk.eta.symm).1

/-- The evictable record is gone again, the two protected ones stand
against a limit of one, and the outcome is not an overflow. -/
theorem overfull_reported_evicted :
    ((runFrom DurableOutbox.live (openFresh 1) overfull).append (NonBlank.mk "three" rfl)
        "device_state" [3] .evictable).1 = .ok (3, .evicted ⟨"capacity-3", 3⟩)
      ∧ ((runFrom DurableOutbox.live (openFresh 1) overfull).append (NonBlank.mk "three" rfl)
        "device_state" [3] .evictable).2.retainedCount = 2
      ∧ ((runFrom DurableOutbox.live (openFresh 1) overfull).append (NonBlank.mk "three" rfl)
        "device_state" [3] .evictable).2.maxRecords = 1 := by
  decide

end DurableOutbox

end VodogeEdge
