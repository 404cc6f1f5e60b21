import Std.Data.String.ToNat
import VodogeEdge.OutboxMirror

/-!
# Eviction and restart

Over capacity, the oldest evictable record is turned into a pending gap:
its row is deleted, the gap is written to `uplink_gaps` and kept in
memory. `from_store` reads the rows and the cursor and never that table,
so a rebuilt outbox has forgotten the gap, and its sequence stands in the
window with nothing to account for it. No acknowledgement crosses such a
hole, in this life or a later one (`Hole.live`), so a restart is harmless
exactly if the run before it never evicted
(`eviction_survives_restart_iff`).
-/

namespace VodogeEdge

open Std ExtTreeMap Nat UplinkState

/-! ## The marker of an evicted sequence -/

def capacityGap (sequence : Nat) : String := "capacity-" ++ toString sequence

variable {q : Nat} {state : UplinkState} {r : UplinkRecord}

theorem capacityGap_inj {q' : Nat} (h : capacityGap q = capacityGap q') : q = q' :=
  repr_inj.mp ((String.append_right_inj "capacity-").mp h)

theorem capacityGap_not_blank (q : Nat) : trimIsEmpty (capacityGap q) = false := by
  rw [trimIsEmpty, capacityGap, String.toList_append]
  rfl

theorem gapId_new_capacityGap (q : Nat) :
    ∃ gapId, GapId.new ("capacity-" ++ toString q) = .ok gapId
      ∧ gapId.asStr = capacityGap q := by
  refine ⟨⟨capacityGap q, capacityGap_not_blank q⟩, ?_, rfl⟩
  unfold GapId.new NonBlank.check
  rw [dif_neg (by rw [Bool.not_eq_true]; exact capacityGap_not_blank q)]
  rfl

namespace UplinkState

theorem declareLoss_one {gapId : GapId} {reason : String} (hreason : trimIsEmpty reason = false)
    (hpending : gapId ∉ state.pendingGaps) (haccepted : gapId ∉ state.acceptedGaps)
    (hr : state.records[q]? = some r) (hev : r.retention = .evictable) :
    ∃ gap records, gap.gapId = gapId ∧ (∀ x, rangesCover gap.ranges x ↔ x = q)
      ∧ (∀ x, records[x]? = if x = q then none else state.records[x]?)
      ∧ state.declareLoss gapId [q] reason = (.ok gap,
          { state with
            records := records
            pendingGaps := state.pendingGaps.insert gapId gap }) := by
  have hselected : selectedSequences [q] = .ok ((∅ : ExtTreeSet Nat).insert q) := by
    simp [selectedSequences, selectInto]
  have hmem : ∀ x, x ∈ (∅ : ExtTreeSet Nat).insert q ↔ x = q := by
    intro x
    rw [mem_selectedSequences hselected, List.mem_singleton]
  have hcheck : checkEvictable state.records ((∅ : ExtTreeSet Nat).insert q).toList = .ok () := by
    refine checkEvictable_ok_iff.mpr fun x hx => ?_
    rw [(hmem x).mp (ExtTreeSet.mem_toList.mp hx)]
    exact ⟨r, hr, hev⟩
  unfold declareLoss
  rw [if_neg (not_or.mpr ⟨hpending, haccepted⟩), if_neg (by rw [hreason]; exact Bool.false_ne_true)]
  simp only [hselected, hcheck]
  refine ⟨_, _, rfl, fun x => by rw [rangesFor_cover, hmem], fun x => ?_, rfl⟩
  simp [getElem?_foldl_erase, hmem]

end UplinkState

namespace DurableOutbox

/-! ## What is lost is named -/

/-- Backed by the tables, nothing accepted as lost, and every gap, pending
or written, names a sequence that is gone. -/
structure Accounted (o : DurableOutbox) : Prop where
  backed : o.Backed
  no_accepted : o.state.acceptedGaps = ∅
  no_losses : o.state.acceptedLossSequences = ∅
  pending : ∀ {gapId : GapId} {gap : UplinkGap}, o.state.pendingGaps[gapId]? = some gap →
    ∃ q, gapId.asStr = capacityGap q ∧ (∀ x, rangesCover gap.ranges x ↔ x = q)
      ∧ q ≤ o.state.lastAllocated ∧ q ∉ o.state.records
  written : ∀ {key : String}, key ∈ o.store.db.gaps →
    ∃ q, key = capacityGap q ∧ q ≤ o.state.lastAllocated ∧ q ∉ o.state.records

variable {o : DurableOutbox} (maxRecords : Nat)

theorem oldestEvictable_eq_none : o.oldestEvictable = none ↔
    ∀ (q : Nat) r, o.state.records[q]? = some r → r.retention = .protected_ := by
  rw [oldestEvictable, Option.map_eq_none_iff, List.find?_eq_none]
  constructor
  · intro h q r hr
    have hnot := h r (mem_tableValues.mpr ⟨q, hr⟩)
    cases hclass : r.retention with
    | evictable => simp [hclass] at hnot
    | protected_ => rfl
  · intro h r hr
    obtain ⟨q, hq⟩ := mem_tableValues.mp hr
    simp [h q r hq]

theorem Backed.oldestEvictable_mem (h : o.Backed) (hq : o.oldestEvictable = some q) :
    ∃ r, o.state.records[q]? = some r ∧ r.retention = .evictable := by
  rw [oldestEvictable, Option.map_eq_some_iff] at hq
  obtain ⟨r, hfound, rfl⟩ := hq
  obtain ⟨x, hx⟩ := mem_tableValues.mp (List.mem_of_find?_eq_some hfound)
  rw [h.sequence hx]
  exact ⟨r, hx, by simpa using List.find?_some hfound⟩

def evictedDb (db : Db) (state : UplinkState) (q : Nat) (cell : GapCell) : Db :=
  { outbox := db.outbox.erase (asI64 q)
    gaps := db.gaps.insert (capacityGap q) cell
    cursor := (asI64 state.committedThrough, asI64 state.lastAllocated) }

/-- The eviction of the oldest evictable record: its gap covers it alone
and was not written before. -/
structure Eviction (o : DurableOutbox) where
  sequence : Nat
  gapId : GapId
  gap : UplinkGap
  cell : GapCell
  records : Records
  oldest : o.oldestEvictable = some sequence
  named : gapId.asStr = capacityGap sequence
  covers : ∀ x, rangesCover gap.ranges x ↔ x = sequence
  unwritten : capacityGap sequence ∉ o.store.db.gaps
  removed : ∀ x : Nat, records[x]? = if x = sequence then none else o.state.records[x]?

/-- What the eviction leaves, in memory and in the tables. -/
def Eviction.left {o : DurableOutbox} (e : o.Eviction) : DurableOutbox :=
  ⟨⟨evictedDb o.store.db o.state e.sequence e.cell, []⟩,
    { o.state with
      records := e.records
      pendingGaps := o.state.pendingGaps.insert e.gapId e.gap },
    o.maxRecords, none⟩

/-- The capacity check touches nothing but the throttle of its warning,
or turns one retained record into a gap. -/
theorem Accounted.evictIfNeeded_cases (h : o.Accounted) :
    ((o.retainedCount ≤ o.maxRecords ∨ o.oldestEvictable = none)
        ∧ ∃ warned, o.evictIfNeeded = (.ok (protectedOutcome o.state.records o.maxRecords),
          { o with overflowWarnedAt := warned }))
      ∨ (¬(o.retainedCount ≤ o.maxRecords ∨ o.oldestEvictable = none)
        ∧ ∃ e : o.Eviction, o.evictIfNeeded
          = (.ok (.evicted ⟨capacityGap e.sequence, e.sequence⟩), e.left)) := by
  cases holdest : o.oldestEvictable with
  | none => exact .inl ⟨.inr rfl, evictIfNeeded_protected (oldestEvictable_eq_none.mp holdest)⟩
  | some q =>
    unfold evictIfNeeded
    by_cases hcap : o.retainedCount ≤ o.maxRecords
    · rw [if_pos hcap]
      have hcount : (tableValues o.state.records).length ≤ o.maxRecords := hcap
      refine .inl ⟨.inl hcap, none, ?_⟩
      rw [protectedOutcome, if_pos hcount]
    rw [if_neg hcap, holdest]
    refine .inr ⟨by simp [hcap], ?_⟩
    obtain ⟨r, hr, hev⟩ := h.backed.oldestEvictable_mem holdest
    have hmem : q ∈ o.state.records := mem_table.mpr ⟨r, hr⟩
    obtain ⟨gapId, hnew, hname⟩ := gapId_new_capacityGap q
    have hpending : gapId ∉ o.state.pendingGaps := by
      intro hin
      obtain ⟨gap, hgap⟩ := mem_table.mp hin
      obtain ⟨x, hx, -, -, hgone⟩ := h.pending hgap
      exact hgone (capacityGap_inj (hname.symm.trans hx) ▸ hmem)
    have hwritten : capacityGap q ∉ (Db.deleteSequence q o.store.db).gaps := by
      intro hin
      obtain ⟨x, hx, -, hgone⟩ := h.written hin
      exact hgone (capacityGap_inj hx ▸ hmem)
    have hreason : trimIsEmpty "queue_capacity" = false := by decide
    obtain ⟨gap, records, hgap, hcovers, hrecords, hdeclared⟩ :=
      declareLoss_one hreason hpending (by simp [h.no_accepted]) hr hev
    refine ⟨⟨q, gapId, gap, ⟨firstRangeText gap.ranges, gap.reason, false⟩, records, holdest,
      hname, hcovers, hwritten, hrecords⟩, ?_⟩
    have hdelete : o.store.deleteSequences [q]
        = (.ok (), ⟨Db.deleteSequence q o.store.db, []⟩) := by
      rw [h.backed.disk_eq]
      rfl
    have hinsert : Store.insertGap ⟨Db.deleteSequence q o.store.db, []⟩ (capacityGap q)
        (firstRangeText gap.ranges) gap.reason
        = (.ok (), ⟨{ Db.deleteSequence q o.store.db with
            gaps := o.store.db.gaps.insert (capacityGap q)
              ⟨firstRangeText gap.ranges, gap.reason, false⟩ }, []⟩) := by
      rw [Store.insertGap, Disk.execute_unplanned, Db.insertGap, if_neg hwritten]
      rfl
    simp only [hnew, hdeclared, persistEviction, hdelete, hgap, hname, hinsert]
    rfl

namespace Eviction

variable (h : o.Accounted) (e : o.Eviction) {x : Nat}

theorem kept (hr : e.records[x]? = some r) : o.state.records[x]? = some r := by
  rw [e.removed] at hr
  split at hr
  · cases hr
  · exact hr

theorem not_mem (hx : x = e.sequence ∨ x ∉ o.state.records) : x ∉ e.records := by
  rw [not_mem_table, e.removed]
  rcases hx with rfl | hx
  · exact if_pos rfl
  · rw [not_mem_table.mp hx, ite_self]

include h

theorem mem : e.sequence ∈ o.state.records := by
  obtain ⟨r, hr, -⟩ := h.backed.oldestEvictable_mem e.oldest
  exact mem_table.mpr ⟨r, hr⟩

theorem accounted : e.left.Accounted := by
  have hwindow := (h.backed.window (e.mem h)).2
  have hrows : Rows (Disk.applyAll o.store.db ([e.sequence].map Db.deleteSequence)) e.records := by
    refine h.backed.rows.delete h.backed.keyed (fun x hx => ?_) (fun x => ?_)
    · rw [List.mem_singleton.mp hx]
      exact h.backed.keyed.bounded (e.mem h)
    · simp [e.removed]
  refine ⟨⟨h.backed.le, h.backed.bounded, fun {x} hx => ?_,
    fun hr => h.backed.sequence (e.kept hr), fun hr => h.backed.known (e.kept hr),
    ⟨hrows.stored, hrows.only⟩, rfl, rfl⟩, h.no_accepted, h.no_losses, fun {id gap} hid => ?_,
    fun {key} hkey => ?_⟩
  · obtain ⟨r, hr⟩ := mem_table.mp hx
    exact h.backed.window (mem_table.mpr ⟨r, e.kept hr⟩)
  · simp only [left, getElem?_insert] at hid
    split at hid
    next heq =>
      cases hid
      rw [← Std.compare_eq_iff_eq.mp heq]
      exact ⟨e.sequence, e.named, e.covers, hwindow, e.not_mem (.inl rfl)⟩
    next =>
      obtain ⟨x, hx, hcovers, hle, hnot⟩ := h.pending hid
      exact ⟨x, hx, hcovers, hle, e.not_mem (.inr hnot)⟩
  · rcases mem_insert.mp hkey with heq | hold
    · exact ⟨e.sequence, (Std.compare_eq_iff_eq.mp heq).symm, hwindow, e.not_mem (.inl rfl)⟩
    · obtain ⟨x, hx, hle, hnot⟩ := h.written hold
      exact ⟨x, hx, hle, e.not_mem (.inr hnot)⟩

end Eviction

/-! ## One call -/

/-- One more record of the given class stays within the limit, or leaves
nothing to evict. -/
def HasRoom (o : DurableOutbox) (retention : RetentionClass) : Prop :=
  o.retainedCount < o.maxRecords ∨ o.oldestEvictable = none ∧ retention = .protected_

section
variable (h : o.Accounted)
include h

theorem Accounted.stored {envelopeId : EnvelopeId} (htakes : o.Takes envelopeId) (kind : String)
    (payload : Bytes) (retention : RetentionClass) (warned : Option Nat) :
    (o.stored envelopeId kind payload retention warned).Accounted := by
  have hgone : ∀ {q : Nat}, q ≤ o.state.lastAllocated → q ∉ o.state.records →
      q ∉ (o.state.appendedAs envelopeId payload retention).records := by
    intro q hle hnot hmem
    rcases mem_appendedAs.mp hmem with rfl | hmem
    · omega
    · exact hnot hmem
  refine ⟨h.backed.stored kind payload retention htakes warned, h.no_accepted, h.no_losses,
    fun hid => ?_, fun hkey => ?_⟩
  · obtain ⟨q, hname, hcovers, hle, hnot⟩ := h.pending hid
    exact ⟨q, hname, hcovers, le_succ_of_le hle, hgone hle hnot⟩
  · obtain ⟨q, hname, hle, hnot⟩ := h.written hkey
    exact ⟨q, hname, le_succ_of_le hle, hgone hle hnot⟩

theorem Accounted.next_not_mem : o.state.lastAllocated + 1 ∉ o.state.records := by
  intro hmem
  have := h.backed.window hmem
  omega

variable (envelopeId : EnvelopeId) (kind : String) (payload : Bytes)
  (retention : RetentionClass) (warned : Option Nat)

theorem Accounted.retainedCount_stored :
    (o.stored envelopeId kind payload retention warned).retainedCount = o.retainedCount + 1 := by
  simp only [retainedCount, retainedRecords, tableValues, List.length_map,
    length_toList, DurableOutbox.stored, appendedAs,
    size_insert]
  rw [if_neg (mt contains_iff_mem.mp h.next_not_mem)]

/-- Whether the capacity check finds room is known before the append. -/
theorem Accounted.hasRoom_iff :
    ((o.stored envelopeId kind payload retention warned).retainedCount ≤ o.maxRecords
        ∨ (o.stored envelopeId kind payload retention warned).oldestEvictable = none)
      ↔ o.HasRoom retention := by
  have holdest : (o.stored envelopeId kind payload retention warned).oldestEvictable = none
      ↔ o.oldestEvictable = none ∧ retention = .protected_ := by
    rw [oldestEvictable_eq_none, oldestEvictable_eq_none]
    simp only [DurableOutbox.stored, appendedAs_records]
    constructor
    · intro hall
      refine ⟨fun q r hr => hall q r ?_, hall (o.state.lastAllocated + 1) _ (if_pos rfl)⟩
      rw [if_neg]
      · exact hr
      · rintro rfl
        exact h.next_not_mem (mem_table.mpr ⟨r, hr⟩)
    · rintro ⟨hall, hclass⟩ q r hr
      split at hr
      · cases hr
        exact hclass
      · exact hall q r hr
  rw [h.retainedCount_stored, holdest, HasRoom, succ_le_iff]

/-- An append is refused without a trace, stores one record more, or
stores it and evicts one. -/
theorem Accounted.append_cases :
    (¬o.Takes envelopeId
        ∧ ∃ halt, o.append envelopeId kind payload retention = (.error halt, o))
      ∨ (o.Takes envelopeId ∧ o.HasRoom retention ∧ ∃ warned,
        o.append envelopeId kind payload retention
          = (.ok (o.state.lastAllocated + 1, protectedOutcome
                (o.state.appendedAs envelopeId payload retention).records o.maxRecords),
              o.stored envelopeId kind payload retention warned))
      ∨ (o.Takes envelopeId ∧ ¬o.HasRoom retention
        ∧ ∃ e : (o.stored envelopeId kind payload retention o.overflowWarnedAt).Eviction,
          o.append envelopeId kind payload retention
            = (.ok (o.state.lastAllocated + 1, .evicted ⟨capacityGap e.sequence, e.sequence⟩),
                e.left)) := by
  rcases h.backed.append_cases envelopeId kind payload retention with
    ⟨e, hno, -, heq⟩ | ⟨htakes, hstored⟩
  · exact .inl ⟨hno, _, heq⟩
  · have hroom := h.hasRoom_iff envelopeId kind payload retention o.overflowWarnedAt
    rcases (h.stored htakes kind payload retention o.overflowWarnedAt).evictIfNeeded_cases with
      ⟨hwithin, warned, hev⟩ | ⟨hover, e, hev⟩
    · exact .inr (.inl ⟨htakes, hroom.mp hwithin, warned, hstored _ _ hev⟩)
    · exact .inr (.inr ⟨htakes, fun hr => hover (hroom.mpr hr), e, hstored _ _ hev⟩)

end

/-- One call on an outbox that is dropped and rebuilt now and then. -/
inductive LifeCall where
  | append (envelopeId : EnvelopeId) (kind : String) (payload : Bytes)
      (retention : RetentionClass)
  | observeAck (ack : UplinkAck)
  | restart (maxRecords : Nat)

/-- The outbox after a call. A database that did not open would leave
nothing to run on; `Accounted.restart` says that it always opens. -/
def live (o : DurableOutbox) : LifeCall → DurableOutbox
  | .append envelopeId kind payload retention => (o.append envelopeId kind payload retention).2
  | .observeAck ack => (o.observeAck ack).2
  | .restart maxRecords =>
    match fromStore ⟨o.store.db, []⟩ maxRecords with
    | .ok rebuilt => rebuilt
    | .error _ => o

def Roomy (o : DurableOutbox) : LifeCall → Prop
  | .append envelopeId _ _ retention => o.Takes envelopeId → o.HasRoom retention
  | _ => True

/-! ## The account is kept -/

variable (calls : List LifeCall)

section
variable (h : o.Accounted) (ack : UplinkAck)
include h

theorem Accounted.append (envelopeId : EnvelopeId) (kind : String) (payload : Bytes)
    (retention : RetentionClass) : (o.append envelopeId kind payload retention).2.Accounted := by
  rcases h.append_cases envelopeId kind payload retention with
    ⟨-, halt, heq⟩ | ⟨htakes, -, warned, heq⟩ | ⟨htakes, -, e, heq⟩
  · rwa [heq]
  · rw [heq]
    exact h.stored htakes kind payload retention warned
  · rw [heq]
    exact e.accounted (h.stored htakes kind payload retention o.overflowWarnedAt)

theorem Accounted.crossed {c : Nat} (hcross : o.state.Crossable c)
    (hq : o.state.committedThrough < q) (hc : q ≤ c) : q ∈ o.state.records := by
  rcases hcross q hq hc with hmem | hloss
  · exact hmem
  · rw [h.no_losses] at hloss
    simp at hloss

/-- What an acknowledgement leaves: nothing changed, or everything up to a
cursor it could cross retired. -/
theorem Accounted.observeAck_cases :
    (o.observeAck ack).2 = o
      ∨ (o.state.committedThrough ≤ ack.committedThrough
        ∧ ack.committedThrough ≤ o.state.lastAllocated
        ∧ o.state.Crossable ack.committedThrough
        ∧ (o.observeAck ack).2.state = o.state.retireThrough ack
        ∧ (o.observeAck ack).2.store.db.gaps = o.store.db.gaps
        ∧ (o.observeAck ack).2.Backed) := by
  rcases h.backed.observeAck_cases ack with
    ⟨-, heq⟩ | ⟨e, -, heq⟩ | ⟨hle, hlast, hcross, -, heq⟩
  · exact .inl (by rw [heq])
  · exact .inl (by rw [heq])
  · refine .inr ⟨hle, hlast, hcross, by rw [heq]; rfl, ?_, ?_⟩
    · rw [heq]
      simp only [retired, ackStatements, Disk.applyAll_append, Db.applyAll_delete]
      rfl
    · rw [heq]
      exact h.backed.retired hlast

theorem Accounted.observeAck : (o.observeAck ack).2.Accounted := by
  rcases h.observeAck_cases ack with heq | ⟨-, -, -, hstate, hgaps, hbacked⟩
  · rwa [heq]
  have hgone : ∀ {q : Nat}, q ∉ o.state.records →
      q ∉ (o.state.retireThrough ack).records := by
    intro q hnot hmem
    obtain ⟨r, hr⟩ := mem_table.mp hmem
    exact hnot (mem_table.mpr ⟨r, retireThrough_sub hr⟩)
  refine ⟨hbacked, by rw [hstate]; exact h.no_accepted, ?_, fun hid => ?_, fun hkey => ?_⟩
  · rw [hstate]
    exact o.state.retireThrough_no_losses ack h.no_losses
  · rw [hstate] at hid ⊢
    obtain ⟨q, hname, hcovers, hle, hnot⟩ := h.pending hid
    exact ⟨q, hname, hcovers, hle, hgone hnot⟩
  · rw [hgaps] at hkey
    rw [hstate]
    obtain ⟨q, hname, hle, hnot⟩ := h.written hkey
    exact ⟨q, hname, hle, hgone hnot⟩

/-- The tables always open again: on the same cursors and records, and
with no gap. -/
theorem Accounted.restart :
    ∃ rebuilt, fromStore ⟨o.store.db, []⟩ maxRecords = .ok rebuilt ∧ rebuilt.Accounted
      ∧ rebuilt.state.committedThrough = o.state.committedThrough
      ∧ rebuilt.state.lastAllocated = o.state.lastAllocated
      ∧ rebuilt.state.records = o.state.records ∧ rebuilt.state.pendingGaps = ∅ := by
  obtain ⟨ids, warned, hopen, -, hbacked⟩ := h.backed.reopen maxRecords
  refine ⟨_, hopen, ⟨hbacked, rfl, rfl, fun hid => ?_, h.written⟩, rfl, rfl, rfl, rfl⟩
  simp [rebuiltState, fromCommittedThrough, UplinkState.new] at hid

theorem Accounted.live_restart :
    (o.live (.restart maxRecords)).Accounted
      ∧ (o.live (.restart maxRecords)).state.committedThrough = o.state.committedThrough
      ∧ (o.live (.restart maxRecords)).state.lastAllocated = o.state.lastAllocated
      ∧ (o.live (.restart maxRecords)).state.records = o.state.records
      ∧ (o.live (.restart maxRecords)).state.pendingGaps = ∅ := by
  obtain ⟨rebuilt, hopen, hrest⟩ := h.restart maxRecords
  simp only [live, hopen]
  exact hrest

theorem Accounted.live : ∀ call, (o.live call).Accounted
  | .append envelopeId kind payload retention => h.append envelopeId kind payload retention
  | .observeAck ack => h.observeAck ack
  | .restart maxRecords => (h.live_restart maxRecords).1

end

theorem accounted_openFresh : (openFresh maxRecords).Accounted :=
  ⟨(inStep_openFresh maxRecords).backed, rfl, rfl,
    fun h => by simp [openFresh, UplinkState.new] at h,
    fun h => by simp [openFresh, Db.fresh] at h⟩

theorem accounted_run : (runFrom DurableOutbox.live (openFresh maxRecords) calls).Accounted :=
  runFrom_invariant (fun _ call h => h.live call) calls (accounted_openFresh maxRecords)

/-! ## Holes -/

def Hole (o : DurableOutbox) : Prop :=
  ∃ q, o.state.committedThrough < q ∧ q ≤ o.state.lastAllocated ∧ q ∉ o.state.records

/-- Everything above the cursor is retained, and no gap is pending. -/
structure Full (o : DurableOutbox) : Prop where
  retained : ∀ {q : Nat}, o.state.committedThrough < q → q ≤ o.state.lastAllocated →
    q ∈ o.state.records
  no_gaps : o.state.pendingGaps = ∅

section
variable (h : o.Accounted) {call : LifeCall}
include h

/-- A hole outlives every call: nothing that is appended fills it, no
acknowledgement crosses it, and a restart keeps cursors and records. -/
theorem Hole.live (hhole : o.Hole) : ∀ call, (o.live call).Hole := by
  obtain ⟨q, hq, hle, hnot⟩ := hhole
  intro call
  cases call with
  | append envelopeId kind payload retention =>
    have hstill : q ∉ (o.state.appendedAs envelopeId payload retention).records := by
      rw [mem_appendedAs]
      rintro (rfl | hmem)
      · omega
      · exact hnot hmem
    rcases h.append_cases envelopeId kind payload retention with
      ⟨-, halt, heq⟩ | ⟨-, -, warned, heq⟩ | ⟨-, -, e, heq⟩
    · rw [DurableOutbox.live, heq]
      exact ⟨q, hq, hle, hnot⟩
    · rw [DurableOutbox.live, heq]
      exact ⟨q, hq, le_succ_of_le hle, hstill⟩
    · rw [DurableOutbox.live, heq]
      exact ⟨q, hq, le_succ_of_le hle, e.not_mem (.inr hstill)⟩
  | observeAck ack =>
    rcases h.observeAck_cases ack with heq | ⟨-, -, hcross, hstate, -, -⟩
    · rw [DurableOutbox.live, heq]
      exact ⟨q, hq, hle, hnot⟩
    · have habove : ack.committedThrough < q := by
        by_contra hbelow
        exact hnot (h.crossed hcross hq (by omega))
      rw [DurableOutbox.live, Hole, hstate]
      refine ⟨q, habove, hle, not_mem_table.mpr ?_⟩
      rw [retireThrough_records, not_mem_table.mp hnot, ite_self]
  | restart maxRecords =>
    obtain ⟨-, hc, hl, hr, -⟩ := h.live_restart maxRecords
    rw [Hole, hc, hl, hr]
    exact ⟨q, hq, hle, hnot⟩

theorem Accounted.hole_of_evicting (hevicts : ¬o.Roomy call) : (o.live call).Hole := by
  cases call with
  | append envelopeId kind payload retention =>
    rcases h.append_cases envelopeId kind payload retention with
      ⟨hrefused, -⟩ | ⟨-, hroom, -⟩ | ⟨htakes, -, e, heq⟩
    · exact absurd (fun htakes => absurd htakes hrefused) hevicts
    · exact absurd (fun _ => hroom) hevicts
    · have hstored := h.stored htakes kind payload retention o.overflowWarnedAt
      obtain ⟨hlow, hhigh⟩ := hstored.backed.window (e.mem hstored)
      rw [DurableOutbox.live, heq]
      exact ⟨e.sequence, hlow, hhigh, e.not_mem (.inl rfl)⟩
  | observeAck | restart => exact absurd trivial hevicts

theorem Full.live (hfull : o.Full) (hroomy : o.Roomy call) : (o.live call).Full := by
  cases call with
  | append envelopeId kind payload retention =>
    rcases h.append_cases envelopeId kind payload retention with
      ⟨-, halt, heq⟩ | ⟨-, -, warned, heq⟩ | ⟨htakes, hno, -⟩
    · rwa [DurableOutbox.live, heq]
    · rw [DurableOutbox.live, heq]
      refine ⟨fun {q} hq hle => mem_appendedAs.mpr ?_, hfull.no_gaps⟩
      rcases lt_or_eq_of_le hle with hlt | rfl
      · exact .inr (hfull.retained hq (le_of_lt_succ hlt))
      · exact .inl rfl
    · exact absurd (hroomy htakes) hno
  | observeAck ack =>
    rcases h.observeAck_cases ack with heq | ⟨hle, -, -, hstate, -, -⟩
    · rwa [DurableOutbox.live, heq]
    · refine ⟨fun {q} hq hlast => ?_, ?_⟩
      · rw [DurableOutbox.live, hstate] at hq hlast ⊢
        have habove : ack.committedThrough < q := hq
        obtain ⟨r, hr⟩ := mem_table.mp (hfull.retained (by omega) hlast)
        refine mem_table.mpr ⟨r, ?_⟩
        rw [retireThrough_records, if_neg (by omega), hr]
      · rw [DurableOutbox.live, hstate]
        exact hfull.no_gaps
  | restart maxRecords =>
    obtain ⟨-, hc, hl, hr, hgaps⟩ := h.live_restart maxRecords
    refine ⟨fun {q} hq hle => ?_, hgaps⟩
    rw [hc] at hq
    rw [hl] at hle
    rw [hr]
    exact hfull.retained hq hle

end

/-- Over a run: full as long as nothing was evicted, a hole ever after. -/
theorem full_or_hole :
    (Along DurableOutbox.live Roomy (openFresh maxRecords) calls →
        (runFrom DurableOutbox.live (openFresh maxRecords) calls).Full)
      ∧ (¬Along DurableOutbox.live Roomy (openFresh maxRecords) calls →
        (runFrom DurableOutbox.live (openFresh maxRecords) calls).Hole) := by
  refine runFrom_history (I := fun calls (o : DurableOutbox) =>
    (Along DurableOutbox.live Roomy (openFresh maxRecords) calls → o.Full)
      ∧ (¬Along DurableOutbox.live Roomy (openFresh maxRecords) calls → o.Hole))
    ⟨fun _ => ?_, fun hnot => absurd trivial hnot⟩ (fun calls call ih => ?_) calls
  · refine ⟨fun {q} hq hle => ?_, rfl⟩
    simp only [openFresh, UplinkState.new] at hq hle
    omega
  · have h := accounted_run maxRecords calls
    rw [Along.snoc]
    refine ⟨fun halong => Full.live h (ih.1 halong.1) halong.2, fun hnot => ?_⟩
    by_cases hbefore : Along DurableOutbox.live Roomy (openFresh maxRecords) calls
    · exact h.hole_of_evicting fun hroomy => hnot ⟨hbefore, hroomy⟩
    · exact Hole.live h (ih.2 hbefore) call

end DurableOutbox

/-! ## Restarting -/

namespace UplinkState

def acceptAll (state : UplinkState) : List GapId → Except UplinkError UplinkState
  | [] => .ok state
  | gapId :: rest =>
    match state.acceptGap gapId with
    | (.error e, _) => .error e
    | (.ok _, next) => next.acceptAll rest

/-- Accepting these gaps and then acknowledging everything goes through. -/
def Settles (state : UplinkState) (gapIds : List GapId) : Prop :=
  ∃ next, state.acceptAll gapIds = .ok next
    ∧ (next.observeAck (.plain next.lastAllocated)).1.isOk

theorem Settles.eq_nil {gapIds : List GapId} (h : state.Settles gapIds)
    (hpending : state.pendingGaps = ∅) (haccepted : state.acceptedGaps = ∅) : gapIds = [] := by
  cases gapIds with
  | nil => rfl
  | cons gapId rest =>
    obtain ⟨next, hall, -⟩ := h
    rcases state.acceptGap_cases gapId with ⟨-, heq⟩ | ⟨hin, -⟩ | ⟨gap, _, _, _, _, hgap, -⟩
    · rw [acceptAll, heq] at hall
      cases hall
    · rw [haccepted] at hin
      simp at hin
    · rw [hpending] at hgap
      simp at hgap

end UplinkState

namespace DurableOutbox

/-- The rebuilt outbox accounts for every sequence above its cursor, knows
the gaps of the old one, and can be settled whenever the old one could. -/
structure Survives (o rebuilt : DurableOutbox) : Prop where
  resolved : ∀ {q : Nat}, rebuilt.committedThrough < q → q ≤ rebuilt.lastAllocated →
    ∃ place, rebuilt.state.Holds q place
  gaps : rebuilt.pendingGapIds = o.pendingGapIds
  settles : ∀ gapIds, o.state.Settles gapIds → rebuilt.state.Settles gapIds

variable {o : DurableOutbox}

/-- Rebuilding is harmless without a hole, and never with one. -/
theorem Accounted.survives (h : o.Accounted) (hfull : o.Full) (maxRecords : Nat) :
    ∃ rebuilt, fromStore ⟨o.store.db, []⟩ maxRecords = .ok rebuilt ∧ o.Survives rebuilt := by
  obtain ⟨rebuilt, hopen, -, hc, hl, hr, hgaps⟩ := h.restart maxRecords
  have hretained : ∀ {q : Nat}, rebuilt.state.committedThrough < q →
      q ≤ rebuilt.state.lastAllocated → q ∈ rebuilt.state.records := by
    intro q hq hle
    rw [hr]
    exact hfull.retained (hc ▸ hq) (hl ▸ hle)
  refine ⟨rebuilt, hopen, fun hq hle => ⟨.retained, hretained hq hle⟩, ?_,
    fun gapIds hsettles => ?_⟩
  · rw [pendingGapIds, pendingGapIds, hgaps, hfull.no_gaps]
  · rw [hsettles.eq_nil hfull.no_gaps h.no_accepted]
    refine ⟨rebuilt.state, rfl, (rebuilt.state.observeAck_isOk _).mpr (.inr ?_)⟩
    exact ⟨Nat.le_refl _, rfl, fun q hq hle => .inl (hretained hq hle)⟩

theorem Accounted.not_survives (h : o.Accounted) (hhole : o.Hole)
    {maxRecords : Nat} {rebuilt : DurableOutbox}
    (hopen : fromStore ⟨o.store.db, []⟩ maxRecords = .ok rebuilt) : ¬o.Survives rebuilt := by
  obtain ⟨again, hagain, haccounted, hc, hl, hr, hgaps⟩ := h.restart maxRecords
  obtain rfl : again = rebuilt := Except.ok.inj (hagain.symm.trans hopen)
  obtain ⟨q, hq, hle, hnot⟩ := hhole
  intro hsurvives
  have hq' : again.state.committedThrough < q := by rwa [hc]
  have hle' : q ≤ again.state.lastAllocated := by rwa [hl]
  obtain ⟨place, hplace⟩ := hsurvives.resolved hq' hle'
  cases place with
  | retained => exact hnot (hr ▸ hplace)
  | pending gapId =>
    obtain ⟨gap, hgap, -⟩ := hplace
    rw [hgaps] at hgap
    simp at hgap
  | acceptedLoss =>
    have hloss : q ∈ again.state.acceptedLossSequences := hplace
    rw [haccounted.no_losses] at hloss
    simp at hloss

/-- Wherever the outbox is dropped and rebuilt, what was evicted survives
exactly if nothing was: every append, in this life and the earlier ones,
stayed within the limit or left nothing to evict. -/
theorem eviction_survives_restart_iff (maxRecords : Nat) (calls : List LifeCall) (reopened : Nat) :
    (∃ rebuilt, fromStore
        ⟨(runFrom DurableOutbox.live (openFresh maxRecords) calls).store.db, []⟩ reopened
          = .ok rebuilt
      ∧ (runFrom DurableOutbox.live (openFresh maxRecords) calls).Survives rebuilt)
    ↔ Along DurableOutbox.live Roomy (openFresh maxRecords) calls := by
  have h := accounted_run maxRecords calls
  obtain ⟨hfull, hhole⟩ := full_or_hole maxRecords calls
  constructor
  · rintro ⟨rebuilt, hopen, hsurvives⟩
    by_contra hevicted
    exact h.not_survives (hhole hevicted) hopen hsurvives
  · intro halong
    exact h.survives (hfull halong) reopened

def twoEvictable : List LifeCall :=
  [.append (NonBlank.mk "old" rfl) "device_state" [1] .evictable,
   .append (NonBlank.mk "new" rfl) "device_state" [2] .evictable]

/-- Before the restart the gap of sequence 1 is pending and can be accepted;
after it there is no gap, and no acknowledgement crosses sequence 1. -/
theorem evicted_forgotten :
    (runFrom DurableOutbox.live (openFresh 1) twoEvictable).pendingGapIds = ["capacity-1"]
      ∧ (runFrom DurableOutbox.live (openFresh 1) twoEvictable).state.Settles
        [NonBlank.mk "capacity-1" rfl]
      ∧ (runFrom DurableOutbox.live (openFresh 1) (twoEvictable ++ [.restart 1])).pendingGapIds = []
      ∧ ((runFrom DurableOutbox.live (openFresh 1)
            (twoEvictable ++ [.restart 1])).state.acceptGap (NonBlank.mk "capacity-1" rfl)).1
        = .error (.unknownGapId (NonBlank.mk "capacity-1" rfl))
      ∧ ((runFrom DurableOutbox.live (openFresh 1)
            (twoEvictable ++ [.restart 1])).observeAck (.plain 2)).1
        = .error (.failed (.uplink (.ackCrossesUnresolvedSequence 1)))
      ∧ ¬∃ rebuilt, fromStore
          ⟨(runFrom DurableOutbox.live (openFresh 1) twoEvictable).store.db, []⟩ 1 = .ok rebuilt
        ∧ (runFrom DurableOutbox.live (openFresh 1) twoEvictable).Survives rebuilt := by
  refine ⟨by decide, ⟨_, rfl, by decide⟩, by decide, by decide, by decide, ?_⟩
  rintro ⟨rebuilt, hopen, hsurvives⟩
  have hhole : (runFrom DurableOutbox.live (openFresh 1) twoEvictable).Hole :=
    ⟨1, by decide, by decide, by decide⟩
  exact (accounted_run 1 twoEvictable).not_survives hhole hopen hsurvives

end DurableOutbox

end VodogeEdge
