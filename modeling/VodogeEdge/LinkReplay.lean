import VodogeEdge.LinkWorker
import VodogeEdge.OutboxMirror

/-!
# What one replay hands to the connection

`Outbox.Windowed good` are the assumptions about the outbox the worker's
protocol results share: on good outboxes the retained sequences are
exactly the window between the two cursors, and an acknowledgement keeps
it so. The durable outbox meets them as long as memory and tables are in
step (`durable_windowed`).
-/

namespace VodogeEdge

open List Nat Outbox

/-! ## The window -/

variable {record : RetainedRecord} {q : Nat}

namespace Outbox

variable {O : Type} [Outbox O]

def records (o : O) : List RetainedRecord :=
  match Outbox.retained o with
  | .ok records => records
  | .error _ => []

def sorted (o : O) : List RetainedRecord :=
  (records o).insertionSort (fun a b => a.sequence ≤ b.sequence)

theorem mem_sorted {o : O} : record ∈ sorted o ↔ record ∈ records o :=
  mem_insertionSort _

/-- On good outboxes the retained sequences are the window between the
cursors, and acknowledgements keep it so. -/
structure Windowed (good : O → Prop) : Prop where
  cursors : ∀ {o : O}, good o → committedThrough o ≤ lastAllocated o
  listed : ∀ {o : O}, good o → retained o = .ok (records o)
  window : ∀ {o : O}, good o →
    ((records o).map (·.sequence)).Perm (upto (committedThrough o + 1) (lastAllocated o))
  acked : ∀ {o o' : O} {ack : UplinkAck} {retired : List Nat}, good o →
    observeAck o ack = (.ok retired, o') →
      good o' ∧ lastAllocated o' = lastAllocated o
        ∧ committedThrough o' = max (committedThrough o) ack.committedThrough
        ∧ ∀ record ∈ records o', record ∈ records o
  refused : ∀ {o o' : O} {ack : UplinkAck} {halt : Halt String}, good o →
    observeAck o ack = (.error halt, o') → o' = o

/-- Records appended by somebody else: new sequences at the end. -/
structure Growth (good : O → Prop) where
  apply : O → O
  good_apply : ∀ {o : O}, good o → good (apply o)
  committedThrough_apply : ∀ {o : O}, good o → committedThrough (apply o) = committedThrough o
  lastAllocated_apply : ∀ {o : O}, good o → lastAllocated o ≤ lastAllocated (apply o)
  kept : ∀ {o : O} {record : RetainedRecord}, good o → record ∈ records (apply o) →
    record.sequence ≤ lastAllocated o → record ∈ records o

section
variable {good : O → Prop} (hw : Windowed good) {o : O}
include hw

theorem Windowed.sequences (ho : good o) :
    (sorted o).map (·.sequence) = upto (committedThrough o + 1) (lastAllocated o) := by
  have hsorted : ((sorted o).map (·.sequence)).Pairwise (· ≤ ·) := by
    rw [pairwise_map]
    exact pairwise_insertionSort _ (records o)
  have hperm : ((sorted o).map (·.sequence)).Perm
      (upto (committedThrough o + 1) (lastAllocated o)) :=
    ((perm_insertionSort _ _).map _).trans (hw.window ho)
  exact hperm.eq_of_pairwise (fun a b _ _ => le_antisymm) hsorted (pairwise_le_range')

theorem Windowed.sequences_above (ho : good o) {through : Nat}
    (hthrough : committedThrough o ≤ through) (n : Nat) :
    (((sorted o).filter (through < ·.sequence)).take n).map (·.sequence)
      = range' (through + 1) (min n (lastAllocated o - through)) := by
  have hfilter : ((sorted o).filter (through < ·.sequence)).map (·.sequence)
      = ((sorted o).map (·.sequence)).filter (through < ·) := by
    rw [filter_map]
    rfl
  rw [map_take, hfilter, hw.sequences ho, filter_lt_upto (by omega), take_upto,
    show lastAllocated o + 1 - (through + 1) = lastAllocated o - through by omega]

theorem Windowed.sequence_window (ho : good o) (hr : record ∈ records o) :
    committedThrough o < record.sequence ∧ record.sequence ≤ lastAllocated o := by
  have hmem := (hw.window ho).mem_iff.mp (mem_map_of_mem hr)
  have := mem_upto.mp hmem
  omega

theorem Windowed.exists_record (ho : good o) (h1 : committedThrough o < q)
    (h2 : q ≤ lastAllocated o) : ∃ record ∈ records o, record.sequence = q := by
  have hmem : q ∈ (records o).map (·.sequence) := (hw.window ho).mem_iff.mpr (mem_upto.mpr ⟨h1, h2⟩)
  obtain ⟨record, hr, hq⟩ := mem_map.mp hmem
  exact ⟨record, hr, hq⟩

end

end Outbox

/-! ## The sending loop -/

/-- The envelope is that record's: same identity, kind, bytes and
sequence. -/
structure Envelope.Carries {J : Type} (wire : Wire J) (envelope : Envelope J)
    (record : RetainedRecord) : Prop where
  seq : envelope.seq = some record.sequence
  id : envelope.id = record.envelopeId
  kind : MessageKind.ofStr? record.kind = some envelope.kind
  payload : wire.parse record.payload = .ok envelope.payload

/-- The kind or the payload of the record no longer reads. -/
def RetainedRecord.Unsendable {J : Type} (wire : Wire J) (record : RetainedRecord) : Prop :=
  MessageKind.ofStr? record.kind = none ∨ ∃ reason, wire.parse record.payload = .error reason

namespace Conn

variable {J : Type} (conn : Conn J)

def Refuses (conn : Conn J) : Prop := ∃ error rest, conn.answers = some error :: rest

theorem sendEnvelope_cases (envelope : Envelope J) :
    (conn.Refuses ∧ ∃ error, (conn.sendEnvelope envelope).1 = .error error
        ∧ (conn.sendEnvelope envelope).2.sent = conn.sent)
      ∨ (¬conn.Refuses ∧ (conn.sendEnvelope envelope).1 = .ok ()
        ∧ (conn.sendEnvelope envelope).2.sent = conn.sent ++ [envelope]) := by
  unfold sendEnvelope
  split
  next error rest hanswers => exact .inl ⟨⟨error, rest, hanswers⟩, _, rfl, rfl⟩
  next haccepts =>
    refine .inr ⟨?_, rfl, rfl⟩
    rintro ⟨error, rest, hanswers⟩
    exact haccepts error rest hanswers

theorem setReadTimeout_sent (timeout : Option Nat) :
    (conn.setReadTimeout timeout).2.sent = conn.sent := by
  unfold setReadTimeout
  split <;> rfl

end Conn

namespace UplinkWorker

variable {J : Type} {wire : Wire J} {O : Type}

variable {self : UplinkWorker O} {conn : Conn J} {envelopes : List (Envelope J)} {through : Nat}
  {result : UplinkWorker O × Conn J}

theorem sequencedEnvelope_cases (wire : Wire J) (self : UplinkWorker O) (record : RetainedRecord)
    (now : Nat) :
    (record.Unsendable wire ∧ ∃ e, self.sequencedEnvelope wire record now = .error e)
      ∨ (¬record.Unsendable wire ∧ ∃ envelope,
        self.sequencedEnvelope wire record now = .ok envelope ∧ envelope.Carries wire record) := by
  unfold sequencedEnvelope parseKind RetainedRecord.Unsendable
  cases hkind : MessageKind.ofStr? record.kind with
  | none => exact .inl ⟨.inl rfl, _, rfl⟩
  | some kind =>
    cases hparse : wire.parse record.payload with
    | error reason => exact .inl ⟨.inr ⟨reason, rfl⟩, _, rfl⟩
    | ok payload => exact .inr ⟨by simp, _, rfl, rfl, rfl, hkind, hparse⟩

/-- The records a loop from `through` on does not skip. -/
def climb (through : Nat) : List RetainedRecord → List RetainedRecord
  | [] => []
  | record :: records =>
    if record.sequence ≤ through then climb through records
    else record :: climb record.sequence records

theorem head?_climb (through : Nat) : ∀ records,
    (climb through records).head? = records.find? (through < ·.sequence)
  | [] => rfl
  | record :: records => by
    unfold climb
    split
    next hold => rw [find?_cons_of_neg (by simpa using hold), head?_climb]
    next hnew => rw [find?_cons_of_pos (by simpa using hnew), head?_cons]

theorem climb_of_pairwise : ∀ {records : List RetainedRecord} through,
    records.Pairwise (fun a b => a.sequence < b.sequence) →
    climb through records = records.filter (through < ·.sequence)
  | [], _, _ => rfl
  | record :: records, through, hsorted => by
    obtain ⟨hhead, htail⟩ := pairwise_cons.mp hsorted
    unfold climb
    split
    next hold => rw [filter_cons_of_neg (by simpa using hold), climb_of_pairwise through htail]
    next hnew =>
      rw [filter_cons_of_pos (by simpa using hnew), climb_of_pairwise record.sequence htail,
        filter_eq_self.mpr fun r hr => decide_eq_true (hhead r hr),
        filter_eq_self.mpr fun r hr => decide_eq_true (lt_trans (not_le.mp hnew) (hhead r hr))]

/-- The last sequence of the records handed over, `through` if none was. -/
def handedThrough (through : Nat) (handed : List RetainedRecord) : Nat :=
  handed.foldl (fun _ record => record.sequence) through

/-- What `replayRecords` leaves behind after handing over `handed`. -/
structure Handed (wire : Wire J) (sender : UplinkWorker O) (conn : Conn J)
    (handed : List RetainedRecord) (result : UplinkWorker O × Conn J) : Prop where
  worker : result.1
    = { sender with replayThrough := handedThrough sender.replayThrough handed }
  sent : ∃ envelopes, result.2.sent = conn.sent ++ envelopes
    ∧ List.Forall₂ (Envelope.Carries wire) envelopes handed

theorem Handed.none {conn' : Conn J} (h : conn'.sent = conn.sent) :
    Handed wire self conn [] (self, conn') :=
  ⟨rfl, [], by simpa using h, .nil⟩

/-- The loop hands over a prefix of the records above the cursor, within the
budget: all if it returned, nothing only if the first cannot be sent. -/
theorem replayRecords_spec (wire : Wire J) (now : Nat) : ∀ records
    (self : UplinkWorker O) conn budget,
    ∃ n, n ≤ budget
      ∧ Handed wire self conn ((climb self.replayThrough records).take n)
          (replayRecords wire now self conn budget records).2
      ∧ ((replayRecords wire now self conn budget records).1 = .ok () → n = budget)
      ∧ ((climb self.replayThrough records).take n = []
        ↔ ∀ record, (climb self.replayThrough records).head? = some record →
          budget = 0 ∨ record.Unsendable wire ∨ conn.Refuses)
  | [], self, conn, budget =>
    ⟨budget, le_refl _, by rw [climb, take_nil]; exact Handed.none rfl, fun _ => rfl,
      by simp [climb]⟩
  | record :: records, self, conn, budget => by
    unfold replayRecords climb
    split
    · -- already handed over: skipped
      exact replayRecords_spec wire now records self conn budget
    simp only [head?_cons, Option.some.injEq, forall_eq']
    split
    next hzero =>
      exact ⟨0, zero_le _, Handed.none rfl, fun _ => hzero.symm, iff_of_true rfl (.inl hzero)⟩
    rename_i hbudget
    rcases sequencedEnvelope_cases wire self record now
      with ⟨hunsendable, e, henv⟩ | ⟨hsendable, envelope, henv, hcarries⟩
    · rw [henv]
      exact ⟨0, zero_le _, Handed.none rfl, (by cases ·), iff_of_true rfl (.inr (.inl hunsendable))⟩
    rw [henv]
    dsimp only
    rcases conn.sendEnvelope_cases envelope
      with ⟨hrefuses, error, herr, hsent⟩ | ⟨haccepts, hok, hsent⟩
    · generalize conn.sendEnvelope envelope = r at herr hsent ⊢
      obtain ⟨result, conn'⟩ := r
      obtain rfl : result = .error error := herr
      exact ⟨0, zero_le _, Handed.none hsent, (by cases ·), iff_of_true rfl (.inr (.inr hrefuses))⟩
    · generalize conn.sendEnvelope envelope = r at hok hsent ⊢
      obtain ⟨result, conn'⟩ := r
      obtain rfl : result = .ok () := hok
      obtain ⟨n, hn, ⟨hworker, envelopes, hmore, hcarry⟩, hfull, -⟩ :=
        replayRecords_spec wire now records
          { self with replayThrough := record.sequence } conn' (budget - 1)
      refine ⟨n + 1, by omega, ⟨hworker, envelope :: envelopes, ?_, .cons hcarries hcarry⟩,
        fun h => ?_, iff_of_false (by simp) (by simp [hbudget, hsendable, haccepts])⟩
      · rw [hmore]
        show conn'.sent ++ envelopes = _
        rw [hsent, append_assoc]
        rfl
      · have := hfull h
        omega

/-! ## One replay over a window -/

variable [Outbox O] {good : O → Prop}

theorem handedThrough_upto : ∀ {handed : List RetainedRecord} {through n : Nat},
    handed.map (·.sequence) = (range' (through + 1) n) →
      handedThrough through handed = through + n
  | [], through, n, h => by
    have hn : n = 0 := by simpa using (congrArg List.length h).symm
    simp [handedThrough, hn]
  | record :: handed, through, n, h => by
    cases n with
    | zero => simp at h
    | succ n =>
      rw [range'_succ, map_cons, List.cons.injEq] at h
      have hrest := handedThrough_upto h.2
      rw [handedThrough, foldl_cons, h.1]
      show handedThrough (through + 1) handed = _
      omega

variable {n : Nat} {handed : List RetainedRecord}

theorem exists_carried (h : List.Forall₂ (Envelope.Carries wire) envelopes handed)
    {envelope : Envelope J} (he : envelope ∈ envelopes) :
    ∃ record ∈ handed, envelope.Carries wire record := by
  induction h with
  | nil => cases he
  | cons hhead _ ih =>
    rcases mem_cons.mp he with rfl | he
    · exact ⟨_, mem_cons_self, hhead⟩
    · obtain ⟨record, hmem, hcarry⟩ := ih he
      exact ⟨record, mem_cons_of_mem _ hmem, hcarry⟩

theorem seqs_of_carries (h : List.Forall₂ (Envelope.Carries wire) envelopes handed) :
    envelopes.map (·.seq) = (handed.map (·.sequence)).map some := by
  induction h with
  | nil => rfl
  | cons hhead _ ih => rw [map_cons, map_cons, map_cons, ih, hhead.seq]

/-- The envelopes of `(through, through + n]` were handed over, in order. -/
structure Sends (wire : Wire J) (sender : UplinkWorker O) (conn : Conn J) (through n : Nat)
    (envelopes : List (Envelope J)) (result : UplinkWorker O × Conn J) : Prop where
  worker : result.1 = { sender with replayThrough := through + n }
  sent : result.2.sent = conn.sent ++ envelopes
  seqs : envelopes.map (·.seq) = (List.range' (through + 1) n).map some
  carried : ∀ envelope ∈ envelopes, ∃ record ∈ Outbox.records sender.outbox,
    envelope.Carries wire record

theorem Handed.sends (hw : Outbox.Windowed good) (ho : good self.outbox)
    (hthrough : committedThrough self.outbox ≤ through)
    (h : Handed wire { self with replayThrough := through } conn
      (((sorted self.outbox).filter (through < ·.sequence)).take n) result) :
    ∃ envelopes, Sends wire self conn through (min n (lastAllocated self.outbox - through))
      envelopes result := by
  obtain ⟨hworker, envelopes, hsent, hcarry⟩ := h
  -- the sequences handed over are an interval, so the last one is their number
  have hseq := hw.sequences_above ho hthrough n
  refine ⟨envelopes, by rw [hworker, handedThrough_upto hseq], hsent, ?_, fun envelope he => ?_⟩
  · rw [seqs_of_carries hcarry, hseq]
  · obtain ⟨record, hr, hc⟩ := exists_carried hcarry he
    exact ⟨record, mem_sorted.mp (mem_filter.mp (mem_of_mem_take hr)).1, hc⟩

theorem Sends.mem_seqs (h : Sends wire self conn through n envelopes result) :
    (∃ envelope ∈ envelopes, envelope.seq = some q) ↔ through < q ∧ q ≤ through + n := by
  have hmem : (some q ∈ envelopes.map (·.seq)) ↔ q ∈ range' (through + 1) n := by
    rw [h.seqs, mem_map_of_injective (Option.some_injective Nat)]
  rw [mem_map] at hmem
  rw [hmem, mem_range'_1]
  omega

/-- The records of `(through, through + n]` were handed over, and nothing
else. -/
structure Replayed (wire : Wire J) (sender : UplinkWorker O) (conn : Conn J) (through n : Nat)
    (result : UplinkWorker O × Conn J) : Prop where
  worker : result.1 = { sender with replayThrough := through + n }
  carried : ∀ record ∈ Outbox.records sender.outbox, through < record.sequence →
    record.sequence ≤ through + n → ∃ envelope ∈ result.2.sent, envelope.Carries wire record
  only : ∀ envelope ∈ result.2.sent, envelope ∈ conn.sent
    ∨ ∃ record ∈ Outbox.records sender.outbox, through < record.sequence
      ∧ record.sequence ≤ through + n ∧ envelope.Carries wire record
  kept : ∀ envelope ∈ conn.sent, envelope ∈ result.2.sent

theorem Sends.replayed (hw : Outbox.Windowed good) (ho : good self.outbox)
    (h : Sends wire self conn through n envelopes result) :
    Replayed wire self conn through n result := by
  refine ⟨h.worker, fun record hr h1 h2 => ?_, fun envelope he => ?_, fun envelope he => ?_⟩
  · obtain ⟨envelope, he, hseq⟩ := h.mem_seqs.mpr ⟨h1, h2⟩
    obtain ⟨record', hr', hc⟩ := h.carried envelope he
    have hnodup : ((records self.outbox).map (·.sequence)).Nodup :=
      (hw.window ho).nodup_iff.mpr (nodup_upto _ _)
    obtain rfl : record' = record := inj_on_of_nodup_map hnodup hr' hr
      (Option.some.inj (hc.seq.symm.trans hseq))
    exact ⟨envelope, by rw [h.sent]; exact mem_append_right _ he, hc⟩
  · rw [h.sent, mem_append] at he
    rcases he with he | he
    · exact .inl he
    · obtain ⟨record, hr, hc⟩ := h.carried envelope he
      obtain ⟨h1, h2⟩ := h.mem_seqs.mp ⟨envelope, he, hc.seq⟩
      exact .inr ⟨record, hr, h1, h2, hc⟩
  · rw [h.sent]
    exact mem_append_left _ he

/-- A replay is the loop over the sorted records, from the higher of the
two cursors on; an outbox that cannot list them ends it. -/
theorem replay_cases (wire : Wire J) (self : UplinkWorker O) (conn : Conn J) (now : Nat)
    (hthrough : through = max self.replayThrough (committedThrough self.outbox)) :
    (∃ reason, retained self.outbox = .error reason ∧ self.replay wire conn now
        = (.error (.outbox reason), { self with replayThrough := through }, conn))
      ∨ self.replay wire conn now
        = replayRecords wire now { self with replayThrough := through } conn
          (replayWindow - (through - committedThrough self.outbox))
          (sorted self.outbox) := by
  have hbump : (if self.replayThrough < committedThrough self.outbox then
      { self with replayThrough := committedThrough self.outbox } else self)
      = { self with replayThrough := through } := by
    rw [hthrough]
    split
    · rw [max_eq_right (by omega)]
    · rw [max_eq_left (by omega)]
  unfold replay
  dsimp only
  rw [hbump, sorted, records]
  cases retained self.outbox with
  | error reason => exact .inl ⟨reason, rfl, rfl⟩
  | ok records => exact .inr rfl

/-- One replay over a window continues after the higher of the two
cursors, within the room the window has left; if it returned, it used all
of it. -/
theorem replay_sent (hw : Outbox.Windowed good) (wire : Wire J) (self : UplinkWorker O)
    (conn : Conn J) (now : Nat) (ho : good self.outbox) {room : Nat}
    (hthrough : through = max self.replayThrough (committedThrough self.outbox))
    (hroom : room = replayWindow - (through - committedThrough self.outbox)) :
    ∃ n envelopes, n ≤ room ∧ n ≤ lastAllocated self.outbox - through
      ∧ Sends wire self conn through n envelopes (self.replay wire conn now).2
      ∧ ((self.replay wire conn now).1 = .ok () →
          n = min room (lastAllocated self.outbox - through)) := by
  have hreplay : self.replay wire conn now
      = replayRecords wire now { self with replayThrough := through } conn room
          (sorted self.outbox) := by
    rcases replay_cases wire self conn now hthrough with ⟨reason, hfailed, -⟩ | hreplay
    · rw [hw.listed ho] at hfailed
      cases hfailed
    · rw [hreplay, hroom]
  have hsorted : (sorted self.outbox).Pairwise (fun a b => a.sequence < b.sequence) := by
    have hlt : ((sorted self.outbox).map (·.sequence)).Pairwise (· < ·) := by
      rw [hw.sequences ho]
      exact pairwise_lt_range'
    exact pairwise_map.mp hlt
  obtain ⟨n, hn, hhanded, hok, -⟩ := replayRecords_spec wire now (sorted self.outbox)
    { self with replayThrough := through } conn room
  rw [climb_of_pairwise _ hsorted] at hhanded
  obtain ⟨envelopes, hsends⟩ := hhanded.sends hw ho (by omega)
  rw [hreplay]
  refine ⟨_, envelopes, by omega, by omega, hsends, fun h => ?_⟩
  rw [hok h]

end UplinkWorker

/-! ## The durable outbox is windowed -/

namespace DurableOutbox

open Std

variable {o : DurableOutbox}

theorem InStep.mem_retained (h : o.InStep) :
    record ∈ o.retained ↔ record.sequence ∈ o.state.records
      ∧ ∃ cell, o.store.db.outbox[asI64 record.sequence]? = some cell
        ∧ record = ⟨record.sequence, cell.envelopeId, cell.kind, cell.payload⟩ := by
  rw [retained, mem_map]
  constructor
  · rintro ⟨row, hrow, rfl⟩
    obtain ⟨k, cell, hcell, rfl⟩ := Db.mem_loadOutbox.mp hrow
    obtain ⟨q, hq, rfl⟩ := h.rows.only (mem_table.mpr ⟨cell, hcell⟩)
    have hback : asU64 (asI64 q) = q := asU64_asI64 (h.keyed.bounded hq)
    refine ⟨?_, cell, ?_, rfl⟩
    · show asU64 (asI64 q) ∈ o.state.records
      rwa [hback]
    · show o.store.db.outbox[asI64 (asU64 (asI64 q))]? = some cell
      rwa [hback]
  · rintro ⟨hq, cell, hcell, heq⟩
    refine ⟨_, Db.mem_loadOutbox.mpr ⟨_, cell, hcell, rfl⟩, ?_⟩
    have hback : asU64 (asI64 record.sequence) = record.sequence :=
      asU64_asI64 (h.keyed.bounded hq)
    rw [heq]
    simp [hback]

theorem InStep.nodup_retained (h : o.InStep) : (o.retained.map (·.sequence)).Nodup := by
  rw [retained, map_map]
  exact nodup_loadOutbox_seq h.rows h.keyed

theorem InStep.window_retained (h : o.InStep) :
    (o.retained.map (·.sequence)).Perm (upto (o.committedThrough + 1) o.lastAllocated) := by
  refine (perm_ext_iff_of_nodup h.nodup_retained (nodup_upto _ _)).mpr fun q => ?_
  rw [mem_map, mem_upto]
  constructor
  · rintro ⟨record, hr, rfl⟩
    exact h.mem_records.mp (h.mem_retained.mp hr).1
  · intro hq
    have hmem : q ∈ o.state.records := h.mem_records.mpr hq
    obtain ⟨r, hr⟩ := mem_table.mp hmem
    obtain ⟨kind, hcell⟩ := h.rows.stored hr
    exact ⟨⟨q, _, kind, _⟩, h.mem_retained.mpr ⟨hmem, _, hcell, rfl⟩, rfl⟩

theorem InStep.acked {o' : DurableOutbox} (h : o.InStep) {ack : UplinkAck} {retired : List Nat}
    (heq : o.observeAck ack = (.ok retired, o')) :
    o'.lastAllocated = o.lastAllocated
      ∧ o'.committedThrough = max o.committedThrough ack.committedThrough
      ∧ ∀ record ∈ o'.retained, record ∈ o.retained := by
  have hin : o'.InStep := by
    have := h.observeAck ack
    rwa [heq] at this
  rcases h.backed.observeAck_cases ack with
    ⟨hstale, hcase⟩ | ⟨e, -, hcase⟩ | ⟨hle, hlast, -, -, hcase⟩
  · rw [hcase] at heq
    cases heq
    exact ⟨rfl, (Nat.max_eq_left (Nat.le_of_lt hstale)).symm, fun _ hr => hr⟩
  · rw [hcase] at heq
    cases heq
  · rw [hcase] at heq
    cases heq
    refine ⟨rfl, (max_eq_right hle).symm, fun record hr => ?_⟩
    obtain ⟨hq, cell, hcell, hrec⟩ := hin.mem_retained.mp hr
    have hbound := (hin.mem_records.mp hq)
    refine h.mem_retained.mpr ⟨h.mem_records.mpr ⟨?_, hbound.2⟩, cell, ?_, hrec⟩
    · exact Nat.lt_of_le_of_lt hle hbound.1
    · -- a row that is still there after the deletes was there before
      simp only [DurableOutbox.retired, ackStatements, Disk.applyAll_append, Db.applyAll_delete,
        Disk.applyAll_cons, Disk.applyAll_nil, Db.updateCursor] at hcell
      rw [getElem?_foldl_erase] at hcell
      split at hcell
      · cases hcell
      · exact hcell

end DurableOutbox

/-- Memory and tables in step are all the worker's protocol needs. -/
theorem durable_windowed : Outbox.Windowed DurableOutbox.InStep where
  cursors ho := ho.covered.placed.le
  listed _ := rfl
  window ho := ho.window_retained
  acked := by
    intro o o' ack retired ho heq
    have hdurable : o.observeAck ack = (.ok retired, o') := by
      simp only [observeAck] at heq
      split at heq
      · cases heq
      next hok =>
        cases heq
        exact hok
    have hin := ho.observeAck ack
    rw [hdurable] at hin
    obtain ⟨hlast, hcommitted, hkept⟩ := ho.acked hdurable
    exact ⟨hin, hlast, hcommitted, hkept⟩
  refused := by
    intro o o' ack halt ho heq
    rcases ho.backed.observeAck_cases ack with ⟨-, hcase⟩ | ⟨e, -, hcase⟩ | ⟨-, -, -, -, hcase⟩
    · simp only [observeAck, hcase] at heq
      cases heq
    · simp only [observeAck, hcase] at heq
      cases heq
      rfl
    · simp only [observeAck, hcase] at heq
      cases heq

def DurableOutbox.growth (envelopeId : EnvelopeId) (kind : String) (payload : Bytes) :
    Outbox.Growth DurableOutbox.InStep where
  apply o := (o.append envelopeId kind payload .protected_).2
  good_apply ho := ho.append envelopeId kind payload
  committedThrough_apply := by
    intro o ho
    rcases ho.append_cases envelopeId kind payload with ⟨e, -, -, heq⟩ | ⟨-, warned, heq⟩
    · rw [heq]
    · rw [heq]
      rfl
  lastAllocated_apply := by
    intro o ho
    rcases ho.append_cases envelopeId kind payload with ⟨e, -, -, heq⟩ | ⟨-, warned, heq⟩
    · rw [heq]
    · rw [heq]
      exact Nat.le_succ _
  kept := by
    intro o record ho hr hle
    rcases ho.append_cases envelopeId kind payload with ⟨e, -, -, heq⟩ | ⟨htakes, warned, heq⟩
    · rwa [heq] at hr
    · rw [heq] at hr
      have hstored := ho.stored kind payload htakes warned
      obtain ⟨hq, cell, hcell, hrec⟩ := hstored.mem_retained.mp hr
      have hbound := (hstored.mem_records.mp hq).1
      have hle : record.sequence ≤ o.state.lastAllocated := hle
      refine ho.mem_retained.mpr ⟨ho.mem_records.mpr ⟨hbound, hle⟩, cell, ?_, hrec⟩
      have hne : asI64 (o.state.lastAllocated + 1) ≠ asI64 record.sequence := by
        intro hkey
        have := asI64_inj htakes.2 (Nat.le_trans hle ho.bounded) hkey
        omega
      rw [DurableOutbox.stored, DurableOutbox.appendedDbAs, Std.ExtTreeMap.getElem?_insert,
        if_neg (mt Std.compare_eq_iff_eq.mp hne)] at hcell
      exact hcell

end VodogeEdge
