import VodogeEdge.OutboxDurable

/-!
# Rebuilding the outbox from its tables

What `from_store` makes of a database. `rehydrate` checks that every row
lies in the window of the cursor row and that no sequence or envelope
occurs twice; it does not check that the window has no holes. Hence the
two halves below: rows that mirror a table of records inside the window
rebuild exactly that table, and a row outside the window makes the
database unopenable.
-/

namespace VodogeEdge

open Std List

namespace UplinkState

/-! ## `rehydrate` -/

def withRecords (state : UplinkState) (records : List UplinkRecord) : UplinkState :=
  { state with
    envelopeSequences := records.foldl
      (fun m r => m.insert r.envelopeId r.sequence) state.envelopeSequences
    records := records.foldl (fun m r => m.insert r.sequence r) state.records }

theorem foldlM_restoreRecord {c l : Nat} : ∀ (records : List UplinkRecord) state,
    (∀ r ∈ records, c < r.sequence ∧ r.sequence ≤ l) →
    (records.map (·.sequence)).Nodup → (records.map (·.envelopeId)).Nodup →
    (∀ r ∈ records, r.sequence ∉ state.records) →
    (∀ r ∈ records, r.envelopeId ∉ state.envelopeSequences) →
    records.foldlM (restoreRecord c l) state = .ok (state.withRecords records)
  | [], _, _, _, _, _, _ => rfl
  | r :: rest, state, hwin, hseq, hid, hfreeSeq, hfreeId => by
    rw [map_cons, nodup_cons] at hseq hid
    have hr := hwin r mem_cons_self
    have hstep : restoreRecord c l state r = .ok (state.withRecords [r]) := by
      unfold restoreRecord
      rw [if_neg (by omega), if_neg (by
        rw [not_or]
        exact ⟨hfreeSeq r mem_cons_self, hfreeId r mem_cons_self⟩)]
      rfl
    rw [foldlM_cons, hstep]
    show rest.foldlM (restoreRecord c l) (state.withRecords [r]) = _
    rw [foldlM_restoreRecord rest _ (fun x hx => hwin x (mem_cons_of_mem _ hx)) hseq.2 hid.2]
    · rfl
    · intro x hx hmem
      rcases ExtTreeMap.mem_insert.mp hmem with heq | hold
      · exact hseq.1 (Std.compare_eq_iff_eq.mp heq ▸ mem_map_of_mem hx)
      · exact hfreeSeq x (mem_cons_of_mem _ hx) hold
    · intro x hx hmem
      rcases ExtTreeMap.mem_insert.mp hmem with heq | hold
      · exact hid.1 (Std.compare_eq_iff_eq.mp heq ▸ mem_map_of_mem hx)
      · exact hfreeId x (mem_cons_of_mem _ hx) hold

variable {records : List UplinkRecord} {state : UplinkState}

theorem rehydrate_ok {c l : Nat} (hcl : c ≤ l)
    (hwin : ∀ r ∈ records, c < r.sequence ∧ r.sequence ≤ l)
    (hseq : (records.map (·.sequence)).Nodup) (hid : (records.map (·.envelopeId)).Nodup) :
    rehydrate c l records
      = .ok (withRecords { fromCommittedThrough c with lastAllocated := l } records) := by
  unfold rehydrate
  rw [if_neg (by omega)]
  refine foldlM_restoreRecord records _ hwin hseq hid (fun r _ => ?_) (fun r _ => ?_)
  · simp [fromCommittedThrough, new]
  · simp [fromCommittedThrough, new]

theorem restoreRecord_ok {c l : Nat} {next : UplinkState} {record : UplinkRecord}
    (h : restoreRecord c l state record = .ok next) :
    (c < record.sequence ∧ record.sequence ≤ l)
      ∧ next.committedThrough = state.committedThrough
      ∧ next.lastAllocated = state.lastAllocated := by
  unfold restoreRecord at h
  split at h
  · cases h
  · split at h
    · cases h
    · cases h
      exact ⟨by omega, rfl, rfl⟩

theorem foldlM_restoreRecord_ok {c l : Nat} : ∀ {records : List UplinkRecord}
    {state state' : UplinkState}, records.foldlM (restoreRecord c l) state = .ok state' →
      (∀ r ∈ records, c < r.sequence ∧ r.sequence ≤ l)
        ∧ state'.committedThrough = state.committedThrough
        ∧ state'.lastAllocated = state.lastAllocated
  | [], _, _, h => by
    cases h
    exact ⟨by simp, rfl, rfl⟩
  | x :: rest, state, state', h => by
    rw [foldlM_cons] at h
    cases hstep : restoreRecord c l state x with
    | error e =>
      rw [hstep] at h
      cases h
    | ok next =>
      rw [hstep] at h
      obtain ⟨hx, hc, hl⟩ := restoreRecord_ok hstep
      obtain ⟨hrest, hc', hl'⟩ := foldlM_restoreRecord_ok h
      exact ⟨forall_mem_cons.mpr ⟨hx, hrest⟩, hc'.trans hc, hl'.trans hl⟩

/-- One row outside the window is enough to refuse the journal; a rebuilt
one starts with the cursors it was given. -/
theorem rehydrate_eq_ok {c l : Nat} (h : rehydrate c l records = .ok state) :
    (∀ r ∈ records, c < r.sequence ∧ r.sequence ≤ l)
      ∧ state.committedThrough = c ∧ state.lastAllocated = l := by
  unfold rehydrate at h
  split at h
  · cases h
  · exact foldlM_restoreRecord_ok h

end UplinkState

namespace DurableOutbox

/-! ## Rows and records -/

variable {row : OutboxRow} {maxRecords : Nat} {o : DurableOutbox} {db : Db} {store : Store}

theorem restoreRow_ok {record : UplinkRecord} (h : restoreRow row = .ok record) :
    record.sequence = row.seq ∧ record.envelopeId.asStr = row.envelopeId
      ∧ record.payload = row.payload
      ∧ record.retention = if row.isProtected then .protected_ else .evictable := by
  unfold restoreRow EnvelopeId.new NonBlank.check at h
  split at h
  · cases h
  next id hid =>
    split at hid
    · cases hid
    · cases hid
      cases h
      exact ⟨rfl, rfl, rfl, rfl⟩

theorem restoreRows_of_forall : ∀ {rows : List OutboxRow},
    (∀ row ∈ rows, ∃ r, restoreRow row = .ok r) →
    ∃ rs, restoreRows rows = .ok rs ∧ rs.map (·.sequence) = rows.map (·.seq)
      ∧ ∀ r, r ∈ rs ↔ ∃ row ∈ rows, restoreRow row = .ok r
  | [], _ => ⟨[], rfl, rfl, by simp⟩
  | row :: rest, hall => by
    obtain ⟨r, hr⟩ := hall row mem_cons_self
    obtain ⟨rs, hrs, hseq, hmem⟩ :=
      restoreRows_of_forall fun x hx => hall x (mem_cons_of_mem _ hx)
    refine ⟨r :: rs, by simp [restoreRows, hr, hrs], ?_, fun x => ?_⟩
    · rw [map_cons, map_cons, (restoreRow_ok hr).1, hseq]
    · rw [mem_cons, hmem, exists_mem_cons_iff, hr, Except.ok.injEq, eq_comm]

theorem restoreRows_mem : ∀ {rows : List OutboxRow} {rs : List UplinkRecord},
    restoreRows rows = .ok rs → ∀ row ∈ rows, ∃ r ∈ rs, restoreRow row = .ok r
  | [], _, _, row, hrow => absurd hrow not_mem_nil
  | x :: rest, rs, h, row, hrow => by
    unfold restoreRows at h
    split at h
    · cases h
    next r hr =>
      split at h
      · cases h
      next rs' hrs =>
        cases h
        rcases mem_cons.mp hrow with rfl | hrow
        · exact ⟨r, mem_cons_self, hr⟩
        · obtain ⟨r', hmem, hr'⟩ := restoreRows_mem hrs row hrow
          exact ⟨r', mem_cons_of_mem _ hmem, hr'⟩

/-- The rows of a database are the given records, column by column. The
`kind` column has no counterpart in memory. -/
structure Rows (db : Db) (records : Records) : Prop where
  stored : ∀ {q : Nat} {r : UplinkRecord}, records[q]? = some r →
    ∃ kind, db.outbox[asI64 q]? = some
      ⟨r.envelopeId.asStr, kind, r.payload, decide (r.retention = .protected_)⟩
  only : ∀ {k : Int}, k ∈ db.outbox → ∃ q ∈ records, k = asI64 q

/-- A table of records a journal can hold: keyed by sequence, in `u64`,
one envelope each. -/
structure Keyed (records : Records) : Prop where
  sequence : ∀ {q : Nat} {r : UplinkRecord}, records[q]? = some r → r.sequence = q
  bounded : ∀ {q : Nat}, q ∈ records → q ≤ u64Max
  envelope : ∀ {q q' : Nat} {r r' : UplinkRecord}, records[q]? = some r →
    records[q']? = some r' → r.envelopeId = r'.envelopeId → q = q'

variable {records : Records}

theorem Rows.restore (h : Rows db records) (hk : Keyed records) (hrow : row ∈ db.loadOutbox) :
    ∃ q r, records[q]? = some r ∧ row.seq = q ∧ restoreRow row = .ok r := by
  obtain ⟨k, cell, hcell, rfl⟩ := Db.mem_loadOutbox.mp hrow
  obtain ⟨q, hq, rfl⟩ := h.only (mem_table.mpr ⟨cell, hcell⟩)
  obtain ⟨r, hr⟩ := mem_table.mp hq
  obtain ⟨kind, hstored⟩ := h.stored hr
  rw [hcell] at hstored
  cases hstored
  have hseq : asU64 (asI64 q) = q := asU64_asI64 (hk.bounded hq)
  refine ⟨q, r, hr, hseq, ?_⟩
  unfold restoreRow
  simp only [EnvelopeId.new_asStr, hseq]
  obtain ⟨sequence, envelopeId, payload, retention⟩ := r
  obtain rfl := hk.sequence hr
  cases retention <;> rfl

theorem nodup_loadOutbox_seq (h : Rows db records) (hk : Keyed records) :
    (db.loadOutbox.map (·.seq)).Nodup := by
  have hmap : db.loadOutbox.map (·.seq) = db.outbox.keys.map asU64 := by
    rw [← ExtTreeMap.map_fst_toList_eq_keys, Db.loadOutbox, map_map, map_map]
    rfl
  rw [hmap]
  refine ExtTreeMap.nodup_keys.map_on fun a ha b hb hab => ?_
  obtain ⟨q, hq, rfl⟩ := h.only (ExtTreeMap.mem_keys.mp ha)
  obtain ⟨q', hq', rfl⟩ := h.only (ExtTreeMap.mem_keys.mp hb)
  rw [asU64_asI64 (hk.bounded hq), asU64_asI64 (hk.bounded hq')] at hab
  rw [hab]

theorem Rows.restoreRows (h : Rows db records) (hk : Keyed records) :
    ∃ rs, restoreRows db.loadOutbox = .ok rs
      ∧ (∀ r, r ∈ rs ↔ ∃ q : Nat, records[q]? = some r)
      ∧ (rs.map (·.sequence)).Nodup ∧ (rs.map (·.envelopeId)).Nodup := by
  have hall : ∀ row ∈ db.loadOutbox, ∃ r, restoreRow row = .ok r := by
    intro row hrow
    obtain ⟨q, r, -, -, hr⟩ := h.restore hk hrow
    exact ⟨r, hr⟩
  obtain ⟨rs, hrs, hseqs, hrestored⟩ := restoreRows_of_forall hall
  have hmem : ∀ r, r ∈ rs ↔ ∃ q : Nat, records[q]? = some r := by
    intro r
    rw [hrestored]
    constructor
    · rintro ⟨row, hrow, hrestore⟩
      obtain ⟨q, r', hr', -, hrestore'⟩ := h.restore hk hrow
      rw [hrestore] at hrestore'
      cases hrestore'
      exact ⟨q, hr'⟩
    · rintro ⟨q, hr⟩
      obtain ⟨kind, hcell⟩ := h.stored hr
      have hrow := Db.mem_loadOutbox.mpr ⟨_, _, hcell, rfl⟩
      obtain ⟨q', r', hr', hseq, hrestore⟩ := h.restore hk hrow
      simp only [asU64_asI64 (hk.bounded (mem_table.mpr ⟨r, hr⟩))] at hseq
      rw [← hseq, hr] at hr'
      cases hr'
      exact ⟨_, hrow, hrestore⟩
  have hnodup : (rs.map (·.sequence)).Nodup := hseqs ▸ nodup_loadOutbox_seq h hk
  refine ⟨rs, hrs, hmem, hnodup, ?_⟩
  refine (List.Nodup.of_map _ hnodup).map_on fun a ha b hb hab => ?_
  obtain ⟨q, hq⟩ := (hmem a).mp ha
  obtain ⟨q', hq'⟩ := (hmem b).mp hb
  obtain rfl := hk.envelope hq hq' hab
  rw [hq] at hq'
  exact Option.some.inj hq'

/-! ## `from_store` -/

def rebuiltState (c l : Nat) (records : Records) (ids : ExtTreeMap EnvelopeId Nat) : UplinkState :=
  { UplinkState.fromCommittedThrough c with
    lastAllocated := l, records := records, envelopeSequences := ids }

theorem fromStore_of_state {rs : List UplinkRecord} {state : UplinkState}
    (hrs : restoreRows store.db.loadOutbox = .ok rs)
    (hstate : UplinkState.rehydrate store.db.readCursor.1 store.db.readCursor.2 rs = .ok state)
    (maxRecords : Nat) :
    ∃ warned, fromStore store maxRecords = .ok ⟨store, state, max maxRecords 1, warned⟩ := by
  unfold fromStore
  simp only [hrs, hstate]
  split
  · unfold warnOverflow overflowWarning
    split <;> exact ⟨_, rfl⟩
  · exact ⟨_, rfl⟩

theorem fromStore_ok (h : fromStore store maxRecords = .ok o) :
    o.store = store ∧ ∃ rs, restoreRows store.db.loadOutbox = .ok rs
      ∧ UplinkState.rehydrate store.db.readCursor.1 store.db.readCursor.2 rs = .ok o.state := by
  cases hrs : restoreRows store.db.loadOutbox with
  | error e =>
    simp only [fromStore, hrs] at h
    cases h
  | ok rs =>
    cases hstate : UplinkState.rehydrate store.db.readCursor.1 store.db.readCursor.2 rs with
    | error e =>
      simp only [fromStore, hrs, hstate] at h
      cases h
    | ok state =>
      obtain ⟨warned, hopen⟩ := fromStore_of_state hrs hstate maxRecords
      rw [hopen] at h
      cases h
      exact ⟨rfl, rs, rfl, hstate⟩

/-- A database with a row outside its cursor window does not open. -/
theorem fromStore_window (h : fromStore store maxRecords = .ok o) :
    ∀ row ∈ store.db.loadOutbox,
      store.db.readCursor.1 < row.seq ∧ row.seq ≤ store.db.readCursor.2 := by
  obtain ⟨-, rs, hrs, hstate⟩ := fromStore_ok h
  intro row hrow
  obtain ⟨r, hr, hrestore⟩ := restoreRows_mem hrs row hrow
  rw [← (restoreRow_ok hrestore).1]
  exact (UplinkState.rehydrate_eq_ok hstate).1 r hr

/-- A database that mirrors records inside its cursor window opens, with
exactly these records and with their envelopes as the only known ones. -/
theorem fromStore_rows (store : Store) {c l : Nat} (h : Rows store.db records)
    (hk : Keyed records) (hwin : ∀ q ∈ records, c < q ∧ q ≤ l) (hcl : c ≤ l) (hl : l ≤ u64Max)
    (hcursor : store.db.cursor = (asI64 c, asI64 l)) (maxRecords : Nat) :
    ∃ ids warned, fromStore store maxRecords
        = .ok ⟨store, rebuiltState c l records ids, max maxRecords 1, warned⟩
      ∧ ∀ id q, ids[id]? = some q ↔
          ∃ r : UplinkRecord, records[q]? = some r ∧ r.envelopeId = id := by
  obtain ⟨rs, hrs, hmem, hseq, hid⟩ := h.restoreRows hk
  have hread : store.db.readCursor = (c, l) := by
    rw [Db.readCursor, hcursor, asU64_asI64 (Nat.le_trans hcl hl), asU64_asI64 hl]
  have hown : ∀ r ∈ rs, records[r.sequence]? = some r := by
    intro r hr
    obtain ⟨q, hq⟩ := (hmem r).mp hr
    rwa [hk.sequence hq]
  have hrswin : ∀ r ∈ rs, c < r.sequence ∧ r.sequence ≤ l := fun r hr =>
    hwin _ (mem_table.mpr ⟨r, hown r hr⟩)
  -- the loop filled one table from the records, so the two agree entry by entry
  have htable : rs.foldl (fun m r => m.insert r.sequence r) ∅ = records := by
    refine ExtTreeMap.ext_getElem? fun q => Option.ext fun r => ?_
    rw [getElem?_foldl_insert (·.sequence) (fun r => r) rs ∅ hseq (by simp)]
    simp only [ExtTreeMap.getElem?_empty, reduceCtorEq, false_or]
    constructor
    · rintro ⟨x, hx, rfl, rfl⟩
      exact hown x hx
    · intro hr
      exact ⟨r, (hmem r).mpr ⟨q, hr⟩, hk.sequence hr, rfl⟩
  have hids : ∀ id q,
      (rs.foldl (fun m r => m.insert r.envelopeId r.sequence)
          (∅ : ExtTreeMap EnvelopeId Nat))[id]? = some q ↔
        ∃ r : UplinkRecord, records[q]? = some r ∧ r.envelopeId = id := by
    intro id q
    rw [getElem?_foldl_insert (·.envelopeId) (·.sequence) rs ∅ hid (by simp)]
    simp only [ExtTreeMap.getElem?_empty, reduceCtorEq, false_or]
    constructor
    · rintro ⟨x, hx, rfl, rfl⟩
      exact ⟨x, hown x hx, rfl⟩
    · rintro ⟨r, hr, rfl⟩
      exact ⟨r, (hmem r).mpr ⟨q, hr⟩, rfl, hk.sequence hr⟩
  have hstate := UplinkState.rehydrate_ok hcl hrswin hseq hid
  obtain ⟨warned, hopen⟩ := fromStore_of_state hrs (by rw [hread]; exact hstate) maxRecords
  refine ⟨_, warned, ?_, hids⟩
  rw [hopen]
  simp [UplinkState.withRecords, rebuiltState, UplinkState.fromCommittedThrough,
    UplinkState.new, htable]

end DurableOutbox

end VodogeEdge
