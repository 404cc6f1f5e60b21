import VodogeEdge.OutboxMirror

/-!
# A crash inside an acknowledgement

`observe_ack` deletes the acknowledged rows one by one and moves the
cursor row afterwards, every statement committed on its own. `rehydrate`
does not look for holes, so the tables a crash leaves between the first
DELETE and the cursor UPDATE open without an error, but the reopened
journal has a hole right above its cursor and refuses every
acknowledgement from then on.
-/

namespace VodogeEdge

open Std List Disk

namespace DurableOutbox

/-- The same outbox in a process that will stop after `k` statements. -/
def crashAfter (o : DurableOutbox) (k : Nat) : DurableOutbox :=
  { o with store := ⟨o.store.db, List.replicate k .commit ++ [.crash]⟩ }

/-- The tables left by an acknowledgement cut after `k` statements. -/
def ackCutAt (o : DurableOutbox) (ack : UplinkAck) (k : Nat) : Db :=
  ((o.crashAfter k).observeAck ack).2.store.db

def ackStatementCount (o : DurableOutbox) (ack : UplinkAck) : Nat :=
  match o.state.observeAck ack with
  | (.ok outcome, state) => (ackStatements outcome.deletedSequences state).length
  | (.error _, _) => 0

/-- The tables open again, and the reopened outbox accepts some
acknowledgement with this cursor. -/
def Recovers (db : Db) (maxRecords c : Nat) : Prop :=
  ∃ o, fromStore ⟨db, []⟩ maxRecords = .ok o
    ∧ ∃ ack : UplinkAck, ack.committedThrough = c ∧ (o.observeAck ack).1.isOk

variable {o : DurableOutbox} {ack : UplinkAck} {c k : Nat} {state : UplinkState}

theorem InStep.recovers (h : o.InStep) (maxRecords : Nat)
    (hc : c ≤ o.state.lastAllocated) : Recovers o.store.db maxRecords c := by
  obtain ⟨o', hopen, hstep, -, -, -, hlast, -⟩ := h.reopen maxRecords
  exact ⟨o', hopen, .plain c, rfl, hstep.accepts_plain (hlast ▸ hc)⟩

theorem ackCutAt_eq {outcome : AckOutcome}
    (h : o.state.observeAck ack = (.ok outcome, state)) (k : Nat) :
    o.ackCutAt ack k = applyAll o.store.db ((ackStatements outcome.deletedSequences state).take k)
      ∧ (k < (ackStatements outcome.deletedSequences state).length →
          ((o.crashAfter k).observeAck ack).1 = .error .crashed) := by
  obtain ⟨hresult, hdb⟩ := executeAll_always_crash Store.refusal o.store.db
    (ackStatements outcome.deletedSequences state) k
  rw [ackCutAt, observeAck_eq (o := o.crashAfter k) h]
  rw [show (o.crashAfter k).store = ⟨o.store.db, replicate k .commit ++ [.crash]⟩ from rfl]
  generalize executeAll Store.refusal _ _ = r at hresult hdb ⊢
  obtain ⟨result, store⟩ := r
  cases result with
  | error halt =>
    refine ⟨hdb, fun hk => ?_⟩
    simp only [if_pos hk, Except.error.injEq] at hresult
    subst hresult
    rfl
  | ok u =>
    refine ⟨hdb, fun hk => ?_⟩
    simp [if_pos hk] at hresult

theorem isOk_of_observeAck (h : (o.observeAck ack).1.isOk) :
    (o.state.observeAck ack).1.isOk := by
  cases hr : o.state.observeAck ack with
  | mk result state =>
    cases result with
    | error e =>
      simp only [observeAck, hr] at h
      cases h
    | ok outcome => rfl

/-- A hole right above the cursor: the tables open, but no acknowledgement
past the hole is ever accepted. -/
theorem hole_wedges {db : Db} {records : Records} {l : Nat}
    (hrows : Rows db records) (hk : Keyed records) (hwin : ∀ q ∈ records, c < q ∧ q ≤ l)
    (hcl : c ≤ l) (hl : l ≤ u64Max) (hcursor : db.cursor = (asI64 c, asI64 l))
    (hhole : c + 1 ∉ records) (maxRecords : Nat) {a : Nat} (ha : c < a) :
    (∃ o, fromStore ⟨db, []⟩ maxRecords = .ok o) ∧ ¬Recovers db maxRecords a := by
  obtain ⟨ids, warned, hopen, -⟩ :=
    fromStore_rows ⟨db, []⟩ hrows hk hwin hcl hl hcursor maxRecords
  refine ⟨⟨_, hopen⟩, ?_⟩
  rintro ⟨o, hopen', ack, rfl, hok⟩
  rw [hopen] at hopen'
  cases hopen'
  have hstate := isOk_of_observeAck hok
  rcases (UplinkState.observeAck_isOk _ ack).mp hstate with hstale | ⟨-, -, hcross⟩
  · have : ack.committedThrough < c := hstale
    omega
  · rcases hcross (c + 1) (Nat.lt_succ_self c) ha with hr | hloss
    · exact hhole hr
    · simp [rebuiltState, UplinkState.fromCommittedThrough, UplinkState.new] at hloss

/-- Between the first DELETE and the cursor UPDATE the tables open, but no
acknowledgement with that cursor is accepted. -/
theorem InStep.not_recovers (h : o.InStep) (hlt : o.state.committedThrough < c)
    (hlast : c ≤ o.state.lastAllocated) (hk : 0 < k)
    (hcut : k ≤ c - o.state.committedThrough) (maxRecords : Nat) :
    (∃ o', fromStore ⟨applyAll o.store.db ((retireStatements o.state c).take k), []⟩
        maxRecords = .ok o')
      ∧ ¬Recovers (applyAll o.store.db ((retireStatements o.state c).take k)) maxRecords c := by
  -- the deleted rows, and what is left of the records
  let gone := (upto (o.state.committedThrough + 1) c).take k
  let left := gone.foldl (fun m q => m.erase q) o.state.records
  have hleft : ∀ q, left[q]? = if q ∈ gone then none else o.state.records[q]? :=
    getElem?_foldl_erase gone o.state.records
  have hsub : ∀ {q : Nat} {r : UplinkRecord}, left[q]? = some r →
      o.state.records[q]? = some r := by
    intro q r hr
    rw [hleft] at hr
    split at hr
    · cases hr
    · exact hr
  have hmem : ∀ {q : Nat}, q ∈ left → q ∈ o.state.records := by
    intro q hq
    obtain ⟨r, hr⟩ := mem_table.mp hq
    exact mem_table.mpr ⟨r, hsub hr⟩
  have hdb : applyAll o.store.db ((retireStatements o.state c).take k)
      = applyAll o.store.db (gone.map Db.deleteSequence) := by
    rw [retireStatements, take_append_of_le_length, ← map_take]
    rw [length_map, length_upto]
    omega
  have hrows : Rows (applyAll o.store.db (gone.map Db.deleteSequence)) left := by
    refine h.rows.delete h.keyed (fun q hq => ?_) hleft
    have hle := (mem_upto.mp (mem_of_mem_take hq)).2
    have hbound := h.bounded
    omega
  have hcursor : (applyAll o.store.db (gone.map Db.deleteSequence)).cursor
      = (asI64 o.state.committedThrough, asI64 o.state.lastAllocated) := by
    rw [Db.applyAll_delete]
    exact h.cursor
  have hhole : o.state.committedThrough + 1 ∉ left := by
    obtain ⟨j, rfl⟩ : ∃ j, k = j + 1 := ⟨k - 1, by omega⟩
    have hfirst : o.state.committedThrough + 1 ∈ gone := by
      simp only [gone]
      rw [upto_eq_cons hlt]
      exact mem_cons_self
    intro hq
    obtain ⟨r, hr⟩ := mem_table.mp hq
    rw [hleft, if_pos hfirst] at hr
    cases hr
  rw [hdb]
  exact hole_wedges hrows
    ⟨fun hr => h.keyed.sequence (hsub hr), fun hq => h.keyed.bounded (hmem hq),
      fun hr hr' => h.keyed.envelope (hsub hr) (hsub hr')⟩
    (fun q hq => h.mem_records.mp (hmem hq)) h.covered.placed.le h.bounded hcursor hhole
    maxRecords hlt

theorem length_retireStatements (state : UplinkState) (c : Nat) :
    (retireStatements state c).length = c - state.committedThrough + 1 := by
  rw [retireStatements, length_append, length_map, length_upto]
  simp only [length_singleton]
  omega

/-- In step, an applied acknowledgement deletes one row for each sequence
it crosses and then moves the cursor. -/
theorem InStep.ackStatementCount_eq (h : o.InStep) {advanced : Bool}
    (hlast : ack.committedThrough ≤ o.state.lastAllocated)
    (heq : o.state.observeAck ack
      = (.ok ⟨ack.committedThrough, o.state.retiredSequences ack.committedThrough, advanced⟩,
        state)) :
    o.ackStatementCount ack = ack.committedThrough - o.state.committedThrough + 1 := by
  simp only [ackStatementCount, heq, ackStatements, h.retiredSequences_eq hlast,
    length_append, length_map, length_upto, length_singleton]
  omega

/-- Which cuts of an accepted acknowledgement recover: those of a call
that deletes nothing, the one before the first statement and the one
after the last. -/
theorem InStep.cut_recovers_iff (h : o.InStep) (maxRecords : Nat)
    (hok : (o.observeAck ack).1.isOk) (hk : k ≤ o.ackStatementCount ack) :
    Recovers (o.ackCutAt ack k) maxRecords ack.committedThrough ↔
      ack.committedThrough ≤ o.state.committedThrough ∨ k = 0
        ∨ k = o.ackStatementCount ack := by
  have hcl := h.covered.placed.le
  rcases o.state.observeAck_cases ack with
    ⟨hstale, heq⟩ | ⟨e, heq, -⟩ | ⟨hle, hlast, -, -, heq⟩
  · have hdb : o.ackCutAt ack k = o.store.db := by
      rw [(ackCutAt_eq heq k).1]
      rcases k with _ | k
      · rfl
      · simp [ackStatements, h.backed.updateCursor_self]
    rw [hdb]
    have hrec := h.recovers maxRecords (c := ack.committedThrough) (by omega)
    exact ⟨fun _ => .inl (Nat.le_of_lt hstale), fun _ => hrec⟩
  · have hstate := isOk_of_observeAck hok
    rw [heq] at hstate
    cases hstate
  · have hdb := (ackCutAt_eq heq k).1
    have hcount := h.ackStatementCount_eq hlast heq
    simp only [h.retiredSequences_eq hlast] at hdb
    rw [hdb, hcount]
    show Recovers (applyAll o.store.db
      ((retireStatements o.state ack.committedThrough).take k)) _ _ ↔ _
    by_cases hzero : k = 0
    · subst hzero
      exact ⟨fun _ => .inr (.inl rfl), fun _ => h.recovers maxRecords hlast⟩
    by_cases hall : k = ack.committedThrough - o.state.committedThrough + 1
    · refine ⟨fun _ => .inr (.inr hall), fun _ => ?_⟩
      have hrec := (h.retired hle hlast).recovers maxRecords hlast
      rw [DurableOutbox.retired, h.retiredSequences_eq hlast] at hrec
      rwa [hall, ← length_retireStatements, take_length]
    · have hlt : o.state.committedThrough < ack.committedThrough := by omega
      have hno := (h.not_recovers hlt hlast (by omega) (by omega : k ≤ _) maxRecords).2
      refine ⟨fun hrec => absurd hrec hno, fun hcases => ?_⟩
      rcases hcases with hc | hc | hc
      · omega
      · exact absurd hc hzero
      · exact absurd hc hall

/-- For an outbox reached by protected appends and acknowledgements, and an
acknowledgement it accepts: every cut between two statements of the call
recovers exactly if the acknowledgement advances nothing. The second part says
which of all cuts recover. -/
theorem ack_cut_recovers_iff (maxRecords : Nat) (calls : List Call) (ack : UplinkAck)
    (hok : ((runFrom step (openFresh maxRecords) calls).observeAck ack).1.isOk) :
    ((∀ k, 0 < k → k < (runFrom step (openFresh maxRecords) calls).ackStatementCount ack →
          Recovers ((runFrom step (openFresh maxRecords) calls).ackCutAt ack k) maxRecords
            ack.committedThrough)
        ↔ ack.committedThrough ≤ (runFrom step (openFresh maxRecords) calls).committedThrough)
      ∧ ∀ k, k ≤ (runFrom step (openFresh maxRecords) calls).ackStatementCount ack →
          (Recovers ((runFrom step (openFresh maxRecords) calls).ackCutAt ack k) maxRecords
              ack.committedThrough
            ↔ ack.committedThrough ≤ (runFrom step (openFresh maxRecords) calls).committedThrough
              ∨ k = 0
              ∨ k = (runFrom step (openFresh maxRecords) calls).ackStatementCount ack) := by
  have h := inStep_run maxRecords calls
  generalize runFrom step (openFresh maxRecords) calls = o at h hok ⊢
  refine ⟨⟨?_, ?_⟩, fun k hk => h.cut_recovers_iff maxRecords hok hk⟩
  · intro hall
    by_contra hnot
    have hlt : o.state.committedThrough < ack.committedThrough := Nat.not_le.mp hnot
    rcases o.state.observeAck_cases ack with
      ⟨hstale, -⟩ | ⟨e, heq, -⟩ | ⟨hle, hlast, -, -, heq⟩
    · omega
    · have hstate := isOk_of_observeAck hok
      rw [heq] at hstate
      cases hstate
    · have hcount : 1 < o.ackStatementCount ack := by
        have := h.ackStatementCount_eq hlast heq
        omega
      have hone := (h.cut_recovers_iff maxRecords hok (Nat.le_of_lt hcount)).mp
        (hall 1 one_pos hcount)
      rcases hone with hc | hc | hc
      · exact hnot hc
      · omega
      · omega
  · intro hle k _ hk
    exact (h.cut_recovers_iff maxRecords hok (Nat.le_of_lt hk)).mpr (.inl hle)

theorem not_blank_a : trimIsEmpty "a" = false := by decide

theorem not_blank_b : trimIsEmpty "b" = false := by decide

def twoRetained : List Call :=
  [.append (NonBlank.mk "a" not_blank_a) "sms_received" [1],
   .append (NonBlank.mk "b" not_blank_b) "sms_received" [2]]

/-- Acknowledging both and stopping after the first DELETE. -/
theorem cut_after_first_delete_wedges :
    ((runFrom step (openFresh 8) twoRetained).observeAck (.plain 2)).1 = .ok [1, 2]
      ∧ (runFrom step (openFresh 8) twoRetained).ackStatementCount (.plain 2) = 3
      ∧ (((runFrom step (openFresh 8) twoRetained).crashAfter 1).observeAck (.plain 2)).1
        = .error .crashed
      ∧ ¬Recovers ((runFrom step (openFresh 8) twoRetained).ackCutAt (.plain 2) 1) 8 2 := by
  refine ⟨by decide, by decide, by decide, fun hrec => ?_⟩
  have hcut := ((inStep_run 8 twoRetained).cut_recovers_iff 8 (by decide) (by decide)).mp hrec
  revert hcut
  decide

theorem two_acknowledged_wedges :
    ((runFrom step (openFresh 8) twoRetained).observeAck (.plain 2)).1.isOk
      ∧ ¬∀ k, 0 < k → k < (runFrom step (openFresh 8) twoRetained).ackStatementCount (.plain 2) →
        Recovers ((runFrom step (openFresh 8) twoRetained).ackCutAt (.plain 2) k) 8 2 :=
  ⟨by decide, fun hall => absurd
    ((ack_cut_recovers_iff 8 twoRetained (.plain 2) (by decide)).1.mp hall) (by decide)⟩

end DurableOutbox

end VodogeEdge
