import VodogeEdge.Placement
import VodogeEdge.Runs
import VodogeEdge.UplinkState

/-!
# Every live sequence has exactly one owner

Allocated sequences above the cursor are retained, covered by a pending
gap, or known accepted losses: never two of these, never none. Four
operations move sequences between the three containers, and no check in
the code compares them; the invariant is what keeps the uplink from
wedging on a sequence that no acknowledgement can cross.

The journal is an instance of `Placed`.
-/

namespace VodogeEdge

open Std ExtTreeMap

inductive Place where
  | retained
  | pending (gapId : GapId)
  | acceptedLoss
deriving DecidableEq

namespace UplinkState

/-- One of the ranges of that pending gap contains the sequence. -/
def InPendingGap (s : UplinkState) (q : Nat) (gapId : GapId) : Prop :=
  ∃ gap, s.pendingGaps[gapId]? = some gap ∧ rangesCover gap.ranges q

/-- The three containers, read as one placement. -/
def Holds (s : UplinkState) (q : Nat) : Place → Prop
  | .retained => q ∈ s.records
  | .pending gapId => s.InPendingGap q gapId
  | .acceptedLoss => q ∈ s.acceptedLossSequences

/-- The bookkeeping of the journal is consistent. -/
structure Covered (s : UplinkState) : Prop where
  keyed : ∀ {q : Nat} {record : UplinkRecord}, s.records[q]? = some record →
    record.sequence = q
  gap_open : ∀ {gapId : GapId}, gapId ∈ s.pendingGaps → gapId ∉ s.acceptedGaps
  placed : Placed s.committedThrough s.lastAllocated s.Holds

theorem covered_fromCommittedThrough (n : Nat) : (fromCommittedThrough n).Covered where
  keyed h := by simp [fromCommittedThrough, new] at h
  gap_open h := by simp [fromCommittedThrough, new] at h
  placed := Placed.empty fun q p => by
    cases p <;> simp [Holds, InPendingGap, fromCommittedThrough, new]

/-! ## One call -/

variable {s : UplinkState}

variable {gap : UplinkGap} {q : Nat} {gapId : GapId}

section

variable (h : s.Covered)
include h

theorem Covered.not_pending (hgap : s.pendingGaps[gapId]? = some gap)
    (hcov : rangesCover gap.ranges q) : q ∉ s.records ∧ q ∉ s.acceptedLossSequences := by
  have hp : s.Holds q (.pending gapId) := ⟨gap, hgap, hcov⟩
  constructor
  · intro hq
    cases h.placed.eq_of_holds _ .retained hp hq
  · intro hq
    cases h.placed.eq_of_holds _ .acceptedLoss hp hq

theorem Covered.append (envelopeId : EnvelopeId) (payload : Bytes)
    (retention : RetentionClass) : (s.append envelopeId payload retention).2.Covered := by
  rcases s.append_cases envelopeId payload retention with ⟨e, heq, -⟩ | ⟨-, -, heq⟩
  · rw [heq]; exact h
  · rw [heq]
    refine ⟨fun {q record} hrec => ?_, h.gap_open, h.placed.extend .retained fun q p => ?_⟩
    · rw [appendedAs_records] at hrec
      split at hrec
      next hq =>
        cases hrec
        exact hq
      · exact h.keyed hrec
    · cases p with
      | retained =>
        simp only [Holds, appendedAs, mem_insert, Std.compare_eq_iff_eq, and_true]
        rw [or_comm, eq_comm]
      | pending gapId => simp [Holds, InPendingGap, appendedAs]
      | acceptedLoss => simp [Holds, appendedAs]

theorem Covered.declareLoss (gapId : GapId) (sequences : List Nat)
    (reason : String) : (s.declareLoss gapId sequences reason).2.Covered := by
  rcases s.declareLoss_cases gapId sequences reason with
    ⟨e, heq⟩ | ⟨gap, records, hpend, hacc, hev, hcov, hrec, heq⟩
  · rw [heq]; exact h
  · rw [heq]
    refine ⟨fun {q record} hq => ?_, fun {g} hg => ?_,
      h.placed.relocate (fun q p => if q ∈ sequences then .pending gapId else p) fun q p => ?_⟩
    · rw [hrec] at hq
      split at hq
      · cases hq
      · exact h.keyed hq
    · rcases mem_insert.mp hg with hg | hg
      · rw [← Std.compare_eq_iff_eq.mp hg]; exact hacc
      · exact h.gap_open hg
    · -- the new gap covers `sequences`; each of them was retained before
      have hretained : ∀ {q : Nat}, q ∈ sequences → s.Holds q .retained := fun {q} hq => by
        obtain ⟨record, hr, -⟩ := hev q hq
        exact mem_table.mpr ⟨record, hr⟩
      by_cases hq : q ∈ sequences
      · simp only [if_pos hq]
        constructor
        · intro hp
          refine ⟨.retained, hretained hq, ?_⟩
          cases p with
          | retained =>
            obtain ⟨r, hr⟩ := mem_table.mp hp
            rw [hrec, if_pos hq] at hr
            cases hr
          | pending g =>
            obtain ⟨gap', hgap', hcov'⟩ := hp
            by_cases hg : gapId = g
            · rw [hg]
            · rw [getElem?_insert, if_neg (mt Std.compare_eq_iff_eq.mp hg)]
                at hgap'
              exact absurd (hretained hq) (h.not_pending hgap' hcov').1
          | acceptedLoss => cases h.placed.eq_of_holds _ .acceptedLoss (hretained hq) hp
        · rintro ⟨-, -, rfl⟩
          exact ⟨gap, by simp, (hcov q).mpr hq⟩
      · simp only [if_neg hq, exists_eq_right]
        cases p with
        | retained =>
          show q ∈ records ↔ q ∈ s.records
          rw [mem_table, mem_table, hrec, if_neg hq]
        | pending g =>
          show (∃ gap', (s.pendingGaps.insert gapId gap)[g]? = some gap' ∧ _) ↔ _
          rw [getElem?_insert]
          by_cases hg : gapId = g
          · subst hg
            simp only [ReflOrd.compare_self, if_true, Option.some.injEq, exists_eq_left',
              hcov, hq, false_iff]
            rintro ⟨gap', hgap', -⟩
            exact hpend (mem_table.mpr ⟨gap', hgap'⟩)
          · rw [if_neg (mt Std.compare_eq_iff_eq.mp hg)]
            rfl
        | acceptedLoss => exact Iff.rfl

/-- The placement between the two halves of `accept_gap`: the gap became
accepted losses, the cursor has not moved yet. -/
def HoldsAccepting (s : UplinkState) (gapId : GapId) (gap : UplinkGap) (q : Nat) :
    Place → Prop
  | .retained => q ∈ s.records
  | .pending g => g ≠ gapId ∧ s.Holds q (.pending g)
  | .acceptedLoss => q ∈ s.acceptedLossSequences ∨ rangesCover gap.ranges q

theorem Covered.accepting (hgap : s.pendingGaps[gapId]? = some gap) :
    Placed s.committedThrough s.lastAllocated (s.HoldsAccepting gapId gap) := by
  refine h.placed.relocate (fun _ p => if p = .pending gapId then .acceptedLoss else p)
    fun q p => ?_
  cases p with
  | retained =>
    constructor
    · intro hq
      exact ⟨.retained, hq, by simp⟩
    · rintro ⟨p, hp, hf⟩
      split at hf
      · cases hf
      · subst hf; exact hp
  | pending g =>
    constructor
    · rintro ⟨hne, hq⟩
      exact ⟨.pending g, hq, by simp [hne]⟩
    · rintro ⟨p, hp, hf⟩
      split at hf
      · cases hf
      next hne =>
        subst hf
        exact ⟨fun hg => hne (hg ▸ rfl), hp⟩
  | acceptedLoss =>
    constructor
    · rintro (hq | hq)
      · exact ⟨.acceptedLoss, hq, by simp⟩
      · exact ⟨.pending gapId, ⟨gap, hgap, hq⟩, by simp⟩
    · rintro ⟨p, hp, hf⟩
      split at hf
      next hpend =>
        subst hpend
        obtain ⟨gap', hgap', hcov⟩ := hp
        rw [hgap] at hgap'
        cases hgap'
        exact .inr hcov
      · subst hf; exact .inl hp

theorem Covered.acceptGap (gapId : GapId) : (s.acceptGap gapId).2.Covered := by
  rcases s.acceptGap_cases gapId with ⟨-, heq⟩ | ⟨-, heq⟩ |
    ⟨gap, cursor, losses, missing, more, hgap, -, hle, hcross, hloss, heq⟩
  · rw [heq]; exact h
  · rw [heq]; exact h
  · have hres := h.accepting hgap
    -- what the cursor crossed were losses, so every other owner is above it
    have habove : ∀ {q : Nat} p, p ≠ .acceptedLoss → s.committedThrough < q →
        s.HoldsAccepting gapId gap q p → cursor < q := by
      intro q p hp hq hholds
      by_contra hnot
      exact hp (hres.eq_of_holds p .acceptedLoss hholds (hcross q hq (by omega)))
    have hcursor : cursor ≤ s.lastAllocated := by
      rcases eq_or_lt_of_le hle with rfl | hlt
      · exact h.placed.le
      · exact (hres.window (p := .acceptedLoss) (hcross cursor hlt (Nat.le_refl _))).2
    rw [heq]
    refine ⟨h.keyed, fun {g} hg => ?_, show Placed cursor s.lastAllocated _ from
      hres.advance hle hcursor fun q p => ?_⟩
    · obtain ⟨hne, hg⟩ := mem_erase.mp hg
      rw [mem_insert, not_or]
      exact ⟨hne, h.gap_open hg⟩
    · cases p with
      | retained =>
        exact ⟨fun hq => ⟨hq, habove .retained (by simp)
          (h.placed.window (p := .retained) hq).1 hq⟩, And.left⟩
      | pending g =>
        show (∃ gap', (s.pendingGaps.erase gapId)[g]? = some gap' ∧ _) ↔ _
        rw [getElem?_erase]
        by_cases hg : gapId = g
        · subst hg
          simp [HoldsAccepting]
        · rw [if_neg (mt Std.compare_eq_iff_eq.mp hg)]
          constructor
          · intro hq
            exact ⟨⟨Ne.symm hg, hq⟩, habove (.pending g) (by simp)
              (h.placed.window (p := .pending g) hq).1 ⟨Ne.symm hg, hq⟩⟩
          · exact fun hq => hq.1.2
      | acceptedLoss =>
        show q ∈ losses ↔ _
        rw [hloss]
        refine and_congr_right fun hq => ?_
        have hwin := hres.window (p := .acceptedLoss) hq
        omega

theorem Covered.retireThrough {ack : UplinkAck} (hle : s.committedThrough ≤ ack.committedThrough)
    (hlast : ack.committedThrough ≤ s.lastAllocated) (hcross : s.Crossable ack.committedThrough) :
    (s.retireThrough ack).Covered := by
  refine ⟨fun {q record} hq => ?_, h.gap_open,
    show Placed ack.committedThrough s.lastAllocated _ from
      h.placed.advance hle hlast fun q p => ?_⟩
  · rw [retireThrough_records] at hq
    split at hq
    · cases hq
    · exact h.keyed hq
  · cases p with
    | retained =>
      show q ∈ (s.retireThrough ack).records ↔ q ∈ s.records ∧ ack.committedThrough < q
      rw [mem_table, retireThrough_records]
      split
      next hcrossed =>
        constructor
        · rintro ⟨record, hq⟩
          cases hq
        · rintro ⟨-, hq⟩
          omega
      · rw [← mem_table]
        refine ⟨fun hq => ⟨hq, ?_⟩, And.left⟩
        have := (h.placed.window (p := .retained) hq).1
        omega
    | pending g =>
      -- a pending sequence is neither retained nor a loss, so it was not crossed
      refine ⟨fun hq => ⟨hq, ?_⟩, And.left⟩
      obtain ⟨gap, hgap, hcov⟩ := id hq
      have hwin := (h.placed.window (p := .pending g) hq).1
      by_contra hnot
      have hfree := h.not_pending hgap hcov
      rcases hcross q hwin (by omega) with hr | hl
      · exact hfree.1 hr
      · exact hfree.2 hl
    | acceptedLoss =>
      show q ∈ (s.retireThrough ack).acceptedLossSequences ↔ _
      rw [mem_retireThrough_losses]
      refine and_congr_right fun hq => ?_
      have hwin := (h.placed.window (p := .acceptedLoss) hq).1
      constructor
      · intro himp
        by_contra hnot
        cases h.placed.eq_of_holds .retained .acceptedLoss (himp hwin (by omega)) hq
      · intro hlt _ hle'
        omega

theorem Covered.observeAck (ack : UplinkAck) : (s.observeAck ack).2.Covered := by
  rcases s.observeAck_cases ack with ⟨-, heq⟩ | ⟨e, heq, -⟩ | ⟨hle, hlast, -, hcross, heq⟩
  · rw [heq]; exact h
  · rw [heq]; exact h
  · rw [heq]; exact h.retireThrough hle hlast hcross

theorem Covered.step : ∀ op, (s.step op).Covered
  | .append envelopeId payload retention => h.append envelopeId payload retention
  | .declareLoss gapId sequences reason => h.declareLoss gapId sequences reason
  | .acceptGap gapId => h.acceptGap gapId
  | .observeAck ack => h.observeAck ack

end

/-! ## Runs -/

inductive Reachable : UplinkState → Prop
  | new : Reachable new
  | fromCommittedThrough (n : Nat) : Reachable (fromCommittedThrough n)
  | step {s : UplinkState} (h : Reachable s) (op : UplinkOp) : Reachable (s.step op)

theorem Reachable.run (h : s.Reachable) (ops : List UplinkOp) :
    (runFrom UplinkState.step s ops).Reachable :=
  runFrom_invariant (fun _ op h => h.step op) ops h

theorem Reachable.covered (h : s.Reachable) : s.Covered := by
  induction h with
  | new => exact covered_fromCommittedThrough 0
  | fromCommittedThrough n => exact covered_fromCommittedThrough n
  | step _ op ih => exact ih.step op

/-! ## Nothing wedges -/

theorem Covered.acceptGap_resolves (h : s.Covered) (hq : s.InPendingGap q gapId) :
    (s.acceptGap gapId).1.isOk
      ∧ (q ≤ (s.acceptGap gapId).2.committedThrough
        ∨ q ∈ (s.acceptGap gapId).2.acceptedLossSequences) := by
  obtain ⟨gap, hgap, hcov⟩ := hq
  have hmem : gapId ∈ s.pendingGaps := mem_table.mpr ⟨gap, hgap⟩
  rcases s.acceptGap_cases gapId with ⟨hnot, -⟩ | ⟨hacc, -⟩ |
    ⟨gap', cursor, losses, missing, more, hgap', -, -, -, hloss, heq⟩
  · exact absurd hmem hnot
  · exact absurd hacc (h.gap_open hmem)
  · rw [hgap] at hgap'
    cases hgap'
    rw [heq]
    refine ⟨rfl, ?_⟩
    by_cases hle : q ≤ cursor
    · exact .inl hle
    · exact .inr ((hloss q).mpr ⟨.inr hcov, by omega⟩)

theorem Covered.acceptGap_pending (h : s.Covered) (gapId : GapId) :
    (s.acceptGap gapId).2.pendingGaps = s.pendingGaps.erase gapId
      ∧ (s.acceptGap gapId).2.lastAllocated = s.lastAllocated := by
  rcases s.acceptGap_cases gapId with ⟨hnot, heq⟩ | ⟨hacc, heq⟩ |
    ⟨gap', cursor, losses, missing, more, -, -, -, -, -, heq⟩
  · rw [heq]
    exact ⟨(erase_of_not_mem hnot).symm, rfl⟩
  · rw [heq]
    exact ⟨(erase_of_not_mem fun hmem => h.gap_open hmem hacc).symm, rfl⟩
  · rw [heq]
    exact ⟨rfl, rfl⟩

theorem Covered.acceptGaps {s : UplinkState} (h : s.Covered) : ∀ gapIds : List GapId,
    (runFrom UplinkState.step s (gapIds.map .acceptGap)).pendingGaps
        = gapIds.foldl (fun m g => m.erase g) s.pendingGaps
      ∧ (runFrom UplinkState.step s (gapIds.map .acceptGap)).lastAllocated = s.lastAllocated
  | [] => ⟨rfl, rfl⟩
  | gapId :: rest => by
    obtain ⟨hpend, hlast⟩ := h.acceptGap_pending gapId
    obtain ⟨hrest, hlast'⟩ := (h.acceptGap gapId).acceptGaps rest
    simp only [List.map_cons, runFrom_cons, List.foldl_cons, UplinkState.step]
    exact ⟨by rw [hrest, hpend], by rw [hlast', hlast]⟩

theorem Covered.ack_all (h : s.Covered) (hnone : ∀ q gapId, ¬s.InPendingGap q gapId) :
    (s.observeAck (.plain s.lastAllocated)).1.isOk
      ∧ (s.observeAck (.plain s.lastAllocated)).2.committedThrough = s.lastAllocated := by
  have hcross : s.Crossable s.lastAllocated := by
    intro q h1 h2
    obtain ⟨p, hp, -⟩ := h.placed.unique h1 h2
    cases p with
    | retained => exact .inl hp
    | pending g => exact absurd hp (hnone q g)
    | acceptedLoss => exact .inr hp
  have hok : (s.observeAck (.plain s.lastAllocated)).1.isOk :=
    (s.observeAck_isOk _).mpr (.inr ⟨Nat.le_refl _, rfl, hcross⟩)
  refine ⟨hok, ?_⟩
  rcases s.observeAck_cases (.plain s.lastAllocated) with
    ⟨hlt, -⟩ | ⟨e, heq, -⟩ | ⟨-, -, -, -, heq⟩
  · exact absurd h.placed.le (Nat.not_le.mpr hlt)
  · rw [heq] at hok
    cases hok
  · rw [heq]
    rfl

/-- The acknowledgements that resolve every open gap of a journal. -/
def acceptPending (s : UplinkState) : List UplinkOp :=
  s.pendingGaps.keys.map .acceptGap

/-- Once every open gap is acknowledged, one cumulative acknowledgement
commits the whole journal. -/
theorem Covered.drains (h : s.Covered) :
    ((runFrom UplinkState.step s s.acceptPending).observeAck (.plain s.lastAllocated)).1.isOk
      ∧ ((runFrom UplinkState.step s s.acceptPending).observeAck
          (.plain s.lastAllocated)).2.committedThrough = s.lastAllocated := by
  have hcov : (runFrom UplinkState.step s s.acceptPending).Covered :=
    runFrom_invariant (fun _ op h => h.step op) _ h
  obtain ⟨hpend, hlast⟩ := h.acceptGaps s.pendingGaps.keys
  have hnone : ∀ q g, ¬(runFrom UplinkState.step s s.acceptPending).InPendingGap q g := by
    rintro q g ⟨gap, hgap, -⟩
    rw [acceptPending, hpend, getElem?_foldl_erase] at hgap
    split at hgap
    · cases hgap
    next hg => exact hg (mem_keys.mpr (mem_table.mpr ⟨gap, hgap⟩))
  have hall := hcov.ack_all hnone
  rwa [acceptPending, hlast] at hall

theorem Covered.one_owner (h : s.Covered) (h1 : s.committedThrough < q) (h2 : q ≤ s.lastAllocated) :
    (q ∈ s.records ∧ (∀ g, ¬s.InPendingGap q g) ∧ q ∉ s.acceptedLossSequences)
      ∨ (q ∉ s.records ∧ (∃! g, s.InPendingGap q g) ∧ q ∉ s.acceptedLossSequences)
      ∨ (q ∉ s.records ∧ (∀ g, ¬s.InPendingGap q g) ∧ q ∈ s.acceptedLossSequences) := by
  obtain ⟨p, hp, huniq⟩ := h.placed.unique h1 h2
  have hother : ∀ p', p' ≠ p → ¬s.Holds q p' := fun p' hne hp' => hne (huniq p' hp')
  cases p with
  | retained =>
    exact .inl ⟨hp, fun g => hother (.pending g) (by simp), hother .acceptedLoss (by simp)⟩
  | pending gapId =>
    refine .inr (.inl ⟨hother .retained (by simp), ⟨gapId, hp, fun g hg => ?_⟩,
      hother .acceptedLoss (by simp)⟩)
    exact Place.pending.inj (huniq (.pending g) hg)
  | acceptedLoss =>
    exact .inr (.inr ⟨hother .retained (by simp), fun g => hother (.pending g) (by simp), hp⟩)

/-- In every reachable journal the cursor is within what was allocated,
records sit at their own sequence inside the live window, every live sequence
has exactly one owner and no committed one has any. So nothing wedges: a live
sequence can be crossed as it stands or by accepting its gap, and after all
open gaps are accepted one acknowledgement commits everything. -/
theorem reachable_coverage {s : UplinkState} (h : s.Reachable) :
    s.committedThrough ≤ s.lastAllocated
      ∧ (∀ (q : Nat) (record : UplinkRecord), s.records[q]? = some record →
          s.committedThrough < q ∧ q ≤ s.lastAllocated ∧ record.sequence = q)
      ∧ (∀ q, s.committedThrough < q → q ≤ s.lastAllocated →
          (q ∈ s.records ∧ (∀ g, ¬s.InPendingGap q g) ∧ q ∉ s.acceptedLossSequences)
          ∨ (q ∉ s.records ∧ (∃! g, s.InPendingGap q g) ∧ q ∉ s.acceptedLossSequences)
          ∨ (q ∉ s.records ∧ (∀ g, ¬s.InPendingGap q g) ∧ q ∈ s.acceptedLossSequences))
      ∧ (∀ q, q ≤ s.committedThrough →
          q ∉ s.records ∧ (∀ g, ¬s.InPendingGap q g) ∧ q ∉ s.acceptedLossSequences)
      ∧ (∀ q, s.committedThrough < q → q ≤ s.lastAllocated →
          (q ∈ s.records ∨ q ∈ s.acceptedLossSequences)
          ∨ ∃ g, s.InPendingGap q g ∧ (s.acceptGap g).1.isOk
            ∧ (q ≤ (s.acceptGap g).2.committedThrough
              ∨ q ∈ (s.acceptGap g).2.acceptedLossSequences))
      ∧ ((runFrom UplinkState.step s s.acceptPending).observeAck
            (.plain s.lastAllocated)).1.isOk
      ∧ ((runFrom UplinkState.step s s.acceptPending).observeAck
            (.plain s.lastAllocated)).2.committedThrough = s.lastAllocated := by
  have hc := h.covered
  refine ⟨hc.placed.le, fun q record hq => ?_, fun q h1 h2 => hc.one_owner h1 h2,
    fun q hle => ?_, fun q h1 h2 => ?_, hc.drains⟩
  · have hwin := hc.placed.window (p := .retained) (mem_table.mpr ⟨record, hq⟩)
    exact ⟨hwin.1, hwin.2, hc.keyed hq⟩
  · have hout : ∀ p, ¬s.Holds q p := fun p hp => by
      have := (hc.placed.window hp).1
      omega
    exact ⟨hout .retained, fun g => hout (.pending g), hout .acceptedLoss⟩
  · rcases hc.one_owner h1 h2 with ⟨hr, -⟩ | ⟨-, ⟨g, hg, -⟩, -⟩ | ⟨-, -, hl⟩
    · exact .inl (.inl hr)
    · exact .inr ⟨g, hg, hc.acceptGap_resolves hg⟩
    · exact .inl (.inr hl)

/-- Three records, the outer two given up, the first loss accepted. -/
def twoLosses : UplinkState :=
  runFrom UplinkState.step (fromCommittedThrough 5)
    [.append (NonBlank.mk "a" (by decide)) [1] .evictable,
     .append (NonBlank.mk "b" (by decide)) [2] .protected_,
     .append (NonBlank.mk "c" (by decide)) [3] .evictable,
     .declareLoss (NonBlank.mk "low" (by decide)) [6] "queue_capacity",
     .declareLoss (NonBlank.mk "high" (by decide)) [8] "queue_capacity",
     .acceptGap (NonBlank.mk "low" (by decide))]

theorem twoLosses_drains :
    twoLosses.committedThrough = 6 ∧ twoLosses.records.keys = [7]
      ∧ twoLosses.acceptPending.length = 1
      ∧ ((runFrom UplinkState.step twoLosses twoLosses.acceptPending).observeAck
          (.plain twoLosses.lastAllocated)).2.committedThrough = twoLosses.lastAllocated :=
  ⟨by decide, by decide, by decide,
    (reachable_coverage ((Reachable.fromCommittedThrough 5).run _)).2.2.2.2.2.2⟩

end UplinkState

end VodogeEdge
