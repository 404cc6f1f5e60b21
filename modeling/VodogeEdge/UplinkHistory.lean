import VodogeEdge.UplinkCoverage

/-!
# Why a sequence is committed

The cursor moves in three places: an acknowledgement sets it, accepting
a gap may push it over the losses right above it, and the same loop runs
on after an out-of-order acceptance. What justifies a crossed sequence
was established by an earlier call, so the invariant carries the history:
every committed sequence was retained when a covering acknowledgement
was accepted, or was declared lost in a gap that was accepted later.
-/

namespace VodogeEdge

open Std ExtTreeMap

namespace UplinkState

def after (ops : List UplinkOp) : UplinkState := runFrom step new ops

theorem after_append (ops more : List UplinkOp) :
    after (ops ++ more) = runFrom step (after ops) more := runFrom_append _ _ _ _

theorem reachable_after (ops : List UplinkOp) : (after ops).Reachable := Reachable.new.run ops

/-! ## What the history can say about a sequence -/

/-- The call accepts an acknowledgement that covers `q` while `q` is
retained. -/
def AcksRetained (q : Nat) (before : List UplinkOp) (op : UplinkOp) : Prop :=
  ∃ ack, op = .observeAck ack ∧ q ∈ (after before).records ∧ q ≤ ack.committedThrough
    ∧ ((after before).observeAck ack).1.isOk

def DeclaresLost (q : Nat) (gapId : GapId) (before : List UplinkOp) (op : UplinkOp) : Prop :=
  ∃ sequences reason, op = .declareLoss gapId sequences reason ∧ q ∈ sequences
    ∧ ((after before).declareLoss gapId sequences reason).1.isOk

/-- The call accepts, for the first time, a gap that `q` was declared lost
in before. -/
def AcceptsLoss (q : Nat) (before : List UplinkOp) (op : UplinkOp) : Prop :=
  ∃ gapId outcome, op = .acceptGap gapId
    ∧ ((after before).acceptGap gapId).1 = .ok outcome ∧ outcome.alreadyAccepted = false
    ∧ Once (DeclaresLost q gapId) before

/-- Every place a sequence can have reached is explained by the history. -/
structure Justified (ops : List UplinkOp) (s : UplinkState) : Prop where
  committed : ∀ {q : Nat}, 0 < q → q ≤ s.committedThrough →
    Once (AcksRetained q) ops ∨ Once (AcceptsLoss q) ops
  loss : ∀ {q : Nat}, q ∈ s.acceptedLossSequences → Once (AcceptsLoss q) ops
  pending : ∀ {q : Nat} {gapId : GapId}, s.InPendingGap q gapId →
    Once (DeclaresLost q gapId) ops

variable {ops : List UplinkOp} {s : UplinkState} {q : Nat} {record : UplinkRecord}

/-- A step that touches neither the cursor, the losses nor the gaps keeps
the explanations. -/
theorem Justified.frame {t : UplinkState} (h : Justified ops s) (op : UplinkOp)
    (hc : t.committedThrough = s.committedThrough)
    (hl : t.acceptedLossSequences = s.acceptedLossSequences) (hp : t.pendingGaps = s.pendingGaps) :
    Justified (ops ++ [op]) t where
  committed h1 h2 := (h.committed h1 (hc ▸ h2)).imp (·.snoc op) (·.snoc op)
  loss hq := (h.loss (hl ▸ hq)).snoc op
  pending hq := (h.pending (by
    obtain ⟨gap, hgap, hcov⟩ := hq
    exact ⟨gap, hp ▸ hgap, hcov⟩)).snoc op

section

variable (h : Justified ops (after ops))
include h

theorem Justified.append (envelopeId : EnvelopeId)
    (payload : Bytes) (retention : RetentionClass) :
    Justified (ops ++ [.append envelopeId payload retention])
      ((after ops).append envelopeId payload retention).2 := by
  rcases (after ops).append_cases envelopeId payload retention with ⟨e, heq, -⟩ | ⟨-, -, heq⟩ <;>
    exact heq ▸ h.frame _ rfl rfl rfl

theorem Justified.declareLoss (gapId : GapId) (sequences : List Nat) (reason : String) :
    Justified (ops ++ [.declareLoss gapId sequences reason])
      ((after ops).declareLoss gapId sequences reason).2 := by
  rcases (after ops).declareLoss_cases gapId sequences reason with
    ⟨e, heq⟩ | ⟨gap, records, -, -, -, hcov, -, heq⟩
  · rw [heq]; exact h.frame _ rfl rfl rfl
  · have hok : ((after ops).declareLoss gapId sequences reason).1.isOk := by
      rw [heq]; rfl
    rw [heq]
    refine ⟨fun h1 h2 => (h.committed h1 h2).imp (·.snoc _) (·.snoc _),
      fun hq => (h.loss hq).snoc _, fun {q g} hq => ?_⟩
    obtain ⟨gap', hgap', hcov'⟩ := hq
    rw [getElem?_insert] at hgap'
    split at hgap'
    next hg =>
      cases hgap'
      obtain rfl := Std.compare_eq_iff_eq.mp hg
      exact Once.last ⟨sequences, reason, rfl, (hcov q).mp hcov', hok⟩
    · exact (h.pending ⟨gap', hgap', hcov'⟩).snoc _

theorem Justified.acceptGap (gapId : GapId) :
    Justified (ops ++ [.acceptGap gapId]) ((after ops).acceptGap gapId).2 := by
  rcases (after ops).acceptGap_cases gapId with ⟨-, heq⟩ | ⟨-, heq⟩ |
    ⟨gap, cursor, losses, missing, more, hgap, -, -, hcross, hloss, heq⟩
  · rw [heq]; exact h.frame _ rfl rfl rfl
  · rw [heq]; exact h.frame _ rfl rfl rfl
  · -- old losses are explained already, the gap's sequences by this very call
    have hlost : ∀ {q : Nat}, q ∈ (after ops).acceptedLossSequences
        ∨ rangesCover gap.ranges q → Once (AcceptsLoss q) (ops ++ [.acceptGap gapId]) := by
      rintro q (hq | hq)
      · exact (h.loss hq).snoc _
      · exact Once.last ⟨gapId, _, rfl, by rw [heq], rfl, h.pending ⟨gap, hgap, hq⟩⟩
    rw [heq]
    refine ⟨fun {q} h1 h2 => ?_, fun {q} hq => hlost ((hloss q).mp hq).1, fun {q g} hq => ?_⟩
    · by_cases hold : q ≤ (after ops).committedThrough
      · exact (h.committed h1 hold).imp (·.snoc _) (·.snoc _)
      · exact .inr (hlost (hcross q (by omega) h2))
    · obtain ⟨gap', hgap', hcov'⟩ := hq
      rw [getElem?_erase] at hgap'
      split at hgap'
      · cases hgap'
      · exact (h.pending ⟨gap', hgap', hcov'⟩).snoc _

theorem Justified.observeAck (ack : UplinkAck) :
    Justified (ops ++ [.observeAck ack]) ((after ops).observeAck ack).2 := by
  rcases (after ops).observeAck_cases ack with ⟨-, heq⟩ | ⟨e, heq, -⟩ |
    ⟨-, -, -, hcross, heq⟩
  · rw [heq]; exact h.frame _ rfl rfl rfl
  · rw [heq]; exact h.frame _ rfl rfl rfl
  · have hok : ((after ops).observeAck ack).1.isOk := by rw [heq]; rfl
    rw [heq]
    refine ⟨fun {q} h1 h2 => ?_, fun {q} hq => ?_, fun hq => (h.pending hq).snoc _⟩
    · by_cases hold : q ≤ (after ops).committedThrough
      · exact (h.committed h1 hold).imp (·.snoc _) (·.snoc _)
      · rcases hcross q (by omega) h2 with hr | hl
        · exact .inl (Once.last ⟨ack, rfl, hr, h2, hok⟩)
        · exact .inr ((h.loss hl).snoc _)
    · exact (h.loss ((mem_retireThrough_losses _ _ q).mp hq).1).snoc _

end

theorem justified_new : Justified [] new where
  committed h1 h2 := by
    simp only [new] at h2
    omega
  loss hq := by simp [new] at hq
  pending hq := by
    obtain ⟨gap, hgap, -⟩ := hq
    simp [new] at hgap

theorem Justified.step (h : Justified ops (after ops)) :
    ∀ op, Justified (ops ++ [op]) ((after ops).step op)
  | .append envelopeId payload retention => h.append envelopeId payload retention
  | .declareLoss gapId sequences reason => h.declareLoss gapId sequences reason
  | .acceptGap gapId => h.acceptGap gapId
  | .observeAck ack => h.observeAck ack

theorem justified_after (ops : List UplinkOp) : Justified ops (after ops) :=
  runFrom_history justified_new (fun _ op h => Justified.step h op) ops

/-! ## The cursor -/

theorem step_committedThrough_le (s : UplinkState) (op : UplinkOp) :
    s.committedThrough ≤ (s.step op).committedThrough := by
  cases op with
  | append envelopeId payload retention =>
    rcases s.append_cases envelopeId payload retention with ⟨e, heq, -⟩ | ⟨-, -, heq⟩ <;>
      simp only [step, heq, appendedAs, Nat.le_refl]
  | declareLoss gapId sequences reason =>
    rcases s.declareLoss_cases gapId sequences reason with
      ⟨e, heq⟩ | ⟨gap, records, -, -, -, -, -, heq⟩ <;>
      simp only [step, heq, Nat.le_refl]
  | acceptGap gapId =>
    rcases s.acceptGap_cases gapId with ⟨-, heq⟩ | ⟨-, heq⟩ |
      ⟨gap, cursor, losses, missing, more, -, -, hle, -, -, heq⟩
    · simp [step, heq]
    · simp [step, heq]
    · simpa only [step, heq] using hle
  | observeAck ack =>
    rcases s.observeAck_cases ack with ⟨-, heq⟩ | ⟨e, heq, -⟩ | ⟨hle, -, -, -, heq⟩
    · simp [step, heq]
    · simp [step, heq]
    · rwa [step, heq]

theorem run_committedThrough_le (s : UplinkState) (ops : List UplinkOp) :
    s.committedThrough ≤ (runFrom step s ops).committedThrough :=
  runFrom_invariant (I := fun t : UplinkState => s.committedThrough ≤ t.committedThrough)
    (fun t op h => Nat.le_trans h (t.step_committedThrough_le op)) ops (Nat.le_refl _)

/-! ## Protected records -/

/-- A protected record is still there after a call, unless the call
accepts an acknowledgement that covers it. -/
theorem step_keeps_protected (h : s.Covered)
    (hrec : s.records[q]? = some record) (hprot : record.retention = .protected_) (op : UplinkOp) :
    (s.step op).records[q]? = some record
      ∨ ∃ ack, op = .observeAck ack ∧ q ≤ ack.committedThrough
        ∧ (s.observeAck ack).1.isOk := by
  have hwin := h.placed.window (p := .retained) (mem_table.mpr ⟨record, hrec⟩)
  cases op with
  | append envelopeId payload retention =>
    left
    rcases s.append_cases envelopeId payload retention with ⟨e, heq, -⟩ | ⟨-, -, heq⟩
    · simpa only [step, heq] using hrec
    · simp [step, heq, appendedAs_records, if_neg (show s.lastAllocated + 1 ≠ q by omega), hrec]
  | declareLoss gapId sequences reason =>
    left
    rcases s.declareLoss_cases gapId sequences reason with
      ⟨e, heq⟩ | ⟨gap, records, -, -, hev, -, hrec', heq⟩
    · simpa only [step, heq] using hrec
    · have hq : q ∉ sequences := by
        intro hq
        obtain ⟨record', hr, hevict⟩ := hev q hq
        rw [hrec] at hr
        cases hr
        rw [hprot] at hevict
        cases hevict
      simp [step, heq, hrec', if_neg hq, hrec]
  | acceptGap gapId =>
    left
    rcases s.acceptGap_cases gapId with ⟨-, heq⟩ | ⟨-, heq⟩ |
      ⟨gap, cursor, losses, missing, more, -, -, -, -, -, heq⟩ <;>
      simpa only [step, heq] using hrec
  | observeAck ack =>
    rcases s.observeAck_cases ack with ⟨-, heq⟩ | ⟨e, heq, -⟩ | ⟨-, -, -, -, heq⟩
    · left; simpa only [step, heq] using hrec
    · left; simpa only [step, heq] using hrec
    · by_cases hq : q ≤ ack.committedThrough
      · exact .inr ⟨ack, rfl, hq, by rw [heq]; rfl⟩
      · left
        have hout : ¬(s.committedThrough < q ∧ q ≤ ack.committedThrough) :=
          fun hin => hq hin.2
        simp [step, heq, retireThrough_records, if_neg hout, hrec]

/-- The call, taken at `s₀` after `before`, accepts an acknowledgement that
covers `q`. -/
def AcksFrom (s₀ : UplinkState) (q : Nat) (before : List UplinkOp) (op : UplinkOp) : Prop :=
  ∃ ack, op = .observeAck ack ∧ q ≤ ack.committedThrough
    ∧ ((runFrom step s₀ before).observeAck ack).1.isOk

theorem run_keeps_protected (h : s.Covered) (hrec : s.records[q]? = some record)
    (hprot : record.retention = .protected_) (ops : List UplinkOp) :
    (runFrom step s ops).records[q]? = some record ∨ Once (AcksFrom s q) ops := by
  refine runFrom_history (I := fun ops (t : UplinkState) => t.records[q]? = some record
    ∨ Once (AcksFrom s q) ops) (.inl hrec) (fun ops op ih => ?_) ops
  rcases ih with hkept | hacked
  · have hcov : (runFrom step s ops).Covered :=
      runFrom_invariant (fun _ op h => h.step op) ops h
    rcases step_keeps_protected hcov hkept hprot op with hstep | ⟨ack, rfl, hle, hok⟩
    · exact .inl hstep
    · exact .inr (Once.last ⟨ack, rfl, hle, hok⟩)
  · exact .inr (hacked.snoc op)

/-! ## Hints -/

/-- A record named by a missing range survives the acknowledgement that
names it. -/
theorem hinted_record_stays {ack : UplinkAck} (hhint : rangesCover ack.missingRanges q) :
    (s.observeAck ack).2.records[q]? = s.records[q]? := by
  rcases s.observeAck_cases ack with ⟨-, heq⟩ | ⟨e, heq, -⟩ | ⟨-, -, hvalid, -, heq⟩
  · rw [heq]
  · rw [heq]
  · obtain ⟨range, hmem, hlo, -⟩ := hhint
    have habove := (validateMissingHint_ok.mp hvalid range hmem).1
    rw [heq]
    show (s.retireThrough ack).records[q]? = _
    rw [retireThrough_records, if_neg (by omega)]

/-- What an acknowledgement removes does not depend on its hints: it
removes nothing, or exactly what the bare cursor would have removed. -/
theorem removal_ignores_hints (s : UplinkState) (ack : UplinkAck) :
    (s.observeAck ack).2.records = s.records
      ∨ (s.observeAck ack).2.records = (s.observeAck (.plain ack.committedThrough)).2.records := by
  rcases s.observeAck_cases ack with ⟨-, heq⟩ | ⟨e, heq, -⟩ | ⟨hle, hlast, -, hcross, heq⟩
  · left; rw [heq]
  · left; rw [heq]
  · right
    rcases s.observeAck_cases (.plain ack.committedThrough) with
      ⟨hlt, -⟩ | ⟨e, -, -, hno⟩ | ⟨-, -, -, -, heq'⟩
    · exact absurd hle (Nat.not_le.mpr hlt)
    · exact absurd ⟨hlast, rfl, hcross⟩ hno
    · rw [heq, heq']
      rfl

/-- Over every history from an empty journal: the cursor never goes back; a
committed sequence was acknowledged while retained or declared lost in a gap
accepted later; a protected record stays until a covering acknowledgement is
accepted; and the missing ranges of an acknowledgement remove nothing. -/
theorem committed_only_when_justified (ops : List UplinkOp) :
    (∀ earlier later, ops = earlier ++ later →
        (after earlier).committedThrough ≤ (after ops).committedThrough)
      ∧ (∀ q, 0 < q → q ≤ (after ops).committedThrough →
          Once (AcksRetained q) ops ∨ Once (AcceptsLoss q) ops)
      ∧ (∀ earlier later envelopeId payload q,
          ops = earlier ++ .append envelopeId payload .protected_ :: later →
          ((after earlier).append envelopeId payload .protected_).1 = .ok q →
          (after ops).records[q]? = some ⟨q, envelopeId, payload, .protected_⟩
          ∨ Once (AcksFrom ((after earlier).append envelopeId payload .protected_).2 q) later)
      ∧ (∀ ack q, rangesCover ack.missingRanges q →
          ((after ops).observeAck ack).2.records[q]? = (after ops).records[q]?)
      ∧ (∀ ack, ((after ops).observeAck ack).2.records = (after ops).records
          ∨ ((after ops).observeAck ack).2.records
            = ((after ops).observeAck (.plain ack.committedThrough)).2.records) := by
  refine ⟨?_, fun q => (justified_after ops).committed, ?_,
    fun ack q => hinted_record_stays, (after ops).removal_ignores_hints⟩
  · rintro earlier later rfl
    rw [after_append]
    exact run_committedThrough_le _ _
  · rintro earlier later envelopeId payload q rfl hok
    have hcov := (reachable_after earlier).covered.append envelopeId payload .protected_
    rcases (after earlier).append_cases envelopeId payload .protected_ with
      ⟨e, heq, -⟩ | ⟨-, -, heq⟩
    · rw [heq] at hok
      cases hok
    · have hrec : ((after earlier).append envelopeId payload .protected_).2.records[q]?
          = some ⟨q, envelopeId, payload, .protected_⟩ := by
        rw [heq] at hok ⊢
        cases hok
        exact getElem?_insert_self
      rw [after_append]
      exact run_keeps_protected hcov hrec rfl later

/-- One protected record, then an evictable one that is given up and
accepted before the cursor reaches it. -/
def lossAboveProtected : List UplinkOp :=
  [.append (NonBlank.mk "keep" (by decide)) [1] .protected_,
   .append (NonBlank.mk "drop" (by decide)) [2] .evictable,
   .declareLoss (NonBlank.mk "gap" (by decide)) [2] "queue_capacity",
   .acceptGap (NonBlank.mk "gap" (by decide)),
   .observeAck (.plain 2)]

theorem lossAboveProtected_justified :
    (after lossAboveProtected).committedThrough = 2
      ∧ (Once (AcksRetained 1) lossAboveProtected ∨ Once (AcceptsLoss 1) lossAboveProtected)
      ∧ (Once (AcksRetained 2) lossAboveProtected ∨ Once (AcceptsLoss 2) lossAboveProtected) :=
  ⟨by decide,
    (committed_only_when_justified lossAboveProtected).2.1 1 (by decide) (by decide),
    (committed_only_when_justified lossAboveProtected).2.1 2 (by decide) (by decide)⟩

/-! ## The order of acknowledgements -/

/-- Observes the acknowledgements in turn, whatever the results. -/
def observeAcks (s : UplinkState) (acks : List UplinkAck) : UplinkState :=
  runFrom (fun s ack => (s.observeAck ack).2) s acks

/-- What a fresh acknowledgement must meet to be taken. -/
def Takes (s : UplinkState) (ack : UplinkAck) : Prop :=
  ack.committedThrough ≤ s.lastAllocated
    ∧ s.validateMissingHint ack.committedThrough ack.missingRanges = .ok ()
    ∧ s.Crossable ack.committedThrough

/-- `t` is `s` with everything retired up to the largest cursor that `s`
itself would take. Of the list only its members are named. -/
structure Settled (s : UplinkState) (acks : List UplinkAck) (t : UplinkState) : Prop where
  allocated : t.lastAllocated = s.lastAllocated
  forward : s.committedThrough ≤ t.committedThrough
  reached : t.committedThrough = s.committedThrough
    ∨ ∃ ack ∈ acks, s.Takes ack ∧ ack.committedThrough = t.committedThrough
  largest : ∀ ack ∈ acks, s.Takes ack → ack.committedThrough ≤ t.committedThrough
  records : ∀ q : Nat, t.records[q]?
    = if s.committedThrough < q ∧ q ≤ t.committedThrough then none else s.records[q]?
  losses : ∀ q, q ∈ t.acceptedLossSequences ↔ q ∈ s.acceptedLossSequences
    ∧ (s.committedThrough < q → q ≤ t.committedThrough → q ∈ s.records)

section
variable {t t' : UplinkState} {acks acks' : List UplinkAck}

theorem settled_nil (s : UplinkState) : Settled s [] s where
  allocated := rfl
  forward := Nat.le_refl _
  reached := .inl rfl
  largest := by simp
  records q := by simp
  losses q := by
    refine ⟨fun h => ⟨h, fun h1 h2 => ?_⟩, And.left⟩
    omega

namespace Settled

variable (h : Settled s acks t) {ack : UplinkAck}
include h

theorem crossable : s.Crossable t.committedThrough := by
  rcases h.reached with hsame | ⟨ack, -, htakes, hreached⟩
  · intro q h1 h2
    omega
  · rw [← hreached]
    exact htakes.2.2

theorem mem_records {q : Nat} (hq : t.committedThrough < q) : q ∈ t.records ↔ q ∈ s.records := by
  rw [mem_table, h.records, if_neg (by omega), ← mem_table]

/-- A cursor is good now exactly if it was at the start: what was crossed
since was resolved. -/
theorem takes_iff : t.Takes ack ↔ s.Takes ack := by
  have hforward := h.forward
  have hresolved : ∀ q, t.committedThrough < q →
      (q ∈ t.records ∨ q ∈ t.acceptedLossSequences
        ↔ q ∈ s.records ∨ q ∈ s.acceptedLossSequences) := by
    intro q hq
    rw [h.mem_records hq, h.losses]
    refine or_congr_right ⟨And.left, fun hloss => ⟨hloss, fun h1 h2 => ?_⟩⟩
    omega
  unfold Takes
  rw [validateMissingHint_ok, validateMissingHint_ok, h.allocated]
  refine and_congr_right fun _ => and_congr_right fun _ => ⟨?_, ?_⟩
  · intro hcross q h1 h2
    rcases lt_or_ge t.committedThrough q with hq | hq
    · exact (hresolved q hq).mp (hcross q hq h2)
    · exact h.crossable q h1 hq
  · intro hcross q h1 h2
    exact (hresolved q h1).mpr (hcross q (by omega) h2)

theorem skip (hack : s.Takes ack → ack.committedThrough ≤ t.committedThrough) :
    Settled s (acks ++ [ack]) t := by
  refine { h with reached := ?_, largest := ?_ }
  · refine h.reached.imp_right ?_
    rintro ⟨taken, hmem, htaken⟩
    exact ⟨taken, by simp [hmem], htaken⟩
  · intro other hmem htakes
    rcases List.mem_append.mp hmem with hmem | hmem
    · exact h.largest other hmem htakes
    · obtain rfl := List.mem_singleton.mp hmem
      exact hack htakes

theorem retireThrough (hle : t.committedThrough ≤ ack.committedThrough)
    (htakes : s.Takes ack) : Settled s (acks ++ [ack]) (t.retireThrough ack) := by
  have hforward := h.forward
  refine ⟨h.allocated, hforward.trans hle, .inr ⟨ack, by simp, htakes, rfl⟩, ?_, ?_, ?_⟩
  · intro other hmem hother
    rcases List.mem_append.mp hmem with hmem | hmem
    · exact (h.largest other hmem hother).trans hle
    · obtain rfl := List.mem_singleton.mp hmem
      exact Nat.le_refl _
  · intro q
    rw [t.retireThrough_records, h.records]
    change _ = if s.committedThrough < q ∧ q ≤ ack.committedThrough then none else _
    split_ifs <;> first | rfl | omega
  · intro q
    rw [mem_retireThrough_losses, h.losses]
    change _ ↔ _ ∧ (_ → q ≤ ack.committedThrough → _)
    constructor
    · rintro ⟨⟨hloss, hold⟩, hnew⟩
      refine ⟨hloss, fun h1 h2 => ?_⟩
      rcases lt_or_ge t.committedThrough q with hq | hq
      · exact (h.mem_records hq).mp (hnew hq h2)
      · exact hold h1 hq
    · rintro ⟨hloss, hall⟩
      refine ⟨⟨hloss, fun h1 h2 => hall h1 (by omega)⟩, fun h1 h2 => ?_⟩
      exact (h.mem_records h1).mpr (hall (by omega) h2)

theorem observeAck (ack : UplinkAck) : Settled s (acks ++ [ack]) (t.observeAck ack).2 := by
  rcases t.observeAck_cases ack with ⟨hstale, heq⟩ | ⟨e, heq, hle, hno⟩ | ⟨hle, hmay⟩
  · rw [heq]
    exact h.skip fun _ => Nat.le_of_lt hstale
  · rw [heq]
    exact h.skip fun htakes => absurd (h.takes_iff.mpr htakes) hno
  · obtain ⟨hallocated, hhint, hcross, heq⟩ := hmay
    rw [heq]
    exact h.retireThrough hle (h.takes_iff.mp ⟨hallocated, hhint, hcross⟩)

theorem committedThrough_le (h' : Settled s acks' t') (hsub : ∀ ack ∈ acks, ack ∈ acks') :
    t.committedThrough ≤ t'.committedThrough := by
  rcases h.reached with hsame | ⟨ack, hmem, htakes, hreached⟩
  · rw [hsame]
    exact h'.forward
  · rw [← hreached]
    exact h'.largest ack (hsub ack hmem) htakes

end Settled

theorem settled_observeAcks (s : UplinkState) (acks : List UplinkAck) :
    Settled s acks (s.observeAcks acks) :=
  runFrom_history (settled_nil s) (fun _ ack h => h.observeAck ack) acks

/-- Lists of acknowledgements with the same members, in any order and with any
repetitions, leave the same cursor, records and losses, from every state. -/
theorem observeAcks_commute (s : UplinkState) (hsame : ∀ ack, ack ∈ acks ↔ ack ∈ acks') :
    (s.observeAcks acks).committedThrough = (s.observeAcks acks').committedThrough
      ∧ (s.observeAcks acks).records = (s.observeAcks acks').records
      ∧ (s.observeAcks acks).acceptedLossSequences
        = (s.observeAcks acks').acceptedLossSequences := by
  have h := settled_observeAcks s acks
  have h' := settled_observeAcks s acks'
  have hcursor := Nat.le_antisymm (h.committedThrough_le h' fun ack => (hsame ack).mp)
    (h'.committedThrough_le h fun ack => (hsame ack).mpr)
  refine ⟨hcursor, ext_getElem? fun q => ?_, ExtTreeSet.ext_mem fun q => ?_⟩
  · rw [h.records, h'.records, hcursor]
  · rw [h.losses, h'.losses, hcursor]

end

/-- The second cursor is acceptable on its own; the third is not. -/
theorem observeAcks_commute_sample :
    ((after (lossAboveProtected.take 4)).observeAcks [.plain 1, .plain 2, .plain 3]).records
      = ((after (lossAboveProtected.take 4)).observeAcks
        [.plain 3, .plain 2, .plain 1, .plain 2]).records :=
  (observeAcks_commute _ (show ∀ ack, ack ∈ [UplinkAck.plain 1, .plain 2, .plain 3]
    ↔ ack ∈ [UplinkAck.plain 3, .plain 2, .plain 1, .plain 2] by grind)).2.1

end UplinkState

end VodogeEdge
