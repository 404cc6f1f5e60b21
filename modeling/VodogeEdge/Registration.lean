import Mathlib.Data.List.Perm.Basic
import Mathlib.Data.List.Sort

/-!
# Registration arbitration

`arbitrate` combines what the sources say about registration: evidence is
ranked by the confidence of its source, the best source that reports
camped wins, and recovery (taking the radio down) is allowed only if none
does.

A cell location without a network or a cell identity is an incomplete
sample and is meant not to vote. The constructor encodes it as an
ordinary "not camped" of the source with the highest confidence.
`arbitrate_spec` reads the verdict off the set of evidence;
`incomplete_no_vote_iff` says for which samples the encoding leaves the
verdict as it is without the incomplete ones.
-/

namespace VodogeEdge.Registration

open List

/-! ## Evidence -/

inductive Confidence where
  | low
  | medium
  | high

def Confidence.rank : Confidence → Nat
  | .low => 0
  | .medium => 1
  | .high => 2

inductive RegistrationSourceKind where
  | servingSystem
  | cereg
  | cellLocation
deriving DecidableEq

namespace RegistrationSourceKind

def confidence : RegistrationSourceKind → Confidence
  | .servingSystem => .low
  | .cereg => .medium
  | .cellLocation => .high

def asStr : RegistrationSourceKind → String
  | .servingSystem => "serving_system"
  | .cereg => "cereg"
  | .cellLocation => "cell_location"

end RegistrationSourceKind

structure Plmn where
  mcc : String
  mnc : String

def Plmn.isComplete (plmn : Plmn) : Bool :=
  plmn.mcc ≠ "" && plmn.mnc ≠ "" && plmn.mcc ≠ "0" && plmn.mnc ≠ "0"

structure RegistrationEvidence where
  source : RegistrationSourceKind
  registered : Bool
  plmn : Option Plmn
  cellId : Option Nat

namespace RegistrationEvidence

def servingSystem (registered : Bool) (plmn : Option Plmn) : RegistrationEvidence :=
  ⟨.servingSystem, registered, plmn, none⟩

def cereg (registered : Bool) : RegistrationEvidence := ⟨.cereg, registered, none, none⟩

def cellLocation (plmn : Option Plmn) (cellId : Option Nat) : RegistrationEvidence :=
  let complete := (plmn.map Plmn.isComplete).getD false && cellId.getD 0 ≠ 0
  ⟨.cellLocation, complete, plmn, cellId⟩

def rank (evidence : RegistrationEvidence) : Nat := evidence.source.confidence.rank

end RegistrationEvidence

/-! ## The verdict -/

structure RegistrationVerdict where
  registered : Bool
  recoveryAllowed : Bool
  trustedSource : Option RegistrationSourceKind
  conflict : Bool
  reason : String

/-- The order of `sort_by_key` under `Reverse`. -/
def Precedes (a b : RegistrationEvidence) : Prop := b.rank ≤ a.rank

instance : DecidableRel Precedes := fun a b => inferInstanceAs (Decidable (b.rank ≤ a.rank))

instance : Std.Total Precedes := ⟨fun a b => Nat.le_total b.rank a.rank⟩

instance : IsTrans RegistrationEvidence Precedes := ⟨fun _ _ _ hab hbc => Nat.le_trans hbc hab⟩

/-- The evidence, highest confidence first; equal confidence keeps its
order. -/
def ranked (evidence : List RegistrationEvidence) : List RegistrationEvidence :=
  evidence.insertionSort Precedes

def arbitrate (evidence : List RegistrationEvidence) : RegistrationVerdict :=
  if evidence.isEmpty then
    ⟨false, false, none, false, "no registration sources reported"⟩
  else
    let registered := (ranked evidence).find? (·.registered)
    let unregistered := (ranked evidence).any (!·.registered)
    let conflict := registered.isSome && unregistered
    match registered with
    | some winner =>
      ⟨true, false, some winner.source, conflict,
        winner.source.asStr ++ " reports camped"
          ++ (if conflict then "; lower-confidence sources disagree" else "")
          ++ "; recovery is suppressed"⟩
    | none =>
      ⟨false, true, (ranked evidence).head?.map (·.source), false,
        "all registration sources report not camped; recovery is allowed"⟩

/-! ## The verdict off the set of evidence -/

variable {evidence : List RegistrationEvidence}

/-- `source` is the most trusted of those that gave evidence of kind `p`. -/
def Best (p : RegistrationEvidence → Prop) (evidence : List RegistrationEvidence)
    (source : RegistrationSourceKind) : Prop :=
  (∃ e ∈ evidence, p e ∧ e.source = source) ∧
    ∀ e ∈ evidence, p e → e.rank ≤ source.confidence.rank

variable {s t : RegistrationSourceKind} {p : RegistrationEvidence → Prop}

theorem rank_injective (h : s.confidence.rank = t.confidence.rank) : s = t := by
  revert h
  cases s <;> cases t <;> decide

theorem Best.unique (hs : Best p evidence s) (ht : Best p evidence t) : s = t := by
  obtain ⟨⟨e, he, hpe, rfl⟩, hsmax⟩ := hs
  obtain ⟨⟨e', he', hpe', rfl⟩, htmax⟩ := ht
  exact rank_injective (le_antisymm (htmax e he hpe) (hsmax e' he' hpe'))

@[simp] theorem mem_ranked {e : RegistrationEvidence} : e ∈ ranked evidence ↔ e ∈ evidence :=
  mem_insertionSort Precedes

theorem best_of_find? {p : RegistrationEvidence → Bool} {winner : RegistrationEvidence}
    (h : (ranked evidence).find? p = some winner) : Best (p · = true) evidence winner.source := by
  obtain ⟨hp, before, after, heq, hbefore⟩ := List.find?_eq_some_iff_append.mp h
  have hsorted : (ranked evidence).Pairwise Precedes := pairwise_insertionSort _ _
  rw [heq, pairwise_append] at hsorted
  refine ⟨⟨winner, mem_ranked.mp (heq ▸ by simp), hp, rfl⟩, fun e he hpe => ?_⟩
  have hmem := mem_ranked.mpr he
  rw [heq, mem_append, mem_cons] at hmem
  rcases hmem with hmem | rfl | hmem
  · exact absurd hpe (by simpa using hbefore e hmem)
  · exact le_rfl
  · exact rel_of_pairwise_cons hsorted.2.1 hmem

/-- What the verdict says, the reason's wording apart. -/
def RegistrationVerdict.core (verdict : RegistrationVerdict) :
    Bool × Bool × Option RegistrationSourceKind × Bool :=
  (verdict.registered, verdict.recoveryAllowed, verdict.trustedSource, verdict.conflict)

inductive Outcome (evidence : List RegistrationEvidence) :
    Bool × Bool × Option RegistrationSourceKind × Bool → Prop where
  | silent (h : ∀ e, e ∉ evidence) : Outcome evidence (false, false, none, false)
  | camped {source : RegistrationSourceKind} {conflict : Bool}
      (hbest : Best (·.registered = true) evidence source)
      (hconflict : conflict = true ↔ ∃ e ∈ evidence, e.registered = false) :
      Outcome evidence (true, false, some source, conflict)
  | notCamped {source : RegistrationSourceKind} (hbest : Best (fun _ => True) evidence source)
      (h : ∀ e ∈ evidence, e.registered = false) :
      Outcome evidence (false, true, some source, false)

theorem arbitrate_spec (evidence : List RegistrationEvidence) :
    Outcome evidence (arbitrate evidence).core := by
  rw [arbitrate]
  split
  next hempty => exact .silent (by simp [isEmpty_iff.mp hempty])
  next hne =>
    cases hfind : (ranked evidence).find? (·.registered) with
    | some winner =>
      refine .camped (best_of_find? hfind) ?_
      simp
    | none =>
      have hnone : ∀ e ∈ evidence, e.registered = false := by
        simpa using List.find?_eq_none.mp hfind
      cases hhead : (ranked evidence).head? with
      | none =>
        have : evidence = [] := by
          refine eq_nil_iff_forall_not_mem.mpr fun e he => ?_
          rw [← mem_ranked, List.head?_eq_none_iff.mp hhead] at he
          exact absurd he not_mem_nil
        exact absurd (isEmpty_iff.mpr this) hne
      | some first =>
        have hfirst : (ranked evidence).find? (fun _ => true) = some first := by
          obtain ⟨rest, hrest⟩ := List.head?_eq_some_iff.mp hhead
          rw [hrest, List.find?_cons_of_pos rfl]
        obtain ⟨⟨e, he, -, hsource⟩, hmax⟩ := best_of_find? hfirst
        exact .notCamped ⟨⟨e, he, trivial, hsource⟩, fun e he _ => hmax e he rfl⟩ hnone

variable {v : Bool × Bool × Option RegistrationSourceKind × Bool}
  {other : List RegistrationEvidence}

theorem Best.of_mem_iff {source : RegistrationSourceKind} (h : Best p evidence source)
    (hmem : ∀ e, p e → (e ∈ evidence ↔ e ∈ other)) : Best p other source := by
  obtain ⟨⟨e, he, hp, hsource⟩, hmax⟩ := h
  exact ⟨⟨e, (hmem e hp).mp he, hp, hsource⟩, fun e he hp => hmax e ((hmem e hp).mpr he) hp⟩

theorem Outcome.unique {w : Bool × Bool × Option RegistrationSourceKind × Bool}
    (hv : Outcome evidence v) (hw : Outcome evidence w) : v = w := by
  cases hv with
  | silent hnone =>
    cases hw with
    | silent => rfl
    | camped hbest | notCamped hbest =>
      obtain ⟨⟨e, he, -⟩, -⟩ := hbest
      exact absurd he (hnone e)
  | camped hbest hconflict =>
    obtain ⟨⟨e, he, hcamped, -⟩, -⟩ := id hbest
    cases hw with
    | silent hnone => exact absurd he (hnone e)
    | camped hbest' hconflict' =>
      rw [hbest.unique hbest', Bool.eq_iff_iff.mpr (hconflict.trans hconflict'.symm)]
    | notCamped _ hnone => exact absurd hcamped (by simp [hnone e he])
  | notCamped hbest hnone =>
    obtain ⟨⟨e, he, -⟩, -⟩ := id hbest
    cases hw with
    | silent hnone => exact absurd he (hnone e)
    | camped hbest' =>
      obtain ⟨⟨e', he', hcamped, -⟩, -⟩ := hbest'
      exact absurd hcamped (by simp [hnone e' he'])
    | notCamped hbest' => rw [hbest.unique hbest']

theorem Outcome.of_mem_iff (h : Outcome evidence v) (hmem : ∀ e, e ∈ evidence ↔ e ∈ other) :
    Outcome other v := by
  cases h with
  | silent hnone => exact .silent fun e he => hnone e ((hmem e).mpr he)
  | camped hbest hconflict =>
    exact .camped (hbest.of_mem_iff fun e _ => hmem e) (by simpa only [hmem] using hconflict)
  | notCamped hbest hnone =>
    exact .notCamped (hbest.of_mem_iff fun e _ => hmem e) fun e he => hnone e ((hmem e).mpr he)

theorem core_eq_of_outcome (h : Outcome evidence v) : (arbitrate evidence).core = v :=
  (arbitrate_spec evidence).unique h

theorem core_perm (h : other.Perm evidence) : (arbitrate other).core = (arbitrate evidence).core :=
  core_eq_of_outcome ((arbitrate_spec evidence).of_mem_iff fun _ => h.mem_iff.symm)

/-- Recovery is allowed exactly if something was reported and nothing
reports camped. -/
theorem recoveryAllowed_iff :
    (arbitrate evidence).recoveryAllowed = true ↔
      evidence ≠ [] ∧ ∀ e ∈ evidence, e.registered = false := by
  change (arbitrate evidence).core.2.1 = true ↔ _
  have hspec := arbitrate_spec evidence
  generalize (arbitrate evidence).core = core at hspec ⊢
  cases hspec with
  | silent hnone => simp [eq_nil_iff_forall_not_mem.mpr hnone]
  | camped hbest _ =>
    obtain ⟨⟨e, he, hcamped, -⟩, -⟩ := hbest
    simp only [Bool.false_eq_true, false_iff, not_and]
    exact fun _ hnone => absurd hcamped (by simp [hnone e he])
  | notCamped hbest hnone =>
    obtain ⟨⟨e, he, -⟩, -⟩ := hbest
    simp only [true_iff]
    exact ⟨ne_nil_of_mem he, hnone⟩

/-! ## Samples -/

inductive Sample where
  | servingSystem (registered : Bool) (plmn : Option Plmn)
  | cereg (registered : Bool)
  | cellLocation (plmn : Option Plmn) (cellId : Option Nat)

namespace Sample

def toEvidence : Sample → RegistrationEvidence
  | .servingSystem registered plmn => .servingSystem registered plmn
  | .cereg registered => .cereg registered
  | .cellLocation plmn cellId => .cellLocation plmn cellId

/-- A cell location without a complete network or without a cell identity
is no observation; anything else is. -/
def Real : Sample → Prop
  | .cellLocation plmn cellId =>
    (∃ network, plmn = some network ∧ network.isComplete = true) ∧
      ∃ cell, cellId = some cell ∧ cell ≠ 0
  | _ => True

instance : DecidablePred Real := fun sample =>
  match sample with
  | .servingSystem _ _ | .cereg _ => .isTrue trivial
  | .cellLocation plmn cellId =>
    decidable_of_iff
      ((plmn.map Plmn.isComplete).getD false = true ∧ cellId.getD 0 ≠ 0) (by
        cases plmn <;> cases cellId <;> simp [Real])

def Camped (sample : Sample) : Prop := sample.toEvidence.registered = true

instance : DecidablePred Camped := fun _ => inferInstanceAs (Decidable (_ = true))

/-- The constructor's rule: of the cell locations exactly the complete
ones count as camped. -/
theorem cellLocation_camped_iff {plmn : Option Plmn} {cellId : Option Nat} :
    Camped (.cellLocation plmn cellId) ↔ Real (.cellLocation plmn cellId) := by
  cases plmn <;> cases cellId <;>
    simp [Camped, Real, toEvidence, RegistrationEvidence.cellLocation]

variable {sample : Sample}

theorem Camped.real (h : Camped sample) : Real sample := by
  cases sample with
  | servingSystem | cereg => trivial
  | cellLocation plmn cellId => exact cellLocation_camped_iff.mp h

theorem evidence_of_not_real (h : ¬Real sample) :
    sample.toEvidence.source = .cellLocation ∧ ¬Camped sample := by
  cases sample with
  | servingSystem | cereg => exact absurd trivial h
  | cellLocation plmn cellId => exact ⟨rfl, fun hcamped => h (cellLocation_camped_iff.mp hcamped)⟩

/-- The top source is heard on the other side only through an incomplete
sample. -/
theorem source_ne_of_real (hreal : Real sample) (h : ¬Camped sample) :
    sample.toEvidence.source ≠ .cellLocation := by
  cases sample with
  | servingSystem | cereg => exact RegistrationSourceKind.noConfusion
  | cellLocation plmn cellId => exact absurd (cellLocation_camped_iff.mpr hreal) h

end Sample

def arbitrated (samples : List Sample) : RegistrationVerdict :=
  arbitrate (samples.map Sample.toEvidence)

def withoutIncomplete (samples : List Sample) : List Sample :=
  samples.filter fun sample => decide sample.Real

variable {samples : List Sample} {sample : Sample}

theorem mem_withoutIncomplete :
    sample ∈ withoutIncomplete samples ↔ sample ∈ samples ∧ sample.Real := by
  rw [withoutIncomplete, mem_filter, decide_eq_true_iff]

theorem withoutIncomplete_eq_self (h : ∀ sample ∈ samples, sample.Real) :
    withoutIncomplete samples = samples :=
  filter_eq_self.mpr fun sample hmem => decide_eq_true (h sample hmem)

/-- With nobody camped an incomplete sample is the most trusted source. -/
theorem arbitrated_of_incomplete (hmem : sample ∈ samples)
    (hreal : ¬sample.Real) (hnone : ∀ s ∈ samples, ¬s.Camped) :
    (arbitrated samples).core = (false, true, some .cellLocation, false) := by
  refine core_eq_of_outcome (.notCamped ⟨⟨sample.toEvidence, mem_map_of_mem hmem, trivial,
    (Sample.evidence_of_not_real hreal).1⟩, fun e _ _ => ?_⟩ ?_)
  · rw [RegistrationEvidence.rank]
    cases e.source <;> decide
  · simpa [Sample.Camped] using hnone

/-- Leaving the incomplete samples out changes nothing while a camped and
a real not camped source are there. -/
theorem arbitrated_of_conflict (hcamped : ∃ s ∈ samples, s.Camped)
    (hnot : ∃ s ∈ samples, s.Real ∧ ¬s.Camped) :
    (arbitrated samples).core = (arbitrated (withoutIncomplete samples)).core := by
  obtain ⟨camped, hcamped, hc⟩ := hcamped
  obtain ⟨other, hother, hreal, hn⟩ := hnot
  have hkeep : ∀ e, e.registered = true →
      (e ∈ samples.map Sample.toEvidence ↔
        e ∈ (withoutIncomplete samples).map Sample.toEvidence) := by
    intro e he
    simp only [mem_map, mem_withoutIncomplete]
    constructor
    · rintro ⟨s, hs, rfl⟩
      exact ⟨s, ⟨hs, Sample.Camped.real he⟩, rfl⟩
    · rintro ⟨s, ⟨hs, -⟩, rfl⟩
      exact ⟨s, hs, rfl⟩
  have hfull : ∃ e ∈ samples.map Sample.toEvidence, e.registered = false :=
    ⟨_, mem_map_of_mem hother, Bool.eq_false_iff.mpr hn⟩
  have hleft : ∃ e ∈ (withoutIncomplete samples).map Sample.toEvidence, e.registered = false :=
    ⟨_, mem_map_of_mem (mem_withoutIncomplete.mpr ⟨hother, hreal⟩), Bool.eq_false_iff.mpr hn⟩
  have hspec := arbitrate_spec (samples.map Sample.toEvidence)
  refine Eq.symm (core_eq_of_outcome ?_)
  change Outcome _ (arbitrate (samples.map Sample.toEvidence)).core
  generalize (arbitrate (samples.map Sample.toEvidence)).core = core at hspec ⊢
  cases hspec with
  | silent hnone => exact absurd (mem_map_of_mem hcamped) (hnone _)
  | camped hbest hconflict =>
    exact .camped (hbest.of_mem_iff hkeep) (hconflict.trans (iff_of_true hfull hleft))
  | notCamped _ hnone => exact absurd hc (by simp [Sample.Camped, hnone _ (mem_map_of_mem hcamped)])

/-- Every observation is a real one, or both sides are heard from one. -/
def VotesAreReal (samples : List Sample) : Prop :=
  (∀ s ∈ samples, s.Real) ∨ (∃ s ∈ samples, s.Camped) ∧ ∃ s ∈ samples, s.Real ∧ ¬s.Camped

theorem votesAreReal_of_core_eq
    (h : (arbitrated samples).core = (arbitrated (withoutIncomplete samples)).core) :
    VotesAreReal samples := by
  by_cases hall : ∀ s ∈ samples, s.Real
  · exact .inl hall
  · push Not at hall
    obtain ⟨sample, hmem, hreal⟩ := hall
    have hspec := arbitrate_spec ((withoutIncomplete samples).map Sample.toEvidence)
    by_cases hcamped : ∃ s ∈ samples, s.Camped
    · -- The incomplete sample is a conflict, so what is left must have one too.
      obtain ⟨camped, hcamped, hc⟩ := hcamped
      have hfull := arbitrate_spec (samples.map Sample.toEvidence)
      change (arbitrate _).core = (arbitrate _).core at h
      rw [h] at hfull
      generalize (arbitrate ((withoutIncomplete samples).map Sample.toEvidence)).core = core
        at hspec hfull
      cases hfull with
      | silent hnone => exact absurd (mem_map_of_mem hcamped) (hnone _)
      | notCamped _ hnone =>
        exact absurd hc (by simp [Sample.Camped, hnone _ (mem_map_of_mem hcamped)])
      | camped _ hconflict =>
        cases hspec with
        | camped _ hconflict' =>
          have hheard := hconflict'.mp (hconflict.mpr ⟨_, mem_map_of_mem hmem,
            Bool.eq_false_iff.mpr (Sample.evidence_of_not_real hreal).2⟩)
          simp only [mem_map, mem_withoutIncomplete] at hheard
          obtain ⟨_, ⟨s, ⟨hs, hsreal⟩, rfl⟩, hnot⟩ := hheard
          exact .inr ⟨⟨camped, hcamped, hc⟩, s, hs, hsreal, Bool.eq_false_iff.mp hnot⟩
    · -- Nobody is camped: the verdict rests on the incomplete sample.
      push Not at hcamped
      rw [arbitrated_of_incomplete hmem hreal hcamped] at h
      change _ = (arbitrate _).core at h
      rw [← h] at hspec
      cases hspec with
      | notCamped hbest _ =>
        obtain ⟨⟨e, he, -, hsource⟩, -⟩ := hbest
        simp only [mem_map, mem_withoutIncomplete] at he
        obtain ⟨s, ⟨hs, hsreal⟩, rfl⟩ := he
        exact absurd hsource (Sample.source_ne_of_real hsreal (hcamped s hs))

/-- With real votes recovery needs a real source and none that is camped. -/
theorem recovery_of_votesAreReal (h : VotesAreReal samples)
    (hrecovery : (arbitrated samples).recoveryAllowed = true) :
    (∃ s ∈ samples, s.Real) ∧ ∀ s ∈ samples, s.Real → ¬s.Camped := by
  obtain ⟨hne, hnone⟩ := recoveryAllowed_iff.mp hrecovery
  have hnot : ∀ s ∈ samples, ¬s.Camped := fun s hs =>
    Bool.eq_false_iff.mp (hnone _ (mem_map_of_mem hs))
  refine ⟨?_, fun s hs _ => hnot s hs⟩
  rcases h with hreal | ⟨⟨s, hs, hcamped⟩, -⟩
  · obtain ⟨s, hs⟩ := exists_mem_of_ne_nil samples (fun hnil => hne (by rw [hnil]; rfl))
    exact ⟨s, hs, hreal s hs⟩
  · exact absurd hcamped (hnot s hs)

/-- Exactly for the samples whose votes are real: the verdict is the one
without the incomplete samples, the same in every order, and allows recovery
only against real sources that are all not camped. -/
theorem incomplete_no_vote_iff (samples : List Sample) :
    ((arbitrated samples).core = (arbitrated (withoutIncomplete samples)).core ∧
        (∀ other : List Sample, other.Perm samples →
          (arbitrated other).core = (arbitrated samples).core) ∧
        ((arbitrated samples).recoveryAllowed = true →
          (∃ s ∈ samples, s.Real) ∧ ∀ s ∈ samples, s.Real → ¬s.Camped)) ↔
      VotesAreReal samples := by
  constructor
  · rintro ⟨h, -, -⟩
    exact votesAreReal_of_core_eq h
  · intro h
    refine ⟨?_, fun other hperm => core_perm (hperm.map _), recovery_of_votesAreReal h⟩
    rcases h with hreal | ⟨hcamped, hnot⟩
    · rw [withoutIncomplete_eq_self hreal]
    · exact arbitrated_of_conflict hcamped hnot

/-- One cell location with nothing in it allows recovery; a camped serving
system next to it is said to be in conflict. -/
theorem emptyCellLocation_votes : let empty := Sample.cellLocation none none
    let camped := Sample.servingSystem true none
    (arbitrated [empty]).recoveryAllowed = true ∧
      (arbitrated (withoutIncomplete [empty])).recoveryAllowed = false ∧
      (arbitrated [camped, empty]).conflict = true ∧
      (arbitrated (withoutIncomplete [camped, empty])).conflict = false := by
  decide +kernel

end VodogeEdge.Registration
