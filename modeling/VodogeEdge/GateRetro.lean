import VodogeEdge.GateBinding
import VodogeEdge.Word

/-!
# Judging a managed module again

`enforce_one` of `edge-core`. Four stages: may this matrix be used to take
anything away at all (A), is the evidence about this module fresh and
consistent (B), does it still pass the gates, with a refusal sorted into
missing evidence and verdict first (C), and has a verdict stood for the
whole quarantine (D).

The stated rule is that a fact which could not be read never counts
towards unbinding. `unreadable_spared_iff` gives the evidence for which it
holds: the hardware gate is asked before the carrier is looked at, so its
verdict stands whether or not the carrier was read.
-/

namespace VodogeEdge

open Option

inductive MatrixAuthority where
  | stored
  | builtinNoRow
  | builtinUnparsed
deriving DecidableEq

def MatrixAuthority.mayUnbind (self : MatrixAuthority) : Bool := self = .stored

/-- What one pass gathered about a managed module. Every `none` is a fact
that could not be read. -/
structure GateEvidence where
  imei : String
  adoptedFamily : Option ModemFamily
  observedFamily : Option ModemFamily
  carrier : Option CarrierProfile
  usb : Option UsbIdentity
  observationAgeMs : Option Int
  failingSinceMs : Option Int
  failingPasses : Nat

inductive HoldReason where
  | gateStateUnreadable
  | matrixNotAuthoritative (authority : MatrixAuthority)
  | uplinkNeverResumed
  | neverObserved
  | observationStale (ageMs : Int)
  | familyUnknown
  | familyDisagrees (adopted observed : String)
  | familyUnrecognised (family : String)
  | missingEvidence (refusal : BindRefusal)
deriving DecidableEq

inductive Enforcement where
  | keep
  | hold (reason : HoldReason)
  | quarantine (refusal : BindRefusal) (elapsedMs : Int) (passes : Nat)
  | unbind (refusal : BindRefusal)
deriving DecidableEq

def observationMaxAgeMs : Int := 10 * 60 * 1000

def graceMs : Int := 30 * 60 * 1000

def gracePasses : Nat := 100

/-- Stages A and B: the family to judge by, or why there is none. -/
def judgedFamily (authority : MatrixAuthority) (uplinkEverResumed : Bool)
    (evidence : GateEvidence) : Except HoldReason ModemFamily :=
  if !authority.mayUnbind then .error (.matrixNotAuthoritative authority)
  else if !uplinkEverResumed then .error .uplinkNeverResumed
  else
    match evidence.observationAgeMs with
    | none => .error .neverObserved
    | some age =>
      if age > observationMaxAgeMs then .error (.observationStale age)
      else
        match evidence.observedFamily with
        | none => .error .familyUnknown
        | some observed =>
          if trim observed.asStr = "" ∨ observed.asStr = ModemFamily.unknown then
            .error .familyUnknown
          else
            match evidence.adoptedFamily.filter (· ≠ observed) with
            | some adopted => .error (.familyDisagrees adopted.asStr observed.asStr)
            | none =>
              match observed with
              | .other name => .error (.familyUnrecognised name)
              | family => .ok family

/-- Stage D. The subtraction saturates and a start in the future counts as
no time at all. -/
def quarantined (evidence : GateEvidence) (refusal : BindRefusal) (now : Int) : Enforcement :=
  let since := evidence.failingSinceMs.getD now
  let elapsed := max (saturatingSub now since) 0
  let passes := min (2 ^ 32 - 1) (evidence.failingPasses + 1)
  if elapsed ≥ graceMs ∧ passes ≥ gracePasses then .unbind refusal
  else .quarantine refusal elapsed passes

def enforceOne (registry : StrategyRegistry) (matrix : CapabilityMatrix)
    (authority : MatrixAuthority) (uplinkEverResumed : Bool) (evidence : GateEvidence)
    (now : Int) : Enforcement :=
  match judgedFamily authority uplinkEverResumed evidence with
  | .error reason => .hold reason
  | .ok observed =>
    match bindGates registry matrix evidence.usb
        (evidence.carrier.map fun carrier => (observed, carrier)) with
    | .ok () => .keep
    | .error refusal =>
      match refusal.kind with
      | .missingEvidence => .hold (.missingEvidence refusal)
      | .verdict => quarantined evidence refusal now

/-! ## When a module is judged at all -/

/-- Stages A and B are passed with this family. -/
structure Judgeable (authority : MatrixAuthority) (uplinkEverResumed : Bool)
    (evidence : GateEvidence) (family : ModemFamily) : Prop where
  authoritative : authority = .stored
  resumed : uplinkEverResumed
  fresh : ∃ age ∈ evidence.observationAgeMs, age ≤ observationMaxAgeMs
  observed : evidence.observedFamily = some family
  agrees : ∀ adopted ∈ evidence.adoptedFamily, adopted = family
  recognised : ∀ name, family ≠ .other name

variable {family : ModemFamily} {evidence : GateEvidence}

/-- A recognised family has a name, and it is not the one of a module that
could not be read. -/
theorem ModemFamily.named_of_recognised (h : ∀ name, family ≠ .other name) :
    ¬ (trim family.asStr = "" ∨ family.asStr = ModemFamily.unknown) := by
  cases family with
  | other name => exact absurd rfl (h name)
  | ec20 | ec25Cn | eg25G | ec200uCn | ufi103s => decide

theorem judgedFamily_ok_iff {authority : MatrixAuthority} {uplinkEverResumed : Bool} :
    judgedFamily authority uplinkEverResumed evidence = .ok family
      ↔ Judgeable authority uplinkEverResumed evidence family := by
  constructor
  · intro h
    unfold judgedFamily at h
    split at h
    · cases h
    next hauthority =>
    split at h
    · cases h
    next hresumed =>
    split at h
    · cases h
    next age hage =>
    split at h
    · cases h
    next hfresh =>
    split at h
    · cases h
    next observed hobserved =>
    split at h
    · cases h
    split at h
    · cases h
    next hagrees =>
    split at h
    · cases h
    next hrecognised =>
      obtain rfl := Except.ok.inj h
      refine ⟨by simpa [MatrixAuthority.mayUnbind] using hauthority, by simpa using hresumed,
        ⟨age, hage, not_lt.mp hfresh⟩, hobserved, ?_, hrecognised⟩
      intro adopted hadopted
      by_contra hne
      rw [mem_def.mp hadopted, filter_some_pos (by simpa using hne)] at hagrees
      cases hagrees
  · rintro ⟨rfl, rfl, ⟨age, hage, hfresh⟩, hobserved, hagrees, hrecognised⟩
    have hfilter : evidence.adoptedFamily.filter (· ≠ family) = none := by
      rw [filter_eq_none_iff]
      intro adopted hadopted
      simpa using hagrees adopted hadopted
    simp only [judgedFamily, MatrixAuthority.mayUnbind, decide_true, Bool.not_true,
      Bool.false_eq_true, if_false, mem_def.mp hage, not_lt.mpr hfresh, hobserved,
      ModemFamily.named_of_recognised hrecognised, hfilter]

/-! ## Verdicts -/

/-- The refusal of a judgement that counts towards unbinding. -/
def Enforcement.verdict : Enforcement → Option BindRefusal
  | .keep | .hold _ => none
  | .quarantine refusal _ _ | .unbind refusal => some refusal

theorem verdict_quarantined (evidence : GateEvidence) (refusal : BindRefusal) (now : Int) :
    (quarantined evidence refusal now).verdict = some refusal := by
  unfold quarantined
  dsimp only
  split <;> rfl

/-- Stage D unbinds after a hundred refusals and half an hour. The counter
and the subtraction saturate, which can only delay it. -/
theorem quarantined_unbind {found refusal : BindRefusal} {now : Int}
    (h : quarantined evidence found now = .unbind refusal) :
    found = refusal ∧ gracePasses ≤ evidence.failingPasses + 1
      ∧ ∃ since, evidence.failingSinceMs = some since ∧ graceMs ≤ now - since := by
  unfold quarantined at h
  dsimp only at h
  split at h
  next hdue =>
    obtain ⟨helapsed, hpasses⟩ := hdue
    refine ⟨by cases h; rfl, hpasses.trans (min_le_right _ _), ?_⟩
    cases hsince : evidence.failingSinceMs with
    | none =>
      simp only [hsince, getD_none, saturatingSub, graceMs] at helapsed
      omega
    | some since =>
      refine ⟨since, rfl, ?_⟩
      simp only [hsince, getD_some, saturatingSub, graceMs] at helapsed
      rw [graceMs]
      omega
  · cases h

section
variable {registry : StrategyRegistry} {matrix : CapabilityMatrix} {authority : MatrixAuthority}
  {uplinkEverResumed : Bool} {evidence : GateEvidence} {now : Int} {refusal : BindRefusal}

/-- A module judged against is one that could be judged and that a gate
refused on evidence it had. -/
theorem enforceOne_verdict_iff :
    (enforceOne registry matrix authority uplinkEverResumed evidence now).verdict = some refusal ↔
      (∃ observed, Judgeable authority uplinkEverResumed evidence observed
        ∧ bindGates registry matrix evidence.usb
          (evidence.carrier.map fun carrier => (observed, carrier)) = .error refusal)
      ∧ refusal.kind = .verdict := by
  simp only [← judgedFamily_ok_iff]
  unfold enforceOne
  cases judgedFamily authority uplinkEverResumed evidence with
  | error reason => simp [Enforcement.verdict]
  | ok observed =>
    dsimp only
    cases hgates : bindGates registry matrix evidence.usb
        (evidence.carrier.map fun carrier => (observed, carrier)) with
    | ok done => simp [Enforcement.verdict, hgates]
    | error found =>
      dsimp only
      cases hkind : found.kind with
      | missingEvidence =>
        simp only [Enforcement.verdict, reduceCtorEq, false_iff, not_and]
        rintro ⟨family, hfamily, hrefused⟩ hverdict
        cases hfamily
        rw [hgates] at hrefused
        cases hrefused
        rw [hkind] at hverdict
        cases hverdict
      | verdict =>
        simp only [verdict_quarantined, some_inj]
        constructor
        · rintro rfl
          exact ⟨⟨observed, rfl, hgates⟩, hkind⟩
        · rintro ⟨⟨family, hfamily, hrefused⟩, -⟩
          cases hfamily
          rw [hgates] at hrefused
          exact Except.error.inj hrefused

/-- A module that is unbound was refused by a verdict, and its mark has stood
for the whole quarantine. -/
theorem enforceOne_unbind
    (h : enforceOne registry matrix authority uplinkEverResumed evidence now = .unbind refusal) :
    refusal.kind = .verdict ∧ gracePasses ≤ evidence.failingPasses + 1
      ∧ ∃ since, evidence.failingSinceMs = some since ∧ graceMs ≤ now - since := by
  unfold enforceOne at h
  split at h
  · cases h
  · split at h
    · cases h
    next found _ =>
      split at h
      · cases h
      next hkind =>
        obtain ⟨rfl, hpasses, hsince⟩ := quarantined_unbind h
        exact ⟨hkind, hpasses, hsince⟩

theorem spared_iff_verdict_eq_none {enforcement : Enforcement} :
    (enforcement = .keep ∨ ∃ reason, enforcement = .hold reason) ↔ enforcement.verdict = none := by
  cases enforcement <;> simp [Enforcement.verdict]

/-- Evidence with a fact missing is kept or held exactly if the hardware of
every module that can be judged is driven and let through, where it was read. -/
theorem unreadable_spared_iff
    (hmissing : evidence.usb = none ∨ evidence.carrier = none ∨ evidence.observedFamily = none
      ∨ evidence.observationAgeMs = none) :
    (enforceOne registry matrix authority uplinkEverResumed evidence now = .keep
        ∨ ∃ reason, enforceOne registry matrix authority uplinkEverResumed evidence now
          = .hold reason) ↔
      ∀ family, Judgeable authority uplinkEverResumed evidence family →
        ∀ identity ∈ evidence.usb, registry.drives identity
          ∧ (matrix.deviceGate identity).admits := by
  rw [spared_iff_verdict_eq_none, eq_none_iff_forall_ne_some]
  constructor
  · intro hspared family hjudged identity husb
    by_contra hgate
    obtain ⟨refusal, hrefused, hkind⟩ : ∃ refusal,
        bindGates registry matrix evidence.usb
          (evidence.carrier.map fun carrier => (family, carrier)) = .error refusal
        ∧ refusal.kind = .verdict :=
      bindGates_verdict_iff.mpr
        ⟨identity, husb, fun hdrives hadmits => absurd ⟨hdrives, hadmits⟩ hgate⟩
    exact hspared refusal (enforceOne_verdict_iff.mpr ⟨⟨family, hjudged, hrefused⟩, hkind⟩)
  · intro hgate refusal hverdict
    obtain ⟨⟨family, hjudged, hrefused⟩, hkind⟩ := enforceOne_verdict_iff.mp hverdict
    obtain ⟨identity, husb, hpair⟩ := bindGates_verdict_iff.mp ⟨refusal, hrefused, hkind⟩
    obtain ⟨hdrives, hadmits⟩ := hgate family hjudged identity husb
    obtain ⟨paired, carrier, hcarrier, -⟩ := hpair hdrives hadmits
    obtain ⟨age, hage, -⟩ := hjudged.fresh
    -- past both hardware gates a verdict needs the pair, so nothing is missing
    rcases hmissing with hnone | hnone | hnone | hnone
    · exact absurd husb (by simp [hnone])
    · exact absurd hcarrier (by simp [hnone])
    · exact absurd hjudged.observed (by simp [hnone])
    · exact absurd hage (by simp [hnone])

end

/-- A module with everything read but the home network of its card. -/
def cardUnread (usb : UsbIdentity) (failingPasses : Nat) : GateEvidence where
  imei := "861641041512345"
  adoptedFamily := some .ec20
  observedFamily := some .ec20
  carrier := none
  usb := some usb
  observationAgeMs := some 0
  failingSinceMs := some 0
  failingPasses := failingPasses

def emptyMatrix : CapabilityMatrix := ⟨"unversioned", none, ∅, .probeAll, none⟩

/-- On hardware the build drives, the missing home network holds. -/
theorem cardUnread_driven_spared :
    enforceOne (shippedRegistry .new) emptyMatrix .stored true (cardUnread ⟨0x2c7c, 0x0125⟩ 99)
        1800000 = .keep
      ∨ ∃ reason, enforceOne (shippedRegistry .new) emptyMatrix .stored true
        (cardUnread ⟨0x2c7c, 0x0125⟩ 99) 1800000 = .hold reason := by
  refine (unreadable_spared_iff (.inr (.inl rfl))).mpr ?_
  rintro family - identity husb
  cases husb
  exact ⟨by decide, by decide⟩

/-- On hardware it does not drive, the same module is unbound. -/
theorem cardUnread_undriven_unbound :
    (cardUnread ⟨0x05c6, 0x90b4⟩ 99).carrier = none
      ∧ enforceOne (shippedRegistry .new) emptyMatrix .stored true
        (cardUnread ⟨0x05c6, 0x90b4⟩ 99) 1800000 = .unbind (.noStrategy ⟨0x05c6, 0x90b4⟩) := by
  decide

end VodogeEdge
