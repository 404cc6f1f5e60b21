import Mathlib.Data.Fintype.EquivFin
import VodogeEdge.GateStrategy

/-!
# The two gates of adoption

`bind_gates` asks whether the hardware is supported (a strategy drives it
and the catalogue lets it through) and whether the pair of family and
carrier was tested. Every piece of missing evidence is a refusal here;
`BindRefusal.kind` is what tells a missing fact from a verdict afterwards.

The second half is about documents. A value a document writes in its
fallback reaches both decisions: `query` answers a pair without a rule with
the fallback, and a rule inherits the fields it leaves out.
`untested_unsupported_iff` says for which documents neither route grants
anything.
-/

namespace VodogeEdge

open CapabilityMatrix

inductive BindRefusal where
  | unreadableUsbIdentity
  | noStrategy (identity : UsbIdentity)
  | notInCatalogue (usb : UsbIdentity) (gate : DeviceGate)
  | notIdentifiedYet
  | neverMeasured (family : ModemFamily) (carrier : CarrierProfile)
deriving DecidableEq

/-- A fact is missing, or the facts are there and say no. -/
inductive RefusalKind where
  | missingEvidence
  | verdict

namespace BindRefusal

def wire : BindRefusal → String
  | .unreadableUsbIdentity => "unreadable_usb_identity"
  | .noStrategy _ => "no_strategy"
  | .notInCatalogue _ _ => "not_in_catalogue"
  | .notIdentifiedYet => "not_identified_yet"
  | .neverMeasured _ _ => "never_measured"

def kind : BindRefusal → RefusalKind
  | .unreadableUsbIdentity | .notIdentifiedYet => .missingEvidence
  | .noStrategy _ | .notInCatalogue _ _ | .neverMeasured _ _ => .verdict

def display : BindRefusal → String
  | .unreadableUsbIdentity =>
    "its USB identity could not be read, so it cannot be matched against the " ++
    "supported-device list; rescan, and if it stays unreadable the module is not " ++
    "enumerating properly"
  | .noStrategy identity =>
    "no strategy in this build drives " ++ identity.display ++
    "; adopting it would put a row in the registry no probe can satisfy"
  | .notInCatalogue usb .disabled =>
    usb.display ++ " is switched off in the supported-device list; this build can drive it, " ++
    "so the fix is in the catalogue rather than in the agent"
  | .notInCatalogue usb _ =>
    usb.display ++ " is not on the supported-device list; this build can drive it, so the " ++
    "fix is to add it to the catalogue rather than to the agent"
  | .notIdentifiedYet =>
    "its model and home network have not both been read yet, so there is no pairing " ++
    "to check against the ledger; wait for the next poll and try again"
  | .neverMeasured family carrier =>
    family.asStr ++ " on " ++ carrier.asStr ++
    " has never been measured; measure it and record the result " ++
    "in the support ledger before adopting hardware that depends on it"

end BindRefusal

def bindGates (registry : StrategyRegistry) (matrix : CapabilityMatrix)
    (usb : Option UsbIdentity) (pair : Option (ModemFamily × CarrierProfile)) :
    Except BindRefusal Unit :=
  match usb with
  | none => .error .unreadableUsbIdentity
  | some identity =>
    if !registry.drives identity then .error (.noStrategy identity)
    else if !(matrix.deviceGate identity).admits then
      .error (.notInCatalogue identity (matrix.deviceGate identity))
    else
      match pair with
      | none => .error .notIdentifiedYet
      | some (family, carrier) =>
        if !(matrix.query family carrier).capability.hasMeasurement then
          .error (.neverMeasured family carrier)
        else .ok ()

variable {family : ModemFamily} {carrier : CarrierProfile}

section
variable {registry : StrategyRegistry} {matrix : CapabilityMatrix} {usb : Option UsbIdentity}

theorem bindGates_ok_iff :
    bindGates registry matrix usb (some (family, carrier)) = .ok () ↔
      (∃ identity ∈ usb, registry.drives identity
        ∧ (matrix.deviceGate identity).admits)
      ∧ (matrix.query family carrier).capability.hasMeasurement := by
  cases usb with
  | none => simp [bindGates]
  | some identity =>
    cases hdrives : registry.drives identity <;>
      cases hadmits : (matrix.deviceGate identity).admits <;>
        cases hmeasured : (matrix.query family carrier).capability.hasMeasurement <;>
          simp [bindGates, hdrives, hadmits, hmeasured]

/-- A refusal that is a verdict, and what it was about: the hardware, whose
identity was read, or a pair that was read whole. -/
theorem bindGates_verdict_iff {pair : Option (ModemFamily × CarrierProfile)} :
    (∃ refusal, bindGates registry matrix usb pair = .error refusal ∧ refusal.kind = .verdict) ↔
      ∃ identity ∈ usb,
        (registry.drives identity → (matrix.deviceGate identity).admits →
          ∃ family carrier, pair = some (family, carrier)
            ∧ (matrix.query family carrier).capability.hasMeasurement = false) := by
  cases usb with
  | none => simp [bindGates, BindRefusal.kind]
  | some identity =>
  cases hdrives : registry.drives identity with
  | false => simp [bindGates, hdrives, BindRefusal.kind]
  | true =>
  cases hadmits : (matrix.deviceGate identity).admits with
  | false => simp [bindGates, hdrives, hadmits, BindRefusal.kind]
  | true =>
  rcases pair with _ | ⟨family, carrier⟩
  · simp [bindGates, hdrives, hadmits, BindRefusal.kind]
  · cases hmeasured : (matrix.query family carrier).capability.hasMeasurement with
    | false => simp [bindGates, hdrives, hadmits, hmeasured, BindRefusal.kind]
    | true => simp [bindGates, hdrives, hadmits, hmeasured]

end

/-! ## What a document itself says -/

namespace MatrixDocument

variable (self : MatrixDocument)

/-- A rule for exactly this pair states a measured value itself. -/
def Measures (family : ModemFamily) (carrier : CarrierProfile) : Prop :=
  ∃ rule ∈ self.rule, rule.key = ⟨family, carrier⟩
    ∧ ∃ operation support, rule.capability.stated operation = some support ∧ support ≠ .probe

/-- A rule for exactly this pair states a bearer for this operation. -/
def Supports (family : ModemFamily) (carrier : CarrierProfile) (operation : Operation) : Prop :=
  ∃ rule ∈ self.rule, rule.key = ⟨family, carrier⟩
    ∧ ∃ bearer, rule.capability.stated operation = some (.supported bearer)

def PlainFallback : Prop :=
  ∀ operation support, self.fallback.stated operation = some support → support = .probe

/-- No field that a rule leaves out is filled with a bearer of the
fallback, unless the module or the network withholds the operation anyway. -/
def NoInheritedBearer (registry : StrategyRegistry) : Prop :=
  ∀ rule ∈ self.rule, ∀ operation bearer, rule.capability.stated operation = none →
    self.fallback.stated operation = some (.supported bearer) →
      registry.ceiling rule.modemFamily operation ≠ none
        ∨ registry.refuses rule.carrier operation ≠ none

end MatrixDocument

namespace StrategyRegistry

def ledgeredBy (self : StrategyRegistry) (matrix : CapabilityMatrix) : StrategyRegistry :=
  { self with ledger := .fromMatrix matrix }

/-- What is adopted was measured, and what is supported was stated: both by
a rule of the document for that very pair. -/
structure MeasuredOnly (registry : StrategyRegistry) (document : MatrixDocument)
    (matrix : CapabilityMatrix) : Prop where
  adopted : ∀ usb family carrier,
    bindGates registry matrix usb (some (family, carrier)) = .ok () →
      document.Measures family carrier
  supported : ∀ family carrier subscription operation bearer,
    ((registry.ledgeredBy matrix).resolve family carrier subscription operation).support
      = .supported bearer → document.Supports family carrier operation

end StrategyRegistry

instance : Infinite ModemFamily := Infinite.of_injective ModemFamily.other fun _ _ h => by
  cases h
  rfl

section
variable {document : MatrixDocument} {matrix : CapabilityMatrix}
  (h : CapabilityMatrix.fromDocument document = .ok matrix) (registry : StrategyRegistry)
include h

/-- What the loaded matrix holds for a pair: the rule's own value, or the
fallback's. -/
theorem of_lookup_rules {rule : RawRule} (hrule : rule ∈ document.rule) :
    ∃ capability, matrix.rules.lookup rule.key = some capability
      ∧ ∀ operation, operation.of capability
        = (rule.capability.stated operation).getD
          ((document.fallback.stated operation).getD .probe) := by
  refine ⟨rule.capability.intoCapability matrix.fallback,
    (lookup_rules h _ _).mpr ⟨rule, hrule, rfl, rfl⟩, fun operation => ?_⟩
  rw [RawCapability.of_intoCapability, of_fallback h]

/-- A fallback that states nothing measured makes no pair look measured. -/
theorem measures_of_plainFallback (hplain : document.PlainFallback)
    (hmeasured : (matrix.query family carrier).capability.hasMeasurement) :
    document.Measures family carrier := by
  have hprobe : ∀ operation, (document.fallback.stated operation).getD .probe = .probe := by
    intro operation
    cases hstated : document.fallback.stated operation with
    | none => rfl
    | some support => exact hplain operation support hstated
  obtain ⟨operation, hof⟩ := Capability.hasMeasurement_iff.mp hmeasured
  unfold CapabilityMatrix.query at hof
  split at hof
  next capability hlookup =>
    obtain ⟨rule, hrule, hkey, -⟩ := (lookup_rules h _ _).mp hlookup
    obtain ⟨loaded, hloaded, hstated⟩ := of_lookup_rules h hrule
    rw [hkey, hlookup, Option.some_inj] at hloaded
    rw [hloaded, hstated, hprobe] at hof
    refine ⟨rule, hrule, hkey, operation, ?_⟩
    cases hown : rule.capability.stated operation with
    | none => simp [hown] at hof
    | some support => exact ⟨support, rfl, by simpa [hown] using hof⟩
  · exact absurd ((of_fallback h operation).trans (hprobe operation)) hof

theorem exists_unruled (carrier : CarrierProfile) :
    ∃ family, (∀ rule ∈ document.rule, rule.key ≠ ⟨family, carrier⟩)
      ∧ (matrix.query family carrier).capability = matrix.fallback := by
  obtain ⟨family, hfresh⟩ :=
    Infinite.exists_notMem_finset (document.rule.map RawRule.modemFamily).toFinset
  have hnone : ∀ rule ∈ document.rule, rule.key ≠ ⟨family, carrier⟩ := by
    rintro rule hrule hkey
    refine hfresh (List.mem_toFinset.mpr (List.mem_map.mpr ⟨rule, hrule, ?_⟩))
    exact congrArg MatrixKey.modemFamily hkey
  refine ⟨family, hnone, ?_⟩
  unfold CapabilityMatrix.query
  split
  next capability hlookup =>
    obtain ⟨rule, hrule, hkey, -⟩ := (lookup_rules h _ _).mp hlookup
    exact absurd hkey (hnone rule hrule)
  · rfl

/-- Adoption rests on the rules alone exactly when the fallback states
nothing measured, or no module gets as far as the second gate. -/
theorem adopted_iff :
    (∀ usb family carrier, bindGates registry matrix usb (some (family, carrier)) = .ok () →
        document.Measures family carrier) ↔
      document.PlainFallback ∨ ∀ usb, registry.drives usb → ¬ document.Enables usb := by
  constructor
  · intro hadopted
    by_contra hneither
    simp only [not_or, not_forall, not_not] at hneither
    obtain ⟨hfallback, usb, hdrives, henables⟩ := hneither
    simp only [MatrixDocument.PlainFallback, not_forall] at hfallback
    obtain ⟨operation, support, hstated, hsupport⟩ := hfallback
    obtain ⟨family, hnone, hquery⟩ := exists_unruled h .cnMobile
    have hmeasured : (matrix.query family .cnMobile).capability.hasMeasurement := by
      refine Capability.hasMeasurement_iff.mpr ⟨operation, ?_⟩
      rwa [hquery, of_fallback h, hstated]
    have hadmits := (admits_deviceGate_iff h usb).mpr henables
    obtain ⟨rule, hrule, hkey, -⟩ := hadopted (some usb) family .cnMobile
      (bindGates_ok_iff.mpr ⟨⟨usb, rfl, hdrives, hadmits⟩, hmeasured⟩)
    exact hnone rule hrule hkey
  · intro hcondition usb family carrier hok
    obtain ⟨⟨identity, -, hdrives, hadmits⟩, hmeasured⟩ := bindGates_ok_iff.mp hok
    rcases hcondition with hplain | hclosed
    · exact measures_of_plainFallback h hplain hmeasured
    · exact absurd ((admits_deviceGate_iff h identity).mp hadmits) (hclosed identity hdrives)

/-- Operations rest on the rules alone exactly when no rule inherits a
bearer. -/
theorem supported_iff :
    (∀ family carrier subscription operation bearer,
      ((registry.ledgeredBy matrix).resolve family carrier subscription operation).support
        = .supported bearer → document.Supports family carrier operation) ↔
      document.NoInheritedBearer registry := by
  simp only [StrategyRegistry.resolve_supported_iff]
  have hledger : ∀ family carrier, (registry.ledgeredBy matrix).ledger.get family carrier
      = matrix.rules.lookup ⟨family, carrier⟩ := SupportLedger.get_fromMatrix matrix
  constructor
  · intro hsupported rule hrule operation bearer homitted hfallback
    by_contra hneither
    simp only [not_or, not_not] at hneither
    obtain ⟨capability, hlookup, hof⟩ := of_lookup_rules h hrule
    obtain ⟨other, hother, hkey, stated, hstated⟩ :=
      hsupported rule.modemFamily rule.carrier {} operation
        ((registry.ledgeredBy matrix).bearer rule.carrier operation bearer)
        ⟨hneither.1, ⟨capability, bearer, (hledger _ _).trans hlookup,
          by rw [hof, homitted, hfallback]; rfl, rfl⟩, hneither.2, rfl, by cases operation <;> rfl⟩
    have hrules := (insertRules_ok (fromDocument_ok h).1).1.1
    rw [List.inj_on_of_nodup_map hrules hother hrule hkey, homitted] at hstated
    cases hstated
  · rintro hcondition family carrier subscription operation bearer
      ⟨hceiling, ⟨capability, measured, hget, hof, -⟩, hrefuses, -⟩
    rw [hledger] at hget
    obtain ⟨rule, hrule, hkey, -⟩ := (lookup_rules h _ _).mp hget
    obtain ⟨loaded, hloaded, hvalue⟩ := of_lookup_rules h hrule
    rw [hkey, hget, Option.some_inj] at hloaded
    rw [hloaded, hvalue] at hof
    refine ⟨rule, hrule, hkey, ?_⟩
    cases hown : rule.capability.stated operation with
    | some support => exact ⟨measured, by rw [hown] at hof; exact congrArg some hof⟩
    | none =>
      -- the value can only come from the fallback, which the condition excludes
      cases hfallback : document.fallback.stated operation with
      | none => simp [hown, hfallback] at hof
      | some support =>
        rw [hown, hfallback] at hof
        obtain ⟨rfl, rfl⟩ : rule.modemFamily = family ∧ rule.carrier = carrier := by
          simpa [RawRule.key] using hkey
        rcases hcondition rule hrule operation measured hown (hfallback.trans (congrArg some hof))
          with hblocked | hblocked
        · exact absurd hceiling hblocked
        · exact absurd hrefuses hblocked

/-- The fallback grants nothing exactly if it states nothing measured, or no
driven hardware is enabled; and no rule inherits a bearer let through. -/
theorem untested_unsupported_iff (registry : StrategyRegistry) :
    registry.MeasuredOnly document matrix ↔
      (document.PlainFallback ∨ ∀ usb, registry.drives usb → ¬ document.Enables usb)
        ∧ document.NoInheritedBearer registry := by
  rw [← adopted_iff h, ← supported_iff h]
  exact ⟨fun hmeasured => ⟨hmeasured.adopted, hmeasured.supported⟩, fun hboth => ⟨hboth.1, hboth.2⟩⟩

end

def probingDocument : MatrixDocument where
  version := some "hot-1"
  minAgentVersion := none
  fallback := ⟨some .probe, some .probe, some .probe, some .probe⟩
  rule := [⟨.ec20, .cnTelecom, ⟨some (.supported .cellular), none, none, none⟩⟩]
  device := none

theorem probingDocument_measuredOnly :
    ∃ matrix, fromDocument probingDocument = .ok matrix
      ∧ (shippedRegistry .new).MeasuredOnly probingDocument matrix := by
  obtain ⟨matrix, h⟩ : ∃ matrix, fromDocument probingDocument = .ok matrix :=
    ⟨_, rfl⟩
  refine ⟨matrix, h, (untested_unsupported_iff h (shippedRegistry .new)).mpr ⟨.inl ?_, ?_⟩⟩
  · rintro operation support hstated
    cases operation <;> exact (Option.some.inj hstated).symm
  · rintro rule - operation bearer - hfallback
    cases operation <;> cases Option.some.inj hfallback

/-- A fallback with a bearer, and one rule that leaves that field out. -/
def generousDocument : MatrixDocument where
  version := some "hot-2"
  minAgentVersion := none
  fallback := ⟨some (.supported .cellular), none, none, none⟩
  rule := [⟨.ec20, .cnTelecom, ⟨none, some (.supported .cellular), none, none⟩⟩]
  device := none

def generousMatrix : CapabilityMatrix where
  version := "hot-2"
  minAgentVersion := none
  rules := (∅ : RuleTable).insert ⟨.ec20, .cnTelecom⟩
    ⟨.supported .cellular, .supported .cellular, .probe, .probe⟩
  fallback := ⟨.supported .cellular, .probe, .probe, .probe⟩
  devices := none

/-- The pair without a rule is adopted, and the pair whose rule says
nothing about sending may send. -/
theorem generousDocument_grants :
    fromDocument generousDocument = .ok generousMatrix
      ∧ (bindGates (shippedRegistry .new) generousMatrix (some ⟨0x2c7c, 0x0125⟩)
          (some (.ec25Cn, .cnUnicom)) = .ok ()
        ∧ ¬ generousDocument.Measures .ec25Cn .cnUnicom)
      ∧ (((shippedRegistry .new).ledgeredBy generousMatrix).resolve .ec20 .cnTelecom {}
          .smsSend).support = .supported .cellular
        ∧ ¬ generousDocument.Supports .ec20 .cnTelecom .smsSend := by
  refine ⟨rfl, ⟨rfl, ?_⟩, by decide, ?_⟩
  · rintro ⟨rule, hrule, hkey, -⟩
    cases List.mem_singleton.mp hrule
    cases hkey
  · rintro ⟨rule, hrule, -, bearer, hstated⟩
    cases List.mem_singleton.mp hrule
    cases hstated

end VodogeEdge
