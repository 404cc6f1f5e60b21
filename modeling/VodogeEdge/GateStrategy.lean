import VodogeEdge.GateMatrix

/-!
# Strategies and the support ledger

Which code runs for a module on an operator's network with a given plan.
`resolve` asks the modem, the ledger, the network and the subscription in
that order; `resolve_supported_iff` says exactly when all four let an
operation through. A trait object is the structure of what its methods
return; the methods no modelled function calls are left out.
-/

namespace VodogeEdge

structure ModemStrategy where
  id : String
  families : List ModemFamily
  usbIdentities : List UsbIdentity
  ceiling : Operation → Option String

structure CarrierStrategy where
  id : String
  carriers : List CarrierProfile
  bearer : Operation → Bearer → Option Bearer
  refuses : Operation → Option String

inductive RefusedBy where
  | ledger
  | modem
  | carrier
  | subscription
  | subscriptionUnreadable
deriving DecidableEq

def RefusedBy.wire : RefusedBy → String
  | .ledger => "untested"
  | .modem => "modem"
  | .carrier => "carrier"
  | .subscription => "subscription"
  | .subscriptionUnreadable => "subscription_unreadable"

/-- `Support`: go ahead over this bearer, or the layer that withheld it. -/
inductive BearerAnswer where
  | supported (bearer : Bearer)
  | unsupported (layer : RefusedBy) (reason : String)
deriving DecidableEq

/-! ## The plan on the card -/

inductive SubscriptionAuthority where
  | declared
  | noCard
  | unreadable
deriving DecidableEq

structure SubscriptionCapability where
  smsSend : Option Bool := none
  smsReceive : Option Bool := none
  data : Option Bool := none
  voice : Option Bool := none
  authority : SubscriptionAuthority := .declared

namespace SubscriptionCapability

variable (self : SubscriptionCapability)

def declared : Operation → Option Bool
  | .smsSend => self.smsSend
  | .smsReceive => self.smsReceive
  | .data => self.data
  | .voice => self.voice

def withholds (operation : Operation) : Bool :=
  self.declared operation = some false

def isAuthoritative : Bool := self.authority ≠ .unreadable

end SubscriptionCapability

/-! ## The ledger -/

structure SupportLedger where
  entries : AList fun _ : ModemFamily × CarrierProfile => Capability

namespace SupportLedger

def new : SupportLedger := ⟨∅⟩

variable (self : SupportLedger) (family : ModemFamily) (carrier : CarrierProfile)

def record (capability : Capability) : SupportLedger :=
  ⟨self.entries.insert (family, carrier) capability⟩

def get : Option Capability :=
  self.entries.lookup (family, carrier)

def isTested : Bool :=
  (self.get family carrier).isSome

def recordRule (rule : (_ : MatrixKey) × Capability) : SupportLedger :=
  self.record rule.1.modemFamily rule.1.carrierProfile rule.2

/-- The rules cross over, the fallback does not. -/
def fromMatrix (matrix : CapabilityMatrix) : SupportLedger :=
  matrix.rules.entries.foldl recordRule .new

theorem get_recordRule (rule : (_ : MatrixKey) × Capability) (family : ModemFamily)
    (carrier : CarrierProfile) :
    (self.recordRule rule).get family carrier
      = if rule.1 = ⟨family, carrier⟩ then some rule.2 else self.get family carrier := by
  obtain ⟨⟨ruleFamily, ruleCarrier⟩, capability⟩ := rule
  by_cases hkey : (family, carrier) = (ruleFamily, ruleCarrier)
  · cases hkey
    simp [recordRule, record, get]
  · have hne : (⟨ruleFamily, ruleCarrier⟩ : MatrixKey) ≠ ⟨family, carrier⟩ := by
      rintro ⟨⟩
      exact hkey rfl
    rw [if_neg hne]
    exact AList.lookup_insert_ne hkey

/-- Recording rules of distinct pairs: the ledger answers with the rule, or
with what it held. -/
theorem get_foldl_recordRule : ∀ {rules : List ((_ : MatrixKey) × Capability)}
    (_ : rules.NodupKeys) ledger family
    carrier,
    (rules.foldl recordRule ledger).get family carrier
      = (rules.dlookup ⟨family, carrier⟩).or (ledger.get family carrier)
  | [], _, _, _, _ => rfl
  | ⟨key, capability⟩ :: rest, hkeys, ledger, family, carrier => by
    obtain ⟨hfresh, hrest⟩ := List.nodupKeys_cons.mp hkeys
    rw [List.foldl_cons, get_foldl_recordRule hrest, get_recordRule]
    by_cases hkey : key = ⟨family, carrier⟩
    · subst hkey
      rw [if_pos rfl, List.dlookup_cons_eq, List.dlookup_eq_none.mpr hfresh]
      rfl
    · rw [if_neg hkey, List.dlookup_cons_ne _ _ (Ne.symm hkey)]

theorem get_fromMatrix (matrix : CapabilityMatrix) (family : ModemFamily)
    (carrier : CarrierProfile) :
    (fromMatrix matrix).get family carrier = matrix.rules.lookup ⟨family, carrier⟩ := by
  rw [fromMatrix, get_foldl_recordRule matrix.rules.nodupKeys]
  exact Option.or_none

end SupportLedger

/-! ## The registry -/

structure StrategyRegistry where
  modems : AList fun _ : ModemFamily => ModemStrategy
  carriers : AList fun _ : CarrierProfile => CarrierStrategy
  ledger : SupportLedger

inductive StrategyError where
  | duplicateModem (family first second : String)
  | duplicateCarrier (carrier first second : String)

structure Resolution where
  support : BearerAnswer
  modem : Option String
  carrierStrategy : Option String
  tested : Bool

namespace StrategyRegistry

def new (ledger : SupportLedger) : StrategyRegistry := ⟨∅, ∅, ledger⟩

variable (self : StrategyRegistry) (family : ModemFamily) (carrier : CarrierProfile)

def drives (identity : UsbIdentity) : Bool :=
  self.modems.entries.any fun entry => entry.2.usbIdentities.contains identity

def claimFamilies (strategy : ModemStrategy) : StrategyRegistry → List ModemFamily →
    Except StrategyError StrategyRegistry
  | registry, [] => .ok registry
  | registry, family :: rest =>
    match registry.modems.lookup family with
    | some existing => .error (.duplicateModem family.asStr existing.id strategy.id)
    | none =>
      claimFamilies strategy
        { registry with modems := registry.modems.insert family strategy } rest

def withModem (strategy : ModemStrategy) : Except StrategyError StrategyRegistry :=
  claimFamilies strategy self strategy.families

def claimCarriers (strategy : CarrierStrategy) : StrategyRegistry → List CarrierProfile →
    Except StrategyError StrategyRegistry
  | registry, [] => .ok registry
  | registry, carrier :: rest =>
    match registry.carriers.lookup carrier with
    | some existing => .error (.duplicateCarrier carrier.asStr existing.id strategy.id)
    | none =>
      claimCarriers strategy
        { registry with carriers := registry.carriers.insert carrier strategy } rest

def withCarrier (strategy : CarrierStrategy) : Except StrategyError StrategyRegistry :=
  claimCarriers strategy self strategy.carriers

/-- The limit the module's own strategy puts on an operation. -/
def ceiling (family : ModemFamily) (operation : Operation) : Option String :=
  (self.modems.lookup family).bind (·.ceiling operation)

def refuses (carrier : CarrierProfile) (operation : Operation) : Option String :=
  (self.carriers.lookup carrier).bind (·.refuses operation)

def bearer (carrier : CarrierProfile) (operation : Operation) (measured : Bearer) : Bearer :=
  ((self.carriers.lookup carrier).bind (·.bearer operation measured)).getD measured

def resolve (family : ModemFamily) (carrier : CarrierProfile)
    (subscription : SubscriptionCapability) (operation : Operation) : Resolution :=
  let modem := (self.modems.lookup family).map (·.id)
  let carrierStrategy := (self.carriers.lookup carrier).map (·.id)
  -- the hardware first: no measurement lifts a ceiling
  match self.ceiling family operation with
  | some reason =>
    ⟨.unsupported .modem reason, modem, carrierStrategy, self.ledger.isTested family carrier⟩
  | none =>
    match self.ledger.get family carrier with
    | none =>
      ⟨.unsupported .ledger (family.asStr ++ " on " ++ carrier.asStr
        ++ " has not been tested; add it to the support ledger after measuring it"),
        modem, carrierStrategy, false⟩
    | some measured =>
      let refuse (layer : RefusedBy) (reason : String) : Resolution :=
        ⟨.unsupported layer reason, modem, carrierStrategy, true⟩
      match operation.of measured with
      | .unsupported reason => refuse .carrier reason
      | .probe =>
        refuse .ledger (family.asStr ++ " on " ++ carrier.asStr
          ++ " is recorded as needing a probe, which is not a measurement")
      | .supported bearer =>
        match self.refuses carrier operation with
        | some reason => refuse .carrier reason
        | none =>
          if !subscription.isAuthoritative then
            refuse .subscriptionUnreadable
              ("the plan on this card could not be read, so " ++ operation.wire
                ++ " is held back until it can be; a row written by hand with the "
                ++ "on-box sqlite3 is the usual cause -- the four flag columns take "
                ++ "0 and 1, not 'false' and 'true'")
          else if subscription.withholds operation then
            refuse .subscription
              ("the plan on this card is recorded as not including " ++ operation.wire)
          else
            ⟨.supported (self.bearer carrier operation bearer), modem, carrierStrategy,
              true⟩

/-- An operation is supported exactly when every layer lets it through, and
then over the bearer that was measured, as the network moves it. -/
theorem resolve_supported_iff
    (subscription : SubscriptionCapability) (operation : Operation) (bearer : Bearer) :
    (self.resolve family carrier subscription operation).support = .supported bearer ↔
      self.ceiling family operation = none
        ∧ (∃ capability measured, self.ledger.get family carrier = some capability
          ∧ operation.of capability = .supported measured
          ∧ bearer = self.bearer carrier operation measured)
        ∧ self.refuses carrier operation = none
        ∧ subscription.isAuthoritative ∧ subscription.withholds operation = false := by
  unfold resolve
  cases hceiling : self.ceiling family operation with
  | some reason => simp
  | none =>
  cases hget : self.ledger.get family carrier with
  | none => simp
  | some measured =>
  cases hof : operation.of measured with
  | unsupported | probe => simp [hof]
  | supported measuredBearer =>
  cases hrefuses : self.refuses carrier operation with
  | some reason => simp [hof]
  | none =>
    cases hauthority : subscription.isAuthoritative <;>
      cases hwithholds : subscription.withholds operation <;>
        simp [hof, eq_comm]

/-- One layer takes something away: the module or the network states more,
a measurement is lost, the plan withholds more or cannot be read. -/
inductive Subtracted : StrategyRegistry → SubscriptionCapability → StrategyRegistry →
    SubscriptionCapability → Prop where
  | ceiling {registry plan} (family : ModemFamily) (strategy : ModemStrategy)
      (h : ∀ operation, strategy.ceiling operation = none →
        registry.ceiling family operation = none) :
      Subtracted registry plan
        { registry with modems := registry.modems.insert family strategy } plan
  | refusal {registry plan} (carrier : CarrierProfile) (strategy : CarrierStrategy)
      (h : ∀ operation, strategy.refuses operation = none →
        registry.refuses carrier operation = none) :
      Subtracted registry plan
        { registry with carriers := registry.carriers.insert carrier strategy } plan
  | unmeasured {registry plan} (pair : ModemFamily × CarrierProfile) :
      Subtracted registry plan
        { registry with ledger := ⟨registry.ledger.entries.erase pair⟩ } plan
  | withheld {registry plan plan'} (hauthority : plan'.authority = plan.authority)
      (h : ∀ operation, plan'.withholds operation = false → plan.withholds operation = false) :
      Subtracted registry plan registry plan'
  | unreadable {registry plan} :
      Subtracted registry plan registry { plan with authority := .unreadable }

theorem supported_of_subtracted {registry registry' : StrategyRegistry}
    {plan plan' : SubscriptionCapability} (h : Subtracted registry plan registry' plan')
    {family : ModemFamily} {carrier : CarrierProfile} {operation : Operation} {bearer : Bearer}
    (hsupported : (registry'.resolve family carrier plan' operation).support = .supported bearer) :
    ∃ bearer, (registry.resolve family carrier plan operation).support = .supported bearer := by
  obtain ⟨hceiling, ⟨capability, measured, hget, hof, -⟩, hrefuses, hread, hplan⟩ :=
    (resolve_supported_iff ..).mp hsupported
  suffices hlayers : registry.ceiling family operation = none
      ∧ registry.ledger.get family carrier = some capability
      ∧ registry.refuses carrier operation = none
      ∧ plan.isAuthoritative ∧ plan.withholds operation = false from
    ⟨_, (resolve_supported_iff ..).mpr
      ⟨hlayers.1, ⟨capability, measured, hlayers.2.1, hof, rfl⟩, hlayers.2.2⟩⟩
  cases h with
  | ceiling changed strategy h =>
    refine ⟨?_, hget, hrefuses, hread, hplan⟩
    by_cases hfamily : family = changed
    · subst hfamily
      exact h operation (by simpa [StrategyRegistry.ceiling] using hceiling)
    · simpa [StrategyRegistry.ceiling, AList.lookup_insert_ne hfamily] using hceiling
  | refusal changed strategy h =>
    refine ⟨hceiling, hget, ?_, hread, hplan⟩
    by_cases hcarrier : carrier = changed
    · subst hcarrier
      exact h operation (by simpa [StrategyRegistry.refuses] using hrefuses)
    · simpa [StrategyRegistry.refuses, AList.lookup_insert_ne hcarrier] using hrefuses
  | unmeasured pair =>
    have hpair : (family, carrier) ≠ pair := by
      rintro rfl
      exact absurd hget (by simp [SupportLedger.get])
    exact ⟨hceiling, (AList.lookup_erase_ne hpair).symm.trans hget, hrefuses, hread, hplan⟩
  | withheld hauthority h =>
    refine ⟨hceiling, hget, hrefuses, ?_, h operation hplan⟩
    rwa [SubscriptionCapability.isAuthoritative, hauthority] at hread
  | unreadable => cases hread

theorem resolve_tested_iff (plan : SubscriptionCapability) (operation : Operation) :
    (self.resolve family carrier plan operation).tested ↔
      ∃ capability, self.ledger.get family carrier = some capability := by
  rw [← Option.isSome_iff_exists, resolve]
  cases self.ceiling family operation with
  | some reason => rfl
  | none =>
  cases self.ledger.get family carrier with
  | none => rfl
  | some measured =>
    refine iff_of_true ?_ rfl
    dsimp only
    repeat' split
    all_goals rfl

/-- Resolving only ever subtracts: each of the four layers has let a supported
operation through, taking more away makes none supported, the plan has no say
in the bearer, and a pair is tested exactly if the ledger has it. -/
theorem resolve_only_subtracts (family : ModemFamily) (carrier : CarrierProfile)
    (plan : SubscriptionCapability) (operation : Operation) :
    (∀ bearer, (self.resolve family carrier plan operation).support = .supported bearer →
      self.ceiling family operation = none
        ∧ (∃ capability measured, self.ledger.get family carrier = some capability
          ∧ operation.of capability = .supported measured)
        ∧ self.refuses carrier operation = none
        ∧ plan.isAuthoritative ∧ plan.withholds operation = false)
      ∧ (∀ registry' plan', Subtracted self plan registry' plan' → ∀ bearer,
        (registry'.resolve family carrier plan' operation).support = .supported bearer →
        ∃ bearer, (self.resolve family carrier plan operation).support = .supported bearer)
      ∧ (∀ plan' bearer bearer',
        (self.resolve family carrier plan operation).support = .supported bearer →
        (self.resolve family carrier plan' operation).support = .supported bearer' →
        bearer = bearer')
      ∧ ((self.resolve family carrier plan operation).tested ↔
        ∃ capability, self.ledger.get family carrier = some capability) := by
  refine ⟨?_, fun _ _ h _ => supported_of_subtracted h, ?_, self.resolve_tested_iff ..⟩
  · intro bearer h
    obtain ⟨hceiling, ⟨capability, measured, hget, hof, -⟩, hrest⟩ :=
      (resolve_supported_iff ..).mp h
    exact ⟨hceiling, ⟨capability, measured, hget, hof⟩, hrest⟩
  · intro plan' bearer bearer' h h'
    obtain ⟨-, ⟨capability, measured, hget, hof, rfl⟩, -⟩ := (resolve_supported_iff ..).mp h
    obtain ⟨-, ⟨capability', measured', hget', hof', rfl⟩, -⟩ := (resolve_supported_iff ..).mp h'
    cases hget.symm.trans hget'
    cases hof.symm.trans hof'
    rfl

end StrategyRegistry

/-! ## The strategies this build ships -/

def quectelEcStrategy : ModemStrategy where
  id := "quectel-ec"
  families := [.ec20, .ec25Cn, .eg25G]
  usbIdentities := [⟨0x2c7c, 0x0125⟩]
  ceiling _ := none

def ec200uStrategy : ModemStrategy where
  id := "quectel-ec200u"
  families := [.ec200uCn]
  usbIdentities := [⟨0x2c7c, 0x0901⟩]
  ceiling
    | .smsSend | .smsReceive => none
    | .data => some "this agent brings the bearer up over QMI and the EC200U series exposes none"
    | .voice => some "this agent has no voice path at all"

/-- The four carrier strategies differ in their names only. -/
def carrierStrategy (id : String) (carrier : CarrierProfile) : CarrierStrategy where
  id := id
  carriers := [carrier]
  bearer _ _ := none
  refuses _ := none

def cnMobileStrategy : CarrierStrategy := carrierStrategy "cn-mobile" .cnMobile

def cnUnicomStrategy : CarrierStrategy := carrierStrategy "cn-unicom" .cnUnicom

def cnTelecomStrategy : CarrierStrategy := carrierStrategy "cn-telecom" .cnTelecom

def internationalStrategy : CarrierStrategy :=
  carrierStrategy "generic-international" .genericInternational

/-- The registry as this build ships it. -/
def registry (ledger : SupportLedger) : Except StrategyError StrategyRegistry := do
  let built ← (StrategyRegistry.new ledger).withModem quectelEcStrategy
  let built ← built.withModem ec200uStrategy
  let built ← built.withCarrier cnMobileStrategy
  let built ← built.withCarrier cnUnicomStrategy
  let built ← built.withCarrier cnTelecomStrategy
  built.withCarrier internationalStrategy

/-- The tables of the shipped registry: the strategies claim distinct
families and distinct carriers, so it builds over any ledger. -/
def shippedRegistry (ledger : SupportLedger) : StrategyRegistry where
  modems :=
    ((((∅ : AList fun _ : ModemFamily => ModemStrategy).insert .ec20 quectelEcStrategy).insert
      .ec25Cn quectelEcStrategy).insert .eg25G quectelEcStrategy).insert .ec200uCn ec200uStrategy
  carriers :=
    ((((∅ : AList fun _ : CarrierProfile => CarrierStrategy).insert .cnMobile
      cnMobileStrategy).insert .cnUnicom cnUnicomStrategy).insert .cnTelecom
      cnTelecomStrategy).insert .genericInternational internationalStrategy
  ledger := ledger

theorem registry_eq (ledger : SupportLedger) : registry ledger = .ok (shippedRegistry ledger) :=
  rfl

end VodogeEdge
