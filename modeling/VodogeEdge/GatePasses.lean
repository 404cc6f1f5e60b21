import VodogeEdge.GateRegistry
import VodogeEdge.Runs

/-!
# Enforcement passes

`enforce_registration` of `edge-bin`: one pass over the managed modules.
It gathers the evidence, judges every module whose gate state could be
read, clears the marks of those that pass, marks those that are refused,
and, when the mode allows it, retires those whose quarantine is over.

A run interleaves passes with what operators do: registering, unregistering,
clearing and restarting a countdown. A pass carries everything its
environment decides.
-/

namespace VodogeEdge

open Std List

/-! ## Networks -/

structure Network where
  mcc : Nat
  mnc : Nat

def networks : List (Nat × Nat × String) :=
  [(460, 0, "中国移动"), (460, 2, "中国移动"), (460, 4, "中国移动"), (460, 7, "中国移动"),
   (460, 8, "中国移动"), (460, 1, "中国联通"), (460, 6, "中国联通"), (460, 9, "中国联通"),
   (460, 3, "中国电信"), (460, 5, "中国电信"), (460, 11, "中国电信"), (460, 15, "中国广电"),
   (460, 20, "中国铁通"), (454, 0, "CSL"), (454, 2, "CSL"), (454, 3, "3 HK"), (454, 4, "3 HK"),
   (454, 6, "SmarTone"), (454, 10, "CSL"), (454, 12, "CMHK"), (454, 16, "CMHK"),
   (454, 19, "SmarTone"), (455, 1, "CTM"), (455, 3, "3 Macau"), (466, 92, "中華電信"),
   (466, 97, "台灣大哥大"), (310, 260, "T-Mobile"), (310, 410, "AT&T"), (310, 280, "AT&T"),
   (311, 480, "Verizon"), (505, 1, "Telstra"), (440, 10, "NTT docomo"), (450, 5, "SK Telecom"),
   (525, 1, "Singtel")]

namespace Network

def padded (width n : Nat) : String :=
  let digits := Nat.toDigits 10 n
  String.ofList (List.replicate (width - digits.length) '0' ++ digits)

def numeric (self : Network) : String := padded 3 self.mcc ++ "-" ++ padded 2 self.mnc

def label (self : Network) : String :=
  match networks.find? fun (mcc, mnc, _) => mcc = self.mcc ∧ mnc = self.mnc with
  | some (_, _, name) => name
  | none => self.numeric

def carrierProfile (self : Network) : String :=
  if self.mcc ≠ 460 then "Generic-International"
  else if self.label ∈ ["中国移动", "中国广电", "中国铁通"] then "CN-Mobile"
  else if self.label = "中国联通" then "CN-Unicom"
  else if self.label = "中国电信" then "CN-Telecom"
  else "Generic-International"

end Network

/-! ## Evidence -/

structure LocalModem where
  imei : String
  family : String
  lastSeen : Option Int
  homeMcc : Option Nat
  homeMnc : Option Nat

structure LocalModemDiscovery where
  vendorId : Option String
  productId : Option String
  imei : Option String

inductive EnforceMode where
  | mark
  | unbind

/-- Only the exact word opens it. -/
def enforceModeFrom (value : String) : EnforceMode :=
  if trim value = "unbind" then .unbind else .mark

def evidenceFor (row : RegisteredModem) (gate : Option GateFailure) (observed : List LocalModem)
    (discoveries : List LocalModemDiscovery) (now : Int) : GateEvidence :=
  let seen := observed.find? (·.imei = row.imei)
  let discovery := discoveries.find? (·.imei = some row.imei)
  { imei := row.imei
    adoptedFamily := row.family.map ModemFamily.ofStr
    observedFamily := seen.map fun modem => .ofStr modem.family
    carrier := seen.bind fun modem =>
      modem.homeMcc.bind fun mcc =>
        modem.homeMnc.map fun mnc => .ofStr (Network.mk mcc mnc).carrierProfile
    usb := discovery.bind fun candidate =>
      match candidate.vendorId, candidate.productId with
      | some vendor, some product => UsbIdentity.parse vendor product
      | _, _ => none
    observationAgeMs := (seen.bind (·.lastSeen)).map fun seen => max (saturatingSub now seen) 0
    failingSinceMs := gate.map (·.since)
    failingPasses := (gate.map (·.passes)).getD 0 }

variable (registered : List RegisteredModem)

def buildEvidence (gates : ExtTreeMap String GateFailure) (observed : List LocalModem)
    (discoveries : List LocalModemDiscovery) (now : Int) : List GateEvidence :=
  registered.map fun row => evidenceFor row gates[row.imei]? observed discoveries now

/-- Modules whose gate state could not be read are held, not judged. -/
def splitUnreadable (unreadable : List String) :
    List RegisteredModem × List (String × HoldReason) :=
  (registered.filter fun row => !unreadable.contains row.imei,
   (registered.filter fun row => unreadable.contains row.imei).map fun row =>
     (row.imei, .gateStateUnreadable))

/-! ## The plan -/

structure EnforcementPlan where
  keep : List String := []
  hold : List (String × HoldReason) := []
  quarantine : List (String × BindRefusal × Int × Nat) := []
  unbind : List (String × BindRefusal) := []

namespace EnforcementPlan

def push (self : EnforcementPlan) (imei : String) : Enforcement → EnforcementPlan
  | .keep => { self with keep := self.keep ++ [imei] }
  | .hold reason => { self with hold := self.hold ++ [(imei, reason)] }
  | .quarantine refusal elapsedMs passes =>
    { self with quarantine := self.quarantine ++ [(imei, refusal, elapsedMs, passes)] }
  | .unbind refusal => { self with unbind := self.unbind ++ [(imei, refusal)] }

/-- The modules to mark: those in quarantine and those past it. -/
def verdicts (self : EnforcementPlan) : List (String × BindRefusal) :=
  (self.quarantine.map fun (imei, refusal, _, _) => (imei, refusal)) ++ self.unbind

end EnforcementPlan

/-- `strategy_registry()`: the shipped one, over an empty ledger. -/
def strategyRegistry : StrategyRegistry := shippedRegistry .new

def planEnforcement (matrix : CapabilityMatrix) (authority : MatrixAuthority)
    (uplinkEverResumed : Bool) (evidence : List GateEvidence) (now : Int) : EnforcementPlan :=
  evidence.foldl (fun plan item => plan.push item.imei
    (enforceOne strategyRegistry matrix authority uplinkEverResumed item now)) {}

/-! ## One pass -/

/-- What the environment of one pass decides: its arguments, the setting
of the mode, and which reads and deletions fail. -/
structure Pass where
  matrix : CapabilityMatrix
  authority : MatrixAuthority
  uplinkEverResumed : Bool
  discoveries : Option (List LocalModemDiscovery)
  enforce : String
  registryReadable : Bool
  inventory : Option (List LocalModem)
  gateUnreadable : List String
  retireFails : List String
  now : Int

/-- What a pass did: its plan, the records it called `retire_modem` with,
and the modules that went. -/
structure PassReport where
  plan : EnforcementPlan := {}
  calls : List Retirement := []
  retired : List (String × BindRefusal) := []

/-- The loop that reads the gate states: the marks that were found, and the
modules whose state could not be read. -/
def readGates (store : RegistryStore) (failing : List String) : List RegisteredModem →
    ExtTreeMap String GateFailure × List String
  | [] => (∅, [])
  | row :: rest =>
    let (gates, unreadable) := readGates store failing rest
    if failing.contains row.imei then (gates, row.imei :: unreadable)
    else
      match store.gateFailure row.imei with
      | some gate => (gates.insert row.imei gate, unreadable)
      | none => (gates, unreadable)

def passPlan (store : RegistryStore) (pass : Pass) (discoveries : List LocalModemDiscovery)
    (observed : List LocalModem) : EnforcementPlan :=
  let registered := store.registeredModems
  let (gates, unreadable) := readGates store pass.gateUnreadable registered
  let (judged, unreadableHolds) := splitUnreadable registered unreadable
  let evidence := buildEvidence judged gates observed discoveries pass.now
  let plan := planEnforcement pass.matrix pass.authority pass.uplinkEverResumed evidence pass.now
  { plan with hold := plan.hold ++ unreadableHolds }

def retireOne (pass : Pass) :
    RegistryStore × PassReport → String × BindRefusal → RegistryStore × PassReport
  | (store, report), (imei, refusal) =>
    match registered.find? (·.imei = imei) with
    | none => (store, report)
    | some row =>
      let record : Retirement :=
        ⟨imei, row.registeredAt, row.registeredBy, row.family, row.usbDevice, pass.now,
          refusal.wire, some refusal.display, some pass.matrix.version⟩
      let report := { report with calls := report.calls ++ [record] }
      if pass.retireFails.contains imei then (store, report)
      else if imei ∈ store.registered then
        (store.retireModem record,
          { report with retired := report.retired ++ [(imei, refusal)] })
      else (store.retireModem record, report)

def executePlan (store : RegistryStore) (pass : Pass) (plan : EnforcementPlan) :
    RegistryStore × PassReport :=
  let registered := store.registeredModems
  let store := plan.keep.foldl RegistryStore.clearGateFailure store
  let store := plan.verdicts.foldl
    (fun store (imei, refusal) => store.markGateFailure imei refusal.wire pass.now) store
  match enforceModeFrom pass.enforce with
  | .mark => (store, { plan := plan })
  | .unbind => plan.unbind.foldl (retireOne registered pass) (store, { plan := plan })

def enforceRegistration (store : RegistryStore) (pass : Pass) : RegistryStore × PassReport :=
  match pass.discoveries with
  | none => (store, {})
  | some discoveries =>
    if !pass.registryReadable then (store, {})
    else if store.registeredModems.isEmpty then (store, {})
    else
      match pass.inventory with
      | none => (store, {})
      | some observed =>
        executePlan store pass (passPlan store pass discoveries observed)

/-! ## What a plan holds -/

section
variable (judge : GateEvidence → Enforcement)

/-- The plan of any way to judge the items. -/
def planOf (evidence : List GateEvidence) : EnforcementPlan :=
  evidence.foldl (fun plan item => plan.push item.imei (judge item)) {}

namespace EnforcementPlan

/-- All modules of a plan, and how they were judged. -/
def judged (self : EnforcementPlan) : List (String × Enforcement) :=
  self.keep.map (·, .keep)
    ++ (self.hold.map (fun (imei, reason) => (imei, .hold reason))
      ++ (self.quarantine.map (fun (imei, refusal, elapsedMs, passes) =>
          (imei, .quarantine refusal elapsedMs passes))
        ++ self.unbind.map fun (imei, refusal) => (imei, .unbind refusal)))

variable (plan : EnforcementPlan)

theorem judged_push (imei : String) (verdict : Enforcement) :
    (plan.push imei verdict).judged.Perm ((imei, verdict) :: plan.judged) := by
  have hmiddle {α : Type} (first second rest : List α) (a : α) :
      (first ++ (second ++ a :: rest)).Perm (a :: (first ++ (second ++ rest))) :=
    (perm_middle.append_left first).trans perm_middle
  cases verdict with
  | keep => simp [push, judged]
  | hold reason => simpa [push, judged] using hmiddle _ _ _ _
  | quarantine refusal elapsedMs passes =>
    simpa [push, judged] using ((hmiddle _ _ _ _).append_left _).trans perm_middle
  | unbind refusal =>
    have hlast := (perm_append_singleton (imei, .unbind refusal) (plan.unbind.map
      fun (imei, refusal) => (imei, Enforcement.unbind refusal))).append_left
    simpa [push, judged] using (((hlast _).append_left _).trans (hmiddle _ _ _ _)
      |>.append_left _).trans perm_middle

theorem map_fst_judged :
    plan.judged.map Prod.fst
      = plan.keep ++ (plan.hold.map Prod.fst ++ plan.verdicts.map Prod.fst) := by
  simp [judged, verdicts, Function.comp_def]

end EnforcementPlan

/-- Every item is judged, and nothing else is. -/
theorem judged_planOf (evidence : List GateEvidence) :
    (planOf judge evidence).judged.Perm (evidence.map fun item => (item.imei, judge item)) := by
  have hfold : ∀ (evidence : List GateEvidence) (plan : EnforcementPlan),
      (evidence.foldl (fun plan item => plan.push item.imei (judge item)) plan).judged.Perm
        (plan.judged ++ evidence.map fun item => (item.imei, judge item)) := by
    intro evidence
    induction evidence with
    | nil => intro plan; simp
    | cons item rest ih =>
      intro plan
      exact ((ih _).trans ((plan.judged_push item.imei (judge item)).append_right _)).trans
        perm_middle.symm
  exact hfold evidence {}

end

/-! ## The plan of a pass -/

theorem readGates_snd (store : RegistryStore) (failing : List String) :
    ∀ registered, (readGates store failing registered).2
      = (registered.map RegisteredModem.imei).filter failing.contains
  | [] => rfl
  | row :: rest => by
    rw [readGates]
    dsimp only
    rw [map_cons, filter_cons, ← readGates_snd]
    split
    · rfl
    · split <;> rfl

theorem readGates_fst (store : RegistryStore) (failing : List String) {imei : String}
    (hread : imei ∉ failing) : ∀ registered,
      (readGates store failing registered).1[imei]?
        = if imei ∈ registered.map RegisteredModem.imei then store.gateFailure imei else none
  | [] => rfl
  | row :: rest => by
    have ih := readGates_fst store failing hread rest
    rw [readGates]
    dsimp only
    by_cases himei : row.imei = imei
    · subst himei
      have hcontains : failing.contains row.imei = false := by simpa using hread
      rw [hcontains, map_cons]
      cases hgate : store.gateFailure row.imei with
      | some gate => simp
      | none => simpa [hgate] using ih
    · have hlisted : imei ∈ (row :: rest).map RegisteredModem.imei
          ↔ imei ∈ rest.map RegisteredModem.imei := by
        simp [Ne.symm himei]
      simp only [hlisted]
      split
      · exact ih
      · split
        · rw [ExtTreeMap.getElem?_insert, if_neg (mt Std.compare_eq_iff_eq.mp himei), ih]
        · exact ih

/-- The modules judged are those whose state could be read; the others are
held. -/
theorem splitUnreadable_readGates (store : RegistryStore) (failing : List String)
    (registered : List RegisteredModem) :
    splitUnreadable registered (readGates store failing registered).2
      = (registered.filter fun row => !failing.contains row.imei,
         (registered.filter fun row => failing.contains row.imei).map fun row =>
           (row.imei, .gateStateUnreadable)) := by
  have hcontains : ∀ row ∈ registered,
      (readGates store failing registered).2.contains row.imei = failing.contains row.imei := by
    intro row hrow
    have hlisted : row.imei ∈ registered.map RegisteredModem.imei := mem_map_of_mem hrow
    rw [readGates_snd, Bool.eq_iff_iff, contains_iff_mem, mem_filter]
    exact and_iff_right hlisted
  rw [splitUnreadable, filter_congr fun row hrow => congrArg (! ·) (hcontains row hrow),
    filter_congr hcontains]

/-- What the passes rely on: a plan judges each module once, holds the
unreadable ones, and unbinds on evidence that carries the module's own
mark. -/
structure Planned (store : RegistryStore) (pass : Pass) (plan : EnforcementPlan) : Prop where
  once : (plan.verdicts.map Prod.fst).Nodup
  kept : ∀ imei ∈ plan.keep, imei ∉ plan.verdicts.map Prod.fst
  held : ∀ held ∈ plan.hold, held.1 ∉ plan.keep ∧ held.1 ∉ plan.verdicts.map Prod.fst
  unread : ∀ imei ∈ pass.gateUnreadable, imei ∉ plan.keep ∧ imei ∉ plan.verdicts.map Prod.fst
  due : ∀ due ∈ plan.unbind, ∃ item : GateEvidence, item.imei = due.1
    ∧ item.failingSinceMs = (store.gateFailure due.1).map GateFailure.since
    ∧ item.failingPasses = ((store.gateFailure due.1).map GateFailure.passes).getD 0
    ∧ enforceOne strategyRegistry pass.matrix pass.authority pass.uplinkEverResumed item pass.now
      = .unbind due.2

def passEvidence (store : RegistryStore) (pass : Pass) (discoveries : List LocalModemDiscovery)
    (observed : List LocalModem) : List GateEvidence :=
  buildEvidence (store.registeredModems.filter fun row => !pass.gateUnreadable.contains row.imei)
    (readGates store pass.gateUnreadable store.registeredModems).1 observed discoveries pass.now

section
variable (store : RegistryStore) (pass : Pass) (discoveries : List LocalModemDiscovery)
  (observed : List LocalModem)

/-- Every item is about a module whose state was read, and carries that
state. -/
theorem mem_passEvidence {item : GateEvidence}
    (hitem : item ∈ passEvidence store pass discoveries observed) :
    item.imei ∉ pass.gateUnreadable
      ∧ item.failingSinceMs = (store.gateFailure item.imei).map GateFailure.since
      ∧ item.failingPasses = ((store.gateFailure item.imei).map GateFailure.passes).getD 0 := by
  simp only [passEvidence, buildEvidence, mem_map, mem_filter] at hitem
  obtain ⟨row, ⟨hlisted, hjudged⟩, rfl⟩ := hitem
  have hread : row.imei ∉ pass.gateUnreadable := by simpa using hjudged
  have hgate := readGates_fst store pass.gateUnreadable hread store.registeredModems
  rw [if_pos (mem_map_of_mem hlisted)] at hgate
  exact ⟨hread, congrArg (Option.map _) hgate,
    congrArg (fun gate => (Option.map _ gate).getD 0) hgate⟩

theorem nodup_passEvidence :
    ((passEvidence store pass discoveries observed).map GateEvidence.imei).Nodup := by
  have hmap : (passEvidence store pass discoveries observed).map GateEvidence.imei
      = (store.registeredModems.filter fun row => !pass.gateUnreadable.contains row.imei).map
        RegisteredModem.imei := by
    simp only [passEvidence, buildEvidence, map_map]
    rfl
  rw [hmap]
  exact store.nodup_map_imei_registeredModems.sublist (filter_sublist.map _)

theorem passPlan_eq :
    passPlan store pass discoveries observed
      = let plan := planOf
          (enforceOne strategyRegistry pass.matrix pass.authority pass.uplinkEverResumed · pass.now)
          (passEvidence store pass discoveries observed)
        { plan with
          hold := plan.hold
            ++ (store.registeredModems.filter fun row => pass.gateUnreadable.contains row.imei).map
              fun row => (row.imei, .gateStateUnreadable) } := by
  simp only [passPlan, splitUnreadable_readGates]
  rfl

theorem planned_passPlan : Planned store pass (passPlan store pass discoveries observed) := by
  have hjudged := judged_planOf
    (enforceOne strategyRegistry pass.matrix pass.authority pass.uplinkEverResumed · pass.now)
    (passEvidence store pass discoveries observed)
  rw [passPlan_eq]
  generalize planOf _ _ = plan at hjudged ⊢
  -- the lists of the plan together are the modules of the evidence, each once
  have himeis := hjudged.map Prod.fst
  rw [EnforcementPlan.map_fst_judged, map_map] at himeis
  obtain ⟨-, hrest, hkept⟩ := nodup_append.mp
    (himeis.nodup_iff.mpr (nodup_passEvidence store pass discoveries observed))
  obtain ⟨-, honce, hheld⟩ := nodup_append.mp hrest
  have hunread : ∀ imei ∈ pass.gateUnreadable,
      imei ∉ plan.keep ++ (plan.hold.map Prod.fst ++ plan.verdicts.map Prod.fst) := by
    intro imei himei hlisted
    obtain ⟨item, hitem, rfl⟩ := mem_map.mp (himeis.subset hlisted)
    exact (mem_passEvidence store pass discoveries observed hitem).1 himei
  simp only [mem_append, not_or] at hunread
  refine ⟨honce, ?_, ?_, ?_, ?_⟩
  · exact fun imei hkeep hrefused => hkept imei hkeep imei (mem_append_right _ hrefused) rfl
  · intro held hhold
    rcases mem_append.mp hhold with hhold | hhold
    · have hlisted := mem_map_of_mem (f := Prod.fst) hhold
      exact ⟨fun hkeep => hkept _ hkeep _ (mem_append_left _ hlisted) rfl,
        fun hrefused => hheld _ hlisted _ hrefused rfl⟩
    · obtain ⟨row, hrow, rfl⟩ := mem_map.mp hhold
      obtain ⟨hkeep, -, hrefused⟩ := hunread row.imei (by simpa using (mem_filter.mp hrow).2)
      exact ⟨hkeep, hrefused⟩
  · intro imei himei
    obtain ⟨hkeep, -, hrefused⟩ := hunread imei himei
    exact ⟨hkeep, hrefused⟩
  · intro due hdue
    obtain ⟨item, hitem, heq⟩ := mem_map.mp (hjudged.subset (show (due.1, .unbind due.2) ∈ _ by
      simpa [EnforcementPlan.judged] using hdue))
    obtain ⟨hsame, hunbind⟩ := Prod.mk.inj heq
    obtain ⟨-, hsince, hpasses⟩ := mem_passEvidence store pass discoveries observed hitem
    exact ⟨item, hsame, hsame ▸ hsince, hsame ▸ hpasses, hunbind⟩

/-- Every pass carries out a plan, the empty one when it stopped early. -/
theorem enforceRegistration_cases :
    ∃ plan, Planned store pass plan
      ∧ enforceRegistration store pass = executePlan store pass plan := by
  have hstopped : ∃ plan, Planned store pass plan
      ∧ (store, ({})) = executePlan store pass plan := by
    refine ⟨{}, ⟨nodup_nil, by simp, by simp, by simp [EnforcementPlan.verdicts], by simp⟩, ?_⟩
    unfold executePlan
    cases enforceModeFrom pass.enforce <;> rfl
  unfold enforceRegistration
  split
  · exact hstopped
  next discoveries _ =>
    split
    · exact hstopped
    · split
      · exact hstopped
      · split
        · exact hstopped
        next observed _ => exact ⟨_, planned_passPlan store pass discoveries observed, rfl⟩

end

/-! ## What a pass writes -/

theorem countdown_foldl_clear (imei : String) : ∀ (cleared : List String) store,
    (cleared.foldl RegistryStore.clearGateFailure store).countdown imei
      = if imei ∈ cleared then (store.countdown imei).map (fun _ => .unmarked)
        else store.countdown imei
  | [], store => rfl
  | target :: rest, store => by
    rw [foldl_cons, countdown_foldl_clear, RegistryStore.countdown_clearGateFailure]
    by_cases htarget : target = imei
    · subst htarget
      simp [Function.comp_def]
    · simp [htarget, Ne.symm]

theorem countdown_foldl_mark (imei : String) (now : Int) :
    ∀ {refused : List (String × BindRefusal)}, (refused.map Prod.fst).Nodup →
      ∀ store : RegistryStore,
        (refused.foldl (fun store (imei, refusal) =>
            store.markGateFailure imei refusal.wire now) store).countdown imei
          = if imei ∈ refused.map Prod.fst then (store.countdown imei).map (·.marked now)
            else store.countdown imei
  | [], _, store => rfl
  | (target, refusal) :: rest, hnodup, store => by
    obtain ⟨hfresh, hrest⟩ := nodup_cons.mp hnodup
    rw [foldl_cons, countdown_foldl_mark imei now hrest, RegistryStore.countdown_markGateFailure]
    by_cases htarget : target = imei
    · subst htarget
      rw [if_neg hfresh, if_pos rfl, map_cons, if_pos mem_cons_self]
    · rw [if_neg htarget, map_cons]
      simp only [mem_cons, Ne.symm htarget, false_or]

/-- What the retiring loop does over the modules due: the plan stays, a
countdown stays or goes with the row of a module due, and every call names
one of them. -/
structure Retired (imei : String) (before after : RegistryStore × PassReport)
    (due : List (String × BindRefusal)) : Prop where
  plan : after.2.plan = before.2.plan
  countdown : imei ∈ due.map Prod.fst ∧ after.1.countdown imei = none
    ∨ after.1.countdown imei = before.1.countdown imei
  calls : ∀ record ∈ after.2.calls, record ∈ before.2.calls ∨ record.imei ∈ due.map Prod.fst

section
variable {imei : String} {due : List (String × BindRefusal)}

theorem Retired.trans {before between after : RegistryStore × PassReport}
    (hfirst : Retired imei before between due) (hrest : Retired imei between after due) :
    Retired imei before after due where
  plan := hrest.plan.trans hfirst.plan
  countdown := hrest.countdown.elim .inl fun hsame => hsame ▸ hfirst.countdown
  calls record hmem := (hrest.calls record hmem).elim (hfirst.calls record) .inr

theorem retired_retireOne (pass : Pass) (before : RegistryStore × PassReport)
    {next : String × BindRefusal} (hnext : next ∈ due) :
    Retired imei before (retireOne registered pass before next) due := by
  obtain ⟨store, report⟩ := before
  have hdue : next.1 ∈ due.map Prod.fst := mem_map_of_mem hnext
  have hgone : ∀ {record : Retirement}, record.imei = next.1 →
      imei ∈ due.map Prod.fst ∧ (store.retireModem record).countdown imei = none
        ∨ (store.retireModem record).countdown imei = store.countdown imei := by
    intro record htarget
    rw [RegistryStore.countdown_retireModem]
    split
    next hsame => exact .inl ⟨hsame ▸ htarget ▸ hdue, rfl⟩
    · exact .inr rfl
  have hcalls : ∀ {called record : Retirement}, called.imei = next.1 →
      record ∈ report.calls ++ [called] →
        record ∈ report.calls ∨ record.imei ∈ due.map Prod.fst := by
    intro called record htarget hmem
    refine (mem_append.mp hmem).imp_right fun hmem => ?_
    cases mem_singleton.mp hmem
    exact htarget ▸ hdue
  unfold retireOne
  dsimp only
  split
  · exact ⟨rfl, .inr rfl, fun _ hmem => .inl hmem⟩
  · split
    · exact ⟨rfl, .inr rfl, fun _ => hcalls rfl⟩
    · split <;> exact ⟨rfl, hgone rfl, fun _ => hcalls rfl⟩

theorem retired_foldl (imei : String) (pass : Pass) (before : RegistryStore × PassReport) :
    Retired imei before (due.foldl (retireOne registered pass) before) due :=
  foldlRecOn (motive := (Retired imei before · due)) due _
    ⟨rfl, .inr rfl, fun _ hmem => .inl hmem⟩
    fun reached hreached _ hnext => hreached.trans (retired_retireOne registered pass reached hnext)

end

/-- What happened to a module's gate state, as a history records it. -/
inductive GateNote where
  /-- It passed, its mark was cleared, or it was registered. -/
  | fresh
  /-- An operator restarted its countdown. -/
  | restarted (now : Int)
  /-- A pass refused it. -/
  | refused (now : Int)
  /-- Nothing that concerns it, a pass that could not judge it included. -/
  | quiet
deriving DecidableEq

def Countdown.noted (self : Countdown) : GateNote → Countdown
  | .fresh => .unmarked
  | .restarted now => .restarted now
  | .refused now => self.marked now
  | .quiet => self

def EnforcementPlan.note (self : EnforcementPlan) (imei : String) (now : Int) : GateNote :=
  if imei ∈ self.keep then .fresh
  else if imei ∈ self.verdicts.map Prod.fst then .refused now
  else .quiet

section
variable {store : RegistryStore} {pass : Pass} {plan : EnforcementPlan}

/-- The writes before the retiring loop move each countdown by its note. -/
theorem Planned.countdown_marked (hplanned : Planned store pass plan) (imei : String) :
    (plan.verdicts.foldl (fun store (imei, refusal) =>
        store.markGateFailure imei refusal.wire pass.now)
      (plan.keep.foldl RegistryStore.clearGateFailure store)).countdown imei
      = (store.countdown imei).map (·.noted (plan.note imei pass.now)) := by
  rw [countdown_foldl_mark imei pass.now hplanned.once, countdown_foldl_clear, EnforcementPlan.note]
  by_cases hkept : imei ∈ plan.keep
  · rw [if_neg (hplanned.kept imei hkept), if_pos hkept, if_pos hkept]
    rfl
  · by_cases hrefused : imei ∈ plan.verdicts.map Prod.fst
    · rw [if_pos hrefused, if_neg hkept, if_neg hkept, if_pos hrefused]
      rfl
    · rw [if_neg hrefused, if_neg hkept, if_neg hkept, if_neg hrefused]
      exact Option.map_id'.symm

/-- A pass carries out its plan: every countdown follows its note, or goes
with its row, and only modules due are retired. -/
theorem Planned.executePlan_spec (hplanned : Planned store pass plan) (imei : String) :
    (executePlan store pass plan).2.plan = plan
      ∧ (imei ∈ plan.unbind.map Prod.fst ∧ (executePlan store pass plan).1.countdown imei = none
        ∨ (executePlan store pass plan).1.countdown imei
          = (store.countdown imei).map (·.noted (plan.note imei pass.now)))
      ∧ ∀ record ∈ (executePlan store pass plan).2.calls,
        record.imei ∈ plan.unbind.map Prod.fst := by
  rw [← hplanned.countdown_marked]
  unfold executePlan
  split
  · exact ⟨rfl, .inr rfl, by simp⟩
  · refine ⟨(retired_foldl _ imei pass _).plan, (retired_foldl _ imei pass _).countdown,
      fun record hmem => ?_⟩
    exact ((retired_foldl _ imei pass _).calls record hmem).resolve_left not_mem_nil

end

/-! ## Runs -/

inductive GateEvent where
  | pass (pass : Pass)
  | clear (imei : String)
  | restart (imei reason : String) (now : Int)
  | register (modem : RegisteredModem)
  | unregister (imei : String)

def gateStep (store : RegistryStore) : GateEvent → RegistryStore
  | .pass pass => (enforceRegistration store pass).1
  | .clear imei => store.clearGateFailure imei
  | .restart imei reason now => store.restartGateFailure imei reason now
  | .register modem => store.registerModem modem
  | .unregister imei => store.unregisterModem imei

def gateNote (imei : String) (store : RegistryStore) : GateEvent → GateNote
  | .pass pass => (enforceRegistration store pass).2.plan.note imei pass.now
  | .clear target => if target = imei then .fresh else .quiet
  | .restart target _ now => if target = imei then .restarted now else .quiet
  | .register modem => if modem.imei = imei then .fresh else .quiet
  | .unregister _ => .quiet

variable {countdown : Countdown} (note : GateNote)

theorem noted_of_map {before : Option Countdown} {p : Prop} [Decidable p]
    {move : Countdown → Countdown} {note : GateNote}
    (h : (if p then before.map move else before) = some countdown)
    (hmove : ∀ countdown, move countdown = countdown.noted note) :
    ∃ from_, before = some from_ ∧ countdown = from_.noted (if p then note else .quiet) := by
  split at h
  next hp =>
    obtain ⟨from_, hbefore, rfl⟩ := Option.map_eq_some_iff.mp h
    exact ⟨from_, hbefore, by rw [if_pos hp, hmove]⟩
  next hp => exact ⟨countdown, h, by rw [if_neg hp]; rfl⟩

/-- One event moves the countdown of a module that stays managed by its
note. A module that becomes managed starts unmarked. -/
theorem countdown_gateStep {imei : String} {store : RegistryStore} {event : GateEvent}
    (h : (gateStep store event).countdown imei = some countdown) :
    (∃ before, store.countdown imei = some before
        ∧ countdown = before.noted (gateNote imei store event))
      ∨ gateNote imei store event = .fresh ∧ countdown = .unmarked := by
  cases event with
  | pass pass =>
    obtain ⟨plan, hplanned, hexecute⟩ := enforceRegistration_cases store pass
    obtain ⟨hplan, hcountdown, -⟩ := hplanned.executePlan_spec imei
    simp only [gateStep, gateNote, hexecute, hplan] at h ⊢
    rcases hcountdown with ⟨-, hnone⟩ | hmoved
    · rw [hnone] at h
      cases h
    · rw [hmoved, Option.map_eq_some_iff] at h
      obtain ⟨before, hbefore, rfl⟩ := h
      exact .inl ⟨before, hbefore, rfl⟩
  | clear target =>
    rw [gateStep, RegistryStore.countdown_clearGateFailure] at h
    exact .inl (noted_of_map h fun _ => rfl)
  | restart target reason now =>
    rw [gateStep, RegistryStore.countdown_restartGateFailure] at h
    exact .inl (noted_of_map h fun _ => rfl)
  | register modem =>
    simp only [gateStep, RegistryStore.countdown_registerModem, gateNote] at h ⊢
    split at h
    next htarget => exact .inr ⟨if_pos htarget, (Option.some.inj h).symm⟩
    next htarget => exact .inl ⟨countdown, h, by rw [if_neg htarget]; rfl⟩
  | unregister gone =>
    simp only [gateStep, RegistryStore.countdown_unregisterModem] at h
    split at h
    · cases h
    · exact .inl ⟨countdown, h, rfl⟩

/-! ## Histories -/

def GateNote.resets : GateNote → Bool
  | .fresh | .restarted _ => true
  | .refused _ | .quiet => false

variable (notes : List GateNote)

def lastReset : Option GateNote := notes.reverse.find? GateNote.resets

def sinceReset : List GateNote := notes.rtakeWhile (! ·.resets)

def refusals : List Int :=
  (sinceReset notes).filterMap fun
    | .refused now => some now
    | _ => none

/-- When the countdown began: at the restart, if that is what set it back,
and otherwise with the first refusal since. -/
def streakStart : Option Int :=
  match lastReset notes with
  | some (.restarted now) => some now
  | _ => (refusals notes).head?

/-- What the gate columns of a module with this history hold. -/
def tally : Countdown := ⟨streakStart notes, (refusals notes).length⟩

@[simp] theorem lastReset_snoc :
    lastReset (notes ++ [note]) = if note.resets then some note else lastReset notes := by
  rw [lastReset, reverse_append, reverse_singleton, singleton_append, List.find?_cons]
  cases note.resets <;> rfl

@[simp] theorem sinceReset_snoc :
    sinceReset (notes ++ [note]) = if note.resets then [] else sinceReset notes ++ [note] := by
  rw [sinceReset, rtakeWhile_concat]
  cases note.resets <;> rfl

theorem tally_snoc : tally (notes ++ [note]) = (tally notes).noted note := by
  cases note with
  | fresh =>
    simp [tally, streakStart, refusals, GateNote.resets, Countdown.noted, Countdown.unmarked]
  | restarted now =>
    simp [tally, streakStart, refusals, GateNote.resets, Countdown.noted, Countdown.restarted]
  | quiet => simp [tally, streakStart, refusals, GateNote.resets, Countdown.noted]
  | refused now =>
    have hrefusals : refusals (notes ++ [.refused now]) = refusals notes ++ [now] := by
      simp [refusals, GateNote.resets]
    have hstart : streakStart (notes ++ [.refused now]) = some ((streakStart notes).getD now) := by
      unfold streakStart
      rw [hrefusals, lastReset_snoc, if_neg (nofun)]
      split
      · rfl
      · cases refusals notes <;> rfl
    simp [tally, Countdown.noted, Countdown.marked, hstart, hrefusals]

/-- The columns of a managed module hold what its history says. -/
theorem countdown_run (imei : String) {start : RegistryStore}
    (hstart : ∀ countdown, start.countdown imei = some countdown → countdown = .unmarked)
    (events : List GateEvent) :
    ∀ countdown, (runFrom gateStep start events).countdown imei = some countdown →
      countdown = tally (outputs gateStep (gateNote imei) start events) := by
  induction events using reverseRecOn with
  | nil => exact hstart
  | append_singleton events event ih =>
    intro countdown hcountdown
    rw [runFrom_snoc] at hcountdown
    rw [outputs_snoc, tally_snoc]
    rcases countdown_gateStep hcountdown with ⟨before, hbefore, rfl⟩ | ⟨hfresh, rfl⟩
    · rw [← ih before hbefore]
    · rw [hfresh]
      rfl

/-! ## The guarantee -/

section
variable {store : RegistryStore} {pass : Pass} {plan : EnforcementPlan} {imei : String}

theorem EnforcementPlan.mem_verdicts_of_mem_unbind (h : imei ∈ plan.unbind.map Prod.fst) :
    imei ∈ plan.verdicts.map Prod.fst := by
  rw [verdicts, map_append]
  exact mem_append_right _ h

theorem Planned.note_due (hplanned : Planned store pass plan)
    (hdue : imei ∈ plan.unbind.map Prod.fst) : plan.note imei pass.now = .refused pass.now := by
  have hrefused := EnforcementPlan.mem_verdicts_of_mem_unbind hdue
  rw [EnforcementPlan.note, if_neg fun hkept => hplanned.kept imei hkept hrefused, if_pos hrefused]

theorem Planned.countdown_due (hplanned : Planned store pass plan) {refusal : BindRefusal}
    (hdue : (imei, refusal) ∈ plan.unbind) :
    refusal.kind = .verdict ∧ ∃ countdown, store.countdown imei = some countdown
      ∧ gracePasses ≤ countdown.passes + 1
      ∧ ∃ since, countdown.since = some since ∧ graceMs ≤ pass.now - since := by
  obtain ⟨item, -, hsince, hpasses, hunbind⟩ := hplanned.due _ hdue
  obtain ⟨hkind, hmany, since, hmarked, hlong⟩ := enforceOne_unbind hunbind
  rw [hsince] at hmarked
  obtain ⟨countdown, hcountdown⟩ : ∃ countdown, store.countdown imei = some countdown := by
    obtain ⟨gate, hgate, -⟩ := Option.map_eq_some_iff.mp hmarked
    obtain ⟨row, hrow, -⟩ := Option.bind_eq_some_iff.mp hgate
    exact ⟨row.countdown, by rw [RegistryStore.countdown, hrow]; rfl⟩
  obtain ⟨hread, hcount⟩ := store.gateFailure_eq hcountdown
  refine ⟨hkind, countdown, hcountdown, ?_, since, hread.symm.trans hmarked, hlong⟩
  rw [hpasses] at hmany
  exact hmany.trans (Nat.succ_le_succ hcount)

theorem Planned.countdown_unjudged (hplanned : Planned store pass plan)
    (hunjudged : imei ∉ plan.keep ∧ imei ∉ plan.verdicts.map Prod.fst) :
    (executePlan store pass plan).1.countdown imei = store.countdown imei := by
  obtain ⟨-, hcountdown, -⟩ := hplanned.executePlan_spec imei
  rw [EnforcementPlan.note, if_neg hunjudged.1, if_neg hunjudged.2] at hcountdown
  rcases hcountdown with ⟨hdue, -⟩ | hsame
  · exact absurd (EnforcementPlan.mem_verdicts_of_mem_unbind hdue) hunjudged.2
  · exact hsame.trans Option.map_id'

end

/-- From a registry without marks, a module is retired only by a pass that
refused it, with at least a hundred refusals since its countdown was last set
back, and at least half an hour after the countdown began. A pass that holds
it, or cannot read its state, moves nothing. -/
theorem unbound_after_quarantine {start : RegistryStore}
    (hstart : ∀ imei countdown, start.countdown imei = some countdown → countdown = .unmarked)
    (events : List GateEvent) (pass : Pass) (imei : String) :
    (∀ record ∈ (enforceRegistration (runFrom gateStep start events) pass).2.calls,
      record.imei = imei →
        (∃ refusal, (imei, refusal)
            ∈ (enforceRegistration (runFrom gateStep start events) pass).2.plan.unbind
          ∧ refusal.kind = .verdict)
        ∧ gateNote imei (runFrom gateStep start events) (.pass pass) = .refused pass.now
        ∧ 100 ≤ (refusals (outputs gateStep (gateNote imei) start (events ++ [.pass pass]))).length
        ∧ ∃ began, streakStart (outputs gateStep (gateNote imei) start (events ++ [.pass pass]))
            = some began
          ∧ 30 * 60 * 1000 ≤ pass.now - began)
    ∧ ((∃ reason, (imei, reason)
          ∈ (enforceRegistration (runFrom gateStep start events) pass).2.plan.hold)
        ∨ imei ∈ pass.gateUnreadable →
      (enforceRegistration (runFrom gateStep start events) pass).1.countdown imei
        = (runFrom gateStep start events).countdown imei) := by
  have hrun := countdown_run imei (hstart imei) events
  rw [outputs_snoc]
  set store := runFrom gateStep start events
  obtain ⟨plan, hplanned, hexecute⟩ := enforceRegistration_cases store pass
  obtain ⟨hplan, -, hcalls⟩ := hplanned.executePlan_spec imei
  have hnote : gateNote imei store (.pass pass) = plan.note imei pass.now := by
    rw [gateNote, hexecute, hplan]
  rw [hnote, hexecute, hplan]
  constructor
  · rintro record hrecord rfl
    have hdue := hcalls record hrecord
    rw [hplanned.note_due hdue]
    obtain ⟨⟨_, refusal⟩, hunbind, rfl⟩ := mem_map.mp hdue
    obtain ⟨hkind, countdown, hcountdown, hmany, since, hsince, hlong⟩ :=
      hplanned.countdown_due hunbind
    -- the columns before the pass, and with its own mark, are the history's tally
    have htally : tally (outputs gateStep (gateNote record.imei) start events
        ++ [.refused pass.now]) = countdown.marked pass.now := by
      rw [tally_snoc, ← hrun countdown hcountdown]
      rfl
    refine ⟨⟨refusal, hunbind, hkind⟩, rfl, ?_, since, ?_, hlong⟩
    · exact hmany.trans (congrArg Countdown.passes htally).ge
    · refine (congrArg Countdown.since htally).trans ?_
      rw [Countdown.marked, hsince]
      rfl
  · rintro (⟨reason, hheld⟩ | hunread)
    · exact hplanned.countdown_unjudged (hplanned.held _ hheld)
    · exact hplanned.countdown_unjudged (hplanned.unread imei hunread)

/-- A registered module whose hardware no strategy drives. -/
def strayModem : RegisteredModem := ⟨"86", 0, "panel", none, some "EC20", none⟩

def strayPass (now : Int) : Pass where
  matrix := emptyMatrix
  authority := .stored
  uplinkEverResumed := true
  discoveries := some [⟨some "05c6", some "90b4", some "86"⟩]
  enforce := "unbind"
  registryReadable := true
  inventory := some [⟨"86", "EC20", some now, none, none⟩]
  gateUnreadable := []
  retireFails := []
  now := now

/-- It is refused ninety-nine times before the half hour is over. -/
def strayEvents : List GateEvent :=
  .register strayModem :: List.replicate 99 (.pass (strayPass 0))

theorem strayModem_unbound :
    ∃ record ∈ (enforceRegistration (runFrom gateStep .empty strayEvents)
        (strayPass 1800000)).2.calls,
      record.imei = strayModem.imei
        ∧ 100 ≤ (refusals (outputs gateStep (gateNote strayModem.imei) .empty
          (strayEvents ++ [.pass (strayPass 1800000)]))).length := by
  have hcalls : (enforceRegistration (runFrom gateStep .empty strayEvents)
      (strayPass 1800000)).2.calls.map Retirement.imei = [strayModem.imei] := by
    decide +kernel
  obtain ⟨record, hrecord, himei⟩ := mem_map.mp (hcalls ▸ mem_singleton_self _)
  have hempty : ∀ imei countdown, RegistryStore.empty.countdown imei = some countdown →
      countdown = .unmarked := by
    simp [RegistryStore.countdown, RegistryStore.empty]
  obtain ⟨-, -, hmany, -⟩ :=
    (unbound_after_quarantine hempty strayEvents (strayPass 1800000) strayModem.imei).1
      record hrecord himei
  exact ⟨record, hrecord, himei, hmany⟩

end VodogeEdge
