import Mathlib.Data.List.AList
import VodogeEdge.Text

/-!
# The capability matrix

What the support ledger says about a modem family on a carrier, and how a
matrix document becomes the matrix the gates ask. Hash maps are Mathlib's
association lists: one entry a key, and no function below depends on the
order of the entries. Reading the text of a document is the business of
the TOML and JSON libraries; the model starts at the decoded document.
-/

namespace VodogeEdge

open List

/-! ## Families, carriers and capabilities -/

inductive ModemFamily where
  | ec20
  | ec25Cn
  | eg25G
  | ec200uCn
  | ufi103s
  | other (name : String)
deriving DecidableEq

namespace ModemFamily

def asStr : ModemFamily → String
  | .ec20 => "EC20"
  | .ec25Cn => "EC25-CN"
  | .eg25G => "EG25-G"
  | .ec200uCn => "EC200U-CN"
  | .ufi103s => "UFI103S"
  | .other name => name

def ofStr (value : String) : ModemFamily :=
  if value = "EC20" then .ec20
  else if value = "EC25-CN" then .ec25Cn
  else if value = "EG25-G" then .eg25G
  else if value = "EC200U-CN" then .ec200uCn
  else if value = "UFI103S" then .ufi103s
  else .other value

def unknown : String := "unknown"

end ModemFamily

inductive CarrierProfile where
  | cnMobile
  | cnUnicom
  | cnTelecom
  | genericInternational
  | other (name : String)
deriving DecidableEq

namespace CarrierProfile

def asStr : CarrierProfile → String
  | .cnMobile => "CN-Mobile"
  | .cnUnicom => "CN-Unicom"
  | .cnTelecom => "CN-Telecom"
  | .genericInternational => "Generic-International"
  | .other name => name

def ofStr (value : String) : CarrierProfile :=
  if value = "CN-Mobile" then .cnMobile
  else if value = "CN-Unicom" then .cnUnicom
  else if value = "CN-Telecom" then .cnTelecom
  else if value = "Generic-International" then .genericInternational
  else .other value

end CarrierProfile

inductive Bearer where
  | cellular
  | ims
  | sgs
deriving DecidableEq

/-- What is known of an operation. -/
inductive BearerSupport where
  | supported (bearer : Bearer)
  | unsupported (reason : String)
  | probe
deriving DecidableEq

inductive Operation where
  | smsSend
  | smsReceive
  | data
  | voice

def Operation.wire : Operation → String
  | .smsSend => "sms_mo"
  | .smsReceive => "sms_mt"
  | .data => "data"
  | .voice => "voice"

/-- The four operations of a pair. -/
structure Capability where
  smsMo : BearerSupport
  smsMt : BearerSupport
  data : BearerSupport
  voice : BearerSupport

namespace Capability

def probeAll : Capability := ⟨.probe, .probe, .probe, .probe⟩

/-- Something was measured, a refusal included. -/
def hasMeasurement (self : Capability) : Bool :=
  [self.smsMo, self.smsMt, self.data, self.voice].any (· ≠ .probe)

end Capability

def Operation.of (self : Operation) (capability : Capability) : BearerSupport :=
  match self with
  | .smsSend => capability.smsMo
  | .smsReceive => capability.smsMt
  | .data => capability.data
  | .voice => capability.voice

theorem Capability.hasMeasurement_iff {capability : Capability} :
    capability.hasMeasurement
      ↔ ∃ operation : Operation, operation.of capability ≠ .probe := by
  constructor
  · intro h
    simp only [hasMeasurement, any_cons, any_nil, Bool.or_false, Bool.or_eq_true,
      decide_eq_true_eq] at h
    rcases h with h | h | h | h
    · exact ⟨.smsSend, h⟩
    · exact ⟨.smsReceive, h⟩
    · exact ⟨.data, h⟩
    · exact ⟨.voice, h⟩
  · rintro ⟨operation, h⟩
    cases operation <;> simp_all [hasMeasurement, Operation.of]

/-! ## Supported devices -/

structure UsbIdentity where
  vendor : UInt16
  product : UInt16
deriving DecidableEq

namespace UsbIdentity

def hexDigit (c : Char) : Option Nat :=
  if '0' ≤ c ∧ c ≤ '9' then some (c.toNat - '0'.toNat)
  else if 'a' ≤ c ∧ c ≤ 'f' then some (c.toNat - 'a'.toNat + 10)
  else if 'A' ≤ c ∧ c ≤ 'F' then some (c.toNat - 'A'.toNat + 10)
  else none

/-- `u16::from_str_radix(text, 16)`: at least one digit, a leading plus is
allowed, the value fits. -/
def parseHexU16 (text : String) : Option UInt16 :=
  let digits := match text.toList with
    | '+' :: rest => rest
    | chars => chars
  if digits.isEmpty then none
  else
    (digits.foldlM (fun value c => (hexDigit c).bind fun digit =>
      if value * 16 + digit < 65536 then some (value * 16 + digit) else none) 0).map UInt16.ofNat

def parse (vendor product : String) : Option UsbIdentity :=
  (parseHexU16 (trim vendor)).bind fun vendor =>
    (parseHexU16 (trim product)).map fun product => ⟨vendor, product⟩

def display (self : UsbIdentity) : String :=
  hexPadded 4 self.vendor.toNat ++ ":" ++ hexPadded 4 self.product.toNat

end UsbIdentity

structure SupportedDevice where
  usb : UsbIdentity
  strategy : String
  enabled : Bool
  note : Option String

inductive DeviceGate where
  | notStated
  | enabled
  | disabled
  | absent
deriving DecidableEq

def DeviceGate.admits : DeviceGate → Bool
  | .notStated | .enabled => true
  | .disabled | .absent => false

/-! ## Documents -/

/-- A capability as written; fields may be left out. -/
structure RawCapability where
  smsMo : Option BearerSupport
  smsMt : Option BearerSupport
  data : Option BearerSupport
  voice : Option BearerSupport

namespace RawCapability

def intoCapability (self : RawCapability) (inherited : Capability) : Capability where
  smsMo := self.smsMo.getD inherited.smsMo
  smsMt := self.smsMt.getD inherited.smsMt
  data := self.data.getD inherited.data
  voice := self.voice.getD inherited.voice

def stated (self : RawCapability) : Operation → Option BearerSupport
  | .smsSend => self.smsMo
  | .smsReceive => self.smsMt
  | .data => self.data
  | .voice => self.voice

theorem of_intoCapability (self : RawCapability) (inherited : Capability) (operation : Operation) :
    operation.of (self.intoCapability inherited)
      = (self.stated operation).getD (operation.of inherited) := by
  cases operation <;> rfl

end RawCapability

structure MatrixKey where
  modemFamily : ModemFamily
  carrierProfile : CarrierProfile
deriving DecidableEq

structure RawRule where
  modemFamily : ModemFamily
  carrier : CarrierProfile
  capability : RawCapability

def RawRule.key (self : RawRule) : MatrixKey := ⟨self.modemFamily, self.carrier⟩

structure RawDevice where
  usb : String
  strategy : String
  enabled : Bool
  note : Option String

def RawDevice.identity (self : RawDevice) : Option UsbIdentity :=
  (splitOnce ':' self.usb).bind fun (vendor, product) => UsbIdentity.parse vendor product

/-- A decoded document. A missing `device` section is not an empty one. -/
structure MatrixDocument where
  version : Option String
  minAgentVersion : Option String
  fallback : RawCapability
  rule : List RawRule
  device : Option (List RawDevice)

/-- The document lets this hardware through: it has no device section, or
an enabled entry for it. -/
def MatrixDocument.Enables (self : MatrixDocument) (usb : UsbIdentity) : Prop :=
  ∀ devices ∈ self.device, ∃ entry ∈ devices, entry.identity = some usb ∧ entry.enabled

inductive MatrixError where
  | duplicateRule (modemFamily : ModemFamily) (carrierProfile : CarrierProfile)
  | invalidDevice (usb reason : String)
  | duplicateDevice (usb : UsbIdentity)

abbrev RuleTable : Type := AList fun _ : MatrixKey => Capability

/-- A document that was accepted. -/
structure CapabilityMatrix where
  version : String
  minAgentVersion : Option String
  rules : RuleTable
  fallback : Capability
  devices : Option (List SupportedDevice)

inductive CapabilityOrigin where
  | rule
  | fallback

structure CapabilityQuery where
  capability : Capability
  origin : CapabilityOrigin

namespace CapabilityMatrix

/-- No pair twice. -/
def insertRules (fallback : Capability) : RuleTable → List RawRule → Except MatrixError RuleTable
  | table, [] => .ok table
  | table, rule :: rest =>
    if rule.key ∈ table then .error (.duplicateRule rule.modemFamily rule.carrier)
    else
      insertRules fallback
        (table.insert rule.key (rule.capability.intoCapability fallback)) rest

def readDevices : List SupportedDevice → List RawDevice →
    Except MatrixError (List SupportedDevice)
  | seen, [] => .ok seen
  | seen, entry :: rest =>
    match splitOnce ':' entry.usb with
    | none =>
      .error (.invalidDevice entry.usb "expected vendor:product, for example 2c7c:0125")
    | some (vendor, product) =>
      match UsbIdentity.parse vendor product with
      | none => .error (.invalidDevice entry.usb "both halves must be hexadecimal")
      | some usb =>
        if seen.any (·.usb = usb) then .error (.duplicateDevice usb)
        else readDevices (seen ++ [⟨usb, entry.strategy, entry.enabled, entry.note⟩]) rest

/-- Rules over the fallback, and the device list. -/
def fromDocument (document : MatrixDocument) : Except MatrixError CapabilityMatrix :=
  let fallback := document.fallback.intoCapability .probeAll
  match insertRules fallback ∅ document.rule with
  | .error e => .error e
  | .ok rules =>
    match document.device with
    | none =>
      .ok ⟨document.version.getD "unversioned", document.minAgentVersion, rules, fallback, none⟩
    | some raw =>
      match readDevices [] raw with
      | .error e => .error e
      | .ok devices =>
        .ok ⟨document.version.getD "unversioned", document.minAgentVersion, rules, fallback,
          some devices⟩

def deviceGate (self : CapabilityMatrix) (usb : UsbIdentity) : DeviceGate :=
  match self.devices with
  | none => .notStated
  | some devices =>
    match devices.find? (·.usb = usb) with
    | none => .absent
    | some device => if device.enabled then .enabled else .disabled

/-- The rule of the pair, or the fallback. -/
def query (self : CapabilityMatrix) (modemFamily : ModemFamily)
    (carrierProfile : CarrierProfile) : CapabilityQuery :=
  match self.rules.lookup ⟨modemFamily, carrierProfile⟩ with
  | some capability => ⟨capability, .rule⟩
  | none => ⟨self.fallback, .fallback⟩

/-! ## What a loaded matrix answers -/

/-- A list of rules that loads has no key twice and none of the table's; the
table then answers as before, or with a rule completed from the fallback. -/
theorem insertRules_ok {fallback : Capability} : ∀ {rules : List RawRule}
    {table loaded : RuleTable}, insertRules fallback table rules = .ok loaded →
      ((rules.map RawRule.key).Nodup ∧ ∀ rule ∈ rules, rule.key ∉ table)
        ∧ ∀ key capability, loaded.lookup key = some capability ↔
          table.lookup key = some capability
            ∨ ∃ rule ∈ rules, rule.key = key ∧ rule.capability.intoCapability fallback = capability
  | [], table, loaded, h => by
    cases h
    simp
  | rule :: rest, table, loaded, h => by
    unfold insertRules at h
    split at h
    · cases h
    next hfresh =>
      obtain ⟨⟨hnodup, hrest⟩, hlookup⟩ := insertRules_ok h
      simp only [AList.mem_insert, not_or] at hrest
      refine ⟨⟨nodup_cons.mpr ⟨?_, hnodup⟩, ?_⟩, fun key capability => ?_⟩
      · rw [mem_map]
        rintro ⟨other, hmem, hsame⟩
        exact (hrest other hmem).1 hsame
      · rintro other (_ | ⟨_, hmem⟩)
        · exact hfresh
        · exact (hrest other hmem).2
      · rw [hlookup]
        by_cases hkey : rule.key = key
        · subst hkey
          rw [AList.lookup_eq_none.mpr hfresh]
          simp
        · rw [AList.lookup_insert_ne (Ne.symm hkey)]
          simp [hkey]

/-- What the device list holds once it is read: the entries before it, and
one for every raw entry, under the identity it parses to, none of them
twice. -/
theorem readDevices_ok : ∀ {raw : List RawDevice} {seen devices : List SupportedDevice},
    readDevices seen raw = .ok devices →
      (∀ device, device ∈ devices ↔
        device ∈ seen ∨ ∃ entry ∈ raw, entry.identity = some device.usb
          ∧ device = ⟨device.usb, entry.strategy, entry.enabled, entry.note⟩)
      ∧ ((seen.map SupportedDevice.usb).Nodup → (devices.map SupportedDevice.usb).Nodup)
  | [], _, _, h => by
    cases h
    simp
  | entry :: rest, seen, devices, h => by
    unfold readDevices at h
    split at h
    · cases h
    next vendor product hsplit =>
      split at h
      · cases h
      next usb hparse =>
        split at h
        · cases h
        next hfresh =>
          have hidentity : entry.identity = some usb := by simp [RawDevice.identity, hsplit, hparse]
          obtain ⟨hmem, hunique⟩ := readDevices_ok h
          refine ⟨fun device => ?_, fun hseen => hunique ?_⟩
          · rw [hmem, exists_mem_cons_iff, mem_append, mem_singleton, hidentity, or_assoc]
            refine or_congr_right (or_congr_left ?_)
            constructor
            · rintro rfl
              exact ⟨rfl, rfl⟩
            · rintro ⟨husb, hdevice⟩
              rw [hdevice, ← Option.some.inj husb]
          · rw [map_append, map_singleton, ← concat_eq_append, nodup_concat]
            exact ⟨by simpa using hfresh, hseen⟩

section
variable {document : MatrixDocument} {matrix : CapabilityMatrix}
  (h : fromDocument document = .ok matrix)
include h

/-- A document that was accepted: its rules loaded, its fallback is what it
states over `probe`, and its device section, when it has one, was read. -/
theorem fromDocument_ok :
    insertRules (document.fallback.intoCapability .probeAll) ∅ document.rule = .ok matrix.rules
      ∧ matrix.fallback = document.fallback.intoCapability .probeAll
      ∧ (document.device = none ∧ matrix.devices = none
        ∨ ∃ raw devices, document.device = some raw ∧ readDevices [] raw = .ok devices
          ∧ matrix.devices = some devices) := by
  simp only [fromDocument] at h
  split at h
  · cases h
  next rules hrules =>
    split at h
    next hdevice =>
      cases h
      exact ⟨hrules, rfl, .inl ⟨hdevice, rfl⟩⟩
    next raw hdevice =>
      split at h
      · cases h
      next devices hread =>
        cases h
        exact ⟨hrules, rfl, .inr ⟨raw, devices, hdevice, hread, rfl⟩⟩

/-- The table holds the rules of the document, completed from the
fallback, and nothing else. -/
theorem lookup_rules (key : MatrixKey) (capability : Capability) :
    matrix.rules.lookup key = some capability ↔
      ∃ rule ∈ document.rule, rule.key = key
        ∧ rule.capability.intoCapability matrix.fallback = capability := by
  obtain ⟨hrules, hfallback, -⟩ := fromDocument_ok h
  rw [(insertRules_ok hrules).2, hfallback]
  simp

theorem of_fallback (operation : Operation) :
    operation.of matrix.fallback = (document.fallback.stated operation).getD .probe := by
  rw [(fromDocument_ok h).2.1]
  cases operation <;> rfl

/-- The catalogue admits what the document enables, and everything when the
document has no device section. -/
theorem admits_deviceGate_iff (usb : UsbIdentity) :
    (matrix.deviceGate usb).admits ↔ document.Enables usb := by
  rcases (fromDocument_ok h).2.2 with ⟨hdevice, hdevices⟩ | ⟨raw, devices, hdevice, hread, hdevices⟩
  · simp [deviceGate, hdevices, DeviceGate.admits, MatrixDocument.Enables, hdevice]
  have henables : document.Enables usb
      ↔ ∃ entry ∈ raw, entry.identity = some usb ∧ entry.enabled := by
    simp [MatrixDocument.Enables, hdevice]
  rw [henables, deviceGate, hdevices]
  obtain ⟨hmem, hunique⟩ := readDevices_ok hread
  constructor
  · intro hadmits
    dsimp only at hadmits
    split at hadmits
    · cases hadmits
    next device hfind =>
      obtain ⟨entry, hentry, hidentity, hdevice⟩ :=
        ((hmem device).mp (mem_of_find?_eq_some hfind)).resolve_left (not_mem_nil)
      have husb : device.usb = usb := by simpa using List.find?_some hfind
      refine ⟨entry, hentry, husb ▸ hidentity, ?_⟩
      split at hadmits
      next henabled => rwa [hdevice] at henabled
      · cases hadmits
  · rintro ⟨entry, hentry, hidentity, henabled⟩
    have hlisted : (⟨usb, entry.strategy, entry.enabled, entry.note⟩) ∈ devices :=
      (hmem _).mpr (.inr ⟨entry, hentry, hidentity, rfl⟩)
    dsimp only
    split
    next hnone => simpa using List.find?_eq_none.mp hnone _ hlisted
    next device hfind =>
      -- identities are unique, so the first entry found is the enabled one
      have husb : device.usb = usb := by simpa using List.find?_some hfind
      have hsame := inj_on_of_nodup_map (hunique nodup_nil) (mem_of_find?_eq_some hfind) hlisted
        husb
      simp [hsame, henabled, DeviceGate.admits]

end

end CapabilityMatrix

/-! ## Detected families -/

namespace ModemFamily

/-- The source starts with the name, and no digit makes it another model. -/
def namesModel (source name : String) : Bool :=
  match source.toList.dropPrefix? name.toList with
  | some rest => !rest.head?.any Char.isDigit
  | none => false

/-- The families in the order they are tried, with the names that stand
for each. -/
def models : List (ModemFamily × List String) :=
  [(.eg25G, ["EG25G", "EG25-G"]), (.ec200uCn, ["EC200UCN", "EC200U-CN"]),
    (.ec25Cn, ["EC25C", "EC25-CN"]), (.ec20, ["EC20"]), (.ufi103s, ["UFI103S"])]

def detectIn (source : String) : Option ModemFamily :=
  (models.find? fun entry => entry.2.any (namesModel source)).map Prod.fst

/-- By the model, then by the revision. -/
def detect (model revision : String) : ModemFamily :=
  ((detectIn model).or (detectIn revision)).getD (.other model)

def detectName (model revision : String) : String :=
  if trimIsEmpty model && trimIsEmpty revision then unknown else (detect model revision).asStr

theorem asStr_ofStr (value : String) : (ofStr value).asStr = value := by
  unfold ofStr
  split_ifs <;> simp [asStr, *]

variable {source : String}

theorem detectIn_eq_none :
    detectIn source = none ↔
      ∀ entry ∈ models, ∀ name ∈ entry.2, namesModel source name = false := by
  simp [detectIn]

theorem detectIn_of_blank (h : trimIsEmpty source) : detectIn source = none := by
  have hnames : ∀ entry ∈ models, ∀ name ∈ entry.2, trimIsEmpty name = false := by decide
  refine detectIn_eq_none.mpr fun entry hentry name hname => ?_
  rw [namesModel]
  split
  next rest hrest =>
    obtain ⟨front, hsource, hfront⟩ := dropPrefix?_eq_some_iff.mp hrest
    rw [trimIsEmpty, hsource, all_append, eq_of_beq hfront, Bool.and_eq_true] at h
    exact absurd (hnames entry hentry name hname) (Bool.not_eq_false _ ▸ h.1)
  · rfl

theorem detectIn_eq_some {family : ModemFamily} (h : detectIn source = some family) :
    ofStr family.asStr = family ∧ trimIsEmpty family.asStr = false := by
  obtain ⟨entry, hentry, rfl⟩ := Option.map_eq_some_iff.mp h
  have hknown : ∀ entry ∈ models,
      ofStr entry.1.asStr = entry.1 ∧ trimIsEmpty entry.1.asStr = false := by decide
  exact hknown entry (mem_of_find?_eq_some hentry)

theorem ofStr_of_detectIn {model : String} (h : detectIn model = none) :
    ofStr model = .other model := by
  unfold ofStr
  split_ifs
  all_goals first | rfl | (subst model; exact absurd h (by decide))

/-- The stored name is not blank, is read back as the family that was
detected and is the name that family is stored under. -/
structure Stored (model revision : String) : Prop where
  not_blank : trimIsEmpty (detectName model revision) = false
  read_back : ¬(trimIsEmpty model ∧ trimIsEmpty revision) →
    ofStr (detectName model revision) = detect model revision
  kept : (ofStr (detectName model revision)).asStr = detectName model revision

/-- A name is stored as meant unless the model is blank and the revision,
which is not, names none of the known models: then it is the blank model. -/
theorem stored_iff (model revision : String) :
    Stored model revision ↔ trimIsEmpty model = false ∨ trimIsEmpty revision ∨
      ∃ entry ∈ models, ∃ name ∈ entry.2, namesModel revision name := by
  have hrevision : (∃ entry ∈ models, ∃ name ∈ entry.2, namesModel revision name) ↔
      detectIn revision ≠ none := by
    rw [ne_eq, detectIn_eq_none]
    simp
  rw [hrevision]
  by_cases hblank : trimIsEmpty model ∧ trimIsEmpty revision
  · have hname : detectName model revision = unknown := by simp [detectName, hblank]
    refine iff_of_true ⟨?_, fun h => absurd hblank h, asStr_ofStr _⟩ (.inr (.inl hblank.2))
    rw [hname]
    decide
  have hname : detectName model revision = (detect model revision).asStr := by
    rw [detectName, if_neg (by simpa using hblank)]
  cases hdetected : (detectIn model).or (detectIn revision) with
  | some family =>
    have hfamily : detect model revision = family := by rw [detect, hdetected, Option.getD_some]
    have hknown : ofStr family.asStr = family ∧ trimIsEmpty family.asStr = false := by
      rcases Option.or_eq_some_iff.mp hdetected with h | ⟨-, h⟩ <;> exact detectIn_eq_some h
    rw [hfamily] at hname
    refine iff_of_true ⟨hname ▸ hknown.2, fun _ => ?_, asStr_ofStr _⟩ ?_
    · rw [hname, hfamily, hknown.1]
    · refine or_iff_not_imp_left.mpr fun hmodel => .inr fun hnone => ?_
      rw [detectIn_of_blank (Bool.not_eq_false _ ▸ hmodel), hnone] at hdetected
      cases hdetected
  | none =>
    obtain ⟨hmodel, hnone⟩ := Option.or_eq_none_iff.mp hdetected
    have hother : detect model revision = .other model := by
      rw [detect, hdetected, Option.getD_none]
    replace hname : detectName model revision = model := hname.trans (congrArg asStr hother)
    refine ⟨fun h => .inl (hname ▸ h.not_blank), fun h => ⟨?_, fun _ => ?_, asStr_ofStr _⟩⟩
    · rw [hname]
      rcases h with h | h | h
      · exact h
      · exact Bool.not_eq_true _ ▸ fun hmodel => hblank ⟨hmodel, h⟩
      · exact absurd hnone h
    · rw [hname, hother, ofStr_of_detectIn hmodel]

theorem unnamed_revision_blank : detectName "" "SIM7600" = "" ∧ ¬Stored "" "SIM7600" := by
  exact ⟨by decide, fun h => absurd h.not_blank (by decide)⟩

end ModemFamily

end VodogeEdge
