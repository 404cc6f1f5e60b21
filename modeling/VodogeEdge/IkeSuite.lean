import Mathlib.Data.List.Nodup
import VodogeEdge.Word

/-!
# What is offered and what is selected

The IKE SA is negotiated by one offer, a list of proposals with transforms
of four types in each, and one selection out of it. `BuildProposal` makes
the offer, unless the caller brings one of its own, and `ValidateSelection`
judges what the responder has selected.

A selected transform passes if some proposal offers its type and id, and
its key length if it names one. So a selection may be put together from
several proposals, and a cipher without a key length passes for whatever
length was offered, while the key derivation takes the default one.
-/

namespace VodogeEdge.Ike

open List

/-! ## Transforms -/

def transformEncr : UInt8 := 1
def transformPrf : UInt8 := 2
def transformInteg : UInt8 := 3
def transformDhGroup : UInt8 := 4

def encrAesCbc : UInt16 := 12
def encr3Des : UInt16 := 3
def prfAes128Xcbc : UInt16 := 4
def integAesXcbc96 : UInt16 := 5

def protocolIke : UInt8 := 1

def attributeTypeKeyLength : UInt16 := 14

structure TransformAttribute where
  type : UInt16
  value : Bytes
deriving DecidableEq

/-- A transform with its attributes. -/
structure Transform where
  type : UInt8
  id : UInt16
  attributes : List TransformAttribute
deriving DecidableEq

/-- Transforms of every type, to choose from. -/
structure Proposal where
  number : UInt8
  protocolId : UInt8
  transforms : List Transform
deriving DecidableEq

structure SecurityAssociation where
  proposals : List Proposal
deriving DecidableEq

def keyLengthAttribute (bits : UInt16) : TransformAttribute :=
  ⟨attributeTypeKeyLength, [(bits >>> 8).toUInt8, bits.toUInt8]⟩

/-- The key length a transform names, 0 if it names none. -/
def attributeKeyLength (t : Transform) : UInt16 :=
  match t.attributes.find? fun a => a.type = attributeTypeKeyLength ∧ 2 ≤ a.value.length with
  | some ⟨_, high :: low :: _⟩ => high.toUInt16 <<< 8 ||| low.toUInt16
  | _ => 0

/-! ## Groups -/

def groupModp1024 : UInt16 := 2
def groupModp1536 : UInt16 := 5
def groupModp2048 : UInt16 := 14
def groupEcp256 : UInt16 := 19
def groupEcp384 : UInt16 := 20
def groupX25519 : UInt16 := 31

def supportedDhGroups : List UInt16 :=
  [groupModp2048, groupModp1536, groupModp1024, groupEcp256, groupEcp384, groupX25519]

def dhGroupSupported (id : UInt16) : Bool := supportedDhGroups.contains id

def dhGroupName (id : UInt16) : String :=
  if id = groupModp1024 then "MODP-1024(group 2)"
  else if id = groupModp1536 then "MODP-1536(group 5)"
  else if id = groupModp2048 then "MODP-2048(group 14)"
  else if id = groupEcp256 then "ECP-256(group 19)"
  else if id = groupEcp384 then "ECP-384(group 20)"
  else if id = groupX25519 then "X25519(group 31)"
  else "DH-group-" ++ toString id.toNat

/-! ## Errors -/

inductive SuiteErrorKind where
  | legacySuiteUnsupported
  | suiteRejected
  | unsupportedDhGroup
  /-- The offer cannot be encoded. -/
  | encoding

def SuiteErrorKind.text : SuiteErrorKind → String
  | .legacySuiteUnsupported => "vowifi/ike: legacy suite blocked by vowifi-go type wall"
  | .suiteRejected => "vowifi/ike: responder selection rejected"
  | .unsupportedDhGroup => "vowifi/ike: unsupported dh group"
  | .encoding => ""

structure SuiteError where
  kind : SuiteErrorKind
  message : String

def SuiteError.because (kind : SuiteErrorKind) (reason : String) : SuiteError :=
  ⟨kind, kind.text ++ ": " ++ reason⟩

/-! ## Offers -/

/-- One algorithm of each type. -/
structure Suite where
  name : String
  encryption : UInt16
  /-- In bits; 0 for no attribute. -/
  encryptionKey : UInt16
  prf : UInt16
  integrity : UInt16

/-- What is offered by default. -/
def mainstreamSuites : List Suite :=
  [⟨"AES-CBC-128/HMAC-SHA2-256-128/PRF-HMAC-SHA2-256", encrAesCbc, 128, 5, 12⟩,
    ⟨"AES-CBC-256/HMAC-SHA2-384-192/PRF-HMAC-SHA2-384", encrAesCbc, 256, 6, 13⟩,
    ⟨"AES-CBC-256/HMAC-SHA2-512-256/PRF-HMAC-SHA2-512", encrAesCbc, 256, 7, 14⟩]

def defaultProposalGroups : List UInt16 :=
  [groupModp2048, groupModp1024, groupEcp256, groupX25519]

def legacySuiteName : String :=
  "3DES/HMAC-SHA1-96/PRF-AES128-XCBC (T-Mobile legacy, not implemented)"

/-- What only the legacy suite has. -/
def isLegacyTransform (type : UInt8) (id : UInt16) : Bool :=
  if type = transformEncr then id = encr3Des
  else if type = transformPrf then id = prfAes128Xcbc
  else if type = transformInteg then id = integAesXcbc96
  else false

def Suite.legacy (s : Suite) : Bool :=
  isLegacyTransform transformEncr s.encryption || isLegacyTransform transformPrf s.prf ||
    isLegacyTransform transformInteg s.integrity

def Suite.encr (s : Suite) : Transform :=
  ⟨transformEncr, s.encryption,
    if s.encryptionKey ≠ 0 then [keyLengthAttribute s.encryptionKey] else []⟩

def Suite.transforms (s : Suite) : List Transform :=
  [s.encr, ⟨transformPrf, s.prf, []⟩, ⟨transformInteg, s.integrity, []⟩]

def groupTransform (group : UInt16) : Transform := ⟨transformDhGroup, group, []⟩

def addTransform (transforms : List Transform) (t : Transform) : List Transform :=
  if t ∈ transforms then transforms else transforms ++ [t]

/-- One proposal with every suite and every group. `encodes` is whether the
offer can be put on the wire. -/
def buildProposal (encodes : SecurityAssociation → Bool) (suites : List Suite)
    (groups : List UInt16) : Except SuiteError SecurityAssociation :=
  let suites := if suites = [] then mainstreamSuites else suites
  let groups := if groups = [] then defaultProposalGroups else groups
  match suites.find? Suite.legacy with
  | some s => .error (.because .legacySuiteUnsupported ("suite \"" ++ s.name ++ "\""))
  | none =>
    match groups.find? fun g => !dhGroupSupported g with
    | some g => .error (.because .unsupportedDhGroup ("cannot key " ++ dhGroupName g))
    | none =>
      let sa : SecurityAssociation := ⟨[⟨1, protocolIke,
        (suites.flatMap Suite.transforms ++ groups.map groupTransform).foldl addTransform []⟩]⟩
      if encodes sa then .ok sa else .error ⟨.encoding, ""⟩

def SecurityAssociation.transforms (sa : SecurityAssociation) : List Transform :=
  sa.proposals.flatMap Proposal.transforms

def offeredGroups (sa : SecurityAssociation) : List UInt16 :=
  (sa.transforms.filter fun t => t.type = transformDhGroup).map Transform.id

/-! ## Selections -/

/-- What was selected, by type. -/
structure Selection where
  encryption : UInt16 := 0
  encryptionKey : UInt16 := 0
  prf : UInt16 := 0
  integrity : UInt16 := 0
  dhGroup : UInt16 := 0
  suiteName : String := ""

/-- Type and id agree, and the key length if one is selected. -/
def Transform.serves (offered selected : Transform) : Bool :=
  offered.type = selected.type && offered.id = selected.id &&
    (attributeKeyLength selected = 0 ||
      attributeKeyLength offered = attributeKeyLength selected)

def offerContains (offered : SecurityAssociation) (selected : Transform) : Bool :=
  offered.transforms.any (·.serves selected)

def Selection.take (out : Selection) (t : Transform) : Selection :=
  if t.type = transformEncr then
    { out with encryption := t.id, encryptionKey := attributeKeyLength t }
  else if t.type = transformPrf then { out with prf := t.id }
  else if t.type = transformInteg then { out with integrity := t.id }
  else if t.type = transformDhGroup then { out with dhGroup := t.id }
  else out

/-- Each transform offered somewhere, no type twice. -/
def takeTransforms (offered : SecurityAssociation) :
    Bytes → Selection → List Transform → Except SuiteError (Bytes × Selection)
  | found, out, [] => .ok (found, out)
  | found, out, t :: ts =>
    let named := "transform type " ++ toString t.type.toNat ++ " id " ++ toString t.id.toNat
    if t.type ∈ found then
      .error (.because .suiteRejected ("duplicate transform type " ++ toString t.type.toNat))
    else if isLegacyTransform t.type t.id then
      .error (.because .suiteRejected ("responder chose " ++ named ++ " from " ++ legacySuiteName
        ++ ": " ++ SuiteErrorKind.legacySuiteUnsupported.text
        ++ ": 3 blockers, see LegacySuiteBlockers"))
    else if !offerContains offered t then
      .error (.because .suiteRejected (named ++ " was never offered"))
    else takeTransforms offered (t.type :: found) (out.take t) ts

def requiredTypes : Bytes := [transformEncr, transformPrf, transformInteg, transformDhGroup]

def suiteNameFor (sel : Selection) : String :=
  match mainstreamSuites.find? fun s => s.encryption = sel.encryption && s.prf = sel.prf &&
      s.integrity = sel.integrity &&
      (s.encryptionKey = sel.encryptionKey || s.encryptionKey = 0) with
  | some s => s.name
  | none => "non-catalogued suite"

/-- A cipher without a key length is keyed as AES-CBC-128. -/
def Selection.completed (out : Selection) : Selection :=
  if out.encryptionKey = 0 ∧ out.encryption = encrAesCbc then { out with encryptionKey := 128 }
  else out

/-- What follows the loop. `prfError` is the error of `PRFHashForTransform`,
if it has no hash for the id. -/
def concludeSelection (prfError : UInt16 → Option String) (found : Bytes)
    (out : Selection) : Except SuiteError Selection :=
  match requiredTypes.find? fun type => type ∉ found with
  | some type =>
    .error (.because .suiteRejected
      ("selection is missing transform type " ++ toString type.toNat))
  | none =>
    let out := out.completed
    if !dhGroupSupported out.dhGroup then
      .error (.because .unsupportedDhGroup ("cannot key selected " ++ dhGroupName out.dhGroup))
    else
      match prfError out.prf with
      | some error => .error (.because .suiteRejected error)
      | none => .ok { out with suiteName := suiteNameFor out }

/-- `ValidateSelection`. -/
def validateSelection (prfError : UInt16 → Option String)
    (offered selected : SecurityAssociation) : Except SuiteError Selection :=
  match selected.proposals with
  | [chosen] =>
    if offered.proposals = [] then .error (.because .suiteRejected "nothing was offered")
    else if chosen.protocolId ≠ protocolIke then
      .error (.because .suiteRejected
        ("protocol " ++ toString chosen.protocolId.toNat ++ ", want IKE"))
    else
      match takeTransforms offered [] {} chosen.transforms with
      | .error e => .error e
      | .ok (found, out) => concludeSelection prfError found out
  | proposals =>
    .error (.because .suiteRejected
      (toString proposals.length ++ " proposals selected, want exactly 1"))

/-! ## What is accepted -/

/-- A choice of transforms that can be keyed: one of each type at most,
each required type among them. -/
structure Usable (prfError : UInt16 → Option String) (ts : List Transform) : Prop where
  once : (ts.map Transform.type).Nodup
  complete : ∀ type ∈ requiredTypes, type ∈ ts.map Transform.type
  modern : ∀ t ∈ ts, isLegacyTransform t.type t.id = false
  group : ∀ t ∈ ts, t.type = transformDhGroup → dhGroupSupported t.id
  prf : ∀ t ∈ ts, t.type = transformPrf → prfError t.id = none

variable {prfError : UInt16 → Option String} {ts : List Transform}
  {offered : SecurityAssociation} {out : Selection} {type : UInt8}

theorem takeTransforms_ok_iff :
    ∀ {found : Bytes} {out : Selection} {result : Bytes × Selection},
      takeTransforms offered found out ts = .ok result ↔
        ((ts.map Transform.type).reverse ++ found = result.1 ∧
          ts.foldl Selection.take out = result.2) ∧
        ((ts.map Transform.type).Nodup ∧ ∀ t ∈ ts, t.type ∉ found) ∧
        ∀ t ∈ ts, isLegacyTransform t.type t.id = false ∧ offerContains offered t := by
  induction ts with
  | nil =>
    intro found out result
    simp [takeTransforms, Prod.ext_iff]
  | cons t ts ih =>
    intro found out result
    rw [takeTransforms]
    by_cases hfound : t.type ∈ found
    · rw [if_pos hfound]
      exact iff_of_false (by simp) fun h => (h.2.1.2 t mem_cons_self) hfound
    rw [if_neg hfound]
    cases hlegacy : isLegacyTransform t.type t.id with
    | true => simp [hlegacy]
    | false =>
      cases hoffered : offerContains offered t with
      | false => simp [hoffered]
      | true =>
        simp only [Bool.false_eq_true, if_false, Bool.not_true, ih, map_cons,
          reverse_cons, append_assoc, nodup_cons, forall_mem_cons, hlegacy, hoffered, true_and]
        refine and_congr_right fun _ => and_congr_left fun _ => ?_
        constructor
        · rintro ⟨hnodup, hnew⟩
          refine ⟨⟨?_, hnodup⟩, hfound, fun t' ht' hmem => hnew t' ht' (mem_cons_of_mem _ hmem)⟩
          intro hmem
          obtain ⟨t', ht', htype⟩ := mem_map.mp hmem
          exact hnew t' ht' (htype ▸ mem_cons_self)
        · rintro ⟨⟨hfresh, hnodup⟩, -, hnew⟩
          refine ⟨hnodup, fun t' ht' hmem => ?_⟩
          rcases mem_cons.mp hmem with htype | hmem
          · exact hfresh (mem_map.mpr ⟨t', ht', htype⟩)
          · exact hnew t' ht' hmem

def Selection.idOf (out : Selection) (type : UInt8) : UInt16 :=
  if type = transformEncr then out.encryption
  else if type = transformPrf then out.prf
  else if type = transformInteg then out.integrity
  else out.dhGroup

theorem idOf_take {t : Transform} (h : type ∈ requiredTypes) :
    (out.take t).idOf type = if t.type = type then t.id else out.idOf type := by
  have hcases : type = transformEncr ∨ type = transformPrf ∨ type = transformInteg ∨
      type = transformDhGroup := by simpa [requiredTypes] using h
  rw [Selection.take]
  split_ifs with h1 h2 h3 h4 <;> rcases hcases with rfl | rfl | rfl | rfl <;>
    simp_all [Selection.idOf, transformEncr, transformPrf, transformInteg, transformDhGroup]

theorem idOf_foldl_take_of_notMem (h : type ∈ requiredTypes) :
    ∀ {out : Selection}, type ∉ ts.map Transform.type →
      (ts.foldl Selection.take out).idOf type = out.idOf type := by
  induction ts with
  | nil => exact fun _ => rfl
  | cons first ts ih =>
    intro out hnew
    rw [map_cons, mem_cons, not_or] at hnew
    rw [foldl_cons, ih hnew.2, idOf_take h, if_neg (Ne.symm hnew.1)]

theorem idOf_foldl_take (h : type ∈ requiredTypes) :
    ∀ {out : Selection}, (ts.map Transform.type).Nodup →
      ∀ t ∈ ts, t.type = type → (ts.foldl Selection.take out).idOf type = t.id := by
  induction ts with
  | nil => exact fun _ t ht => absurd ht not_mem_nil
  | cons first ts ih =>
    intro out hnodup t ht htype
    rw [map_cons, nodup_cons] at hnodup
    rw [foldl_cons]
    rcases mem_cons.mp ht with rfl | ht
    · rw [idOf_foldl_take_of_notMem h (htype ▸ hnodup.1), idOf_take h, if_pos htype]
    · exact ih hnodup.2 t ht htype

theorem concludeSelection_ok_iff {found : Bytes} :
    (∃ sel, concludeSelection prfError found out = .ok sel) ↔
      (∀ type ∈ requiredTypes, type ∈ found) ∧
        dhGroupSupported (out.idOf transformDhGroup) ∧
        prfError (out.idOf transformPrf) = none := by
  have hkept : out.completed.dhGroup = out.idOf transformDhGroup ∧
      out.completed.prf = out.idOf transformPrf := by
    rw [Selection.completed]
    split <;> exact ⟨rfl, rfl⟩
  rw [concludeSelection]
  cases hmissing : requiredTypes.find? fun type => type ∉ found with
  | some type =>
    refine iff_of_false (by simp) fun h => ?_
    have := List.find?_some hmissing
    exact (of_decide_eq_true this) (h.1 type (mem_of_find?_eq_some hmissing))
  | none =>
    have hcomplete : ∀ type ∈ requiredTypes, type ∈ found := by
      intro type htype
      simpa using List.find?_eq_none.mp hmissing type htype
    simp only [hkept.1, hkept.2]
    cases hgroup : dhGroupSupported (out.idOf transformDhGroup) with
    | false => simp
    | true =>
      cases hprf : prfError (out.idOf transformPrf) with
      | some error => simp
      | none => simpa using hcomplete

/-- A selection is accepted exactly if it is one proposal for the IKE SA
with transforms that can be keyed, each of them offered somewhere. -/
theorem validateSelection_ok_iff {selected : SecurityAssociation} :
    (∃ sel, validateSelection prfError offered selected = .ok sel) ↔
      offered.proposals ≠ [] ∧ ∃ chosen, selected.proposals = [chosen] ∧
        chosen.protocolId = protocolIke ∧ Usable prfError chosen.transforms ∧
        ∀ t ∈ chosen.transforms, offerContains offered t := by
  rw [validateSelection]
  match hproposals : selected.proposals with
  | [] => simp
  | _ :: _ :: _ => simp
  | [chosen] =>
    dsimp only
    by_cases hoffered : offered.proposals = []
    · simp [hoffered]
    by_cases hprotocol : chosen.protocolId = protocolIke
    · rw [if_neg hoffered, if_neg (not_not.mpr hprotocol)]
      simp only [ne_eq, hoffered, not_false_eq_true, true_and, List.cons.injEq, and_true,
        exists_eq_left', hprotocol]
      constructor
      · rintro ⟨sel, hsel⟩
        cases htake : takeTransforms offered [] {} chosen.transforms with
        | error e => simp [htake] at hsel
        | ok result =>
          obtain ⟨⟨hfound, hout⟩, ⟨hnodup, -⟩, hall⟩ := takeTransforms_ok_iff.mp htake
          simp only [htake] at hsel
          obtain ⟨hcomplete, hgroup, hprf⟩ := concludeSelection_ok_iff.mp ⟨sel, hsel⟩
          rw [← hout] at hgroup hprf
          refine ⟨⟨hnodup, fun type htype => ?_, fun t ht => (hall t ht).1, fun t ht heq => ?_,
            fun t ht heq => ?_⟩, fun t ht => (hall t ht).2⟩
          · simpa [← hfound] using hcomplete type htype
          · rwa [idOf_foldl_take (by decide) hnodup t ht heq] at hgroup
          · rwa [idOf_foldl_take (by decide) hnodup t ht heq] at hprf
      · rintro ⟨husable, hall⟩
        have htake : takeTransforms offered [] {} chosen.transforms
            = .ok ((chosen.transforms.map Transform.type).reverse ++ [],
              chosen.transforms.foldl Selection.take {}) :=
          takeTransforms_ok_iff.mpr ⟨⟨rfl, rfl⟩, ⟨husable.once, fun _ _ => not_mem_nil⟩,
            fun t ht => ⟨husable.modern t ht, hall t ht⟩⟩
        simp only [htake]
        obtain ⟨group, hgroup, hgroupType⟩ :=
          mem_map.mp (husable.complete transformDhGroup (by decide))
        obtain ⟨prf, hprf, hprfType⟩ :=
          mem_map.mp (husable.complete transformPrf (by decide))
        refine concludeSelection_ok_iff.mpr ⟨fun type htype => ?_, ?_, ?_⟩
        · rw [append_nil, mem_reverse]
          exact husable.complete type htype
        · rw [idOf_foldl_take (by decide) husable.once group hgroup hgroupType]
          exact husable.group group hgroup hgroupType
        · rw [idOf_foldl_take (by decide) husable.once prf hprf hprfType]
          exact husable.prf prf hprf hprfType
    · simp [hoffered, hprotocol]

/-! ## What an offer lets through -/

section Offered

-- the key length the derivation takes for a cipher that names none
variable (defaultKey : UInt16 → UInt16)

/-- The key length a transform comes to. -/
def Transform.effectiveKey (t : Transform) : UInt16 :=
  if attributeKeyLength t = 0 ∧ t.type = transformEncr then defaultKey t.id
  else attributeKeyLength t

def Transform.Same (t u : Transform) : Prop :=
  t.type = u.type ∧ t.id = u.id ∧ t.effectiveKey defaultKey = u.effectiveKey defaultKey

instance (t u : Transform) : Decidable (t.Same defaultKey u) :=
  inferInstanceAs (Decidable (_ ∧ _ ∧ _))

/-- One proposal offers them all. -/
def Together (offered : SecurityAssociation) (ts : List Transform) : Prop :=
  ∃ p ∈ offered.proposals, ∀ t ∈ ts, ∃ o ∈ p.transforms, o.Same defaultKey t

/-- The selection is one proposal, no type twice, all of it offered by one
and the same proposal. -/
def Offered (offered selected : SecurityAssociation) : Prop :=
  ∃ chosen, selected.proposals = [chosen] ∧ (chosen.transforms.map Transform.type).Nodup ∧
    Together defaultKey offered chosen.transforms

def Transform.stripped (t : Transform) : Transform := { t with attributes := [] }

/-- Any transforms of the offer, from whatever proposals, with or without
their attributes, that can be keyed are offered together. -/
def Recombines (prfError : UInt16 → Option String) (offered : SecurityAssociation) : Prop :=
  ∀ ts, Usable prfError ts → (∀ t ∈ ts, ∃ o ∈ offered.transforms, t = o ∨ t = o.stripped) →
    Together defaultKey offered ts

variable {defaultKey} (o : Transform)

theorem Transform.Same.trans {t u v : Transform} (h : t.Same defaultKey u)
    (h' : u.Same defaultKey v) : t.Same defaultKey v :=
  ⟨h.1.trans h'.1, h.2.1.trans h'.2.1, h.2.2.trans h'.2.2⟩

theorem serves_iff {offered selected : Transform} :
    offered.serves selected ↔ offered.type = selected.type ∧ offered.id = selected.id ∧
      (attributeKeyLength selected = 0 ∨
        attributeKeyLength offered = attributeKeyLength selected) := by
  simp [Transform.serves, and_assoc]

/-- A selected transform is, in effect, one of the offer, with or without
its attributes. -/
theorem exists_same_of_serves {offered selected : Transform} (h : offered.serves selected) :
    ∃ t, (t = offered ∨ t = offered.stripped) ∧ t.Same defaultKey selected := by
  obtain ⟨htype, hid, hkey⟩ := serves_iff.mp h
  by_cases hnone : attributeKeyLength selected = 0
  · refine ⟨offered.stripped, .inr rfl, htype, hid, ?_⟩
    simp [Transform.effectiveKey, show attributeKeyLength offered.stripped = 0 from rfl, hnone,
      show offered.stripped.type = selected.type from htype,
      show offered.stripped.id = selected.id from hid]
  · have hsame := hkey.resolve_left hnone
    refine ⟨offered, .inl rfl, htype, hid, ?_⟩
    simp [Transform.effectiveKey, hsame, htype, hid]

theorem serves_self : o.serves o := by simp [Transform.serves]

theorem serves_stripped : o.serves o.stripped :=
  serves_iff.mpr ⟨rfl, rfl, .inl rfl⟩

theorem Usable.map (h : Usable prfError ts) {f : Transform → Transform}
    (hf : ∀ t ∈ ts, (f t).type = t.type ∧ (f t).id = t.id) : Usable prfError (ts.map f) := by
  have htypes : (ts.map f).map Transform.type = ts.map Transform.type := by
    rw [map_map]
    exact map_congr_left fun t ht => (hf t ht).1
  refine ⟨htypes ▸ h.once, fun type htype => htypes ▸ h.complete type htype, ?_, ?_, ?_⟩
  all_goals
    intro u hu
    obtain ⟨t, ht, rfl⟩ := mem_map.mp hu
    rw [(hf t ht).1, (hf t ht).2]
  · exact h.modern t ht
  · exact h.group t ht
  · exact h.prf t ht

end Offered

/-- What is accepted against an offer is offered, whatever the responder
selects, exactly for the offers that recombine into themselves. -/
theorem selection_offered_iff (defaultKey : UInt16 → UInt16) (prfError : UInt16 → Option String)
    (offered : SecurityAssociation) :
    (∀ selected sel, validateSelection prfError offered selected = .ok sel →
        Offered defaultKey offered selected) ↔
      Recombines defaultKey prfError offered := by
  constructor
  · intro h ts husable hts
    have hnonempty : offered.proposals ≠ [] := by
      rintro hnil
      obtain ⟨t, ht, -⟩ := mem_map.mp (husable.complete transformEncr (by decide))
      obtain ⟨o, ho, -⟩ := hts t ht
      simp [SecurityAssociation.transforms, hnil] at ho
    have hcontains : ∀ t ∈ ts, offerContains offered t := by
      intro t ht
      obtain ⟨o, ho, rfl | rfl⟩ := hts t ht
      · exact any_eq_true.mpr ⟨t, ho, serves_self t⟩
      · exact any_eq_true.mpr ⟨o, ho, serves_stripped o⟩
    -- the responder selects just these
    have haccepted : ∃ sel, validateSelection prfError offered ⟨[⟨1, protocolIke, ts⟩]⟩ = .ok sel :=
      validateSelection_ok_iff.mpr ⟨hnonempty, _, rfl, rfl, husable, hcontains⟩
    obtain ⟨sel, hsel⟩ := haccepted
    obtain ⟨chosen, hchosen, -, htogether⟩ := h _ sel hsel
    obtain rfl := singleton_inj.mp hchosen
    exact htogether
  · intro h selected sel hsel
    obtain ⟨-, chosen, hchosen, -, husable, hall⟩ := validateSelection_ok_iff.mp ⟨sel, hsel⟩
    refine ⟨chosen, hchosen, husable.once, ?_⟩
    have hpick : ∀ t ∈ chosen.transforms, ∃ u, (∃ o ∈ offered.transforms, u = o ∨ u = o.stripped) ∧
        u.Same defaultKey t := by
      intro t ht
      obtain ⟨o, ho, hserves⟩ := any_eq_true.mp (hall t ht)
      obtain ⟨u, hu, hsame⟩ := exists_same_of_serves hserves
      exact ⟨u, ⟨o, ho, hu⟩, hsame⟩
    choose! pick hoffer hsame using hpick
    obtain ⟨p, hp, hin⟩ := h (chosen.transforms.map pick)
      (husable.map fun t ht => ⟨(hsame t ht).1, (hsame t ht).2.1⟩) (fun u hu => by
        obtain ⟨t, ht, rfl⟩ := mem_map.mp hu
        exact hoffer t ht)
    refine ⟨p, hp, fun t ht => ?_⟩
    obtain ⟨o, ho, hos⟩ := hin (pick t) (mem_map_of_mem ht)
    exact ⟨o, ho, hos.trans (hsame t ht)⟩

/-- One proposal that lists each of its transforms at the default key
length as well recombines. -/
theorem recombines_singleton {defaultKey : UInt16 → UInt16} {prfError : UInt16 → Option String}
    {p : Proposal} (h : ∀ o ∈ p.transforms, ∃ u ∈ p.transforms, u.Same defaultKey o.stripped) :
    Recombines defaultKey prfError ⟨[p]⟩ := by
  intro ts _ hts
  refine ⟨p, mem_singleton_self p, fun t ht => ?_⟩
  obtain ⟨o, ho, hstripped⟩ := hts t ht
  have hmem : o ∈ p.transforms := by simpa [SecurityAssociation.transforms] using ho
  rcases hstripped with rfl | rfl
  · exact ⟨t, hmem, rfl, rfl, rfl⟩
  · exact h o hmem

/-- The offer of a runner that is given no suites and no groups. -/
theorem recombines_default (prfError : UInt16 → Option String) :
    ∃ offered, buildProposal (fun _ => true) [] [] = .ok offered ∧
      Recombines (fun _ => 128) prfError offered :=
  ⟨_, rfl, recombines_singleton (by decide +kernel)⟩

/-- An offer of AES-CBC-256 alone. -/
def strongSuite : Suite := ⟨"AES-CBC-256 only", encrAesCbc, 256, 5, 12⟩

def twoProposals : SecurityAssociation :=
  ⟨[⟨1, protocolIke, [⟨transformEncr, encrAesCbc, [keyLengthAttribute 128]⟩,
      ⟨transformPrf, 6, []⟩, ⟨transformInteg, 13, []⟩, groupTransform groupModp2048]⟩,
    ⟨2, protocolIke, strongSuite.transforms ++ [groupTransform groupModp2048]⟩]⟩

/-- AES-CBC without a key length passes for AES-CBC-256 and is keyed with
128 bits; and a selection passes that mixes two proposals. -/
theorem unoffered_accepted :
    (∃ offered, buildProposal (fun _ => true) [strongSuite] [groupModp2048] = .ok offered ∧
      let selected : SecurityAssociation := ⟨[⟨1, protocolIke,
        [strongSuite.encr.stripped, ⟨transformPrf, 5, []⟩, ⟨transformInteg, 12, []⟩,
          groupTransform groupModp2048]⟩]⟩
      (validateSelection (fun _ => none) offered selected).toOption.map Selection.encryptionKey
          = some 128 ∧
        ¬Offered (fun _ => 128) offered selected) ∧
    let mixed : SecurityAssociation := ⟨[⟨1, protocolIke,
      [strongSuite.encr, ⟨transformPrf, 6, []⟩, ⟨transformInteg, 12, []⟩,
        groupTransform groupModp2048]⟩]⟩
    (validateSelection (fun _ => none) twoProposals mixed).isOk ∧
      ¬Offered (fun _ => 128) twoProposals mixed := by
  refine ⟨⟨_, rfl, by decide +kernel, ?_⟩, by decide +kernel, ?_⟩
  all_goals
    rintro ⟨chosen, hchosen, -, htogether⟩
    obtain rfl := singleton_inj.mp hchosen
    revert htogether
    unfold Together
    decide +kernel

end VodogeEdge.Ike
