import VodogeEdge.EsimExits

/-!
# The policy gate

A profile whose metadata carries `ppr1` or `ppr2` must not be installed.
The rules are read off the metadata element by element, and an element that
comes again replaces what the earlier ones said; `gate_iff` says for which
metadata the gate holds against every server and every chip.
-/

namespace VodogeEdge.Esim

open List Bool Exchange ProfileMetadata

open Logged

/-! ## Rules in the bytes -/

def setsBit (value : Bytes) (bit : Nat) : Bool :=
  match value with
  | [] => false
  | unused :: bytes =>
    bit + unused.toNat < bytes.length * 8
      && (bytes.getD (bit / 8) 0).toNat.testBit (7 - bit % 8)

def setsIrreversible (value : Bytes) : Bool := setsBit value 1 || setsBit value 2

/-- The children of the `BF25` structure, and the error at the one that does
not read. -/
def metadataChildren (metadata : Bytes) : List Tlv × Option Es10cError :=
  match readTlv metadata with
  | .error error => ([], some error)
  | .ok (whole, _) => if whole.tag = tagStoreMetadata then elements whole.value else ([], none)

def policyRuleElements (metadata : Bytes) : List Tlv :=
  (metadataChildren metadata).1.filter fun child => child.tag = [0x99]

/-! ## Rules in the metadata -/

theorem mask_ne_zero_iff (byte : UInt8) {place : Nat} (h : place < 8) :
    byte &&& (0x80 >>> UInt8.ofNat place) ≠ 0 ↔ byte.toNat.testBit (7 - place) := by
  have hmasks : ∀ place < 8, (0x80 >>> UInt8.ofNat place).toNat = 2 ^ (7 - place) := by decide
  rw [Ne, ← UInt8.toNat_inj, UInt8.toNat_and, hmasks place h, UInt8.toNat_zero, Nat.and_two_pow]
  cases byte.toNat.testBit (7 - place) <;> simp

theorem bit_name_ne (number rule : String) (h : rule.toList.head? = some 'p') :
    "bit" ++ number ≠ rule := by
  rintro rfl
  rw [String.toList_append] at h
  cases h

theorem pprIds_name_eq_iff {bit rule : Nat} (hrule : rule = 1 ∨ rule = 2) :
    pprIds[bit]?.getD ("bit" ++ toString bit) = "ppr" ++ toString rule ↔ bit = rule := by
  match bit with
  | 0 => rcases hrule with rfl | rfl <;> decide
  | 1 => rcases hrule with rfl | rfl <;> decide
  | 2 => rcases hrule with rfl | rfl <;> decide
  | bit + 3 =>
    refine iff_of_false (bit_name_ne _ _ ?_) (by omega)
    rcases hrule with rfl | rfl <;> rfl

theorem mem_namedBits_pprIds_iff (value : Bytes) (rule : Nat) (hrule : rule = 1 ∨ rule = 2) :
    "ppr" ++ toString rule ∈ namedBits value pprIds ↔ setsBit value rule := by
  cases value with
  | nil => exact iff_of_false not_mem_nil false_ne_true
  | cons unused bytes =>
    simp only [namedBits, mem_map, mem_filter, mem_range, decide_eq_true_eq,
      pprIds_name_eq_iff hrule, exists_eq_right, setsBit, and_eq_true]
    rw [mask_ne_zero_iff _ (Nat.mod_lt rule (by decide))]
    refine and_congr_left fun _ => ?_
    omega

variable {bytes : Bytes} {metadata : ProfileMetadata}

theorem irreversiblePolicyRules_isEmpty_iff {value : Bytes}
    (h : metadata.policyRules = namedBits value pprIds) :
    metadata.irreversiblePolicyRules.isEmpty ↔ setsIrreversible value = false := by
  have hppr1 := mem_namedBits_pprIds_iff value 1 (.inl rfl)
  have hppr2 := mem_namedBits_pprIds_iff value 2 (.inr rfl)
  rw [List.isEmpty_iff, irreversiblePolicyRules, filter_eq_nil_iff, h,
    setsIrreversible, or_eq_false_iff, ← not_eq_true, ← not_eq_true, ← hppr1,
    ← hppr2]
  constructor
  · intro hnone
    exact ⟨fun hmem => hnone _ hmem (by decide), fun hmem => hnone _ hmem (by decide)⟩
  · rintro ⟨hnot1, hnot2⟩ rule hmem hrule
    rcases of_decide_eq_true hrule with rfl | rfl
    · exact hnot1 hmem
    · exact hnot2 hmem

theorem assign_policyRules (metadata : ProfileMetadata) (child : Tlv) :
    (metadata.assign child).policyRules
      = if child.tag = [0x99] then namedBits child.value pprIds else metadata.policyRules := by
  unfold assign
  split <;> simp_all

/-- The rules that count are those of the last element. -/
theorem foldl_assign_policyRules (metadata : ProfileMetadata) (children : List Tlv) :
    (children.foldl assign metadata).policyRules
      = match (children.filter fun child => child.tag = [0x99]).getLast? with
        | some rules => namedBits rules.value pprIds
        | none => metadata.policyRules := by
  induction children using reverseRecOn with
  | nil => rfl
  | append_singleton children child ih =>
    rw [foldl_append, foldl_cons, foldl_nil, assign_policyRules, ih]
    by_cases hrules : child.tag = [0x99] <;> simp [hrules]

theorem parseProfileMetadata_eq (bytes : Bytes) : parseProfileMetadata bytes
      = match readTlv bytes with
        | .error error => .error error
        | .ok (whole, _) =>
          if whole.tag = tagStoreMetadata then
            match (elements whole.value).2 with
            | some error => .error error
            | none => .ok ((elements whole.value).1.foldl assign { raw := whole.raw })
          else .error (.unexpectedTag tagStoreMetadata whole.tag) := by
  unfold parseProfileMetadata
  cases hread : readTlv bytes with
  | error error => simp only [firstTlv, hread]; rfl
  | ok read =>
    obtain ⟨whole, tail⟩ := read
    -- the element is read a second time, from its own bytes
    have hagain : readTlv whole.raw = .ok (whole, []) := by
      have := (readTlv_split hread).2.2 []
      rwa [append_nil] at this
    simp only [firstTlv, hread, expectTag, bind, Except.bind, hagain]
    by_cases htag : whole.tag = tagStoreMetadata
    · simp only [htag, ne_eq, not_true_eq_false, if_false, walk_fold]
      cases (elements whole.value).2 <;> rfl
    · simp [htag]

theorem policyRules_of_parse (h : parseProfileMetadata bytes = .ok metadata) :
    (metadataChildren bytes).2 = none
      ∧ metadata.policyRules = match (policyRuleElements bytes).getLast? with
        | some rules => namedBits rules.value pprIds
        | none => [] := by
  rw [parseProfileMetadata_eq] at h
  unfold policyRuleElements metadataChildren
  cases hread : readTlv bytes with
  | error error =>
    rw [hread] at h
    cases h
  | ok read =>
    rw [hread] at h
    dsimp only at h ⊢
    split at h
    next htag =>
      rw [if_pos htag]
      split at h
      · cases h
      next hnone =>
        cases h
        exact ⟨hnone, foldl_assign_policyRules _ _⟩
    · cases h

/-- Metadata with a rule in it decodes when all its children read. -/
theorem exists_parse_of_children {rules : Tlv} (hrules : rules ∈ policyRuleElements bytes)
    (h : (metadataChildren bytes).2 = none) :
    ∃ metadata, parseProfileMetadata bytes = .ok metadata := by
  rw [parseProfileMetadata_eq]
  unfold policyRuleElements metadataChildren at hrules
  unfold metadataChildren at h
  cases hread : readTlv bytes with
  | error error =>
    rw [hread] at h
    cases h
  | ok read =>
    rw [hread] at h hrules
    dsimp only at h hrules ⊢
    split at h
    next htag =>
      rw [if_pos htag, h]
      exact ⟨_, rfl⟩
    next htag =>
      rw [if_neg htag] at hrules
      exact absurd hrules not_mem_nil

/-! ## The gate -/

def Exchange.installing (exchange : Exchange) : Bool :=
  match exchange.command with
  | .prepareDownload | .loadSegment _ => true
  | _ => false

/-- The server answers `AuthenticateClient` with this metadata, if it
answers at all. -/
def Server.Describes (server : Server) (metadata : Bytes) : Prop :=
  ∀ address transactionId response authentication,
    server.authenticateClient address transactionId response = .ok authentication →
      authentication.profileMetadata = metadata

/-- No run with this metadata takes a step of an installation. -/
def Withheld (metadata : Bytes) : Prop :=
  ∀ server card hash request, Server.Describes server metadata →
    ∀ exchange ∈ ((runDownload server card hash request).run []).2, exchange.installing = false

/-- Metadata that does not decode or whose last rules are irreversible is
never installed. -/
theorem withheld_of_last {metadata : Bytes} (h : (metadataChildren metadata).2 = none → ∃ rules,
      (policyRuleElements metadata).getLast? = some rules
        ∧ setsIrreversible rules.value) : Withheld metadata := by
  intro server card hash request hserver
  have hopen : Writes (fun exchange => exchange.installing = false)
      (openSession server card request) := by
    refine (writes_openSession server card request).mono fun exchange hc => ?_
    rcases hc with ⟨what, hc⟩ | ⟨id, hc⟩ <;> simp [installing, hc]
  have hcomplete : ∀ opened, Writes (fun exchange => exchange.installing = false)
      (completeDownload server card hash request opened) := by
    intro opened
    unfold completeDownload
    split
    · refine ((writes_cancelSession _ _ _).attempt.mono fun exchange hc => ?_).bind fun _ =>
        writes_ofExcept _
      simp [installing, hc]
    next authentication hauthentication =>
      rw [hserver _ _ _ _ hauthentication]
      refine writes_ofExcept_bind fun decoded hdecoded =>
        (writes_ofExcept _).bind fun required => ?_
      have hparse : parseProfileMetadata metadata = .ok decoded := mapError_eq_ok.mp hdecoded
      obtain ⟨hnone, hpolicy⟩ := policyRules_of_parse hparse
      obtain ⟨rules, hlast, hirreversible⟩ := h hnone
      rw [hlast] at hpolicy
      have hrefused : decoded.irreversiblePolicyRules.isEmpty = false := by
        rw [← not_eq_true, irreversiblePolicyRules_isEmpty_iff hpolicy, hirreversible]
        exact Bool.noConfusion
      simp only [hrefused]
      refine (writes_refuseProfile _ _ _ _ _).mono fun exchange hc => ?_
      rcases hc with ⟨what, hc⟩ | hc <;> simp [installing, hc]
  intro exchange hmem
  exact ((hopen.bind hcomplete) [] exchange hmem).resolve_left not_mem_nil

/-- The chip of the bench agrees to its server, whatever the metadata. -/
theorem bench_opens (profileMetadata smdpSigned2 : Bytes) :
    ∃ opened log, (openSession (benchServer profileMetadata smdpSigned2) benchCard benchRequest).run
      [] = (.ok opened, log) := by
  have hsame : openSession (benchServer profileMetadata smdpSigned2) benchCard benchRequest
      = openSession (benchServer [] []) benchCard benchRequest := rfl
  have hok : ((openSession (benchServer [] []) benchCard benchRequest).run []).1.isOk := by
    decide +kernel
  rw [hsame]
  match hrun : (openSession (benchServer [] []) benchCard benchRequest).run [] with
  | (.ok opened, log) => exact ⟨opened, log, rfl⟩
  | (.error error, log) =>
    rw [hrun] at hok
    cases hok

theorem exists_prepareDownload {card : Card} {hash : String → Bytes → Bytes}
    {authentication : ClientAuthentication} {confirmationCode : Option String}
    {payload : Bytes} {chain : List Bytes}
    (hpayload : prepareDownloadRequest hash authentication confirmationCode = .ok payload)
    (hchain : storeDataChain payload = .ok chain) (log : List Exchange) :
    ∃ exchange ∈ ((prepareDownload card hash authentication confirmationCode).run log).2,
      exchange.command = .prepareDownload := by
  rw [prepareDownload, run_ofExcept_bind, hpayload]
  refine ⟨⟨.prepareDownload, payload, (sendChain card (apdus log) chain).2.1,
    (sendChain card (apdus log) chain).2.2, (sendChain card (apdus log) chain).1⟩,
    mem_bind_of_mem ?_ _, rfl⟩
  simp only [executeCounted, hchain]
  exact mem_append_right _ (mem_singleton_self _)

/-- Metadata the gate lets through reaches `PrepareDownload` on the bench. -/
theorem bench_prepares {profileMetadata : Bytes}
    (hparse : parseProfileMetadata profileMetadata = .ok metadata)
    (hempty : metadata.irreversiblePolicyRules.isEmpty) :
    ∃ exchange ∈ ((runDownload (benchServer profileMetadata [0x30, 0x00]) benchCard (fun _ _ => [])
      benchRequest).run []).2, exchange.installing := by
  obtain ⟨opened, log, hopen⟩ := bench_opens profileMetadata [0x30, 0x00]
  have hrequired : confirmationCodeRequired [0x30, 0x00] = .ok false := by decide +kernel
  have hpayload : prepareDownloadRequest (fun _ _ => [])
      ⟨profileMetadata, [0x30, 0x00], [0x5f, 0x37, 0x00], [0x30, 0x00], 200, 0⟩ none
        = .ok [0xbf, 0x21, 0x07, 0x30, 0x00, 0x5f, 0x37, 0x00, 0x30, 0x00] := by
    change prepareDownloadRequest (fun _ _ => [])
      ⟨[], [0x30, 0x00], [0x5f, 0x37, 0x00], [0x30, 0x00], 200, 0⟩ none = _
    decide +kernel
  have hchain : storeDataChain [0xbf, 0x21, 0x07, 0x30, 0x00, 0x5f, 0x37, 0x00, 0x30, 0x00]
      = .ok [[0x80, 0xe2, 0x91, 0x00, 0x0a, 0xbf, 0x21, 0x07, 0x30, 0x00, 0x5f, 0x37, 0x00, 0x30,
        0x00]] := by decide
  obtain ⟨exchange, hmem, hcommand⟩ := exists_prepareDownload hpayload hchain log
  refine ⟨exchange, ?_, by simp [installing, hcommand]⟩
  rw [runDownload, run_bind_of_ok hopen, completeDownload]
  simp only [benchServer]
  rw [es10c, hparse]
  simp only [Except.mapError]
  rw [run_ofExcept_bind, hrequired]
  simp only [hempty]
  exact mem_bind_of_mem hmem _

/-- The gate holds for metadata with a rule that could never be undone
exactly when it does not decode or its last rules element is such a one. -/
theorem gate_iff (metadata : Bytes) :
    ((∃ rules ∈ policyRuleElements metadata, setsIrreversible rules.value) →
        Withheld metadata) ↔
      ((∃ rules ∈ policyRuleElements metadata, setsIrreversible rules.value) →
        (metadataChildren metadata).2 = none → ∃ rules,
          (policyRuleElements metadata).getLast? = some rules
            ∧ setsIrreversible rules.value) := by
  refine imp_congr_right fun hforbids => ⟨fun hwithheld hnone => ?_, withheld_of_last⟩
  obtain ⟨rules, hrules, -⟩ := hforbids
  obtain ⟨decoded, hparse⟩ := exists_parse_of_children hrules hnone
  obtain ⟨-, hpolicy⟩ := policyRules_of_parse hparse
  have hlast := getLast?_eq_some_getLast (ne_nil_of_mem hrules)
  rw [hlast] at hpolicy
  refine ⟨_, hlast, ?_⟩
  by_contra hpasses
  rw [not_eq_true, ← irreversiblePolicyRules_isEmpty_iff hpolicy] at hpasses
  obtain ⟨exchange, hmem, hinstalling⟩ := bench_prepares hparse hpasses
  have hserver : (benchServer metadata [0x30, 0x00]).Describes metadata := by
    intro address transactionId response authentication h
    rw [← Except.ok.inj h]
  rw [hwithheld _ _ _ _ hserver exchange hmem] at hinstalling
  cases hinstalling

/-- Two rules elements, the first with `ppr1`, the second with nothing: the
profile is prepared for installation. -/
theorem gate_passes_overruled_rule :
    (∃ rules ∈ policyRuleElements
        [0xbf, 0x25, 0x08, 0x99, 0x02, 0x05, 0x40, 0x99, 0x02, 0x05, 0x00],
      setsIrreversible rules.value)
    ∧ ∃ exchange ∈ ((runDownload (benchServer
        [0xbf, 0x25, 0x08, 0x99, 0x02, 0x05, 0x40, 0x99, 0x02, 0x05, 0x00] [0x30, 0x00]) benchCard
        (fun _ _ => []) benchRequest).run []).2, exchange.installing := by
  decide +kernel

end VodogeEdge.Esim
