import VodogeEdge.Aka

/-!
# What an FCP says is selected

`DfName` says which DF name an FCP carries: the first element with tag `84`
among the contents of its template, or of the bare answer. `UsimSelected` is
what has to hold before a challenge is sent; the readers of `aka` decide it.
-/

namespace VodogeEdge.Aka

open List

/-! ## The first element with a tag -/

variable {fcp value content : Bytes} {tag : UInt8} {data : Bytes}

/-- A value with this tag stands in a list of elements, and what stands
before it is filler and elements with other tags. -/
def FirstElement (tag : UInt8) (data value : Bytes) : Prop :=
  ∃ (skipped : List Bytes) (bytes rest : Bytes),
    data = skipped.flatten ++ (bytes ++ rest) ∧ Element tag value bytes
      ∧ ∀ part ∈ skipped, (∃ byte, isFiller byte ∧ part = [byte])
        ∨ ∃ other content, other ≠ tag ∧ isFiller other = false ∧ Element other content part

theorem FirstElement.skip {part : Bytes} (hpart : (∃ byte, isFiller byte ∧ part = [byte])
      ∨ ∃ other content, other ≠ tag ∧ isFiller other = false ∧ Element other content part)
    (h : FirstElement tag data value) : FirstElement tag (part ++ data) value := by
  obtain ⟨skipped, bytes, rest, rfl, helement, hskipped⟩ := h
  refine ⟨part :: skipped, bytes, rest, ?_, helement, forall_mem_cons.mpr ⟨hpart, hskipped⟩⟩
  rw [flatten_cons, append_assoc]

theorem findTag_element {found : UInt8} {bytes : Bytes} (h : Element found content bytes)
    (hfound : isFiller found = false) (rest : Bytes) :
    findTag (bytes ++ rest) tag = if found = tag then some content else findTag rest tag := by
  have hread : readTlv (bytes ++ rest) = some (found, content, rest) :=
    readTlv_iff.mpr ⟨bytes, h, rfl⟩
  obtain ⟨header, -, rfl⟩ := h
  rw [cons_append] at hread ⊢
  rw [findTag, hread]
  simp [hfound]

theorem findTag_iff (htag : isFiller tag = false) :
    findTag data tag = some value ↔ FirstElement tag data value := by
  constructor
  · intro h
    fun_induction findTag data tag with
    | case1 => cases h
    | case2 byte tail hfiller ih => exact (ih h).skip (.inl ⟨byte, hfiller, rfl⟩)
    | case3 => cases h
    | case4 byte tail _ content rest hread =>
      cases h
      obtain ⟨bytes, helement, heq⟩ := readTlv_iff.mp hread
      exact ⟨[], bytes, rest, heq, helement, by simp⟩
    | case5 byte tail hfiller found content rest hread hother ih =>
      obtain ⟨bytes, helement, heq⟩ := readTlv_iff.mp hread
      have hfound : found = byte := by
        obtain ⟨_, _, rfl⟩ := helement
        cases heq
        rfl
      rw [heq]
      exact (ih h).skip (.inr ⟨found, content, hother, by rw [hfound]; simpa using hfiller,
        helement⟩)
  · rintro ⟨skipped, bytes, rest, rfl, helement, hskipped⟩
    induction skipped with
    | nil => rw [flatten_nil, nil_append, findTag_element helement htag, if_pos rfl]
    | cons part skipped ih =>
      rw [flatten_cons, append_assoc]
      obtain ⟨hpart, hrest⟩ := forall_mem_cons.mp hskipped
      rcases hpart with ⟨byte, hfiller, rfl⟩ | ⟨other, content, hother, hfiller, hpart⟩
      · rw [singleton_append, findTag, if_pos hfiller, ih hrest]
      · rw [findTag_element hpart hfiller, if_neg hother, ih hrest]

/-! ## The FCP -/

/-- The answer is one FCP or FCI template with this content, apart from
filler behind it. -/
def Template (body content : Bytes) : Prop :=
  ∃ tag bytes tail, (tag = 0x62 ∨ tag = 0x6f) ∧ Element tag content bytes
    ∧ body = bytes ++ tail ∧ isPadding tail

/-- The elements of an FCP, with or without a template around them. -/
def Contents (fcp inner : Bytes) : Prop :=
  Template (stripLeadingPadding fcp) inner
    ∨ (∀ content, ¬ Template (stripLeadingPadding fcp) content) ∧ inner = stripLeadingPadding fcp

def DfName (fcp aid : Bytes) : Prop :=
  ∃ inner, Contents fcp inner ∧ FirstElement 0x84 inner aid

def UsimSelected (fcp : Bytes) : Prop :=
  ∃ aid, DfName fcp aid ∧ usimAdfAidPrefix <+: aid

theorem splitTlv_iff :
    splitTlv (stripLeadingPadding fcp) = some (tag, content)
      ↔ ∃ bytes tail, Element tag content bytes ∧ stripLeadingPadding fcp = bytes ++ tail
        ∧ isPadding tail := by
  have hstrip : stripLeadingPadding (stripLeadingPadding fcp) = stripLeadingPadding fcp :=
    dropWhile_idempotent isFiller fcp
  rw [splitTlv, hstrip]
  constructor
  · intro h
    split at h
    · cases h
    next hread =>
      split at h
      next hpadding =>
        cases h
        obtain ⟨bytes, helement, heq⟩ := readTlv_iff.mp hread
        exact ⟨bytes, _, helement, heq, hpadding⟩
      · cases h
  · rintro ⟨bytes, tail, helement, heq, hpadding⟩
    have hread : readTlv (stripLeadingPadding fcp) = some (tag, content, tail) :=
      readTlv_iff.mpr ⟨bytes, helement, heq⟩
    rw [hread]
    exact if_pos hpadding

theorem template_iff :
    Template (stripLeadingPadding fcp) content
      ↔ ∃ tag, (tag = 0x62 ∨ tag = 0x6f)
        ∧ splitTlv (stripLeadingPadding fcp) = some (tag, content) := by
  simp only [splitTlv_iff]
  constructor
  · rintro ⟨tag, bytes, tail, htag, helement, heq, hpadding⟩
    exact ⟨tag, htag, bytes, tail, helement, heq, hpadding⟩
  · rintro ⟨tag, htag, bytes, tail, helement, heq, hpadding⟩
    exact ⟨tag, bytes, tail, htag, helement, heq, hpadding⟩

theorem contents_iff {inner : Bytes} : Contents fcp inner ↔ inner = contentsOf fcp := by
  simp only [Contents, template_iff, contentsOf]
  cases splitTlv (stripLeadingPadding fcp) with
  | none => simp
  | some element =>
    obtain ⟨tag, content⟩ := element
    by_cases htag : tag = 0x62 ∨ tag = 0x6f
    · simp only [Option.some.injEq, Prod.mk.injEq, htag]
      constructor
      · rintro (⟨_, -, -, rfl⟩ | ⟨hnone, -⟩)
        · rfl
        · exact absurd ⟨tag, htag, rfl, rfl⟩ (hnone content)
      · rintro rfl
        exact .inl ⟨tag, htag, rfl, rfl⟩
    · simp only [htag]
      constructor
      · rintro (⟨_, hother, rfl, -⟩ | ⟨-, rfl⟩)
        · exact absurd hother htag
        · rfl
      · rintro rfl
        refine .inr ⟨?_, rfl⟩
        rintro content ⟨_, hother, rfl, -⟩
        exact htag hother

theorem selectedAid_iff {aid : Bytes} : selectedAid fcp = .ok aid ↔ DfName fcp aid := by
  have hfind : findTag (contentsOf fcp) 0x84 = some aid ↔ FirstElement 0x84 (contentsOf fcp) aid :=
    findTag_iff rfl
  simp only [DfName, contents_iff, exists_eq_left, ← hfind]
  unfold selectedAid
  cases findTag (contentsOf fcp) 0x84 <;> simp

/-- An FCP is accepted when it is that of a USIM; if it is not, that is a
verdict about what is selected. -/
theorem usimAidOf_cases (fcp : Bytes) : (∃ aid, usimAidOf fcp = .ok aid ∧ UsimSelected fcp)
    ∨ ∃ verdict, usimAidOf fcp = .error verdict ∧ verdict.isSelectionVerdict
      ∧ ¬ UsimSelected fcp := by
  unfold usimAidOf
  cases hselected : selectedAid fcp with
  | error error =>
    have hnone : ¬ UsimSelected fcp := by
      rintro ⟨aid, haid, -⟩
      rw [← selectedAid_iff, hselected] at haid
      cases haid
    refine .inr ⟨error, rfl, ?_, hnone⟩
    unfold selectedAid at hselected
    split at hselected <;> cases hselected
    rfl
  | ok aid =>
    by_cases hprefix : usimAdfAidPrefix.isPrefixOf aid
    · exact .inl ⟨aid, if_pos hprefix, aid, selectedAid_iff.mp hselected,
        isPrefixOf_iff_prefix.mp hprefix⟩
    · refine .inr ⟨_, if_neg hprefix, rfl, ?_⟩
      rintro ⟨other, hother, hused⟩
      rw [← selectedAid_iff, hselected] at hother
      cases hother
      exact hprefix <| isPrefixOf_iff_prefix.mpr hused

end VodogeEdge.Aka
