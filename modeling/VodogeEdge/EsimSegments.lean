import VodogeEdge.EsimCommands
import VodogeEdge.Logged

/-!
# The segments of a Bound Profile Package

The package is cut by slices of slices: its header, the elements inside, and
in two kinds of them the members. `Tlv.pieces` is what one element is cut
into; put together again, the pieces of every element are the package.
-/

namespace VodogeEdge.Esim

open List

/-! ## Elements and their bytes -/

variable {body : Bytes} {element : Tlv}

theorem flatten_raw_elements (h : (elements body).2 = none) :
    ((elements body).1.map Tlv.raw).flatten = body := by
  fun_induction elements body with
  | case1 => rfl
  | case2 b rest error => cases h
  | case3 b rest tlv tail hread ih => rw [map_cons, flatten_cons, ih h, ← (readTlv_split hread).1]

def Tlv.header (element : Tlv) : Bytes :=
  element.raw.take (element.raw.length - element.value.length)

theorem header_of_readTlv {bytes tail : Bytes} (h : readTlv bytes = .ok (element, tail)) :
    element.header ≠ [] ∧ element.header ++ element.value = element.raw := by
  obtain ⟨-, ⟨header, hne, hraw⟩, -⟩ := readTlv_split h
  have hheader : element.header = header := by
    rw [Tlv.header, hraw]
    exact take_left' (by rw [length_append, Nat.add_sub_cancel])
  rw [hheader]
  exact ⟨hne, hraw.symm⟩

theorem header_of_mem_elements (h : element ∈ (elements body).1) :
    element.header ≠ [] ∧ element.header ++ element.value = element.raw := by
  fun_induction elements body with
  | case1 | case2 => exact absurd h not_mem_nil
  | case3 b rest tlv tail hread ih =>
    rcases mem_cons.mp h with rfl | h
    · exact header_of_readTlv hread
    · exact ih h

theorem raw_ne_nil_of_mem_elements (h : element ∈ (elements body).1) : element.raw ≠ [] := by
  obtain ⟨hne, hraw⟩ := header_of_mem_elements h
  rw [← hraw]
  exact append_ne_nil_of_left_ne_nil hne _

/-! ## What one element is cut into -/

/-- An element that may follow the secure channel's; the members of the
second and the fourth kind all read. -/
def Tlv.IsSequence (element : Tlv) : Prop :=
  element.tag = [0xa0] ∨ element.tag = [0xa2]
    ∨ (element.tag = [0xa1] ∨ element.tag = [0xa3]) ∧ (elements element.value).2 = none

/-- `A0` and `A2` travel whole, `A1` and `A3` as a header and one piece for
each member. -/
def Tlv.pieces (element : Tlv) : List Bytes :=
  if element.tag = [0xa0] ∨ element.tag = [0xa2] then [element.raw]
  else element.header :: (elements element.value).1.map Tlv.raw

variable (split : BppSplit) {segments : List BppSegment} {sequences : List Tlv} {bpp : Bytes}

theorem bytes_splitMembers {name member : String}
    (h : splitMembers name member element = .ok segments) :
    (elements element.value).2 = none
      ∧ segments.map BppSegment.bytes
        = element.header :: (elements element.value).1.map Tlv.raw := by
  have hfold : ∀ (children : List Tlv) members,
      (children.foldl (fun members child =>
        members ++ [⟨member ++ "[" ++ toString members.length ++ "]", child.raw⟩]) members).map
          BppSegment.bytes = members.map BppSegment.bytes ++ children.map Tlv.raw := by
    intro children
    induction children with
    | nil => exact fun members => (append_nil _).symm
    | cons child rest ih =>
      intro members
      rw [foldl_cons, ih, map_append, append_assoc]
      rfl
  unfold splitMembers at h
  rw [walk_fold] at h
  cases hend : (elements element.value).2 with
  | some error =>
    rw [hend] at h
    cases h
  | none =>
    rw [hend] at h
    cases h
    exact ⟨rfl, congrArg (element.header :: ·) (hfold _ [])⟩

theorem pieces_whole (h : element.tag = [0xa0] ∨ element.tag = [0xa2]) :
    element.pieces = [element.raw] := if_pos h

theorem pieces_members (h : element.tag = [0xa1] ∨ element.tag = [0xa3]) :
    element.pieces = element.header :: (elements element.value).1.map Tlv.raw := by
  refine if_neg ?_
  rcases h with h | h <;> rw [h] <;> decide

/-- What the loop has done when it went over these elements: all of them are
of the four kinds, their pieces are appended and the flags say which came. -/
structure Cut (split next : BppSplit) (sequences : List Tlv) : Prop where
  kinds : ∀ element ∈ sequences, element.IsSequence
  bytes : next.segments.map BppSegment.bytes
    = split.segments.map BppSegment.bytes ++ sequences.flatMap Tlv.pieces
  first87 : next.seenFirst87
    = (split.seenFirst87
      || sequences.any fun element => element.tag = [0xa0] ∨ element.tag = [0xa2])
  any88 : next.seen88 = (split.seen88 || sequences.any fun element => element.tag = [0xa1])
  any86 : next.seen86 = (split.seen86 || sequences.any fun element => element.tag = [0xa3])

theorem Cut.cons {split middle next : BppSplit} (hfirst : Cut split middle [element])
    (h : Cut middle next sequences) : Cut split next (element :: sequences) := by
  refine ⟨forall_mem_cons.mpr ⟨hfirst.kinds element mem_cons_self, h.kinds⟩, ?_, ?_, ?_, ?_⟩
  · simp [h.bytes, hfirst.bytes]
  · simp [h.first87, hfirst.first87, Bool.or_assoc]
  · simp [h.any88, hfirst.any88, Bool.or_assoc]
  · simp [h.any86, hfirst.any86, Bool.or_assoc]

theorem splitElement_cut {split next : BppSplit} (h : splitElement split element = .ok next) :
    Cut split next [element] := by
  unfold splitElement at h
  split at h
  case h_1 htag | h_2 htag =>
    cases h
    refine ⟨by simp [Tlv.IsSequence, htag], ?_, ?_, ?_, ?_⟩ <;> simp [Tlv.pieces, htag]
  case h_3 htag | h_4 htag =>
    obtain ⟨segments, hsplit, h⟩ := exists_ok_of_bind h
    cases h
    obtain ⟨hread, hbytes⟩ := bytes_splitMembers hsplit
    refine ⟨by simp [Tlv.IsSequence, htag, hread], ?_, ?_, ?_, ?_⟩ <;>
      simp [Tlv.pieces, htag, hbytes]
  · cases h

theorem exists_splitElement (h : element.IsSequence) :
    ∃ next, splitElement split element = .ok next := by
  unfold splitElement splitMembers
  rcases h with h | h | ⟨h | h, hread⟩
  · simp only [h]
    exact ⟨_, rfl⟩
  · simp only [h]
    exact ⟨_, rfl⟩
  all_goals
    simp only [h, walk_fold, hread]
    exact ⟨_, rfl⟩

theorem foldlM_splitElement_cut {split final : BppSplit}
    (h : sequences.foldlM splitElement split = .ok final) : Cut split final sequences := by
  induction sequences generalizing split with
  | nil =>
    cases h
    exact ⟨by simp, by simp, by simp, by simp, by simp⟩
  | cons element rest ih =>
    obtain ⟨next, hstep, h⟩ := exists_ok_of_bind h
    exact (splitElement_cut hstep).cons (ih h)

theorem exists_foldlM_splitElement (h : ∀ element ∈ sequences, element.IsSequence) :
    ∃ final, sequences.foldlM splitElement split = .ok final := by
  induction sequences generalizing split with
  | nil => exact ⟨split, rfl⟩
  | cons element rest ih =>
    obtain ⟨helement, hrest⟩ := forall_mem_cons.mp h
    obtain ⟨next, hnext⟩ := exists_splitElement split helement
    rw [foldlM_cons, hnext]
    exact ih next hrest

theorem flatten_pieces (hmem : element ∈ (elements body).1) (h : element.IsSequence) :
    element.pieces.flatten = element.raw := by
  rcases h with h | h | ⟨h, hread⟩
  · rw [pieces_whole (.inl h), flatten_singleton]
  · rw [pieces_whole (.inr h), flatten_singleton]
  · rw [pieces_members h, flatten_cons, flatten_raw_elements hread, (header_of_mem_elements hmem).2]

theorem ne_nil_of_mem_pieces (hmem : element ∈ (elements body).1) {piece : Bytes}
    (h : piece ∈ element.pieces) : piece ≠ [] := by
  unfold Tlv.pieces at h
  split at h
  · rw [mem_singleton.mp h]
    exact raw_ne_nil_of_mem_elements hmem
  · rcases mem_cons.mp h with rfl | h
    · exact (header_of_mem_elements hmem).1
    · obtain ⟨child, hchild, rfl⟩ := mem_map.mp h
      exact raw_ne_nil_of_mem_elements hchild

theorem flatten_flatMap_pieces (hsub : ∀ element ∈ sequences, element ∈ (elements body).1)
    (h : ∀ element ∈ sequences, element.IsSequence) :
    (sequences.flatMap Tlv.pieces).flatten = (sequences.map Tlv.raw).flatten := by
  induction sequences with
  | nil => rfl
  | cons element rest ih =>
    simp only [forall_mem_cons] at hsub h
    rw [flatMap_cons, flatten_append, flatten_pieces hsub.1 h.1, ih hsub.2 h.2,
      map_cons, flatten_cons]

/-! ## The package -/

theorem readTlv_of_firstTlv {bytes whole tail : Bytes} (hwhole : firstTlv bytes = .ok whole)
    (h : readTlv whole = .ok (element, tail)) :
    whole = element.raw ∧ ∃ after, readTlv bytes = .ok (element, after) := by
  unfold firstTlv at hwhole
  split at hwhole
  · cases hwhole
  next first after hread =>
    cases hwhole
    have hagain := (readTlv_split hread).2.2 []
    rw [append_nil, h] at hagain
    cases hagain
    exact ⟨rfl, after, hread⟩

/-- What the loop asks of the elements behind the secure channel's. -/
def Suffices (sequences : List Tlv) : Prop :=
  (∀ element ∈ sequences, element.IsSequence)
    ∧ (∃ element ∈ sequences, element.tag = [0xa0] ∨ element.tag = [0xa2])
    ∧ (∃ element ∈ sequences, element.tag = [0xa1])
    ∧ ∃ element ∈ sequences, element.tag = [0xa3]

/-- A package, what comes behind it, and the two parts of its value. -/
structure Opens (bpp : Bytes) (package : Tlv) (after : Bytes) (secureChannel : Tlv)
    (rest : Bytes) : Prop where
  outer : readTlv bpp = .ok (package, after)
  outerTag : package.tag = tagBoundProfilePackage
  inner : readTlv package.value = .ok (secureChannel, rest)
  innerTag : secureChannel.tag = tagInitialiseSecureChannel
  reads : (elements rest).2 = none

/-- How an accepted package is cut: its header goes with the first element,
and every element behind that one is cut into its pieces. -/
theorem boundProfilePackageSegments_ok (h : boundProfilePackageSegments bpp = .ok segments) :
    ∃ package after secureChannel rest, Opens bpp package after secureChannel rest
      ∧ Suffices (elements rest).1
      ∧ segments.map BppSegment.bytes
        = (package.header ++ secureChannel.raw) :: (elements rest).1.flatMap Tlv.pieces := by
  obtain ⟨whole, hwhole, h⟩ := exists_ok_of_bind h
  obtain ⟨⟨package, none⟩, hpackage, h⟩ := exists_ok_of_bind h
  obtain ⟨rfl, after, hread⟩ := readTlv_of_firstTlv hwhole hpackage
  dsimp only at h
  split at h
  · cases h
  next htag =>
    obtain ⟨⟨secureChannel, rest⟩, hsecure, h⟩ := exists_ok_of_bind h
    split at h
    · cases h
    next hsecureTag =>
      obtain ⟨split, hwalk, h⟩ := exists_ok_of_bind h
      obtain ⟨hreads, hfold⟩ := walk_ok_iff.mp hwalk
      have hcut := foldlM_splitElement_cut hfold
      split at h
      · cases h
      next hseen =>
        cases h
        simp only [hcut.first87, hcut.any88, hcut.any86, Bool.false_or, Bool.or_eq_true,
          Bool.not_eq_true', not_or, Bool.not_eq_false, any_eq_true, decide_eq_true_eq,
          and_assoc] at hseen
        exact ⟨package, after, secureChannel, rest, ⟨hread, not_not.mp htag, hsecure,
          not_not.mp hsecureTag, hreads⟩, ⟨hcut.kinds, hseen⟩, hcut.bytes⟩

theorem exists_segments {after rest : Bytes} {package secureChannel : Tlv}
    (h : Opens bpp package after secureChannel rest) (hsuffices : Suffices (elements rest).1) :
    ∃ segments, boundProfilePackageSegments bpp = .ok segments := by
  obtain ⟨hkinds, hfirst, h88, h86⟩ := hsuffices
  have hagain : readTlv package.raw = .ok (package, []) := by
    simpa using (readTlv_split h.outer).2.2 []
  unfold boundProfilePackageSegments firstTlv
  rw [h.outer]
  dsimp only [bind, Except.bind]
  rw [hagain]
  dsimp only
  rw [if_neg (not_not.mpr h.outerTag), h.inner]
  dsimp only
  rw [if_neg (not_not.mpr h.innerTag)]
  obtain ⟨final, hfinal⟩ := exists_foldlM_splitElement
    { segments := [⟨"header+initialiseSecureChannelRequest",
      package.raw.take (package.raw.length - package.value.length) ++ secureChannel.raw⟩] } hkinds
  have hcut := foldlM_splitElement_cut hfinal
  rw [walk_ok_iff.mpr ⟨h.reads, hfinal⟩]
  have hseen : final.seenFirst87 ∧ final.seen88 ∧ final.seen86 := by
    simpa [hcut.first87, hcut.any88, hcut.any86] using ⟨hfirst, h88, h86⟩
  dsimp only
  rw [hseen.1, hseen.2.1, hseen.2.2]
  exact ⟨_, rfl⟩

/-- The segments of a package put together are its first complete element, and
none is empty: its header with the secure channel's request, then every `A0`
and `A2` as one, and every `A1` and `A3` as its header and one each for the
elements inside. -/
theorem segments_exact {bpp : Bytes} {segments : List BppSegment}
    (h : boundProfilePackageSegments bpp = .ok segments) :
    ∃ (package : Tlv) (after : Bytes) (secureChannel : Tlv) (rest : Bytes),
      readTlv bpp = .ok (package, after) ∧ bpp = package.raw ++ after
      ∧ readTlv package.value = .ok (secureChannel, rest)
      ∧ (segments.map BppSegment.bytes).flatten = package.raw
      ∧ (∀ segment ∈ segments, segment.bytes ≠ [])
      ∧ package.raw = package.header ++ (secureChannel.raw ++ rest)
      ∧ rest = ((elements rest).1.map Tlv.raw).flatten
      ∧ segments.map BppSegment.bytes
        = (package.header ++ secureChannel.raw) :: (elements rest).1.flatMap Tlv.pieces
      ∧ ∀ element ∈ (elements rest).1,
        ((element.tag = [0xa0] ∨ element.tag = [0xa2]) ∧ element.pieces = [element.raw])
        ∨ (element.tag = [0xa1] ∨ element.tag = [0xa3])
          ∧ element.pieces = element.header :: (elements element.value).1.map Tlv.raw
          ∧ element.value = ((elements element.value).1.map Tlv.raw).flatten := by
  obtain ⟨package, after, secureChannel, rest, ⟨hread, -, hsecure, -, hend⟩, ⟨hsequences, -⟩,
    hbytes⟩ := boundProfilePackageSegments_ok h
  obtain ⟨hheader, hpackage⟩ := header_of_readTlv hread
  have hrest := flatten_raw_elements hend
  have hraw : package.raw = package.header ++ (secureChannel.raw ++ rest) := by
    rw [← (readTlv_split hsecure).1, hpackage]
  refine ⟨package, after, secureChannel, rest, hread, (readTlv_split hread).1, hsecure, ?_, ?_,
    hraw, hrest.symm, hbytes, ?_⟩
  · rw [hbytes, flatten_cons, flatten_flatMap_pieces (fun _ => id) hsequences, hrest, hraw,
      append_assoc]
  · intro segment hsegment
    have hmem := mem_map_of_mem hsegment (f := BppSegment.bytes)
    rw [hbytes] at hmem
    rcases mem_cons.mp hmem with heq | hmem
    · rw [heq]
      exact append_ne_nil_of_left_ne_nil hheader _
    · obtain ⟨element, helement, hpiece⟩ := mem_flatMap.mp hmem
      exact ne_nil_of_mem_pieces helement hpiece
  · intro element helement
    rcases hsequences element helement with htag | htag | ⟨htag, hmembers⟩
    · exact .inl ⟨.inl htag, pieces_whole (.inl htag)⟩
    · exact .inl ⟨.inr htag, pieces_whole (.inr htag)⟩
    · exact .inr ⟨htag, pieces_members htag, (flatten_raw_elements hmembers).symm⟩

/-- A small package: an empty `A0`, one member in `A1` and two in `A3`. -/
def smallPackage : Bytes :=
  [0xbf, 0x36, 0x0f, 0xbf, 0x23, 0x00, 0xa0, 0x00, 0xa1, 0x02, 0x88, 0x00, 0xa3, 0x04, 0x86, 0x00,
    0x86, 0x00]

def smallSegments : List BppSegment :=
  [⟨"header+initialiseSecureChannelRequest", [0xbf, 0x36, 0x0f, 0xbf, 0x23, 0x00]⟩,
    ⟨"firstSequenceOf87", [0xa0, 0x00]⟩, ⟨"sequenceOf88 header", [0xa1, 0x02]⟩,
    ⟨"88[0]", [0x88, 0x00]⟩, ⟨"sequenceOf86 header", [0xa3, 0x04]⟩, ⟨"86[0]", [0x86, 0x00]⟩,
    ⟨"86[1]", [0x86, 0x00]⟩]

theorem segments_exact_smallPackage :
    boundProfilePackageSegments smallPackage = .ok smallSegments
      ∧ ∃ package after, readTlv smallPackage = .ok (package, after)
        ∧ (smallSegments.map BppSegment.bytes).flatten = package.raw := by
  have hsegments : boundProfilePackageSegments smallPackage = .ok smallSegments := by decide +kernel
  obtain ⟨package, after, _, _, hread, -, -, hflatten, -⟩ := segments_exact hsegments
  exact ⟨hsegments, package, after, hread, hflatten⟩

/-! ## The order of a package -/

/-- All members of an element carry this tag. -/
def Tlv.HasMembers (element : Tlv) (tag : Bytes) : Prop :=
  (elements element.value).2 = none ∧ ∀ child ∈ (elements element.value).1, child.tag = tag

/-- The order the specification fixes: `A0`, `A1`, perhaps `A2`, and `A3`. -/
def Ordered (sequences : List Tlv) : Prop :=
  ∃ (first87 sequence88 : Tlv) (second87 : Option Tlv) (sequence86 : Tlv),
    sequences = first87 :: sequence88 :: (second87.toList ++ [sequence86])
      ∧ first87.tag = [0xa0]
      ∧ sequence88.tag = [0xa1] ∧ sequence88.HasMembers [0x88]
      ∧ (∀ second ∈ second87, second.tag = [0xa2])
      ∧ sequence86.tag = [0xa3] ∧ sequence86.HasMembers [0x86]

/-- A package and nothing else, with its elements in order. -/
def WellOrdered (bpp : Bytes) : Prop :=
  ∃ package secureChannel rest, Opens bpp package [] secureChannel rest
    ∧ Ordered (elements rest).1

/-- Only well-ordered packages are accepted exactly if what the three flags
ask for comes in order: they see no order, no repetition, no tags of members,
no `A2` for the `A0` and no bytes behind the package. -/
theorem accepted_wellOrdered_iff (bpp : Bytes) :
    ((∃ segments, boundProfilePackageSegments bpp = .ok segments) → WellOrdered bpp) ↔
      ∀ package after secureChannel rest, Opens bpp package after secureChannel rest →
        Suffices (elements rest).1 → after = [] ∧ Ordered (elements rest).1 := by
  constructor
  · intro h package after secureChannel rest hopens hsuffices
    obtain ⟨package', secureChannel', rest', hopens', hordered⟩ :=
      h (exists_segments hopens hsuffices)
    have houter := hopens.outer.symm.trans hopens'.outer
    cases houter
    have hinner := hopens.inner.symm.trans hopens'.inner
    cases hinner
    exact ⟨rfl, hordered⟩
  · rintro h ⟨segments, hsegments⟩
    obtain ⟨package, after, secureChannel, rest, hopens, hsuffices, -⟩ :=
      boundProfilePackageSegments_ok hsegments
    obtain ⟨rfl, hordered⟩ := h package after secureChannel rest hopens hsuffices
    exact ⟨package, secureChannel, rest, hopens, hordered⟩

/-- `A3`, `A1` and `A2`, with a member `84` in the `A1`. -/
theorem reversed_accepted :
    let bpp := [0xbf, 0x36, 0x0b, 0xbf, 0x23, 0x00, 0xa3, 0x00, 0xa1, 0x02, 0x84, 0x00, 0xa2, 0x00]
    boundProfilePackageSegments bpp
        = .ok [⟨"header+initialiseSecureChannelRequest", [0xbf, 0x36, 0x0b, 0xbf, 0x23, 0x00]⟩,
          ⟨"sequenceOf86 header", [0xa3, 0x00]⟩, ⟨"sequenceOf88 header", [0xa1, 0x02]⟩,
          ⟨"88[0]", [0x84, 0x00]⟩, ⟨"firstSequenceOf87", [0xa2, 0x00]⟩]
      ∧ ¬ WellOrdered bpp := by
  intro bpp
  refine ⟨by decide +kernel, ?_⟩
  rintro ⟨package, secureChannel, rest, hopens, first87, _, _, _, hordered, htag, -⟩
  have houter : readTlv bpp = .ok (⟨[0xbf, 0x36], bpp.drop 3, bpp⟩, []) := by decide +kernel
  have hinner : readTlv (bpp.drop 3)
      = .ok (⟨[0xbf, 0x23], [], [0xbf, 0x23, 0x00]⟩, bpp.drop 6) := by decide +kernel
  cases houter.symm.trans hopens.outer
  cases hinner.symm.trans hopens.inner
  have hhead : (elements (bpp.drop 6)).1.head?.map Tlv.tag = some [0xa3] := by decide +kernel
  rw [hordered] at hhead
  simp [htag] at hhead

end VodogeEdge.Esim
