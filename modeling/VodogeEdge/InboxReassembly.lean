import VodogeEdge.InboxConcat

/-!
# What `assemble` returns

A message of `assemble` is a part that stands alone, a round of the queues
of one key, or the leftovers of one key after the grace period
(`mem_assemble`). Each kind is described once, by the parts at its
sources: a round has the sequence numbers `1..=total` in order, leftovers
always miss one, because some queue is the shortest.

`assemble_reassembles` collects what this says about a whole pass.
-/

namespace VodogeEdge

open List Nat

/-! ## Queues and rounds -/

section
variable {group : List SlottedPart} {total : Nat}

variable {round : Nat} {placed : SlottedPart} {seq : Nat}

theorem mem_queue : placed ∈ queue group seq ↔ placed ∈ group ∧ placed.part.seq = seq := by
  rw [queue, mem_insertionSort, mem_filter, decide_eq_true_eq]

theorem wholeCount_spec (group : List SlottedPart) (htotal : 0 < total) :
    (∀ seq ∈ range' 1 total, wholeCount group total ≤ (queue group seq).length)
      ∧ ∃ seq ∈ range' 1 total, (queue group seq).length = wholeCount group total := by
  have hsome : ((queues group total).map List.length).min?.isSome := by
    rw [Option.isSome_iff_ne_none, Ne, List.min?_eq_none_iff, queues, map_map,
      map_eq_nil_iff, range'_eq_nil_iff]
    omega
  obtain ⟨n, hn⟩ := Option.isSome_iff_exists.mp hsome
  have hwhole : wholeCount group total = n := by rw [wholeCount, hn]; rfl
  obtain ⟨hmem, hleast⟩ := List.min?_eq_some_iff.mp hn
  rw [queues, map_map] at hmem hleast
  refine ⟨fun seq hseq => ?_, ?_⟩
  · rw [hwhole]
    exact hleast _ (mem_map_of_mem hseq)
  · obtain ⟨seq, hseq, hlength⟩ := mem_map.mp hmem
    exact ⟨seq, hseq, by rw [hwhole, ← hlength]; rfl⟩

theorem queue_round (h : round < wholeCount group total) (hseq : seq ∈ range' 1 total) :
    ∃ placed, (queue group seq)[round]? = some placed ∧ placed.part.seq = seq := by
  have htotal : 0 < total := by
    rw [mem_range'_1] at hseq
    omega
  have hlt := lt_of_lt_of_le h ((wholeCount_spec group htotal).1 seq hseq)
  have hread := getElem?_eq_getElem hlt
  exact ⟨_, hread, (mem_queue.mp (getElem_mem hlt)).2⟩

theorem roundOf_eq (group : List SlottedPart) (total round : Nat) :
    roundOf group total round
      = (range' 1 total).filterMap fun seq => (queue group seq)[round]? := by
  rw [roundOf, queues, filterMap_map]
  rfl

theorem seqs_roundOf (h : round < wholeCount group total) :
    (roundOf group total round).map (fun placed => placed.part.seq) = range' 1 total := by
  rw [roundOf_eq]
  exact map_filterMap_of_forall fun seq hseq => queue_round h hseq

theorem mem_roundOf :
    placed ∈ roundOf group total round
      ↔ ∃ seq ∈ range' 1 total, (queue group seq)[round]? = some placed := by
  rw [roundOf_eq, mem_filterMap]

theorem mem_group_of_mem_roundOf (h : placed ∈ roundOf group total round) : placed ∈ group := by
  obtain ⟨seq, -, hread⟩ := mem_roundOf.mp h
  exact (mem_queue.mp (mem_of_getElem? hread)).1

/-! ## Leftovers -/

theorem mem_leftovers :
    placed ∈ leftovers group total ↔ ∃ seq ∈ range' 1 total,
      placed ∈ (queue group seq).drop (wholeCount group total) := by
  rw [leftovers, mem_insertionSort, queues, flatMap_map, mem_flatMap]

theorem mem_group_of_mem_leftovers (h : placed ∈ leftovers group total) : placed ∈ group := by
  obtain ⟨seq, -, hdrop⟩ := mem_leftovers.mp h
  exact (mem_queue.mp (mem_of_mem_drop hdrop)).1

theorem leftovers_miss (group : List SlottedPart) (htotal : 0 < total) :
    ∃ seq ∈ range' 1 total, ∀ placed ∈ leftovers group total, placed.part.seq ≠ seq := by
  obtain ⟨seq, hseq, hlength⟩ := (wholeCount_spec group htotal).2
  refine ⟨seq, hseq, fun placed hplaced heq => ?_⟩
  obtain ⟨seq', -, hdrop⟩ := mem_leftovers.mp hplaced
  have hseq' : placed.part.seq = seq' := (mem_queue.mp (mem_of_mem_drop hdrop)).2
  obtain rfl : seq' = seq := hseq'.symm.trans heq
  rw [drop_eq_nil_of_le (le_of_eq hlength)] at hdrop
  exact not_mem_nil hdrop

end

/-! ## The text of a release -/

theorem infix_join {text : String} {texts : List String} (h : text ∈ texts) :
    text.toList <:+: (String.join texts).toList := by
  rw [String.toList_join]
  exact infix_of_mem_flatten (mem_map_of_mem h)

def releasedPiece (left : List SlottedPart) (total seq : Nat) : String :=
  match left.find? fun placed => placed.part.seq = seq with
  | some placed => placed.part.body
  | none => missingMarker seq total

theorem foldl_releasePart (left : List SlottedPart) (total : Nat) (seqs : List Nat)
    (soFar : String × List Nat) :
    seqs.foldl (releasePart left total) soFar
      = (soFar.1 ++ String.join (seqs.map (releasedPiece left total)),
        soFar.2 ++ seqs.filter fun seq => ∀ placed ∈ left, placed.part.seq ≠ seq) := by
  induction seqs generalizing soFar with
  | nil => simp
  | cons seq seqs ih =>
    rw [foldl_cons, ih, map_cons, String.join_cons, filter_cons]
    unfold releasePart releasedPiece
    cases hfind : left.find? fun placed => decide (placed.part.seq = seq) with
    | some placed =>
      have hseq : placed.part.seq = seq := by simpa using List.find?_some hfind
      have hhas : ¬∀ placed ∈ left, placed.part.seq ≠ seq := fun hnone =>
        hnone placed (mem_of_find?_eq_some hfind) hseq
      rw [if_neg (fun h => hhas (of_decide_eq_true h)), String.append_assoc]
    | none =>
      have hnone : ∀ placed ∈ left, placed.part.seq ≠ seq := by
        intro placed hplaced
        simpa using List.find?_eq_none.mp hfind placed hplaced
      rw [if_pos (decide_eq_true hnone), String.append_assoc, append_assoc]
      rfl

theorem releasedMessage_eq (sender : String) (total : Nat) (left : List SlottedPart) :
    releasedMessage sender total left
      = ⟨sender, String.join ((range' 1 total).map (releasedPiece left total)), total,
        left.map SlottedPart.slot,
        (range' 1 total).filter fun seq => ∀ placed ∈ left, placed.part.seq ≠ seq⟩ := by
  unfold releasedMessage
  rw [foldl_releasePart]
  simp

/-! ## The messages of a pass -/

def ConcatPart.key (part : ConcatPart) : GroupKey := ⟨part.sender, part.refId, part.total⟩

section
variable (parts : List ConcatPart) {placed : SlottedPart} {message : AssembledSms} {round : Nat}

def slottedFragments : List SlottedPart :=
  (slotted parts).filter fun placed => !placed.part.standsAlone

def keyGroup (key : GroupKey) : List SlottedPart := groupOf (slottedFragments parts) key

theorem mem_slotted : placed ∈ slotted parts ↔ parts[placed.slot]? = some placed.part := by
  rw [slotted, mem_map]
  constructor
  · rintro ⟨⟨part, slot⟩, hmem, rfl⟩
    exact mem_zipIdx_iff_getElem?.mp hmem
  · intro h
    exact ⟨(placed.part, placed.slot), mem_zipIdx_iff_getElem?.mpr h, rfl⟩

variable {key : GroupKey} {seq : Nat}

theorem mem_keyGroup :
    placed ∈ keyGroup parts key ↔ parts[placed.slot]? = some placed.part
      ∧ placed.part.standsAlone = false ∧ placed.part.key = key := by
  rw [keyGroup, groupOf, mem_filter, slottedFragments, mem_filter, mem_slotted,
    Bool.not_eq_true', decide_eq_true_eq, and_assoc]
  rfl

theorem total_of_not_standsAlone {part : ConcatPart} (h : part.standsAlone = false) :
    1 < part.total := by
  unfold ConcatPart.standsAlone at h
  simp only [Bool.or_eq_false_iff, decide_eq_false_iff_not] at h
  omega

/-- A key of a pass is that of some fragment, so it has two parts at
least. -/
theorem total_of_mem_groupKeys (h : key ∈ groupKeys (slottedFragments parts)) : 1 < key.total := by
  rw [groupKeys, mem_insertionSort, mem_dedup] at h
  obtain ⟨placed, hplaced, rfl⟩ := mem_map.mp h
  obtain ⟨-, hfragment⟩ := mem_filter.mp hplaced
  exact total_of_not_standsAlone ((Bool.not_eq_true' _).mp hfragment)

def wholesOf (key : GroupKey) : List AssembledSms :=
  (List.range (wholeCount (keyGroup parts key) key.total)).map fun round =>
    wholeMessage key.sender key.total (roundOf (keyGroup parts key) key.total round)

def leftOf (key : GroupKey) : List SlottedPart := leftovers (keyGroup parts key) key.total

variable (nowMs graceMs : Int)

def releasedOf (key : GroupKey) : List AssembledSms :=
  if leftOf parts key ≠ [] ∧ leftoversExpired (leftOf parts key) nowMs graceMs then
    [releasedMessage key.sender key.total (leftOf parts key)]
  else []

theorem assembleGroup_fst (key : GroupKey) :
    (assembleGroup key (keyGroup parts key) nowMs graceMs).1
      = wholesOf parts key ++ releasedOf parts nowMs graceMs key := by
  unfold assembleGroup releasedOf
  dsimp only
  split
  next hempty =>
    rw [List.isEmpty_iff] at hempty
    rw [if_neg fun h => h.1 hempty, append_nil]
    rfl
  next hleft =>
    rw [List.isEmpty_iff] at hleft
    split
    next hexpired =>
      rw [if_pos ⟨hleft, hexpired⟩]
      rfl
    next hwaiting =>
      rw [if_neg fun h => hwaiting h.2, append_nil]
      rfl

/-- The messages of a pass: parts that stand alone, then key by key the
whole ones and what is released. -/
theorem assemble_fst :
    (assemble parts nowMs graceMs).1
      = ((slotted parts).filter fun placed => placed.part.standsAlone).map SlottedPart.single
        ++ (groupKeys (slottedFragments parts)).flatMap fun key =>
          wholesOf parts key ++ releasedOf parts nowMs graceMs key := by
  unfold assemble
  dsimp only
  rw [flatMap_map]
  exact congrArg _ (flatMap_congr fun key _ => assembleGroup_fst parts nowMs graceMs key)

inductive Assembled : AssembledSms → Prop
  | single {placed : SlottedPart} (hplaced : parts[placed.slot]? = some placed.part) :
      Assembled placed.single
  | whole {key : GroupKey} {round : Nat} (hkey : 1 < key.total)
      (hround : round < wholeCount (keyGroup parts key) key.total) :
      Assembled (wholeMessage key.sender key.total (roundOf (keyGroup parts key) key.total round))
  | released {key : GroupKey} (hkey : 1 < key.total) (hleft : leftOf parts key ≠ [])
      (hexpired : leftoversExpired (leftOf parts key) nowMs graceMs) :
      Assembled (releasedMessage key.sender key.total (leftOf parts key))

theorem mem_assemble (h : message ∈ (assemble parts nowMs graceMs).1) :
    Assembled parts nowMs graceMs message := by
  rw [assemble_fst, mem_append] at h
  rcases h with hsingle | hgroup
  · obtain ⟨placed, hplaced, rfl⟩ := mem_map.mp hsingle
    exact .single ((mem_slotted parts).mp (mem_filter.mp hplaced).1)
  · obtain ⟨key, hkey, hmessage⟩ := mem_flatMap.mp hgroup
    have htotal := total_of_mem_groupKeys parts hkey
    rcases mem_append.mp hmessage with hwhole | hreleased
    · obtain ⟨round, hround, rfl⟩ := mem_map.mp hwhole
      exact .whole htotal (mem_range.mp hround)
    · unfold releasedOf at hreleased
      split at hreleased
      next hwhy =>
        obtain rfl := mem_singleton.mp hreleased
        exact .released htotal hwhy.1 hwhy.2
      · exact absurd hreleased not_mem_nil

theorem whole_mem_assemble (hkey : 0 < key.total)
    (hround : round < wholeCount (keyGroup parts key) key.total) :
    wholeMessage key.sender key.total (roundOf (keyGroup parts key) key.total round)
      ∈ (assemble parts nowMs graceMs).1 := by
  have hfirst : 1 ∈ range' 1 key.total := mem_range'_1.mpr (by omega)
  obtain ⟨placed, hread, -⟩ := queue_round hround hfirst
  obtain ⟨hmem, hplaced⟩ :=
    mem_filter.mp (mem_queue.mp (mem_of_getElem? hread)).1
  have hkeys : key ∈ groupKeys (slottedFragments parts) :=
    of_decide_eq_true hplaced ▸ mem_groupKeys hmem
  rw [assemble_fst]
  refine mem_append_right _ (mem_flatMap.mpr ⟨key, hkeys, mem_append_left _ ?_⟩)
  exact mem_map_of_mem (mem_range.mpr hround)

/-! ## The parts of a message -/

def sourceParts (message : AssembledSms) : List ConcatPart :=
  message.sources.filterMap fun source => parts[source]?

theorem parts_at_slots {placed : List SlottedPart}
    (h : ∀ entry ∈ placed, parts[entry.slot]? = some entry.part) :
    ((placed.map SlottedPart.slot).filterMap fun source => parts[source]?)
      = placed.map SlottedPart.part := by
  rw [filterMap_map, ← filterMap_eq_map]
  exact filterMap_congr fun entry hentry => h entry hentry

theorem sourceParts_whole :
    sourceParts parts (wholeMessage key.sender key.total
        (roundOf (keyGroup parts key) key.total round))
      = (roundOf (keyGroup parts key) key.total round).map SlottedPart.part :=
  parts_at_slots parts fun _ hentry => ((mem_keyGroup parts).mp (mem_group_of_mem_roundOf hentry)).1

theorem sourceParts_released :
    sourceParts parts (releasedMessage key.sender key.total (leftOf parts key))
      = (leftOf parts key).map SlottedPart.part := by
  exact parts_at_slots parts fun _ hentry =>
    ((mem_keyGroup parts).mp (mem_group_of_mem_leftovers hentry)).1

structure IsWhole (key : GroupKey) (message : AssembledSms) : Prop where
  keys : ∀ part ∈ sourceParts parts message, part.key = key
  seqs : (sourceParts parts message).map ConcatPart.seq = List.range' 1 key.total
  body : message.body = String.join ((sourceParts parts message).map ConcatPart.body)

/-- Parts of one key with the others marked as missing, the newest of them
older than the grace period. -/
structure IsReleased (key : GroupKey) (message : AssembledSms) : Prop where
  keys : ∀ part ∈ sourceParts parts message, part.key = key
  missing : message.missing = (List.range' 1 key.total).filter fun seq =>
    ∀ part ∈ sourceParts parts message, part.seq ≠ seq
  markers : ∀ seq ∈ message.missing,
    (missingMarker seq key.total).toList <:+: message.body.toList
  expired : ∃ newest, (∃ part ∈ sourceParts parts message, part.receivedAt = some newest)
    ∧ (∀ part ∈ sourceParts parts message, ∀ stamp, part.receivedAt = some stamp →
      stamp ≤ newest)
    ∧ graceMs < nowMs - newest

theorem isWhole_round (hround : round < wholeCount (keyGroup parts key) key.total) :
    IsWhole parts key (wholeMessage key.sender key.total
      (roundOf (keyGroup parts key) key.total round)) where
  keys part hpart := by
    rw [sourceParts_whole] at hpart
    obtain ⟨placed, hplaced, rfl⟩ := mem_map.mp hpart
    exact ((mem_keyGroup parts).mp (mem_group_of_mem_roundOf hplaced)).2.2
  seqs := by
    rw [sourceParts_whole, map_map]
    exact seqs_roundOf hround
  body := by
    rw [sourceParts_whole, map_map]
    rfl

theorem leftoversExpired_spec {left : List SlottedPart} (hgrace : -2 ^ 63 ≤ graceMs)
    (h : leftoversExpired left nowMs graceMs) :
    ∃ newest, (∃ placed ∈ left, placed.part.receivedAt = some newest)
      ∧ (∀ placed ∈ left, ∀ stamp, placed.part.receivedAt = some stamp → stamp ≤ newest)
      ∧ graceMs < nowMs - newest := by
  obtain ⟨newest, hmax, hold⟩ := (Option.any_eq_true _ _).mp h
  obtain ⟨hmem, hgreatest⟩ := List.max?_eq_some_iff.mp hmax
  have hold : saturatingSub nowMs newest > graceMs := of_decide_eq_true hold
  refine ⟨newest, mem_filterMap.mp hmem, fun placed hplaced stamp hstamp => ?_, ?_⟩
  · exact hgreatest stamp (mem_filterMap.mpr ⟨placed, hplaced, hstamp⟩)
  · unfold saturatingSub at hold
    omega

theorem isReleased_left (hgrace : -2 ^ 63 ≤ graceMs)
    (hexpired : leftoversExpired (leftOf parts key) nowMs graceMs) :
    IsReleased parts nowMs graceMs key
      (releasedMessage key.sender key.total (leftOf parts key)) where
  keys part hpart := by
    rw [sourceParts_released] at hpart
    obtain ⟨placed, hplaced, rfl⟩ := mem_map.mp hpart
    exact ((mem_keyGroup parts).mp (mem_group_of_mem_leftovers hplaced)).2.2
  missing := by
    rw [sourceParts_released, releasedMessage_eq]
    simp only [mem_map, forall_exists_index, and_imp, forall_apply_eq_imp_iff₂]
  markers seq hseq := by
    rw [releasedMessage_eq] at hseq ⊢
    obtain ⟨hrange, hnone⟩ := mem_filter.mp hseq
    have hpiece : releasedPiece (leftOf parts key) key.total seq = missingMarker seq key.total := by
      unfold releasedPiece
      rw [List.find?_eq_none.mpr fun placed hplaced => by
        simpa using of_decide_eq_true hnone placed hplaced]
    rw [← hpiece]
    exact infix_join (mem_map_of_mem hrange)
  expired := by
    rw [sourceParts_released]
    obtain ⟨newest, ⟨placed, hplaced, hstamp⟩, hgreatest, hold⟩ :=
      leftoversExpired_spec nowMs graceMs hgrace hexpired
    refine ⟨newest, ⟨_, mem_map_of_mem hplaced, hstamp⟩, fun part hpart stamp hstamp => ?_, hold⟩
    obtain ⟨other, hother, rfl⟩ := mem_map.mp hpart
    exact hgreatest other hother stamp hstamp

theorem missing_released (hkey : 1 < key.total) :
    (releasedMessage key.sender key.total (leftOf parts key)).missing ≠ [] := by
  obtain ⟨seq, hseq, hnone⟩ :=
    leftovers_miss (keyGroup parts key) (zero_lt_of_lt hkey)
  rw [releasedMessage_eq]
  exact ne_nil_of_mem (mem_filter.mpr ⟨hseq, decide_eq_true hnone⟩)

theorem Assembled.sources_ne_nil
    (h : Assembled parts nowMs graceMs message) : message.sources ≠ [] := by
  cases h with
  | single hplaced => exact cons_ne_nil _ _
  | whole hkey hround =>
    have hseqs := congrArg List.length (seqs_roundOf hround)
    rw [length_map, length_range'] at hseqs
    refine ne_nil_of_length_pos ?_
    rw [wholeMessage, length_map, hseqs]
    exact zero_lt_of_lt hkey
  | released hkey hleft hexpired => exact fun hnil => hleft (map_eq_nil_iff.mp hnil)

/-! ## How many whole messages a key has -/

def wholeMessagesOf (key : GroupKey) : List AssembledSms :=
  (assemble parts nowMs graceMs).1.filter fun message =>
    1 < message.parts ∧ message.missing = []
      ∧ ∀ part ∈ sourceParts parts message, part.key = key

theorem wholeMessagesOf_eq (key : GroupKey) :
    wholeMessagesOf parts nowMs graceMs key
      = if key ∈ groupKeys (slottedFragments parts) then wholesOf parts key else [] := by
  rw [wholeMessagesOf, assemble_fst]
  generalize hq : (fun message : AssembledSms => decide (1 < message.parts ∧ message.missing = []
    ∧ ∀ part ∈ sourceParts parts message, part.key = key)) = q
  have hwhole : ∀ message, q message ↔ 1 < message.parts ∧ message.missing = []
      ∧ ∀ part ∈ sourceParts parts message, part.key = key := fun message => by simp [← hq]
  have hgroup : ∀ other ∈ groupKeys (slottedFragments parts),
      (wholesOf parts other ++ releasedOf parts nowMs graceMs other).filter q
        = if other = key then wholesOf parts other else [] := by
    intro other hother
    have htotal := total_of_mem_groupKeys parts hother
    have hreleased : (releasedOf parts nowMs graceMs other).filter q = [] := by
      refine filter_eq_nil_iff.mpr fun message hmessage hkept => ?_
      unfold releasedOf at hmessage
      split at hmessage
      · obtain rfl := mem_singleton.mp hmessage
        exact missing_released parts htotal ((hwhole _).mp hkept).2.1
      · exact not_mem_nil hmessage
    rw [filter_append, hreleased, append_nil]
    split
    next heq =>
      subst heq
      refine filter_eq_self.mpr fun message hmessage => ?_
      obtain ⟨round, hround, rfl⟩ := mem_map.mp hmessage
      exact (hwhole _).mpr ⟨htotal, rfl, (isWhole_round parts (mem_range.mp hround)).keys⟩
    next hne =>
      refine filter_eq_nil_iff.mpr fun message hmessage hkept => ?_
      obtain ⟨round, hround, rfl⟩ := mem_map.mp hmessage
      -- a round has parts, and they have their own key
      have hround := isWhole_round parts (mem_range.mp hround)
      have hlength := congrArg List.length hround.seqs
      rw [length_map, length_range'] at hlength
      obtain ⟨part, hpart⟩ := exists_mem_of_length_pos
        (lt_of_lt_of_eq (zero_lt_of_lt htotal) hlength.symm)
      exact hne ((hround.keys part hpart).symm.trans (((hwhole _).mp hkept).2.2 part hpart))
  have hsingles : (((slotted parts).filter fun placed => placed.part.standsAlone).map
      SlottedPart.single).filter q = [] := by
    refine filter_eq_nil_iff.mpr fun message hmessage hkept => ?_
    obtain ⟨placed, -, rfl⟩ := mem_map.mp hmessage
    exact absurd ((hwhole _).mp hkept).1 (lt_irrefl 1)
  rw [filter_append, hsingles, nil_append, filter_flatMap, flatMap_congr hgroup,
    flatMap_single_key key _ (nodup_groupKeys _)]

/-- What a queue holds can be counted among the parts: one with the key and
a number of it is a fragment. -/
theorem countP_queue (hkey : 1 < key.total) (hseq : seq ∈ range' 1 key.total)
    (p : SlottedPart → Prop) [DecidablePred p] :
    ((queue (keyGroup parts key) seq).countP fun placed => p placed)
      = (slotted parts).countP fun placed =>
        placed.part.key = key ∧ placed.part.seq = seq ∧ p placed := by
  rw [queue, (perm_insertionSort _ _).countP_eq, countP_filter, keyGroup, groupOf, countP_filter,
    slottedFragments, countP_filter]
  refine countP_congr fun placed _ => ?_
  rw [mem_range'_1] at hseq
  have hfragment : placed.part.key = key ∧ placed.part.seq = seq →
      placed.part.standsAlone = false := by
    rintro ⟨hpart, rfl⟩
    have htotal : placed.part.total = key.total := congrArg GroupKey.total hpart
    unfold ConcatPart.standsAlone
    simp only [Bool.or_eq_false_iff, decide_eq_false_iff_not, beq_eq_false_iff_ne]
    omega
  simp only [Bool.and_eq_true, Bool.not_eq_true', decide_eq_true_eq]
  constructor
  · rintro ⟨⟨⟨hp, hpart⟩, hsame⟩, -⟩
    exact ⟨hsame, hpart, hp⟩
  · rintro ⟨hsame, hpart, hp⟩
    exact ⟨⟨⟨hp, hpart⟩, hsame⟩, hfragment ⟨hsame, hpart⟩⟩

theorem length_queue_keyGroup (hkey : 1 < key.total) (hseq : seq ∈ range' 1 key.total) :
    (queue (keyGroup parts key) seq).length
      = parts.countP fun part => part.key = key ∧ part.seq = seq := by
  have hcount := countP_queue parts hkey hseq fun _ => True
  simp only [and_true, decide_true, countP_true] at hcount
  conv_rhs => rw [← parts_slotted parts, countP_map]
  exact hcount

theorem length_wholeMessagesOf (hkey : 1 < key.total) :
    (∀ seq ∈ range' 1 key.total, (wholeMessagesOf parts nowMs graceMs key).length
        ≤ parts.countP fun part => part.key = key ∧ part.seq = seq)
      ∧ ∃ seq ∈ range' 1 key.total, (wholeMessagesOf parts nowMs graceMs key).length
        = parts.countP fun part => part.key = key ∧ part.seq = seq := by
  obtain ⟨hleast, seq, hseq, hlength⟩ :=
    wholeCount_spec (keyGroup parts key) (zero_lt_of_lt hkey)
  have hcount : (wholeMessagesOf parts nowMs graceMs key).length
      = wholeCount (keyGroup parts key) key.total := by
    rw [wholeMessagesOf_eq]
    split
    · rw [wholesOf, length_map, length_range]
    next hnone =>
      -- without a fragment of the key every queue is empty
      have hgroup : keyGroup parts key = [] := by
        refine filter_eq_nil_iff.mpr fun placed hplaced hsame => hnone ?_
        exact of_decide_eq_true hsame ▸ mem_groupKeys hplaced
      rw [← hlength, hgroup]
      rfl
  refine ⟨fun seq hseq => ?_, seq, hseq, ?_⟩
  · rw [hcount, ← length_queue_keyGroup parts hkey hseq]
    exact hleast seq hseq
  · rw [hcount, ← length_queue_keyGroup parts hkey hseq, hlength]

end

/-! ## A pass -/

/-- Every position is accounted for once; whole messages are the parts of a
key in order, as many as the counts allow; the others have a marker for each
part they miss, and come out only after the grace period, an `i64`. -/
theorem assemble_reassembles (parts : List ConcatPart) (nowMs graceMs : Int)
    (hgrace : -2 ^ 63 ≤ graceMs) :
    (accounted (assemble parts nowMs graceMs)).Perm (List.range parts.length)
      ∧ (∀ message ∈ (assemble parts nowMs graceMs).1, 1 < message.parts → message.missing = [] →
        ∃ key, IsWhole parts key message)
      ∧ (∀ key : GroupKey, 1 < key.total →
        (∀ seq ∈ range' 1 key.total, (wholeMessagesOf parts nowMs graceMs key).length
            ≤ parts.countP fun part => part.key = key ∧ part.seq = seq)
          ∧ ∃ seq ∈ range' 1 key.total, (wholeMessagesOf parts nowMs graceMs key).length
            = parts.countP fun part => part.key = key ∧ part.seq = seq)
      ∧ ∀ message ∈ (assemble parts nowMs graceMs).1, message.missing ≠ [] →
        ∃ key, IsReleased parts nowMs graceMs key message := by
  refine ⟨assemble_partition parts nowMs graceMs, fun message hmessage hparts hmissing => ?_,
    fun key hkey => length_wholeMessagesOf parts nowMs graceMs hkey,
    fun message hmessage hmissing => ?_⟩
  · cases mem_assemble parts nowMs graceMs hmessage with
    | single hplaced => exact absurd hparts (lt_irrefl 1)
    | whole hkey hround => exact ⟨_, isWhole_round parts hround⟩
    | released hkey hleft hexpired => exact absurd hmissing (missing_released parts hkey)
  · cases mem_assemble parts nowMs graceMs hmessage with
    | single | whole => exact absurd rfl hmissing
    | released hkey hleft hexpired => exact ⟨_, isReleased_left parts nowMs graceMs hgrace hexpired⟩

def helloParts : List ConcatPart :=
  [⟨"10086", 7, 2, 2, "lo", some 2000⟩, ⟨"10086", 7, 2, 1, "hel", some 1000⟩]

theorem hello_reassembled : ∃ key, IsWhole helloParts key ⟨"10086", "hello", 2, [1, 0], []⟩ :=
  (assemble_reassembles helloParts 3000 fragmentGraceMs (by decide)).2.1
    ⟨"10086", "hello", 2, [1, 0], []⟩ (by decide) (by decide) rfl

end VodogeEdge
