import Mathlib.Data.List.Sort
import VodogeEdge.Partition
import VodogeEdge.Word

/-!
# Reassembling long messages

`assemble` of `edge-core`: fragments are grouped by sender, reference and
count, paired off oldest first into whole messages, and what is left over
waits for its siblings or, after the grace period, is released with
markers in its gaps.

`assemble_partition` is the accounting every later result rests on: each
position goes into one message or stays pending.
-/

namespace VodogeEdge

open List

def fragmentGraceMs : Int := 24 * 60 * 60 * 1000

structure ConcatPart where
  sender : String
  refId : Nat
  total : Nat
  seq : Nat
  body : String
  receivedAt : Option Int

structure AssembledSms where
  sender : String
  body : String
  parts : Nat
  sources : List Nat
  missing : List Nat
deriving DecidableEq

/-- A part and its position in the slice handed to `assemble`. -/
structure SlottedPart where
  slot : Nat
  part : ConcatPart

structure GroupKey where
  sender : String
  refId : Nat
  total : Nat
deriving DecidableEq

def GroupKey.le (a b : GroupKey) : Bool :=
  a.sender < b.sender || (a.sender == b.sender
    && (a.refId < b.refId || (a.refId == b.refId && a.total ≤ b.total)))

/-- Not a fragment of anything: taken as a whole message. -/
def ConcatPart.standsAlone (part : ConcatPart) : Bool :=
  part.total ≤ 1 || part.seq == 0 || part.seq > part.total

namespace SlottedPart

def key (placed : SlottedPart) : GroupKey :=
  ⟨placed.part.sender, placed.part.refId, placed.part.total⟩

def single (placed : SlottedPart) : AssembledSms :=
  ⟨placed.part.sender, placed.part.body, 1, [placed.slot], []⟩

/-- The order of the queues, by `(received_at, slot)`; no timestamp comes
first. -/
def notAfter (a b : SlottedPart) : Bool :=
  match a.part.receivedAt, b.part.receivedAt with
  | none, none => a.slot ≤ b.slot
  | none, some _ => true
  | some _, none => false
  | some s, some t => s < t || (s == t && a.slot ≤ b.slot)

end SlottedPart

def missingMarker (seq total : Nat) : String :=
  "[missing part " ++ toString seq ++ " of " ++ toString total ++ "]"

/-! ## One group -/

def queue (group : List SlottedPart) (seq : Nat) : List SlottedPart :=
  (group.filter fun placed => placed.part.seq = seq).insertionSort
    fun a b => a.notAfter b

/-- The queues of `1..=total`; no other sequence number is in a group. -/
def queues (group : List SlottedPart) (total : Nat) : List (List SlottedPart) :=
  (List.range' 1 total).map (queue group)

def wholeCount (group : List SlottedPart) (total : Nat) : Nat :=
  ((queues group total).map List.length).min?.getD 0

def roundOf (group : List SlottedPart) (total round : Nat) : List SlottedPart :=
  (queues group total).filterMap fun queue => queue[round]?

def wholeMessage (sender : String) (total : Nat) (round : List SlottedPart) : AssembledSms :=
  ⟨sender, String.join (round.map fun placed => placed.part.body), total,
    round.map SlottedPart.slot, []⟩

def leftovers (group : List SlottedPart) (total : Nat) : List SlottedPart :=
  ((queues group total).flatMap fun queue => queue.drop (wholeCount group total)).insertionSort
    fun a b => a.slot ≤ b.slot

/-- The newest leftover has a stamp older than the grace period. -/
def leftoversExpired (left : List SlottedPart) (nowMs graceMs : Int) : Bool :=
  (left.filterMap fun placed => placed.part.receivedAt).max?.any fun stamp =>
    saturatingSub nowMs stamp > graceMs

/-- One step of the release loop: the text and the gaps so far. -/
def releasePart (left : List SlottedPart) (total : Nat) (soFar : String × List Nat)
    (seq : Nat) : String × List Nat :=
  match left.find? fun placed => placed.part.seq = seq with
  | some placed => (soFar.1 ++ placed.part.body, soFar.2)
  | none => (soFar.1 ++ missingMarker seq total, soFar.2 ++ [seq])

def releasedMessage (sender : String) (total : Nat) (left : List SlottedPart) : AssembledSms :=
  let (body, missing) := (List.range' 1 total).foldl (releasePart left total) ("", [])
  ⟨sender, body, total, left.map SlottedPart.slot, missing⟩

/-- The messages of a group, and the positions that stay pending. -/
def assembleGroup (key : GroupKey) (group : List SlottedPart) (nowMs graceMs : Int) :
    List AssembledSms × List Nat :=
  let whole := (List.range (wholeCount group key.total)).map fun round =>
    wholeMessage key.sender key.total (roundOf group key.total round)
  let left := leftovers group key.total
  if left.isEmpty then (whole, [])
  else if leftoversExpired left nowMs graceMs then
    (whole ++ [releasedMessage key.sender key.total left], [])
  else (whole, left.map SlottedPart.slot)

/-! ## A whole pass -/

def slotted (parts : List ConcatPart) : List SlottedPart :=
  parts.zipIdx.map fun (part, slot) => ⟨slot, part⟩

variable (parts : List ConcatPart) {group : List SlottedPart} {total : Nat}

theorem slots_slotted : (slotted parts).map SlottedPart.slot = List.range parts.length := by
  rw [slotted, map_map, range_eq_range']
  exact zipIdx_map_snd 0 parts

theorem parts_slotted : (slotted parts).map SlottedPart.part = parts := by
  rw [slotted, map_map]
  exact zipIdx_map_fst 0 parts

/-- The keys of the groups, in the order a `BTreeMap` iterates them. -/
def groupKeys (fragments : List SlottedPart) : List GroupKey :=
  (fragments.map SlottedPart.key).dedup.insertionSort fun a b => a.le b

def groupOf (fragments : List SlottedPart) (key : GroupKey) : List SlottedPart :=
  fragments.filter fun placed => placed.key = key

/-- Groups fragments into whole messages; the second list is what should
be left on the module. -/
def assemble (parts : List ConcatPart) (nowMs graceMs : Int) : List AssembledSms × List Nat :=
  let placed := slotted parts
  let singles := placed.filter fun placed => placed.part.standsAlone
  let fragments := placed.filter fun placed => !placed.part.standsAlone
  let groups := (groupKeys fragments).map fun key =>
    assembleGroup key (groupOf fragments key) nowMs graceMs
  (singles.map SlottedPart.single ++ groups.flatMap Prod.fst, groups.flatMap Prod.snd)

/-! ## Nothing is lost -/

def accounted (result : List AssembledSms × List Nat) : List Nat :=
  result.1.flatMap AssembledSms.sources ++ result.2

theorem queues_perm (h : ∀ placed ∈ group, 1 ≤ placed.part.seq ∧ placed.part.seq ≤ total) :
    (queues group total).flatten.Perm group := by
  have hsorted : ((range' 1 total).flatMap (queue group)).Perm
      ((range' 1 total).flatMap fun seq => group.filter fun placed => placed.part.seq = seq) :=
    List.Perm.flatMap_left _ fun seq _ => perm_insertionSort _ _
  have hseqs : ∀ placed ∈ group, placed.part.seq ∈ range' 1 total := by
    intro placed hplaced
    obtain ⟨hpos, hle⟩ := h placed hplaced
    rw [mem_range'_1]
    omega
  exact hsorted.trans (flatMap_filter_perm _ nodup_range' hseqs)

theorem rounds_leftovers_perm
    (h : ∀ placed ∈ group, 1 ≤ placed.part.seq ∧ placed.part.seq ≤ total) :
    (((List.range (wholeCount group total)).flatMap (roundOf group total))
      ++ leftovers group total).Perm group := by
  have hrounds := rounds_perm (queues group total) (wholeCount group total)
  have hleft : (leftovers group total).Perm
      ((queues group total).flatMap fun queue => queue.drop (wholeCount group total)) :=
    perm_insertionSort _ _
  exact ((hrounds.append hleft).trans (take_drop_perm _ _)).trans (queues_perm h)

theorem accounted_assembleGroup {key : GroupKey}
    (h : ∀ placed ∈ group, 1 ≤ placed.part.seq ∧ placed.part.seq ≤ key.total)
    (nowMs graceMs : Int) :
    (accounted (assembleGroup key group nowMs graceMs)).Perm (group.map SlottedPart.slot) := by
  have hperm := (rounds_leftovers_perm h).map SlottedPart.slot
  rw [map_append, map_flatMap] at hperm
  have hwhole : (((List.range (wholeCount group key.total)).map fun round =>
      wholeMessage key.sender key.total (roundOf group key.total round)).flatMap
        AssembledSms.sources)
      = (List.range (wholeCount group key.total)).flatMap fun round =>
        (roundOf group key.total round).map SlottedPart.slot := by
    rw [flatMap_map]
    rfl
  unfold accounted assembleGroup
  dsimp only
  split
  next hempty =>
    rw [List.isEmpty_iff] at hempty
    rw [hempty] at hperm
    rwa [hwhole]
  split
  · rwa [flatMap_append, hwhole, append_nil, flatMap_singleton]
  · rwa [hwhole]

theorem mem_groupKeys {fragments : List SlottedPart} {placed : SlottedPart}
    (h : placed ∈ fragments) : placed.key ∈ groupKeys fragments := by
  rw [groupKeys, mem_insertionSort, mem_dedup]
  exact mem_map_of_mem h

theorem nodup_groupKeys (fragments : List SlottedPart) : (groupKeys fragments).Nodup :=
  (perm_insertionSort _ _).nodup_iff.mpr (nodup_dedup _)

theorem seq_of_not_standsAlone {part : ConcatPart} (h : (!part.standsAlone)) :
    1 ≤ part.seq ∧ part.seq ≤ part.total := by
  unfold ConcatPart.standsAlone at h
  simp only [Bool.not_eq_true', Bool.or_eq_false_iff, decide_eq_false_iff_not,
    beq_eq_false_iff_ne] at h
  omega

/-- Every position goes into one message or stays pending. -/
theorem assemble_partition (nowMs graceMs : Int) :
    (accounted (assemble parts nowMs graceMs)).Perm (List.range parts.length) := by
  -- the groups account for the fragments
  have hgroups : ∀ fragments,
      (∀ placed ∈ fragments, (!placed.part.standsAlone)) →
      (((groupKeys fragments).map fun key =>
          assembleGroup key (groupOf fragments key) nowMs graceMs).flatMap accounted).Perm
        (fragments.map SlottedPart.slot) := by
    intro fragments hfragments
    rw [flatMap_map]
    have hgroup : ∀ key ∈ groupKeys fragments,
        (accounted (assembleGroup key (groupOf fragments key) nowMs graceMs)).Perm
          ((groupOf fragments key).map SlottedPart.slot) := by
      intro key _
      refine accounted_assembleGroup (fun placed hplaced => ?_) nowMs graceMs
      obtain ⟨hmem, hkey⟩ := mem_filter.mp hplaced
      have hkey : placed.key = key := of_decide_eq_true hkey
      rw [← hkey]
      exact seq_of_not_standsAlone (hfragments placed hmem)
    refine (List.Perm.flatMap_left _ hgroup).trans ?_
    rw [← map_flatMap]
    exact (flatMap_filter_perm SlottedPart.key (nodup_groupKeys fragments)
      fun placed hplaced => mem_groupKeys hplaced).map _
  have hsplit := (filter_append_perm (fun placed => placed.part.standsAlone)
    (slotted parts)).map SlottedPart.slot
  rw [map_append, slots_slotted] at hsplit
  have hfragments := hgroups ((slotted parts).filter fun placed => !placed.part.standsAlone)
    fun placed hplaced => (mem_filter.mp hplaced).2
  refine List.Perm.trans ?_ ((hfragments.append_left _).trans hsplit)
  unfold accounted assemble
  rw [flatMap_append, append_assoc]
  refine List.Perm.append ?_ ?_
  · rw [flatMap_map]
    show (((slotted parts).filter fun placed => placed.part.standsAlone).flatMap
      fun placed => [placed.slot]).Perm _
    rw [← map_eq_flatMap]
  · rw [flatMap_assoc]
    exact flatMap_append_perm _ _ _

end VodogeEdge
