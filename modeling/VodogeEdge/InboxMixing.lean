import VodogeEdge.Alignment
import VodogeEdge.InboxReassembly

/-!
# Deliveries that reuse a reference

Several deliveries with one sender, reference and count, one after the
other in time. `assemble` pairs their fragments off by their places in the
queues, and a fragment that one delivery lacks moves only its own queue
up. So a whole message can be made of two deliveries.

`unmixed_iff` says when that does not happen: every incomplete delivery is
later than every complete one, and some sequence number is missing from
all the incomplete ones.
-/

namespace VodogeEdge

open List

/-! ## The order of the queues -/

namespace SlottedPart

theorem notAfter_total (a b : SlottedPart) : a.notAfter b ∨ b.notAfter a := by
  unfold notAfter
  cases a.part.receivedAt <;> cases b.part.receivedAt <;> simp <;> omega

theorem notAfter_trans {a b c : SlottedPart} (hab : a.notAfter b)
    (hbc : b.notAfter c) : a.notAfter c := by
  unfold notAfter at *
  cases ha : a.part.receivedAt <;> cases hb : b.part.receivedAt <;>
    cases hc : c.part.receivedAt <;> simp_all <;> omega

theorem notAfter_antisymm {a b : SlottedPart} (hab : a.notAfter b)
    (hba : b.notAfter a) : a.slot = b.slot := by
  unfold notAfter at *
  cases ha : a.part.receivedAt <;> cases hb : b.part.receivedAt <;> simp_all <;> omega

instance : Std.Total fun a b : SlottedPart => a.notAfter b := ⟨notAfter_total⟩

instance : IsTrans SlottedPart fun a b => a.notAfter b := ⟨fun _ _ _ => notAfter_trans⟩

theorem not_notAfter_of_stamp_lt {a b : SlottedPart} {s t : Int} (ha : a.part.receivedAt = some s)
    (hb : b.part.receivedAt = some t) (h : t < s) : ¬a.notAfter b := by
  unfold notAfter
  rw [ha, hb]
  simp
  omega

end SlottedPart

theorem nodup_queue_slots (parts : List ConcatPart) (key : GroupKey) (seq : Nat) :
    ((queue (keyGroup parts key) seq).map SlottedPart.slot).Nodup := by
  have hslots : ((slotted parts).map SlottedPart.slot).Nodup :=
    slots_slotted parts ▸ nodup_range
  have hsublist : ((keyGroup parts key).filter fun placed => placed.part.seq = seq).Sublist
      (slotted parts) :=
    filter_sublist.trans (filter_sublist.trans filter_sublist)
  exact ((perm_insertionSort _ _).map _).nodup_iff.mpr (hslots.sublist (hsublist.map _))

/-! ## Deliveries -/

/-- A fragment and the delivery it came with; deliveries are numbered in
the order of time. -/
structure DeliveredPart where
  part : ConcatPart
  delivery : Nat

def ConcatPart.stampedBefore (part other : ConcatPart) : Bool :=
  part.receivedAt.any fun stamp => other.receivedAt.any fun later => stamp < later

/-- Fragments of one key, at most one to a sequence number of a delivery,
stamped, and the deliveries apart in time. -/
structure Deliveries (key : GroupKey) (arrived : List DeliveredPart) : Prop where
  fragments : ∀ entry ∈ arrived, entry.part.key = key ∧ entry.part.standsAlone = false
  once : (arrived.map fun entry => (entry.delivery, entry.part.seq)).Nodup
  stamped : ∀ entry ∈ arrived, entry.part.receivedAt ≠ none
  apart : ∀ entry ∈ arrived, ∀ other ∈ arrived, entry.delivery < other.delivery →
    entry.part.stampedBefore other.part

section
variable (key : GroupKey) (arrived : List DeliveredPart)

def deliveredParts : List ConcatPart := arrived.map DeliveredPart.part

def CompleteDelivery (n : Nat) : Prop :=
  ∀ seq ∈ List.range' 1 key.total, ∃ entry ∈ arrived, entry.delivery = n ∧ entry.part.seq = seq

instance : DecidablePred (CompleteDelivery key arrived) := fun n =>
  inferInstanceAs (Decidable (∀ seq ∈ List.range' 1 key.total,
    ∃ entry ∈ arrived, entry.delivery = n ∧ entry.part.seq = seq))

/-- Incomplete deliveries come after the complete ones, and all of them
lack some one sequence number. -/
structure IncompleteLast : Prop where
  last : ∀ entry ∈ arrived, ∀ other ∈ arrived, ¬CompleteDelivery key arrived entry.delivery →
    CompleteDelivery key arrived other.delivery → other.delivery < entry.delivery
  lacking : ∃ seq ∈ List.range' 1 key.total, ∀ entry ∈ arrived,
    ¬CompleteDelivery key arrived entry.delivery → entry.part.seq ≠ seq

/-- Every whole message has its fragments from one delivery. -/
def Unmixed (nowMs graceMs : Int) : Prop :=
  ∀ message ∈ (assemble (deliveredParts arrived) nowMs graceMs).1,
    1 < message.parts → message.missing = [] →
      ∃ n, ∀ source ∈ message.sources, (arrived[source]?).map DeliveredPart.delivery = some n

def deliveryOf (placed : SlottedPart) : Nat :=
  ((arrived[placed.slot]?).map DeliveredPart.delivery).getD 0

def labels (seq : Nat) : List Nat :=
  (queue (keyGroup (deliveredParts arrived) key) seq).map (deliveryOf arrived)

variable {key arrived} (h : Deliveries key arrived) {placed : SlottedPart} {seq n : Nat}
include h

theorem mem_keyGroup_delivered :
    placed ∈ keyGroup (deliveredParts arrived) key
      ↔ ∃ entry, arrived[placed.slot]? = some entry ∧ entry.part = placed.part := by
  rw [mem_keyGroup, deliveredParts, List.getElem?_map, Option.map_eq_some_iff]
  constructor
  · rintro ⟨hentry, -, -⟩
    exact hentry
  · rintro ⟨entry, hentry, hpart⟩
    obtain ⟨hkey, hfragment⟩ := h.fragments entry (mem_of_getElem? hentry)
    rw [hpart] at hkey hfragment
    exact ⟨⟨entry, hentry, hpart⟩, hfragment, hkey⟩

theorem mem_queue_delivered :
    placed ∈ queue (keyGroup (deliveredParts arrived) key) seq
      ↔ ∃ entry, arrived[placed.slot]? = some entry ∧ entry.part = placed.part
        ∧ entry.part.seq = seq := by
  rw [mem_queue, mem_keyGroup_delivered h]
  constructor
  · rintro ⟨⟨entry, hentry, hpart⟩, hseq⟩
    exact ⟨entry, hentry, hpart, hpart ▸ hseq⟩
  · rintro ⟨entry, hentry, hpart, hseq⟩
    exact ⟨⟨entry, hentry, hpart⟩, hpart ▸ hseq⟩

theorem mem_labels :
    n ∈ labels key arrived seq
      ↔ ∃ entry ∈ arrived, entry.delivery = n ∧ entry.part.seq = seq := by
  rw [labels, mem_map]
  constructor
  · rintro ⟨placed, hplaced, rfl⟩
    obtain ⟨entry, hentry, -, hseq⟩ := (mem_queue_delivered h).mp hplaced
    refine ⟨entry, mem_of_getElem? hentry, ?_, hseq⟩
    rw [deliveryOf, hentry]
    rfl
  · rintro ⟨entry, hmem, rfl, hseq⟩
    obtain ⟨slot, hslot⟩ := getElem?_of_mem hmem
    refine ⟨⟨slot, entry.part⟩, (mem_queue_delivered h).mpr ⟨entry, hslot, rfl, hseq⟩, ?_⟩
    rw [deliveryOf, hslot]
    rfl

theorem labels_sorted (seq : Nat) : (labels key arrived seq).Pairwise (· < ·) := by
  rw [labels, pairwise_map]
  have hslots : ((queue (keyGroup (deliveredParts arrived) key) seq).map SlottedPart.slot).Nodup :=
    nodup_queue_slots _ _ seq
  rw [List.Nodup, pairwise_map] at hslots
  refine List.Pairwise.imp_of_mem (fun {a b} ha hb hboth => ?_)
    ((pairwise_insertionSort _ _).and hslots)
  obtain ⟨hnotAfter, hslot⟩ := hboth
  obtain ⟨first, hfirst, hfirstPart, hfirstSeq⟩ := (mem_queue_delivered h).mp ha
  obtain ⟨second, hsecond, hsecondPart, hsecondSeq⟩ := (mem_queue_delivered h).mp hb
  have hfirstMem := mem_of_getElem? hfirst
  have hsecondMem := mem_of_getElem? hsecond
  rw [deliveryOf, hfirst, deliveryOf, hsecond]
  show first.delivery < second.delivery
  rcases lt_trichotomy first.delivery second.delivery with hlt | heq | hgt
  · exact hlt
  · -- one delivery has a sequence number once
    exfalso
    have hpairs : (arrived.map fun entry => (entry.delivery, entry.part.seq))[a.slot]?
        = (arrived.map fun entry => (entry.delivery, entry.part.seq))[b.slot]? := by
      rw [List.getElem?_map, List.getElem?_map, hfirst, hsecond, Option.map_some,
        Option.map_some, heq, hfirstSeq, hsecondSeq]
    have hlt : a.slot < (arrived.map fun entry => (entry.delivery, entry.part.seq)).length := by
      rw [length_map]
      exact (List.getElem?_eq_some_iff.mp hfirst).1
    exact hslot ((getElem?_inj hlt h.once).mp hpairs)
  · -- a later delivery has a later stamp
    exfalso
    have horder := h.apart second hsecondMem first hfirstMem hgt
    obtain ⟨earlier, hearlier, horder⟩ := (Option.any_eq_true _ _).mp horder
    obtain ⟨stamp, hstamp, horder⟩ := (Option.any_eq_true _ _).mp horder
    rw [hfirstPart] at hstamp
    rw [hsecondPart] at hearlier
    exact SlottedPart.not_notAfter_of_stamp_lt hstamp hearlier (of_decide_eq_true horder) hnotAfter

theorem inAll_labels :
    InAll (labels key arrived) (range' 1 key.total) n ↔ CompleteDelivery key arrived n :=
  forall₂_congr fun _ _ => mem_labels h

theorem seq_mem_range {entry : DeliveredPart} (hentry : entry ∈ arrived) :
    entry.part.seq ∈ List.range' 1 key.total := by
  obtain ⟨hkey, hfragment⟩ := h.fragments entry hentry
  have hseq := seq_of_not_standsAlone ((Bool.not_eq_true' _).mpr hfragment)
  have htotal : entry.part.total = key.total := congrArg GroupKey.total hkey
  rw [mem_range'_1]
  omega

theorem commonFirst_labels :
    CommonFirst (labels key arrived) (range' 1 key.total) ↔ IncompleteLast key arrived := by
  constructor
  · intro hcommon
    obtain ⟨seq, hseq, honly⟩ := hcommon.only
    refine ⟨fun entry hentry other _ hincomplete hcomplete => ?_, seq, hseq,
      fun entry hentry hincomplete heq => ?_⟩
    · exact hcommon.first entry.part.seq (seq_mem_range h hentry) entry.delivery
        ((mem_labels h).mpr ⟨entry, hentry, rfl, rfl⟩)
        (fun hall => hincomplete ((inAll_labels h).mp hall)) other.delivery
        ((inAll_labels h).mpr hcomplete)
    · exact hincomplete ((inAll_labels h).mp
        (honly entry.delivery ((mem_labels h).mpr ⟨entry, hentry, rfl, heq⟩)))
  · intro hlast
    obtain ⟨seq, hseq, hlacking⟩ := hlast.lacking
    refine ⟨fun k hk n hn hnot m hm => ?_, seq, hseq, fun n hn => ?_⟩
    · obtain ⟨entry, hentry, rfl, -⟩ := (mem_labels h).mp hn
      obtain ⟨other, hother, rfl, -⟩ := (mem_labels h).mp (hm k hk)
      exact hlast.last entry hentry other hother
        (fun hcomplete => hnot ((inAll_labels h).mpr hcomplete)) ((inAll_labels h).mp hm)
    · obtain ⟨entry, hentry, rfl, hseq⟩ := (mem_labels h).mp hn
      by_contra hnot
      exact hlacking entry hentry (fun hcomplete => hnot ((inAll_labels h).mpr hcomplete)) hseq

theorem labels_round {round : Nat}
    (hread : (queue (keyGroup (deliveredParts arrived) key) seq)[round]? = some placed) :
    (labels key arrived seq)[round]? = (arrived[placed.slot]?).map DeliveredPart.delivery := by
  obtain ⟨entry, hentry, -⟩ := (mem_queue_delivered h).mp (mem_of_getElem? hread)
  rw [labels, List.getElem?_map, hread, Option.map_some, deliveryOf, hentry]
  rfl

/-- Not mixing is dealing aligned queues out. -/
theorem unmixed_iff_aligned (hkey : 1 < key.total) (nowMs graceMs : Int) :
    Unmixed arrived nowMs graceMs
      ↔ Aligned (labels key arrived) (range' 1 key.total)
        (wholeCount (keyGroup (deliveredParts arrived) key) key.total) := by
  constructor
  · intro hunmixed round hround
    obtain ⟨n, hn⟩ := hunmixed _
      (whole_mem_assemble _ nowMs graceMs (Nat.zero_lt_of_lt hkey) hround) hkey rfl
    refine ⟨n, fun seq hseq => ?_⟩
    obtain ⟨placed, hread, -⟩ := queue_round hround hseq
    rw [labels_round h hread]
    exact hn placed.slot (mem_map_of_mem (mem_roundOf.mpr ⟨seq, hseq, hread⟩))
  · intro haligned message hmessage hparts hmissing
    cases mem_assemble _ nowMs graceMs hmessage with
    | single hplaced => exact absurd hparts (lt_irrefl 1)
    | released hother hleft hexpired => exact absurd hmissing (missing_released _ hother)
    | @whole other round hother hround =>
      -- every fragment has the one key
      have hfirst : 1 ∈ range' 1 other.total := mem_range'_1.mpr (by omega)
      obtain ⟨placed, hread, -⟩ := queue_round hround hfirst
      obtain ⟨hpart, -, hplaced⟩ := (mem_keyGroup _).mp (mem_queue.mp (mem_of_getElem? hread)).1
      rw [deliveredParts, List.getElem?_map, Option.map_eq_some_iff] at hpart
      obtain ⟨entry, hentry, hsame⟩ := hpart
      obtain rfl : other = key :=
        hplaced.symm.trans (hsame ▸ (h.fragments entry (mem_of_getElem? hentry)).1)
      obtain ⟨n, hn⟩ := haligned round hround
      refine ⟨n, fun source hsource => ?_⟩
      obtain ⟨placed, hplaced, rfl⟩ := mem_map.mp hsource
      obtain ⟨seq, hseq, hread⟩ := mem_roundOf.mp hplaced
      rw [← labels_round h hread]
      exact hn seq hseq

end

/-- Whole messages keep the deliveries apart exactly if the incomplete
ones come last and all lack some one sequence number. -/
theorem unmixed_iff (key : GroupKey) (arrived : List DeliveredPart)
    (h : Deliveries key arrived) (hkey : 1 < key.total) (nowMs graceMs : Int) :
    Unmixed arrived nowMs graceMs ↔ IncompleteLast key arrived := by
  obtain ⟨hleast, seq, hseq, hlength⟩ :=
    wholeCount_spec (keyGroup (deliveredParts arrived) key) (Nat.zero_lt_of_lt hkey)
  have hlabels : ∀ seq, (labels key arrived seq).length
      = (queue (keyGroup (deliveredParts arrived) key) seq).length := fun seq =>
    length_map _
  rw [unmixed_iff_aligned h hkey, ← commonFirst_labels h]
  exact aligned_iff (fun seq _ => labels_sorted h seq)
    (fun seq hseq => (hlabels seq).symm ▸ hleast seq hseq)
    ⟨seq, hseq, (hlabels seq).trans hlength⟩

/-! ## Two deliveries of two parts -/

def reusedKey : GroupKey := ⟨"10086", 7, 2⟩

def fragmentOfTwo (delivery seq : Nat) (body : String) (stamp : Int) : DeliveredPart :=
  ⟨⟨"10086", 7, 2, seq, body, some stamp⟩, delivery⟩

def halfLost : List DeliveredPart :=
  [fragmentOfTwo 0 1 "old one, " 1000, fragmentOfTwo 1 1 "new one, " 61000,
    fragmentOfTwo 1 2 "complete" 62000]

/-- The message takes the first half of one delivery and the second half
of the other. -/
theorem halfLost_mixed :
    Deliveries reusedKey halfLost ∧ ¬Unmixed halfLost 63000 fragmentGraceMs := by
  refine ⟨⟨by decide, by decide, by decide, by decide⟩, fun hunmixed => ?_⟩
  obtain ⟨n, hn⟩ := hunmixed ⟨"10086", "old one, complete", 2, [0, 2], []⟩ (by decide)
    (by decide) rfl
  have hfirst : some 0 = some n := hn 0 (by decide)
  have hsecond : some 1 = some n := hn 2 (by decide)
  exact absurd (hfirst.trans hsecond.symm) (by decide)

def bothWhole : List DeliveredPart :=
  fragmentOfTwo 0 2 "the end" 2000 :: halfLost

theorem bothWhole_unmixed : Unmixed bothWhole 63000 fragmentGraceMs :=
  (unmixed_iff reusedKey bothWhole ⟨by decide, by decide, by decide, by decide⟩ (by decide) 63000
    fragmentGraceMs).mpr ⟨by decide, by decide⟩

end VodogeEdge
