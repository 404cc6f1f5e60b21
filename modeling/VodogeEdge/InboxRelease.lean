import VodogeEdge.InboxMixing

/-!
# Texts that a release drops

Leftovers that have waited too long come out as one message, and all of
them are named as its sources, so all of them are deleted. The text has
one fragment for each sequence number, the first in the listing. If a
reference was used twice the leftovers can have two texts for a number,
and the second one is in no message.

Which parts are left over can be said of the parts alone: those with at
least as many parts of their key and number before them as some number of
their message has in all (`leftOf_eq`). `textKept_iff` says in these
terms when no text is lost.
-/

namespace VodogeEdge

open List

section
variable (parts : List ConcatPart) (nowMs graceMs : Int)

/-- The text of every source of a message is in its body, or another
source has the same number and text. -/
def TextKept : Prop :=
  ∀ message ∈ (assemble parts nowMs graceMs).1, ∀ source ∈ message.sources,
    ∀ part, parts[source]? = some part →
      part.body.toList <:+: message.body.toList
        ∨ ∃ twin ∈ message.sources, twin ≠ source ∧ ∃ other, parts[twin]? = some other
          ∧ other.seq = part.seq ∧ other.body = part.body

/-! ## What is left over -/

/-- How many parts of its key and number go before it: the older ones, and
of those as old the ones listed before it. -/
def rank (placed : SlottedPart) : Nat :=
  (slotted parts).countP fun other => other.part.key = placed.part.key
    ∧ other.part.seq = placed.part.seq ∧ other.slot ≠ placed.slot ∧ other.notAfter placed

/-- What no whole message takes of a key, as it is listed: the fragments
before which their number came as often as some number of the message
does in all. -/
def leftOver (key : GroupKey) : List SlottedPart :=
  (slotted parts).filter fun placed => placed.part.standsAlone = false ∧ placed.part.key = key ∧
    ∃ seq ∈ range' 1 key.total,
      (parts.countP fun part => part.key = key ∧ part.seq = seq) ≤ rank parts placed

/-- The text listed first for a number, or the marker where none is. -/
def firstText (key : GroupKey) (seq : Nat) : String :=
  match (leftOver parts key).find? fun placed => placed.part.seq = seq with
  | some placed => placed.part.body
  | none => missingMarker seq key.total

/-- Fragments of one number that are left over past the grace period have
one text. -/
def OneText : Prop :=
  ∀ key, leftoversExpired (leftOver parts key) nowMs graceMs →
    ∀ a ∈ leftOver parts key, ∀ b ∈ leftOver parts key,
      a.part.seq = b.part.seq → a.part.body = b.part.body

/-- A text that differs from the one listed first for its number is that of
another fragment left over with the number, or stands somewhere in the
texts listed first. -/
def ConflictsSpared : Prop :=
  ∀ key, leftoversExpired (leftOver parts key) nowMs graceMs →
    ∀ placed ∈ leftOver parts key, firstText parts key placed.part.seq ≠ placed.part.body →
      (∃ other ∈ leftOver parts key, other.slot ≠ placed.slot ∧
        other.part.seq = placed.part.seq ∧ other.part.body = placed.part.body) ∨
      placed.part.body.toList <:+:
        (range' 1 key.total).flatMap fun seq => (firstText parts key seq).toList

variable {parts nowMs graceMs} {key : GroupKey} {placed : SlottedPart}

theorem seq_mem_numbers (h : placed.part.standsAlone = false) :
    placed.part.seq ∈ range' 1 placed.part.total := by
  obtain ⟨hpos, hle⟩ := seq_of_not_standsAlone (by rw [h]; rfl)
  rw [mem_range'_1]
  omega

/-- In a queue, what goes before a part is what `rank` counts. -/
theorem mem_drop_queue {seq n : Nat} (h : placed ∈ queue (keyGroup parts key) seq) :
    placed ∈ (queue (keyGroup parts key) seq).drop n ↔ n ≤ rank parts placed := by
  obtain ⟨hgroup, hseq⟩ := mem_queue.mp h
  obtain ⟨-, hfragment, hkey⟩ := (mem_keyGroup parts).mp hgroup
  have htotal : placed.part.total = key.total := congrArg GroupKey.total hkey
  have hrange : seq ∈ range' 1 key.total := hseq ▸ htotal ▸ seq_mem_numbers hfragment
  have hrank : rank parts placed = (queue (keyGroup parts key) seq).countP fun other =>
      other.slot ≠ placed.slot ∧ other.notAfter placed := by
    rw [countP_queue parts (htotal ▸ total_of_not_standsAlone hfragment) hrange, rank, hkey, hseq]
  rw [hrank]
  refine mem_drop_iff_countP n h fun front back hsplit => ?_
  have hsorted : (queue (keyGroup parts key) seq).Pairwise fun a b => a.notAfter b :=
    pairwise_insertionSort _ _
  have hslots := nodup_queue_slots parts key seq
  rw [hsplit] at hsorted hslots
  rw [map_append, map_cons, nodup_append] at hslots
  refine ⟨fun other hother => decide_eq_true ⟨?_, ?_⟩, fun other hother => decide_eq_false ?_⟩
  · exact hslots.2.2 _ (mem_map_of_mem hother) _ mem_cons_self
  · exact (pairwise_append.mp hsorted).2.2 other hother placed mem_cons_self
  · rintro ⟨hne, hnot⟩
    rcases mem_cons.mp hother with rfl | hother
    · exact hne rfl
    · exact hne (SlottedPart.notAfter_antisymm hnot
        ((pairwise_cons.mp (pairwise_append.mp hsorted).2.1).1 other hother))

theorem mem_leftOf : placed ∈ leftOf parts key ↔ placed ∈ leftOver parts key := by
  rw [leftOf, mem_leftovers, leftOver, mem_filter, mem_slotted, decide_eq_true_iff]
  constructor
  · rintro ⟨seq, hseq, hdrop⟩
    have hqueue := mem_of_mem_drop hdrop
    obtain ⟨hread, hfragment, rfl⟩ := (mem_keyGroup parts).mp (mem_queue.mp hqueue).1
    have htotal : 1 < placed.part.total := total_of_not_standsAlone hfragment
    obtain ⟨least, hleast, hlength⟩ :=
      (wholeCount_spec (keyGroup parts placed.part.key) (Nat.zero_lt_of_lt htotal)).2
    refine ⟨hread, hfragment, rfl, least, hleast, ?_⟩
    rw [← length_queue_keyGroup parts htotal hleast]
    exact hlength ▸ (mem_drop_queue hqueue).mp hdrop
  · rintro ⟨hread, hfragment, rfl, seq, hseq, hrank⟩
    have htotal : 1 < placed.part.total := total_of_not_standsAlone hfragment
    have hqueue : placed ∈ queue (keyGroup parts placed.part.key) placed.part.seq :=
      mem_queue.mpr ⟨(mem_keyGroup parts).mpr ⟨hread, hfragment, rfl⟩, rfl⟩
    refine ⟨placed.part.seq, seq_mem_numbers hfragment, (mem_drop_queue hqueue).mpr ?_⟩
    refine le_trans ?_ hrank
    rw [← length_queue_keyGroup parts htotal hseq]
    exact (wholeCount_spec _ (Nat.zero_lt_of_lt htotal)).1 seq hseq

theorem part_at (h : placed ∈ leftOver parts key) : parts[placed.slot]? = some placed.part :=
  (mem_slotted parts).mp (mem_filter.mp h).1

/-- The leftovers of a key, told from the parts: both lists are in the
order of the listing. -/
theorem leftOf_eq (parts : List ConcatPart) (key : GroupKey) :
    leftOf parts key = leftOver parts key := by
  have hslotted : (slotted parts).Pairwise fun a b => a.slot < b.slot := by
    have hrange := pairwise_lt_range (n := parts.length)
    rwa [← slots_slotted, pairwise_map] at hrange
  have hne : ∀ {a b : SlottedPart}, a.slot < b.slot → a ≠ b :=
    fun hlt heq => Nat.ne_of_lt hlt (congrArg SlottedPart.slot heq)
  have hgroup : (keyGroup parts key).Nodup :=
    (hslotted.imp hne).sublist (filter_sublist.trans filter_sublist)
  have hseqs : ∀ placed ∈ keyGroup parts key,
      1 ≤ placed.part.seq ∧ placed.part.seq ≤ key.total := by
    intro placed hplaced
    obtain ⟨-, hfragment, rfl⟩ := (mem_keyGroup parts).mp hplaced
    exact seq_of_not_standsAlone (by rw [hfragment]; rfl)
  have hleft : (leftOf parts key).Nodup :=
    (nodup_append.mp ((rounds_leftovers_perm hseqs).nodup_iff.mpr hgroup)).2.1
  have hover : (leftOver parts key).Pairwise fun a b => a.slot < b.slot :=
    hslotted.sublist filter_sublist
  have hperm : (leftOf parts key).Perm (leftOver parts key) :=
    (perm_ext_iff_of_nodup hleft (hover.imp hne)).mpr fun _ => mem_leftOf
  refine hperm.eq_of_pairwise (fun a b ha hb hab hba => ?_) (pairwise_insertionSort _ _)
    (hover.imp Nat.le_of_lt)
  have hslot : a.slot = b.slot := Nat.le_antisymm hab hba
  have hpart := part_at (mem_leftOf.mp ha)
  rw [hslot, part_at hb] at hpart
  exact congrArg₂ SlottedPart.mk hslot (Option.some.inj hpart).symm

/-! ## What is released -/

theorem released_body (parts : List ConcatPart) (key : GroupKey) :
    (releasedMessage key.sender key.total (leftOver parts key)).body.toList
      = (range' 1 key.total).flatMap fun seq => (firstText parts key seq).toList := by
  rw [releasedMessage_eq, String.toList_join, flatMap_map]
  rfl

theorem sources_released (parts : List ConcatPart) (key : GroupKey) :
    (releasedMessage key.sender key.total (leftOver parts key)).sources
      = (leftOver parts key).map SlottedPart.slot := by
  rw [releasedMessage_eq]

theorem released_mem_assemble (h : placed ∈ leftOver parts key)
    (hexpired : leftoversExpired (leftOver parts key) nowMs graceMs) :
    releasedMessage key.sender key.total (leftOver parts key)
      ∈ (assemble parts nowMs graceMs).1 := by
  rw [← leftOf_eq] at h hexpired ⊢
  obtain ⟨hmem, hplaced⟩ := mem_filter.mp (mem_group_of_mem_leftovers h)
  have hkeys : key ∈ groupKeys (slottedFragments parts) :=
    of_decide_eq_true hplaced ▸ mem_groupKeys hmem
  rw [assemble_fst]
  refine mem_append_right _ (mem_flatMap.mpr ⟨key, hkeys, mem_append_right _ ?_⟩)
  rw [releasedOf, if_pos ⟨ne_nil_of_mem h, hexpired⟩]
  exact mem_singleton.mpr rfl

/-- The text of a part left over past the grace period is kept if it is
that listed first, and else if the conflict is spared. -/
theorem textKept_of_conflictsSpared (h : ConflictsSpared parts nowMs graceMs) :
    TextKept parts nowMs graceMs := by
  intro message hmessage source hsource part hpart
  cases mem_assemble _ nowMs graceMs hmessage with
  | @single placed hplaced =>
    obtain rfl := mem_singleton.mp hsource
    obtain rfl := Option.some.inj (hplaced.symm.trans hpart)
    exact .inl (infix_refl _)
  | @whole key round hkey hround =>
    obtain ⟨placed, hplaced, rfl⟩ := mem_map.mp hsource
    have hread := ((mem_keyGroup parts).mp (mem_group_of_mem_roundOf hplaced)).1
    obtain rfl := Option.some.inj (hread.symm.trans hpart)
    exact .inl (infix_join (mem_map_of_mem hplaced))
  | @released key hkey hleft hexpired =>
    rw [leftOf_eq] at hexpired hsource ⊢
    rw [sources_released] at hsource ⊢
    obtain ⟨placed, hplaced, rfl⟩ := mem_map.mp hsource
    obtain rfl := Option.some.inj ((part_at hplaced).symm.trans hpart)
    by_cases hsame : firstText parts key placed.part.seq = placed.part.body
    · obtain ⟨-, hover⟩ := mem_filter.mp hplaced
      obtain ⟨hfragment, rfl, -⟩ := of_decide_eq_true hover
      rw [releasedMessage_eq, ← hsame]
      exact .inl (infix_join (mem_map_of_mem (seq_mem_numbers hfragment)))
    · rcases h key hexpired placed hplaced hsame with ⟨twin, htwin, hne, hseq, hbody⟩ | hinfix
      · exact .inr ⟨twin.slot, mem_map_of_mem htwin, hne, twin.part, part_at htwin, hseq, hbody⟩
      · exact .inl (released_body parts key ▸ hinfix)

/-- A text listed first for its number is that of a part left over. -/
theorem OneText.conflictsSpared (h : OneText parts nowMs graceMs) :
    ConflictsSpared parts nowMs graceMs := by
  intro key hexpired placed hplaced hne
  refine absurd ?_ hne
  unfold firstText
  split
  next first hfirst =>
    have hseq : first.part.seq = placed.part.seq := by simpa using List.find?_some hfirst
    exact h key hexpired first (mem_of_find?_eq_some hfirst) placed hplaced hseq
  next hnone =>
    exact absurd (List.find?_eq_none.mp hnone placed hplaced) (by simp)

end

/-- The text of every source is kept if parts left over with one key and
number have one text; and exactly if every text in conflict is spared. -/
theorem textKept_iff (parts : List ConcatPart) (nowMs graceMs : Int) :
    (OneText parts nowMs graceMs → TextKept parts nowMs graceMs) ∧
      (TextKept parts nowMs graceMs ↔ ConflictsSpared parts nowMs graceMs) := by
  refine ⟨fun hone => textKept_of_conflictsSpared hone.conflictsSpared,
    fun h key hexpired placed hplaced _ => ?_, textKept_of_conflictsSpared⟩
  have hkept := h _ (released_mem_assemble hplaced hexpired) placed.slot
    (sources_released parts key ▸ mem_map_of_mem hplaced) placed.part (part_at hplaced)
  rw [released_body, sources_released] at hkept
  rcases hkept with hinfix | ⟨twin, htwin, hne, other, hother, hseq, hbody⟩
  · exact .inr hinfix
  · obtain ⟨entry, hentry, rfl⟩ := mem_map.mp htwin
    obtain rfl : entry.part = other := Option.some.inj ((part_at hentry).symm.trans hother)
    exact .inl ⟨entry, hentry, hne, hseq, hbody⟩

/-- Two messages used one reference, and of both only the first part
came. -/
def firstPartTwice : List ConcatPart :=
  [⟨"10086", 7, 2, 1, "meet at noon ", some 0⟩, ⟨"10086", 7, 2, 1, "call me back ", some 60000⟩]

/-- A day later both are cleared, and the second text is nowhere. -/
theorem second_text_dropped : ¬TextKept firstPartTwice 90000000 fragmentGraceMs := by
  intro h
  have hkept := h ⟨"10086", "meet at noon [missing part 2 of 2]", 2, [0, 1], [2]⟩ (by decide) 1
    (by decide) ⟨"10086", 7, 2, 1, "call me back ", some 60000⟩ rfl
  rcases hkept with hoccurs | ⟨twin, htwin, hne, other, hother, hseq, hbody⟩
  · have hletter : 'k' ∈ "call me back ".toList := by decide
    exact absurd (hoccurs.subset hletter) (by decide)
  · have htwin : twin = 0 := by
      rcases mem_cons.mp htwin with rfl | htwin
      · rfl
      · exact absurd (mem_singleton.mp htwin) hne
    subst htwin
    obtain rfl := Option.some.inj hother
    exact absurd hbody (by decide)

end VodogeEdge
