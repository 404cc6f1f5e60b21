import VodogeEdge.InboxReassembly
import VodogeEdge.InboxSettle

/-!
# No slot is lost or leaked

The slots of a pass are those already ours, those of its ready messages
and those that wait, each once (`settleInbound_custody`). A ready message
names, in its order, the slots and fingerprints of the very fragments
`assemble` took its text from.
-/

namespace VodogeEdge

open List

section
variable (fragments : List InboundFragment) (seen : List Bool) (now : Int)

def sourceFragments (message : AssembledSms) : List InboundFragment :=
  fragmentsAt fragments seen message.sources

structure Faithful (message : SettledMessage) : Prop where
  parts : sourceParts ((newFragments fragments seen).map InboundFragment.part) message.message
    = (sourceFragments fragments seen message.message).map InboundFragment.part
  complete : (sourceFragments fragments seen message.message).length
    = message.message.sources.length
  slots : message.slots
    = (sourceFragments fragments seen message.message).map InboundFragment.slot
  fingerprints : message.fingerprints
    = (sourceFragments fragments seen message.message).map InboundFragment.fingerprint
  encoding : ∃ first rest, sourceFragments fragments seen message.message = first :: rest
    ∧ message.encoding = first.encoding

theorem faithful_ready {message : SettledMessage}
    (h : message ∈ (settleInbound fragments seen now).ready) : Faithful fragments seen message := by
  obtain ⟨assembled, hassembled, rfl⟩ := mem_map.mp h
  have hrange : ∀ position ∈ assembled.sources,
      position < (newFragments fragments seen).length := fun position hposition =>
    mem_range.mp ((sources_perm fragments seen now).subset
      (mem_append_left _ (mem_flatMap.mpr ⟨assembled, hassembled, hposition⟩)))
  have hread := map_fragmentsAt fragments seen hrange
  refine ⟨?_, ?_, ?_, ?_, ?_⟩
  · unfold sourceParts sourceFragments fragmentsAt
    rw [map_filterMap]
    refine filterMap_congr fun source _ => ?_
    rw [getElem?_map]
  · have hlength := congrArg List.length hread
    rw [length_map, length_map] at hlength
    exact hlength.symm
  · exact (map_filterMap ..).symm
  · exact (map_filterMap ..).symm
  · -- the first source is there, so the default encoding is not used
    have hnonempty := (mem_assemble _ _ _ hassembled).sources_ne_nil
    obtain ⟨source, rest, hsources⟩ := exists_cons_of_ne_nil hnonempty
    have hlt := hrange source (by rw [hsources]; exact .head _)
    obtain ⟨first, hfirst⟩ : ∃ first, (newFragments fragments seen)[source]? = some first :=
      ⟨_, getElem?_eq_getElem hlt⟩
    refine ⟨first, fragmentsAt fragments seen rest, ?_, ?_⟩
    · unfold sourceFragments settled fragmentsAt
      rw [hsources, filterMap_cons, hfirst]
    · unfold settled
      rw [hsources, List.head?_cons, Option.bind_some, hfirst]
      rfl

/-- Already ours, ready and waiting are the slots of the pass, each once; what
is deletable is not waiting; ready messages are faithful to their fragments. -/
theorem settleInbound_custody (hslots : (fragments.map InboundFragment.slot).Nodup) :
    let settlement := settleInbound fragments seen now
    let waiting := (waitingFragments fragments seen now).map InboundFragment.slot
    (settlement.alreadyOurs ++ settlement.ready.flatMap SettledMessage.slots ++ waiting).Nodup
      ∧ (∀ slot, slot ∈ settlement.alreadyOurs ++ settlement.ready.flatMap SettledMessage.slots
          ++ waiting ↔ slot ∈ fragments.map InboundFragment.slot)
      ∧ (∀ slot, slot ∈ settlement.deletable
        ↔ slot ∈ settlement.alreadyOurs ∨ ∃ message ∈ settlement.ready, slot ∈ message.slots)
      ∧ (∀ slot ∈ waiting, slot ∉ settlement.deletable)
      ∧ settlement.pending = waiting.length
      ∧ ∀ message ∈ settlement.ready, Faithful fragments seen message := by
  intro settlement waiting
  have hperm : (settlement.alreadyOurs ++ settlement.ready.flatMap SettledMessage.slots
      ++ waiting).Perm (fragments.map InboundFragment.slot) := by
    have hcustody := (custody_perm fragments seen now).map InboundFragment.slot
    rwa [map_append, map_append, ← readySlots_eq, ← append_assoc] at hcustody
  have hnodup := hperm.nodup_iff.mpr hslots
  have hdeletable : ∀ slot, slot ∈ settlement.deletable
      ↔ slot ∈ settlement.alreadyOurs ∨ ∃ message ∈ settlement.ready, slot ∈ message.slots := by
    intro slot
    rw [mem_deletable, mem_flatMap]
  refine ⟨hnodup, fun slot => hperm.mem_iff, hdeletable, fun slot hwaiting hgone => ?_, ?_,
    fun message hmessage => faithful_ready fragments seen now hmessage⟩
  · obtain ⟨-, -, hapart⟩ := nodup_append.mp hnodup
    rw [mem_deletable, ← mem_append] at hgone
    exact hapart slot hgone slot hwaiting rfl
  · rw [length_map, length_waitingFragments]

end

/-- A part that waits for its sibling, next to one that is already ours. -/
def waitingPass : List InboundFragment :=
  [⟨4, "gsm7", "a", ⟨"10086", 7, 2, 1, "hel", some 1000⟩⟩,
    ⟨6, "gsm7", "b", ⟨"10010", 0, 1, 1, "hi", some 900⟩⟩]

theorem waitingPass_custody : 4 ∉ (settleInbound waitingPass [false, true] 2000).deletable :=
  (settleInbound_custody waitingPass [false, true] 2000 (by decide)).2.2.2.1 4 (by decide)

end VodogeEdge
