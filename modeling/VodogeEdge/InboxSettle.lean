import VodogeEdge.InboxConcat

/-!
# Settling one pass

`settle_inbound` of `edge-core` decides what one collection pass becomes:
what the books already hold may be deleted, what can be assembled is
ready to be stored, and the rest waits on the module.

The results here are about counts: the ready messages carry, for every
fingerprint, at most as many fragments as were new in the pass
(`count_readyFingerprints_le`), and everything deletable is either
already ours or carried by a ready message.
-/

namespace VodogeEdge

open List

structure InboundFragment where
  slot : Nat
  encoding : String
  fingerprint : String
  part : ConcatPart

structure SettledMessage where
  message : AssembledSms
  encoding : String
  slots : List Nat
  fingerprints : List String

structure InboundSettlement where
  ready : List SettledMessage
  alreadyOurs : List Nat
  pending : Nat

/-- `Vec::dedup`: one of each run of equal neighbours. -/
def dedupAdjacent : List Nat → List Nat
  | [] => []
  | [x] => [x]
  | x :: y :: rest => if x = y then dedupAdjacent (y :: rest) else x :: dedupAdjacent (y :: rest)

/-- Every slot whose module copy may go, once `ready` has been stored. -/
def InboundSettlement.deletable (self : InboundSettlement) : List Nat :=
  dedupAdjacent ((self.alreadyOurs ++ self.ready.flatMap SettledMessage.slots).insertionSort
    fun a b => a ≤ b)

/-- The fragments `seen` says nothing about, or says are new. -/
def newFragments : List InboundFragment → List Bool → List InboundFragment
  | [], _ => []
  | _ :: rest, true :: seen => newFragments rest seen
  | fragment :: rest, false :: seen => fragment :: newFragments rest seen
  | fragments, [] => fragments

def seenFragments : List InboundFragment → List Bool → List InboundFragment
  | [], _ => []
  | fragment :: rest, true :: seen => fragment :: seenFragments rest seen
  | _ :: rest, false :: seen => seenFragments rest seen
  | _, [] => []

def settled (fresh : List InboundFragment) (message : AssembledSms) : SettledMessage where
  message := message
  encoding := (message.sources.head?.bind fun source =>
    (fresh[source]?).map InboundFragment.encoding).getD "unknown"
  slots := message.sources.filterMap fun source => (fresh[source]?).map InboundFragment.slot
  fingerprints := message.sources.filterMap fun source =>
    (fresh[source]?).map InboundFragment.fingerprint

def settleInbound (fragments : List InboundFragment) (seen : List Bool) (now : Int) :
    InboundSettlement :=
  let fresh := newFragments fragments seen
  let (assembled, pending) := assemble (fresh.map InboundFragment.part) now fragmentGraceMs
  ⟨assembled.map (settled fresh), (seenFragments fragments seen).map InboundFragment.slot,
    pending.length⟩

def InboundSettlement.readyFingerprints (self : InboundSettlement) : List String :=
  self.ready.flatMap SettledMessage.fingerprints

/-! ## What is deletable -/

theorem mem_dedupAdjacent {slot : Nat} : ∀ {slots : List Nat},
    slot ∈ dedupAdjacent slots ↔ slot ∈ slots
  | [] => Iff.rfl
  | [x] => Iff.rfl
  | x :: y :: rest => by
    have ih : slot ∈ dedupAdjacent (y :: rest) ↔ slot ∈ y :: rest := mem_dedupAdjacent
    unfold dedupAdjacent
    split
    next heq =>
      rw [ih]
      constructor
      · exact mem_cons_of_mem x
      · intro hmem
        rcases mem_cons.mp hmem with rfl | hmem
        · exact heq ▸ mem_cons_self
        · exact hmem
    · rw [mem_cons, ih, ← mem_cons]

theorem mem_deletable {settlement : InboundSettlement} {slot : Nat} :
    slot ∈ settlement.deletable
      ↔ slot ∈ settlement.alreadyOurs ∨ slot ∈ settlement.ready.flatMap SettledMessage.slots := by
  rw [InboundSettlement.deletable, mem_dedupAdjacent, mem_insertionSort, mem_append]

/-! ## Old and new -/

theorem seen_new_perm (fragments : List InboundFragment) (seen : List Bool) :
    (seenFragments fragments seen ++ newFragments fragments seen).Perm fragments := by
  induction fragments generalizing seen with
  | nil => simp [seenFragments, newFragments]
  | cons fragment rest ih =>
    cases seen with
    | nil => simp [seenFragments, newFragments]
    | cons flag seen =>
      cases flag with
      | true => exact (ih seen).cons fragment
      | false => exact perm_middle.trans ((ih seen).cons fragment)

/-! ## What is ready and what waits -/

section
variable (fragments : List InboundFragment) (seen : List Bool) (now : Int) {slot : Nat}

def readySources : List Nat :=
  (assemble ((newFragments fragments seen).map InboundFragment.part) now fragmentGraceMs).1.flatMap
    AssembledSms.sources

def pendingSources : List Nat :=
  (assemble ((newFragments fragments seen).map InboundFragment.part) now fragmentGraceMs).2

def fragmentsAt (positions : List Nat) : List InboundFragment :=
  positions.filterMap fun source => (newFragments fragments seen)[source]?

def readyFragments : List InboundFragment :=
  fragmentsAt fragments seen (readySources fragments seen now)

def waitingFragments : List InboundFragment :=
  fragmentsAt fragments seen (pendingSources fragments seen now)

theorem sources_perm :
    (readySources fragments seen now ++ pendingSources fragments seen now).Perm
      (List.range (newFragments fragments seen).length) := by
  have hperm := assemble_partition ((newFragments fragments seen).map InboundFragment.part) now
    fragmentGraceMs
  rwa [length_map] at hperm

theorem custody_perm :
    (seenFragments fragments seen
      ++ (readyFragments fragments seen now ++ waitingFragments fragments seen now)).Perm
        fragments := by
  have hread := (sources_perm fragments seen now).filterMap fun source =>
    (newFragments fragments seen)[source]?
  have hall := filterMap_range_getElem? (newFragments fragments seen) id
  simp only [Option.map_id_fun, id_eq, map_id_fun] at hall
  rw [hall, filterMap_append] at hread
  exact (hread.append_left _).trans (seen_new_perm fragments seen)

theorem map_fragmentsAt {positions : List Nat}
    (h : ∀ position ∈ positions, position < (newFragments fragments seen).length) :
    positions.map (fun source => (newFragments fragments seen)[source]?)
      = (fragmentsAt fragments seen positions).map some := by
  induction positions with
  | nil => rfl
  | cons position rest ih =>
    have hread := getElem?_eq_getElem (h position mem_cons_self)
    have hrest := ih fun position hposition => h position (mem_cons_of_mem _ hposition)
    unfold fragmentsAt at hrest ⊢
    rw [map_cons, filterMap_cons, hread, hrest]
    rfl

theorem length_waitingFragments :
    (waitingFragments fragments seen now).length = (settleInbound fragments seen now).pending := by
  have hrange : ∀ position ∈ pendingSources fragments seen now,
      position < (newFragments fragments seen).length := fun position hposition =>
    mem_range.mp ((sources_perm fragments seen now).subset (mem_append_right _ hposition))
  have hread := congrArg List.length (map_fragmentsAt fragments seen hrange)
  rw [length_map, length_map] at hread
  exact hread.symm

theorem ready_flatMap {β : Type} (g : SettledMessage → List β) (f : InboundFragment → β)
    (hg : ∀ message, g (settled (newFragments fragments seen) message)
      = message.sources.filterMap fun source => ((newFragments fragments seen)[source]?).map f) :
    (settleInbound fragments seen now).ready.flatMap g
      = (readyFragments fragments seen now).map f := by
  unfold settleInbound readyFragments fragmentsAt readySources
  rw [flatMap_map, map_filterMap, filterMap_flatMap]
  exact flatMap_congr fun message _ => hg message

theorem readyFingerprints_eq :
    (settleInbound fragments seen now).readyFingerprints
      = (readyFragments fragments seen now).map InboundFragment.fingerprint :=
  ready_flatMap fragments seen now _ _ fun _ => rfl

theorem readySlots_eq :
    (settleInbound fragments seen now).ready.flatMap SettledMessage.slots
      = (readyFragments fragments seen now).map InboundFragment.slot :=
  ready_flatMap fragments seen now _ _ fun _ => rfl

theorem ready_waiting_perm :
    (readyFragments fragments seen now ++ waitingFragments fragments seen now).Perm
      (newFragments fragments seen) :=
  (perm_append_left_iff _).mp
    ((custody_perm fragments seen now).trans (seen_new_perm fragments seen).symm)

theorem count_readyFingerprints_le (fingerprint : String) :
    (settleInbound fragments seen now).readyFingerprints.count fingerprint
      ≤ ((newFragments fragments seen).map InboundFragment.fingerprint).count fingerprint := by
  have hperm := (ready_waiting_perm fragments seen now).map InboundFragment.fingerprint
  rw [← hperm.count_eq, map_append, count_append, readyFingerprints_eq]
  exact Nat.le_add_right _ _

theorem readyFingerprints_all (h : (settleInbound fragments seen now).pending = 0) :
    (settleInbound fragments seen now).readyFingerprints.Perm
      ((newFragments fragments seen).map InboundFragment.fingerprint) := by
  have hperm := (ready_waiting_perm fragments seen now).map InboundFragment.fingerprint
  rw [← length_waitingFragments, length_eq_zero_iff] at h
  rw [h, append_nil] at hperm
  rwa [readyFingerprints_eq]

theorem mem_deletable_iff :
    slot ∈ (settleInbound fragments seen now).deletable
      ↔ slot ∈ (seenFragments fragments seen ++ readyFragments fragments seen now).map
        InboundFragment.slot := by
  rw [mem_deletable, readySlots_eq, map_append, mem_append]
  rfl

/-- With a slot to each fragment, the deletable fragments are those that
are already ours or ready. -/
theorem deletable_perm (hslots : (fragments.map InboundFragment.slot).Nodup) :
    (fragments.filter fun fragment =>
        fragment.slot ∈ (settleInbound fragments seen now).deletable).Perm
      (seenFragments fragments seen ++ readyFragments fragments seen now) := by
  have hcustody := custody_perm fragments seen now
  rw [← append_assoc] at hcustody
  have hnodup := (hcustody.map InboundFragment.slot).nodup_iff.mpr hslots
  rw [map_append] at hnodup
  obtain ⟨-, -, hapart⟩ := nodup_append.mp hnodup
  refine (hcustody.symm.filter _).trans ?_
  rw [filter_append]
  have hgone : (seenFragments fragments seen ++ readyFragments fragments seen now).filter
      (fun fragment => fragment.slot ∈ (settleInbound fragments seen now).deletable)
        = seenFragments fragments seen ++ readyFragments fragments seen now :=
    filter_eq_self.mpr fun fragment hfragment => decide_eq_true
      ((mem_deletable_iff fragments seen now).mpr (mem_map_of_mem hfragment))
  have hkept : (waitingFragments fragments seen now).filter
      (fun fragment => fragment.slot ∈ (settleInbound fragments seen now).deletable) = [] := by
    refine filter_eq_nil_iff.mpr fun fragment hfragment hdeletable => ?_
    have hslot := (mem_deletable_iff fragments seen now).mp (of_decide_eq_true hdeletable)
    exact hapart _ hslot _ (mem_map_of_mem hfragment) rfl
  rw [hgone, hkept, append_nil]

theorem deletable_fragment (h : slot ∈ (settleInbound fragments seen now).deletable) :
    ∃ fragment ∈ fragments, fragment.slot = slot
      ∧ (fragment ∈ seenFragments fragments seen
        ∨ fragment.fingerprint ∈ (settleInbound fragments seen now).readyFingerprints) := by
  obtain ⟨fragment, hfragment, rfl⟩ := mem_map.mp ((mem_deletable_iff _ _ _).mp h)
  have hmem : fragment ∈ fragments := (custody_perm fragments seen now).subset (by
    rw [← append_assoc]
    exact mem_append_left _ hfragment)
  refine ⟨fragment, hmem, rfl, (mem_append.mp hfragment).imp_right fun hready => ?_⟩
  rw [readyFingerprints_eq]
  exact mem_map_of_mem hready

end

end VodogeEdge
