import Std.Data.String.ToInt
import VodogeEdge.InboxCollect

/-!
# No fragment is stored twice

Every fingerprint is stored at most as often as rows with it arrived, in
every run of passes, and a row is deleted only when the ledger has its
fingerprint.

The ledger never forgets a copy, so a pass that stores anything with a
fingerprint found more rows with it than the ledger had copies; what it
stores stays below what the module held. This needs the ledger to be read
as it was written, and `copies as u32` drops the high bits. But a pass
stores only what exceeds the copies on the books, so that these never
exceed what the module has room for (`ledger_step`), and a store with
fewer than 2^32 places keeps them readable.
-/

namespace VodogeEdge

open Std List

/-! ## The ledger as a count -/

theorem getD_insert_self_or (table : ExtTreeMap String Nat) (k f : String) (v : Nat) :
    (table.insert k v).getD f 0 = if k = f then v else table.getD f 0 := by
  rw [ExtTreeMap.getD_insert]
  simp

namespace IngestLedger

variable (ledger : IngestLedger) (f : String) (fingerprints : List String)

theorem getD_recordIngestedSms (ledger : IngestLedger) :
    (ledger.recordIngestedSms fingerprints).getD f 0 = ledger.getD f 0 + fingerprints.count f := by
  induction fingerprints generalizing ledger with
  | nil => rfl
  | cons fingerprint rest ih =>
    refine (ih (ledger.insert fingerprint (ledger.getD fingerprint 0 + 1))).trans ?_
    rw [getD_insert_self_or, count_cons]
    by_cases h : fingerprint = f
    · subst h
      rw [if_pos rfl, if_pos (beq_self_eq_true fingerprint)]
      omega
    · rw [if_neg h, if_neg (by simpa using h)]
      omega

theorem mem_of_getD_pos {ledger : IngestLedger} {f : String} (h : 0 < ledger.getD f 0) :
    f ∈ ledger := by
  by_contra hnot
  rw [ExtTreeMap.getD_eq_fallback hnot] at h
  exact lt_irrefl 0 h

theorem getD_lookups (counts : ExtTreeMap String Nat)
    (hcounts : ∀ g ∈ counts, counts.getD g 0 = ledger.ingestedSmsCopies g) :
    (fingerprints.foldl (fun counts fingerprint =>
      if fingerprint ∈ counts then counts
      else if 0 < ledger.ingestedSmsCopies fingerprint then
        counts.insert fingerprint (ledger.ingestedSmsCopies fingerprint)
      else counts) counts).getD f 0
      = if f ∈ fingerprints then ledger.ingestedSmsCopies f else counts.getD f 0 := by
  induction fingerprints generalizing counts with
  | nil => rfl
  | cons fingerprint rest ih =>
    have hone : ∀ {v : Nat}, (fingerprint = f → v = ledger.ingestedSmsCopies f) →
        (fingerprint ≠ f → v = counts.getD f 0) →
        (if f ∈ rest then ledger.ingestedSmsCopies f else v)
          = if f ∈ fingerprint :: rest then ledger.ingestedSmsCopies f else counts.getD f 0 := by
      intro v hsame hother
      by_cases h : fingerprint = f
      · simp [hsame, h]
      · simp [hother h, Ne.symm h]
    rw [foldl_cons]
    by_cases hknown : fingerprint ∈ counts
    · rw [if_pos hknown, ih counts hcounts]
      exact hone (fun h => hcounts f (h ▸ hknown)) fun _ => rfl
    rw [if_neg hknown]
    by_cases hpos : 0 < ledger.ingestedSmsCopies fingerprint
    · rw [if_pos hpos, ih]
      · rw [getD_insert_self_or]
        exact hone (fun h => by rw [if_pos h, h]) fun h => if_neg h
      · intro g hg
        rw [getD_insert_self_or]
        split
        next h => rw [h]
        next h =>
          rw [ExtTreeMap.mem_insert, Std.compare_eq_iff_eq] at hg
          exact hcounts g (hg.resolve_left h)
    · -- a fingerprint without copies is not entered, and reads as none
      rw [if_neg hpos, ih counts hcounts]
      refine hone (fun h => ?_) fun _ => rfl
      rw [← h, ExtTreeMap.getD_eq_fallback hknown, Nat.eq_zero_of_not_pos hpos]

theorem getD_ingestedCounts (f : String) :
    (ledger.ingestedCounts fingerprints).getD f 0
      = if f ∈ fingerprints then ledger.ingestedSmsCopies f else 0 := by
  refine (getD_lookups ledger f fingerprints ∅ fun g hg => ?_).trans ?_
  · exact absurd hg ExtTreeMap.not_mem_empty
  · rw [ExtTreeMap.getD_empty]

end IngestLedger

/-! ## What is new in a pass -/

variable (ingested : ExtTreeMap String Nat)

/-- Of every fingerprint, as many are new as there are more of it than
copies not matched yet. -/
theorem count_new_from (f : String)
    (fragments : List InboundFragment) (matched : ExtTreeMap String Nat) :
    ((newFragments fragments (seenFrom ingested matched
        (fragments.map InboundFragment.fingerprint))).map InboundFragment.fingerprint).count f
      = (fragments.map InboundFragment.fingerprint).count f
        - (ingested.getD f 0 - matched.getD f 0) := by
  -- the copies matched so far grow along the list
  induction fragments generalizing matched with
  | nil => simp [newFragments]
  | cons fragment rest ih =>
    rw [map_cons, seenFrom]
    by_cases h : fragment.fingerprint = f
    · subst h
      split
      all_goals
        simp only [newFragments, map_cons, count_cons_self, ih, getD_insert_self_or, if_true]
        omega
    · split <;> simp [newFragments, ih, getD_insert_self_or, h]

theorem seen_has_copy {fragment : InboundFragment}
    (fragments : List InboundFragment) (matched : ExtTreeMap String Nat)
    (h : fragment ∈ seenFragments fragments (seenFrom ingested matched
      (fragments.map InboundFragment.fingerprint))) : 0 < ingested.getD fragment.fingerprint 0 := by
  induction fragments generalizing matched with
  | nil => cases h
  | cons head rest ih =>
    rw [map_cons, seenFrom] at h
    by_cases hused : matched.getD head.fingerprint 0 < ingested.getD head.fingerprint 0
    · rw [if_pos hused] at h
      rcases mem_cons.mp h with rfl | h
      · exact Nat.zero_lt_of_lt hused
      · exact ih _ h
    · rw [if_neg hused] at h
      exact ih _ h

/-! ## One sweep -/

section
variable (decode : Bytes → Deliver) {f : String}

/-- How many of the rows are received fragments with that fingerprint. -/
def copiesOf (f : String) (rows : List StoredMessage) : Nat :=
  ((rows.filter StoredMessage.isReceived).map (fingerprintOf decode)).count f

/-- How many fragments with that fingerprint went into stored messages. -/
def storedCopies (f : String) (inbox : List SettledMessage) : Nat :=
  (inbox.flatMap SettledMessage.fingerprints).count f

theorem storedCopies_append (f : String) (inbox more : List SettledMessage) :
    storedCopies f (inbox ++ more) = storedCopies f inbox + storedCopies f more := by
  rw [storedCopies, flatMap_append, count_append]
  rfl

theorem copiesOf_perm {rows rows' : List StoredMessage} (h : rows.Perm rows') :
    copiesOf decode f rows = copiesOf decode f rows' :=
  ((h.filter _).map _).count_eq f

theorem copiesOf_sublist {rows rows' : List StoredMessage}
    (h : rows.Sublist rows') : copiesOf decode f rows ≤ copiesOf decode f rows' :=
  ((h.filter _).map _).count_le f

theorem copiesOf_le_length (f : String) (rows : List StoredMessage) :
    copiesOf decode f rows ≤ rows.length := by
  refine Nat.le_trans count_le_length ?_
  rw [length_map]
  exact length_filter_le _ _

theorem copiesOf_append (f : String) (rows more : List StoredMessage) :
    copiesOf decode f (rows ++ more) = copiesOf decode f rows + copiesOf decode f more := by
  rw [copiesOf, filter_append, map_append, count_append]
  rfl

theorem fingerprints_fragmentsOf (received : List StoredMessage) :
    (fragmentsOf decode received).map InboundFragment.fingerprint
      = received.map (fingerprintOf decode) := by
  have hrows : received.map (fingerprintOf decode)
      = (received.zipIdx.map Prod.fst).map (fingerprintOf decode) := by
    rw [zipIdx_map_fst]
  rw [hrows, fragmentsOf, map_map, map_map]
  rfl

section
variable (ledger : IngestLedger) (listing : List StoredMessage) (now : Int)

def newOf : List InboundFragment :=
  let fragments := fragmentsOf decode (listing.filter StoredMessage.isReceived)
  let fingerprints := fragments.map InboundFragment.fingerprint
  newFragments fragments (seenBefore fingerprints (ledger.ingestedCounts fingerprints))

theorem count_newOf (f : String) :
    ((newOf decode ledger listing).map InboundFragment.fingerprint).count f
      = copiesOf decode f listing - ledger.ingestedSmsCopies f := by
  have hcount := count_new_from (ledger.ingestedCounts
      ((listing.filter StoredMessage.isReceived).map (fingerprintOf decode))) f
    (fragmentsOf decode (listing.filter StoredMessage.isReceived)) ∅
  rw [fingerprints_fragmentsOf, IngestLedger.getD_ingestedCounts] at hcount
  unfold newOf seenBefore
  dsimp only
  rw [fingerprints_fragmentsOf, hcount]
  by_cases hf : f ∈ (listing.filter StoredMessage.isReceived).map (fingerprintOf decode)
  · rw [if_pos hf]
    rfl
  · have hzero : copiesOf decode f listing = 0 := count_eq_zero.mpr hf
    rw [hzero, Nat.zero_sub]
    unfold copiesOf at hzero
    rw [hzero, Nat.zero_sub]

theorem storedCopies_sweep_le (f : String) :
    storedCopies f (sweepInboxOverAt decode ledger listing now).settlement.ready
      ≤ copiesOf decode f listing - ledger.ingestedSmsCopies f := by
  rw [← count_newOf]
  exact count_readyFingerprints_le _ _ now f

theorem storedCopies_sweep_eq (f : String)
    (h : (sweepInboxOverAt decode ledger listing now).settlement.pending = 0) :
    storedCopies f (sweepInboxOverAt decode ledger listing now).settlement.ready
      = copiesOf decode f listing - ledger.ingestedSmsCopies f := by
  rw [← count_newOf]
  exact (readyFingerprints_all _ _ now h).count_eq f

theorem getD_sweep_ledger (f : String) :
    (sweepInboxOverAt decode ledger listing now).ledger.getD f 0
      = ledger.getD f 0
        + storedCopies f (sweepInboxOverAt decode ledger listing now).settlement.ready :=
  IngestLedger.getD_recordIngestedSms f _ ledger

/-- A row whose delete is asked for has its fingerprint on the books by
then. -/
theorem sweep_deletes {index : UInt32}
    (h : index ∈ (sweepInboxOverAt decode ledger listing now).deletes) :
    ∃ row ∈ listing, row.index = index ∧ row.isReceived
      ∧ fingerprintOf decode row ∈ (sweepInboxOverAt decode ledger listing now).ledger := by
  obtain ⟨slot, hslot, hindex⟩ := mem_filterMap.mp h
  obtain ⟨row, hrow, hindex⟩ := Option.map_eq_some_iff.mp hindex
  obtain ⟨hlisted, hreceived⟩ := mem_filter.mp (mem_of_getElem? hrow)
  refine ⟨row, hlisted, hindex, hreceived, IngestLedger.mem_of_getD_pos ?_⟩
  rw [getD_sweep_ledger]
  obtain ⟨fragment, hfragment, rfl, hwhy⟩ := deletable_fragment _ _ now hslot
  have hfingerprint : fingerprintOf decode row = fragment.fingerprint := by
    obtain ⟨⟨other, slot⟩, hother, rfl⟩ := mem_map.mp hfragment
    cases hrow.symm.trans (mem_zipIdx_iff_getElem?.mp hother)
    rfl
  rw [hfingerprint]
  rcases hwhy with hseen | hready
  · -- seen: the ledger handed out a copy, so it has one
    have hcopy := seen_has_copy _ _ _ hseen
    rw [IngestLedger.getD_ingestedCounts] at hcopy
    split at hcopy
    · have hpos : 0 < ledger.getD fragment.fingerprint 0 :=
        pos_of_ne_zero fun hzero => by
          rw [IngestLedger.ingestedSmsCopies, hzero] at hcopy
          exact lt_irrefl 0 hcopy
      omega
    · exact absurd hcopy (lt_irrefl 0)
  · -- ready: its fingerprint was written down just before
    have hpos := count_pos_iff.mpr hready
    exact Nat.lt_of_lt_of_le hpos (Nat.le_add_left _ _)

end

end

/-! ## Runs -/

namespace Collector

variable (decode : Bytes → Deliver)

variable (self : Collector)

/-- No fingerprint was stored more often than it arrived. -/
def NoDuplicates : Prop :=
  ∀ f, storedCopies f self.inbox ≤ copiesOf decode f self.arrived

/-- Every row the step takes off the module is a fragment whose
fingerprint the ledger has. -/
def DeletesBooked (event : CollectEvent) : Prop :=
  ∀ row ∈ self.store.rows, row ∉ (self.step decode event).store.rows →
    row.isReceived ∧ fingerprintOf decode row ∈ (self.step decode event).ledger

/-- Before a pass, the module holds no more rows than it has room for. -/
def Within (capacity : Nat) : CollectEvent → Prop
  | .arrive _ => True
  | .pass _ _ _ => self.store.rows.length ≤ capacity

/-- The ledger counts what was stored, and the module holds only what
arrived. -/
structure Booked (worker : Collector) : Prop where
  ledger : ∀ f, worker.ledger.getD f 0 = storedCopies f worker.inbox
  held : ∀ f, copiesOf decode f worker.store.rows ≤ copiesOf decode f worker.arrived

theorem booked_new : new.Booked decode where
  ledger _ := rfl
  held _ := Nat.le_refl _

theorem Booked.step {self : Collector} (h : self.Booked decode) (event : CollectEvent) :
    (self.step decode event).Booked decode := by
  cases event with
  | arrive row =>
    unfold Collector.step
    dsimp only
    split
    · refine ⟨h.ledger, fun f => ?_⟩
      unfold ModuleStore.arrive
      rw [copiesOf_append, copiesOf_append]
      exact Nat.add_le_add_right (h.held f) _
    · exact h
  | pass listing now failed =>
    unfold Collector.step
    dsimp only
    split
    · refine ⟨fun f => ?_, fun f => ?_⟩
      · rw [getD_sweep_ledger, storedCopies_append, h.ledger]
      · exact Nat.le_trans (copiesOf_sublist decode filter_sublist) (h.held f)
    · exact h

/-- No fingerprint has more copies on the books than the module has room
for: a pass writes down only what goes beyond them. -/
theorem ledger_step {self : Collector} {capacity : Nat} (hcapacity : capacity < 2 ^ 32)
    (h : ∀ f, self.ledger.getD f 0 ≤ capacity) (event : CollectEvent)
    (hroom : self.Within capacity event) (f : String) :
    (self.step decode event).ledger.getD f 0 ≤ capacity := by
  cases event with
  | arrive row =>
    unfold Collector.step
    dsimp only
    split <;> exact h f
  | pass listing now failed =>
    unfold Collector.step
    dsimp only
    split
    next hperm =>
      have hnew := storedCopies_sweep_le decode self.ledger listing now f
      have hread : self.ledger.ingestedSmsCopies f = self.ledger.getD f 0 :=
        Nat.mod_eq_of_lt ((h f).trans_lt hcapacity)
      have hlisted := copiesOf_le_length decode f listing
      rw [hperm.length_eq] at hlisted
      have hheld : self.store.rows.length ≤ capacity := hroom
      have hbooks := h f
      rw [getD_sweep_ledger]
      omega
    · exact h f

/-- A pass stores less than would go beyond what arrived, as long as it
reads the ledger right. -/
theorem NoDuplicates.step {self : Collector} (h : self.NoDuplicates decode)
    (hbooked : self.Booked decode) (hcount : ∀ f, self.ledger.getD f 0 < 2 ^ 32)
    (event : CollectEvent) : (self.step decode event).NoDuplicates decode := by
  intro f
  cases event with
  | arrive row =>
    unfold Collector.step
    dsimp only
    split
    · refine Nat.le_trans (h f) (copiesOf_sublist decode ?_)
      exact sublist_append_left _ _
    · exact h f
  | pass listing now failed =>
    unfold Collector.step
    dsimp only
    split
    next hperm =>
      have hnew := storedCopies_sweep_le decode self.ledger listing now f
      have hread : self.ledger.ingestedSmsCopies f = storedCopies f self.inbox := by
        unfold IngestLedger.ingestedSmsCopies
        rw [Nat.mod_eq_of_lt (hcount f), hbooked.ledger]
      rw [copiesOf_perm decode hperm] at hnew
      have hheld := hbooked.held f
      have hold := h f
      dsimp only
      rw [storedCopies_append]
      omega
    · exact h f

theorem deletesBooked (event : CollectEvent) : self.DeletesBooked decode event := by
  intro row hrow hgone
  cases event with
  | arrive other =>
    unfold Collector.step at hgone
    dsimp only at hgone
    split at hgone
    · exact absurd (mem_append_left _ hrow) hgone
    · exact absurd hrow hgone
  | pass listing now failed =>
    unfold Collector.step at hgone ⊢
    dsimp only at hgone ⊢
    by_cases hperm : listing.Perm self.store.rows
    · rw [if_pos hperm] at hgone ⊢
      have hasked : row.index ∈ (sweepInboxOverAt decode self.ledger listing now).deletes := by
        by_contra hnot
        refine hgone (mem_filter.mpr ⟨hrow, decide_eq_true fun hmem => ?_⟩)
        exact hnot (mem_filter.mp hmem).1
      obtain ⟨other, hother, hindex, hreceived, hbooks⟩ :=
        sweep_deletes decode self.ledger listing now hasked
      -- an index names one row of the module
      have hsame : other = row :=
        inj_on_of_nodup_map self.store.distinct (hperm.subset hother) hrow hindex
      subst hsame
      exact ⟨hreceived, hbooks⟩
    · rw [if_neg hperm] at hgone
      exact absurd hrow hgone

/-- In every run in which the module's store stays within its capacity,
nothing is stored more often than it arrived; and a row goes only with its
fingerprint on the books. -/
theorem no_duplicate_ingestion (capacity : Nat) (hcapacity : capacity < 2 ^ 32)
    (events : List CollectEvent) (hroom : Along (step decode) (Within · capacity) new events) :
    (runFrom (step decode) new events).NoDuplicates decode
      ∧ ∀ event, (runFrom (step decode) new events).DeletesBooked decode event := by
  refine ⟨?_, deletesBooked decode _⟩
  have hrun := Along.invariant
    (I := fun state : Collector => state.Booked decode ∧ state.NoDuplicates decode
      ∧ ∀ f, state.ledger.getD f 0 ≤ capacity)
    (fun state event ⟨hbooked, hstored, hledger⟩ hevent =>
      ⟨hbooked.step decode event,
        hstored.step decode hbooked (fun f => (hledger f).trans_lt hcapacity) event,
        ledger_step decode hcapacity hledger event hevent⟩)
    events ⟨booked_new decode, fun _ => Nat.le_refl _, fun _ => Nat.zero_le _⟩ hroom
  exact hrun.2.1

/-- What `decode_deliver` returns for the one-octet PDU `00`, which it
cannot walk. -/
def sameMessage (_ : Bytes) : Deliver := ⟨"", "00", none, "unknown", none, none⟩

def twoCopies : List StoredMessage := [⟨0, "0", [0]⟩, ⟨1, "0", [0]⟩]

/-- Two copies, two passes and no delete: both are stored once. -/
theorem two_copies_stored_once :
    let events := twoCopies.map CollectEvent.arrive
      ++ [.pass twoCopies 0 [0, 1], .pass twoCopies 1 [0, 1]]
    (runFrom (step sameMessage) new events).NoDuplicates sameMessage
      ∧ ∀ event, (runFrom (step sameMessage) new events).DeletesBooked sameMessage event := by
  have hpass : ∀ self : Collector,
      (self.step sameMessage (.pass twoCopies 0 [0, 1])).store.rows.length
        ≤ self.store.rows.length := by
    intro self
    unfold step
    dsimp only
    split
    · exact length_filter_le _ _
    · exact Nat.le_refl _
  exact no_duplicate_ingestion sameMessage 2 (by decide) _
    ⟨trivial, trivial, Nat.le_refl 2, hpass _, trivial⟩

theorem pending_alone (ledger : IngestLedger) {listing : List StoredMessage} (now : Int)
    (h : ∀ row ∈ listing, (decode row.pdu).concat = none) :
    (sweepInboxOverAt decode ledger listing now).settlement.pending = 0 := by
  have halone : ∀ parts, (∀ part ∈ parts, part.standsAlone) →
      (assemble parts now fragmentGraceMs).2 = [] := by
    intro parts hparts
    have hnone : ((slotted parts).filter fun placed => !placed.part.standsAlone) = [] := by
      refine filter_eq_nil_iff.mpr fun placed hplaced => ?_
      obtain ⟨⟨part, slot⟩, hpart, rfl⟩ := mem_map.mp hplaced
      have hmem : part ∈ parts := (mem_zipIdx hpart).2.2 ▸ getElem_mem _
      simp [hparts part hmem]
    unfold assemble
    dsimp only
    rw [hnone]
    rfl
  refine length_eq_zero_iff.mpr (halone _ fun part hpart => ?_)
  obtain ⟨fragment, hfragment, rfl⟩ := mem_map.mp hpart
  obtain ⟨⟨row, slot⟩, hrow, rfl⟩ := mem_map.mp
    ((seen_new_perm _ _).subset (mem_append_right _ hfragment))
  have hlisted : row ∈ listing.filter StoredMessage.isReceived :=
    (mem_zipIdx hrow).2.2 ▸ getElem_mem _
  simp [fragmentOf, h row (mem_filter.mp hlisted).1, ConcatPart.standsAlone]

end Collector

/-! ## What a fingerprint tells -/

theorem append_bar_inj {front last front' last' : String} (h : '|' ∉ last.toList)
    (h' : '|' ∉ last'.toList) :
    front ++ "|" ++ last = front' ++ "|" ++ last' ↔ front = front' ∧ last = last' := by
  have htext : ∀ front last, (front ++ "|" ++ last).toList
      = front.toList ++ '|' :: last.toList := by simp
  constructor
  · intro heq
    have hlists := congrArg String.toList heq
    rw [htext, htext] at hlists
    rw [← String.toList_inj, ← @String.toList_inj]
    obtain ⟨_ | ⟨c, between⟩, hfront, hlast⟩ | ⟨_ | ⟨c, between⟩, hfront, hlast⟩ :=
      append_eq_append_iff.mp hlists
    · exact ⟨by simpa using hfront.symm, (cons.inj hlast).2⟩
    · rw [(cons.inj hlast).2] at h
      simp at h
    · exact ⟨by simpa using hfront, (cons.inj hlast).2.symm⟩
    · rw [(cons.inj hlast).2] at h'
      simp at h'
  · rintro ⟨rfl, rfl⟩
    rfl

def hexValue (value : Nat) (c : Char) : Nat :=
  16 * value + if c.isDigit then c.toNat - 48 else c.toNat - 87

theorem foldl_hexPadded (width n : Nat) :
    (hexPadded width n).toList.foldl hexValue 0 = n ∧ '|' ∉ (hexPadded width n).toList := by
  have hdigit : ∀ d < 16, hexValue 0 (Nat.digitChar d) = d ∧ '|' ≠ Nat.digitChar d := by decide
  have hdigits : (Nat.toDigits 16 n).foldl hexValue 0 = n ∧ '|' ∉ Nat.toDigits 16 n := by
    induction n using Nat.strong_induction_on with
    | _ n ih =>
      rw [Nat.toDigits_eq_if (by decide)]
      split
      next h => simpa using hdigit n h
      next h =>
        obtain ⟨hvalue, hbar⟩ := ih (n / 16) (by omega)
        obtain ⟨hlast, -⟩ := hdigit (n % 16) (by omega)
        have hnext : hexValue (n / 16) (Nat.digitChar (n % 16)) = n := by
          rw [hexValue] at hlast ⊢
          omega
        simp [hvalue, hnext, hbar]
  have hzeros : ∀ k, (replicate k '0').foldl hexValue 0 = 0 := by
    intro k
    induction k with
    | zero => rfl
    | succ k ih => exact ih
  simp [hexPadded, hzeros, hdigits]

theorem hexPadded_inj {width n m : Nat} : hexPadded width n = hexPadded width m ↔ n = m := by
  refine ⟨fun h => ?_, congrArg _⟩
  rw [← (foldl_hexPadded width n).1, h, (foldl_hexPadded width m).1]

theorem repr_text (i : Int) : '|' ∉ i.repr.toList ∧ i.repr ≠ "-" := by
  have hdigits : ∀ {n : Nat} {c : Char}, c ∈ n.repr.toList → c.isDigit := by
    intro n c h
    rw [Nat.repr_eq_ofList_toDigits, String.toList_ofList] at h
    exact Nat.isDigit_of_mem_toDigits (by decide) (by decide) h
  have hbar : ∀ n : Nat, '|' ∉ n.repr.toList := fun n h => absurd (hdigits h) (by decide)
  rw [Int.repr_eq_if]
  split
  · refine ⟨hbar _, fun h => ?_⟩
    have hmem : '-' ∈ i.toNat.repr.toList := by
      rw [h]
      decide
    exact absurd (hdigits hmem) (by decide)
  · rw [String.toList_append, mem_append, not_or]
    exact ⟨⟨by decide, hbar _⟩, by simp⟩

/-- Two fragments with one fingerprint agree in all its fields, also where the
sender has the separator in it: the others are told from the end. -/
theorem fragmentFingerprint_inj (sender sender' : String) (receivedAt receivedAt' : Option Int)
    (refId total seq refId' total' seq' : Nat) (body body' : String) :
    fragmentFingerprint sender receivedAt refId total seq body =
        fragmentFingerprint sender' receivedAt' refId' total' seq' body' ↔
      sender = sender' ∧ receivedAt = receivedAt' ∧ refId = refId' ∧ total = total' ∧
        seq = seq' ∧ fnv1a64 body.toUTF8.toList = fnv1a64 body'.toUTF8.toList := by
  have hhex := fun width n => (foldl_hexPadded width n).2
  have hnat : ∀ n : Nat, '|' ∉ (toString n).toList := fun n => (repr_text n).1
  have hstamp : ∀ stamp : Option Int, '|' ∉ ((stamp.map toString).getD "-").toList := by
    rintro (_ | i)
    · decide
    · exact (repr_text i).1
  have hstamps : (receivedAt.map toString).getD "-" = (receivedAt'.map toString).getD "-" ↔
      receivedAt = receivedAt' := by
    cases receivedAt <;> cases receivedAt' <;>
      simp [(repr_text _).2, (repr_text _).2.symm]
  rw [fragmentFingerprint, fragmentFingerprint, append_bar_inj (hhex _ _) (hhex _ _),
    append_bar_inj (hnat _) (hnat _), append_bar_inj (hnat _) (hnat _),
    append_bar_inj (hhex _ _) (hhex _ _), append_bar_inj (hstamp _) (hstamp _), hexPadded_inj,
    hexPadded_inj, String.append_right_inj, UInt64.toNat_inj, hstamps]
  simp [and_assoc]

end VodogeEdge
