import VodogeEdge.Tables
import VodogeEdge.Text
import VodogeEdge.Word

/-!
# Records, ranges and acknowledgements of the uplink journal

The value types of `edge-uplink`. Every type whose constructor checks its
arguments carries what the check established: identifiers are not blank,
a range is not inverted, an acknowledgement names at most
`maxMissingRanges` sorted, non-overlapping ranges.
-/

namespace VodogeEdge

/-- Maximum recovery-hole hints accepted from one cloud acknowledgement. -/
def maxMissingRanges : Nat := 128

/-- A caller-supplied, stable identifier for one sequenced envelope. -/
def EnvelopeId : Type := NonBlank

/-- A caller-supplied, stable identifier for one durable loss marker. -/
def GapId : Type := NonBlank

instance : DecidableEq EnvelopeId := inferInstanceAs (DecidableEq NonBlank)
instance : Ord EnvelopeId := inferInstanceAs (Ord NonBlank)
instance : Std.TransOrd EnvelopeId := inferInstanceAs (Std.TransOrd NonBlank)
instance : Std.LawfulEqOrd EnvelopeId := inferInstanceAs (Std.LawfulEqOrd NonBlank)

instance : DecidableEq GapId := inferInstanceAs (DecidableEq NonBlank)
instance : Ord GapId := inferInstanceAs (Ord NonBlank)
instance : Std.TransOrd GapId := inferInstanceAs (Std.TransOrd NonBlank)
instance : Std.LawfulEqOrd GapId := inferInstanceAs (Std.LawfulEqOrd NonBlank)

def EnvelopeId.asStr (id : EnvelopeId) : String := NonBlank.val id

def GapId.asStr (id : GapId) : String := NonBlank.val id

structure SequenceRange where
  start : Nat
  through : Nat
  le : start ≤ through
deriving DecidableEq

/-- Errors returned when a transition would violate the durable protocol
model. -/
inductive UplinkError where
  | emptyIdentifier (kind : String)
  | invalidSequenceRange (start through : Nat)
  | nonCanonicalRanges
  | tooManyMissingRanges (actual maximum : Nat)
  | sequenceExhausted
  | duplicateEnvelopeId (envelopeId : EnvelopeId) (sequence : Nat)
  | ackBeyondAllocated (committedThrough lastAllocated : Nat)
  | ackCrossesUnresolvedSequence (sequence : Nat)
  | missingRangeAtOrBelowCursor (range : SequenceRange) (committedThrough : Nat)
  | missingRangeBeyondAllocated (range : SequenceRange) (lastAllocated : Nat)
  | emptyGap
  | emptyGapReason
  | duplicateGapId (gapId : GapId)
  | duplicateLossSequence (sequence : Nat)
  | unknownRetainedSequence (sequence : Nat)
  | protectedRecordCannotBeEvicted (sequence : Nat)
  | unknownGapId (gapId : GapId)
  | invalidRestoredJournal
deriving DecidableEq

def UplinkError.display : UplinkError → String
  | .emptyIdentifier kind => kind ++ " must not be empty"
  | .invalidSequenceRange start through =>
    "invalid sequence range " ++ toString start ++ "..=" ++ toString through
  | .nonCanonicalRanges => "ranges must be sorted and non-overlapping"
  | .tooManyMissingRanges actual maximum =>
    "ack has " ++ toString actual ++ " missing ranges; maximum is " ++ toString maximum
  | .sequenceExhausted => "sequence space is exhausted"
  | .duplicateEnvelopeId envelopeId sequence =>
    "envelope " ++ envelopeId.asStr ++ " is already allocated at sequence "
      ++ toString sequence
  | .ackBeyondAllocated committedThrough lastAllocated =>
    "ack cursor " ++ toString committedThrough ++ " exceeds last allocated sequence "
      ++ toString lastAllocated
  | .ackCrossesUnresolvedSequence sequence =>
    "ack crosses unresolved sequence " ++ toString sequence
  | .missingRangeAtOrBelowCursor range committedThrough =>
    "missing range " ++ toString range.start ++ "..=" ++ toString range.through
      ++ " is at or below cursor " ++ toString committedThrough
  | .missingRangeBeyondAllocated range lastAllocated =>
    "missing range " ++ toString range.start ++ "..=" ++ toString range.through
      ++ " exceeds last allocated sequence " ++ toString lastAllocated
  | .emptyGap => "a gap must cover at least one sequence"
  | .emptyGapReason => "a gap reason must not be empty"
  | .duplicateGapId gapId => "gap ID " ++ gapId.asStr ++ " already exists"
  | .duplicateLossSequence sequence =>
    "sequence " ++ toString sequence ++ " appears more than once in a gap"
  | .unknownRetainedSequence sequence => "sequence " ++ toString sequence ++ " is not retained"
  | .protectedRecordCannotBeEvicted sequence =>
    "protected sequence " ++ toString sequence ++ " cannot be evicted"
  | .unknownGapId gapId => "gap ID " ++ gapId.asStr ++ " is not pending"
  | .invalidRestoredJournal => "restored uplink journal is internally inconsistent"

/-- The check both identifier constructors make; `kind` names the
identifier in the error. -/
def NonBlank.check (kind value : String) : Except UplinkError NonBlank :=
  if h : trimIsEmpty value then .error (.emptyIdentifier kind)
  else .ok ⟨value, by simpa using h⟩

def EnvelopeId.new (value : String) : Except UplinkError EnvelopeId :=
  NonBlank.check "envelope ID" value

def GapId.new (value : String) : Except UplinkError GapId :=
  NonBlank.check "gap ID" value

@[simp] theorem EnvelopeId.new_asStr (id : EnvelopeId) : EnvelopeId.new id.asStr = .ok id := by
  obtain ⟨val, hval⟩ := id
  simp [EnvelopeId.new, NonBlank.check, EnvelopeId.asStr, hval]
  rfl

def SequenceRange.new (start through : Nat) : Except UplinkError SequenceRange :=
  if h : through < start then .error (.invalidSequenceRange start through)
  else .ok ⟨start, through, by omega⟩

/-- Whether an outbox record may become an explicit loss marker under
pressure. -/
inductive RetentionClass where
  | evictable
  | protected_
deriving DecidableEq

structure UplinkRecord where
  sequence : Nat
  envelopeId : EnvelopeId
  payload : Bytes
  retention : RetentionClass
deriving DecidableEq

/-- A durable loss marker that must be retained until its acknowledgement. -/
structure UplinkGap where
  gapId : GapId
  ranges : List SequenceRange
  reason : String
deriving DecidableEq

def rangesCover (ranges : List SequenceRange) (q : Nat) : Prop :=
  ∃ range ∈ ranges, range.start ≤ q ∧ q ≤ range.through

def validateSortedNonOverlapping : List SequenceRange → Except UplinkError Unit
  | a :: b :: rest =>
    if a.start ≥ b.start ∨ a.through ≥ b.start then .error .nonCanonicalRanges
    else validateSortedNonOverlapping (b :: rest)
  | _ => .ok ()

/-- A cloud cumulative acknowledgement and its non-authoritative recovery
hint. -/
structure UplinkAck where
  committedThrough : Nat
  missingRanges : List SequenceRange
  moreMissing : Bool
  length_le : missingRanges.length ≤ maxMissingRanges
  canonical : validateSortedNonOverlapping missingRanges = .ok ()

namespace UplinkAck

def new (committedThrough : Nat) (missingRanges : List SequenceRange) (moreMissing : Bool) :
    Except UplinkError UplinkAck :=
  if hlen : missingRanges.length > maxMissingRanges then
    .error (.tooManyMissingRanges missingRanges.length maxMissingRanges)
  else
    match hcanon : validateSortedNonOverlapping missingRanges with
    | .error e => .error e
    | .ok () => .ok ⟨committedThrough, missingRanges, moreMissing, by omega, hcanon⟩

def plain (committedThrough : Nat) : UplinkAck :=
  ⟨committedThrough, [], false, by decide, rfl⟩

end UplinkAck

structure AckOutcome where
  committedThrough : Nat
  deletedSequences : List Nat
  advanced : Bool

structure GapAckOutcome where
  gapId : GapId
  committedThrough : Nat
  advanced : Bool
  alreadyAccepted : Bool
deriving DecidableEq

/-! ## Compressing a set of sequences into ranges -/

/-- The distinct sequences a loss names; repeating one is an error. -/
def selectInto (selected : Std.ExtTreeSet Nat) :
    List Nat → Except UplinkError (Std.ExtTreeSet Nat)
  | [] => .ok selected
  | sequence :: rest =>
    if sequence ∈ selected then .error (.duplicateLossSequence sequence)
    else selectInto (selected.insert sequence) rest

def selectedSequences (sequences : List Nat) : Except UplinkError (Std.ExtTreeSet Nat) :=
  if sequences.isEmpty then .error .emptyGap else selectInto ∅ sequences

/-- The loop of `ranges_for`: `current` is the range being grown. -/
def rangesFrom (current : SequenceRange) : List Nat → List SequenceRange
  | [] => [current]
  | sequence :: rest =>
    if h : checkedSucc current.through = some sequence then
      rangesFrom ⟨current.start, sequence, by
        have := current.le
        have := (checkedSucc_eq_some.mp h).2
        omega⟩ rest
    else current :: rangesFrom ⟨sequence, sequence, Nat.le_refl _⟩ rest

def rangesFor (sequences : Std.ExtTreeSet Nat) : List SequenceRange :=
  match sequences.toList with
  | [] => []
  | start :: rest => rangesFrom ⟨start, start, Nat.le_refl _⟩ rest

variable {sequences : List Nat} {selected : Std.ExtTreeSet Nat}

theorem selectInto_ok {result : Std.ExtTreeSet Nat} (h : selectInto selected sequences = .ok result)
    (q : Nat) : q ∈ result ↔ q ∈ selected ∨ q ∈ sequences := by
  induction sequences generalizing selected with
  | nil =>
    cases h
    simp
  | cons a rest ih =>
    unfold selectInto at h
    split at h
    · cases h
    · rw [ih h, Std.ExtTreeSet.mem_insert, Std.compare_eq_iff_eq, List.mem_cons]
      tauto

theorem mem_selectedSequences (h : selectedSequences sequences = .ok selected) (q : Nat) :
    q ∈ selected ↔ q ∈ sequences := by
  unfold selectedSequences at h
  split at h
  · cases h
  · simp [selectInto_ok h]

theorem rangesFrom_cover (current : SequenceRange) (sequences : List Nat) (q : Nat) :
    rangesCover (rangesFrom current sequences) q ↔
      (current.start ≤ q ∧ q ≤ current.through) ∨ q ∈ sequences := by
  induction sequences generalizing current with
  | nil => simp [rangesFrom, rangesCover]
  | cons a rest ih =>
    unfold rangesFrom
    rw [List.mem_cons]
    split
    next h =>
      obtain ⟨-, rfl⟩ := checkedSucc_eq_some.mp h
      have hle := current.le
      rw [ih, ← or_assoc]
      refine or_congr_left ?_
      dsimp only
      omega
    · have hcons := ih ⟨a, a, le_refl _⟩
      simp only [rangesCover, List.mem_cons, exists_eq_or_imp] at hcons ⊢
      rw [hcons, and_comm (a := a ≤ q), Nat.le_antisymm_iff]

theorem rangesFor_cover (sequences : Std.ExtTreeSet Nat) (q : Nat) :
    rangesCover (rangesFor sequences) q ↔ q ∈ sequences := by
  rw [← Std.ExtTreeSet.mem_toList, rangesFor]
  split
  next h => simp [h, rangesCover]
  next start rest h => rw [rangesFrom_cover, h, List.mem_cons, and_comm, Nat.le_antisymm_iff]

end VodogeEdge
