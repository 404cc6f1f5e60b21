import VodogeEdge.LinkPhase

/-!
# The replay window over whole runs

What `step_advances` says of one step, followed through runs: what is
sent lies in the window (`step_inWindow`), a gap head reported over and
over is resent at most once more than if nobody had reported it
(`sends_named`), and one that is new is resent by the next replay
(`chased_sent`).
-/

namespace VodogeEdge

open Outbox

variable {J : Type} {wire : Wire J} {O : Type}

namespace Link

variable [Outbox O] {good : O → Prop}

/-! ## The window -/

/-- What the step sends: records retained at that moment, at most
`replayWindow` above what is committed, and without a gap. Every call applies
its acknowledgement first, so the outbox it leaves is the one it sent from. -/
structure InWindow (wire : Wire J) (link : Link O J) (event : LinkEvent J good) : Prop where
  window : ∀ envelope ∈ link.handed wire event, envelope.seq ≠ none →
    ∃ record ∈ Outbox.records (link.step wire event).worker.outbox,
      envelope.Carries wire record
        ∧ Outbox.committedThrough (link.step wire event).worker.outbox < record.sequence
        ∧ record.sequence
          ≤ Outbox.committedThrough (link.step wire event).worker.outbox + replayWindow
  consecutive : ∃ first n, (link.handed wire event).filterMap (·.seq) = List.range' first n

theorem step_inWindow (hw : Outbox.Windowed good) (wire : Wire J) {link : Link O J}
    (ho : good link.worker.outbox) (event : LinkEvent J good) : InWindow wire link event := by
  obtain ⟨through, n, hadvances⟩ := step_advances hw wire ho event
  refine ⟨fun envelope he hseq => ?_, through + 1, n, hadvances.seqs⟩
  obtain ⟨record, hr, hcarries⟩ := hadvances.carried envelope he hseq
  have hmem : record.sequence ∈ List.range' (through + 1) n := by
    rw [← hadvances.seqs]
    exact List.mem_filterMap.mpr ⟨envelope, he, hcarries.seq⟩
  rw [List.mem_range'_1] at hmem
  obtain ⟨hcommitted, hlast, -⟩ := hadvances.room (by omega)
  exact ⟨record, hr, hcarries, by omega, by omega⟩

/-! ## How often a sequence is sent -/

def sends (wire : Wire J) (h : Nat) (link : Link O J) (events : List (LinkEvent J good)) : Nat :=
  (outputs (step wire) (handed wire) link events).flatten.countP (·.seq == some h)

theorem sends_cons (wire : Wire J) (h : Nat) (link : Link O J) (event : LinkEvent J good)
    (events : List (LinkEvent J good)) :
    sends wire h link (event :: events) = (link.handed wire event).countP (·.seq == some h)
      + sends wire h (link.step wire event) events := by
  rw [sends, outputs, List.flatten_cons, List.countP_append, ← sends]

/-- If the step is an acknowledgement, the lowest sequence it reports
missing is `h`. -/
def Names (wire : Wire J) (h : Nat) (link : Link O J) (event : LinkEvent J good) : Prop :=
  ∀ ranges, link.missing wire event = some ranges → UplinkWorker.lowestMissing ranges = some h

section
variable {h : Nat} {link : Link O J} {event : LinkEvent J good}

theorem Names.named (hnames : Names wire h link event) {ranges : List WireRange}
    (hmissing : link.missing wire event = some ranges) : link.named wire event = some h :=
  Option.bind_eq_some_iff.mpr ⟨ranges, hmissing, hnames ranges hmissing⟩

theorem Names.hinted_eq (hnames : Names wire h link event)
    (hmemo : link.worker.gapResentFrom = some h) : link.hinted wire event = link.worker := by
  cases hmissing : link.missing wire event with
  | none =>
    rw [hinted, hmissing]
    rfl
  | some ranges =>
    rcases named_cases (hnames.named hmissing) with ⟨-, heq⟩ | ⟨hnew, -⟩
    · exact heq
    · exact absurd hmemo hnew

theorem hinted_memo_of_named (hnamed : link.named wire event = some h) :
    (link.hinted wire event).gapResentFrom = some h := by
  rcases named_cases hnamed with ⟨hsame, heq⟩ | ⟨-, heq⟩
  · rw [heq, hsame]
  · rw [heq]

end

/-- While every acknowledgement names the head being chased, it is sent at
most once, and only if the cursor was below it. -/
theorem sends_chasing (hw : Outbox.Windowed good) {h : Nat} :
    ∀ (events : List (LinkEvent J good)) {link : Link O J}, link.worker.Sound good →
      link.worker.gapResentFrom = some h → Along (step wire) (Names wire h) link events →
        sends wire h link events ≤ if link.worker.replayThrough < h then 1 else 0
  | [], _, _, _, _ => Nat.zero_le _
  | event :: events, link, hsound, hmemo, ⟨hnames, halong⟩ => by
    obtain ⟨through, n, hadvances⟩ := step_advances hw wire hsound.outbox event
    rw [hnames.hinted_eq hmemo] at hadvances
    have hrest := sends_chasing hw events (sound_step hw wire hsound event)
      (hadvances.memo.trans hmemo) halong
    have hstep := hadvances.count_le h
    rw [sends_cons]
    omega

end Link

/-! ## The same run without the reports -/

/-- Reads acknowledgements without the ranges they report missing. -/
def Wire.silent (wire : Wire J) : Wire J :=
  { wire with
    decodeResumeAck := fun payload =>
      (wire.decodeResumeAck payload).map fun ack =>
        { ack with missingRanges := [], moreMissing := false }
    decodeUplinkAck := fun payload =>
      (wire.decodeUplinkAck payload).map fun ack =>
        { ack with missingRanges := [], moreMissing := false } }

namespace LinkSession

variable {self : LinkSession} {envelope : Envelope J} {now : Nat}

theorem onResumeAck_silent
    (h : (self.onResumeAck wire envelope now).1.toOption.bind Inbound.missing = none) :
    self.onResumeAck wire.silent envelope now = self.onResumeAck wire envelope now := by
  unfold onResumeAck at h ⊢
  cases hdecode : wire.decodeResumeAck envelope.payload with
  | error reason => simp [Wire.silent, hdecode, Except.map]
  | ok ack =>
    simp only [Wire.silent, hdecode, Except.map] at h ⊢
    split_ifs at h ⊢
    · rfl
    · rfl
    · cases h

theorem onUplinkAck_silent
    (h : (self.onUplinkAck wire envelope now).1.toOption.bind Inbound.missing = none) :
    self.onUplinkAck wire.silent envelope now = self.onUplinkAck wire envelope now := by
  unfold onUplinkAck at h ⊢
  cases hdecode : wire.decodeUplinkAck envelope.payload with
  | error reason => simp [Wire.silent, hdecode, Except.map]
  | ok ack =>
    simp only [Wire.silent, hdecode, Except.map] at h ⊢
    split_ifs at h ⊢
    · rfl
    · rfl
    · cases h

theorem onInbound_silent
    (h : (self.onInbound wire envelope now).1.toOption.bind Inbound.missing = none) :
    self.onInbound wire.silent envelope now = self.onInbound wire envelope now := by
  unfold onInbound at h ⊢
  cases hvalid : envelope.validateSequence with
  | error reason => rfl
  | ok u =>
    by_cases hdevice : envelope.deviceId ≠ self.config.deviceId
    · rw [if_pos hdevice, if_pos hdevice]
    rw [hvalid] at h
    rw [if_neg hdevice] at h
    rw [if_neg hdevice, if_neg hdevice]
    cases hkind : envelope.kind with
    | resumeAck =>
      rw [hkind] at h
      exact onResumeAck_silent h
    | uplinkAck =>
      rw [hkind] at h
      exact onUplinkAck_silent h
    | _ => rfl

end LinkSession

namespace UplinkWorker

theorem replayRecords_silent (now : Nat) : ∀ records
    (self : UplinkWorker O) conn budget,
    replayRecords wire.silent now self conn budget records
      = replayRecords wire now self conn budget records
  | [], _, _, _ => rfl
  | record :: records, self, conn, budget => by
    have hrecord : self.sequencedEnvelope wire.silent record now
        = self.sequencedEnvelope wire record now := rfl
    rw [replayRecords, replayRecords, hrecord]
    simp [replayRecords_silent]

variable [Outbox O]

theorem poll_silent (wire : Wire J) (self : UplinkWorker O) (conn : Conn J) (now : Nat) :
    self.poll wire.silent conn now = self.poll wire conn now := by
  have hsession : self.session.poll wire.silent now = self.session.poll wire now := rfl
  unfold poll replay
  simp [hsession, replayRecords_silent]

theorem onInbound_silent {self : UplinkWorker O} {conn : Conn J} {envelope : Envelope J}
    {now : Nat}
    (h : (self.session.onInbound wire envelope now).1.toOption.bind Inbound.missing = none) :
    self.onInbound wire.silent conn envelope now = self.onInbound wire conn envelope now := by
  unfold onInbound
  rw [LinkSession.onInbound_silent h]
  generalize self.session.onInbound wire envelope now = r at h ⊢
  obtain ⟨result, session⟩ := r
  cases result with
  | error e => rfl
  | ok inbound =>
    cases inbound with
    | resumeAck | uplinkAck => cases h
    | _ => rfl

end UplinkWorker

namespace Link

variable [Outbox O] {good : O → Prop} {link : Link O J} {event : LinkEvent J good} {h : Nat}

theorem step_silent (h : link.missing wire event = none) :
    link.step wire.silent event = link.step wire event
      ∧ link.handed wire.silent event = link.handed wire event := by
  cases event with
  | start answers now => exact ⟨rfl, rfl⟩
  | on event =>
    have hevent : link.onEvent wire.silent event = link.onEvent wire event := by
      cases event with
      | inbound envelope now =>
        rw [onEvent, onEvent, inbound_eq, inbound_eq, UplinkWorker.onInbound_silent h]
      | poll now => rw [onEvent, onEvent, poll_eq, poll_eq, UplinkWorker.poll_silent]
      | disconnect | grow => rfl
    exact ⟨hevent, by rw [handed, handed, hevent]⟩

/-- A run in which every acknowledgement names `h` sends it at most once
more than the same run without the reports. -/
theorem sends_named (hw : Outbox.Windowed good) {h : Nat} :
    ∀ (events : List (LinkEvent J good)) {link : Link O J}, link.worker.Sound good →
      Along (step wire) (Names wire h) link events →
        sends wire h link events ≤ sends wire.silent h link events + 1
  | [], _, _, _ => Nat.zero_le _
  | event :: events, link, hsound, ⟨hnames, halong⟩ => by
    have hnext := sound_step hw wire hsound event
    cases hmissing : link.missing wire event with
    | none =>
      -- up to the first report the two runs are the same
      obtain ⟨hstep, hhanded⟩ := step_silent hmissing
      have hrest := sends_named hw events hnext halong
      rw [sends_cons, sends_cons, hhanded, hstep]
      omega
    | some ranges =>
      obtain ⟨through, n, hadvances⟩ := step_advances hw wire hsound.outbox event
      have hmemo := hadvances.memo.trans (hinted_memo_of_named (hnames.named hmissing))
      have hrest := sends_chasing hw events hnext hmemo halong
      have hcount := hadvances.count_le h
      rw [sends_cons]
      have hone : (if (link.hinted wire event).replayThrough < h then 1 else 0) ≤ 1 := by
        split <;> omega
      omega

/-! ## A new gap head -/

def lastChased (wire : Wire J) (link : Link O J) (events : List (LinkEvent J good)) : Option Nat :=
  ((outputs (step wire) (named wire) link events).filterMap id).getLast?

theorem lastChased_snoc (wire : Wire J) (link : Link O J) (events : List (LinkEvent J good))
    (event : LinkEvent J good) :
    lastChased wire link (events ++ [event])
      = ((runFrom (step wire) link events).named wire event).or (lastChased wire link events) := by
  rw [lastChased, outputs_snoc]
  cases (runFrom (step wire) link events).named wire event with
  | none => simp [lastChased]
  | some h => simp

theorem hinted_memo (wire : Wire J) (link : Link O J) (event : LinkEvent J good) :
    (link.hinted wire event).gapResentFrom = none
      ∨ (link.hinted wire event).gapResentFrom
        = (link.named wire event).or link.worker.gapResentFrom := by
  cases hnamed : link.named wire event with
  | some h => exact .inr (hinted_memo_of_named hnamed)
  | none =>
    unfold hinted
    unfold named at hnamed
    cases hmissing : link.missing wire event with
    | none => exact .inr rfl
    | some ranges =>
      rw [hmissing, Option.bind_some] at hnamed
      change (link.worker.hinted ranges).gapResentFrom = none
        ∨ (link.worker.hinted ranges).gapResentFrom = link.worker.gapResentFrom
      rcases link.worker.hinted_cases ranges with ⟨-, memo, hmemo, heq⟩ | ⟨h, hsome, -⟩
      · rwa [heq]
      · rw [hnamed] at hsome
        cases hsome

theorem memo_lastChased (hw : Outbox.Windowed good) (wire : Wire J) (config : LinkConfig)
    {outbox : O} (ho : good outbox) (events : List (LinkEvent J good)) :
    (runFrom (step wire) (new config outbox) events).worker.gapResentFrom = none
      ∨ (runFrom (step wire) (new config outbox) events).worker.gapResentFrom
        = lastChased wire (new config outbox) events := by
  refine runFrom_history (I := fun events (link : Link O J) => link.worker.gapResentFrom = none
    ∨ link.worker.gapResentFrom = lastChased wire (new config outbox) events)
    (.inl rfl) ?_ events
  intro events event ih
  obtain ⟨through, n, hadvances⟩ :=
    step_advances hw wire (sound_run hw wire config ho events).outbox event
  rw [hadvances.memo, lastChased_snoc]
  rcases hinted_memo wire (runFrom (step wire) (new config outbox) events) event with hnone | hnamed
  · exact .inl hnone
  · rw [hnamed]
    cases (runFrom (step wire) (new config outbox) events).named wire event with
    | none => exact ih
    | some h => exact .inr rfl

theorem hinted_below
    (hnamed : link.named wire event = some h) (hnew : link.worker.gapResentFrom ≠ some h)
    (hpos : 0 < h) : (link.hinted wire event).replayThrough < h := by
  rcases named_cases hnamed with ⟨hsame, -⟩ | ⟨-, heq⟩
  · exact absurd hsame hnew
  · rw [heq]
    change min link.worker.replayThrough (h - 1) < h
    omega

theorem sends_cons_or {events : List (LinkEvent J good)} {later final : Prop}
    (hstep : 0 < (link.handed wire event).countP (·.seq == some h) ∨ later)
    (hrest : later → 0 < sends wire h (link.step wire event) events ∨ final) :
    0 < sends wire h link (event :: events) ∨ final := by
  rw [sends_cons]
  rcases hstep with hsent | hlater
  · exact .inl (by omega)
  · exact (hrest hlater).imp_left fun hsent => by omega

/-- A sequence the cursor is below stays so until it is sent or
committed. -/
theorem pending_run (hw : Outbox.Windowed good) (wire : Wire J) {h : Nat} :
    ∀ (events : List (LinkEvent J good)) {link : Link O J}, link.worker.Sound good →
      h ≤ committedThrough link.worker.outbox ∨ link.worker.replayThrough < h →
        0 < sends wire h link events
          ∨ h ≤ committedThrough (runFrom (step wire) link events).worker.outbox
          ∨ (runFrom (step wire) link events).worker.replayThrough < h
  | [], _, _, hpending => .inr hpending
  | event :: events, link, hsound, hpending => by
    obtain ⟨through, n, hadvances⟩ := step_advances hw wire hsound.outbox event
    obtain ⟨houtbox, hthrough⟩ := hinted_cursor wire link event
    exact sends_cons_or (hadvances.pending (by rw [houtbox]; omega))
      (pending_run hw wire events (sound_step hw wire hsound event))

/-- However the run goes on from the step, at the end of a replay that
returned, the record has been sent or is no longer retained. -/
def SentAgain (wire : Wire J) (h : Nat) (link : Link O J) (event : LinkEvent J good) : Prop :=
  ∀ more last, (more ++ [last]).head? = some event →
    Replays wire (runFrom (step wire) link more) last →
    (∃ record ∈ Outbox.records (runFrom (step wire) link (more ++ [last])).worker.outbox,
      record.sequence = h) →
    0 < sends wire h link (more ++ [last])

theorem committed_run (hw : Outbox.Windowed good) (wire : Wire J)
    (hsound : link.worker.Sound good) (events : List (LinkEvent J good)) :
    (runFrom (step wire) link events).worker.Sound good
      ∧ committedThrough link.worker.outbox
        ≤ committedThrough (runFrom (step wire) link events).worker.outbox := by
  refine runFrom_invariant (I := fun reached : Link O J => reached.worker.Sound good
    ∧ committedThrough link.worker.outbox
      ≤ committedThrough reached.worker.outbox) ?_ events ⟨hsound, le_refl _⟩
  rintro reached event ⟨hsound, hle⟩
  obtain ⟨through, n, hadvances⟩ := step_advances hw wire hsound.outbox event
  have hcommitted := hadvances.committed
  rw [(hinted_cursor wire reached event).1] at hcommitted
  exact ⟨sound_step hw wire hsound event, le_trans hle hcommitted⟩

/-- What was sent once was in the window, and the window only moves up. -/
theorem sends_within (hw : Outbox.Windowed good) (wire : Wire J) {h : Nat} :
    ∀ (events : List (LinkEvent J good)) {link : Link O J}, link.worker.Sound good →
      0 < sends wire h link events →
        h ≤ committedThrough (runFrom (step wire) link events).worker.outbox + replayWindow
  | [], _, _, hsent => absurd hsent (lt_irrefl 0)
  | event :: events, link, hsound, hsent => by
    have hnext := sound_step hw wire hsound event
    rw [sends_cons] at hsent
    rw [runFrom_cons]
    by_cases hlater : 0 < sends wire h (link.step wire event) events
    · exact sends_within hw wire events hnext hlater
    · obtain ⟨through, n, hadvances⟩ := step_advances hw wire hsound.outbox event
      obtain ⟨-, hcommitted⟩ := committed_run hw wire hnext events
      rw [hadvances.count_seq] at hsent
      split at hsent
      · obtain ⟨-, hroom, -⟩ := hadvances.room (by omega)
        omega
      · omega

theorem chased_sent (hw : Outbox.Windowed good) (hsound : link.worker.Sound good)
    (hnamed : link.named wire event = some h) (hnew : link.worker.gapResentFrom ≠ some h)
    (hwindow : h ≤ committedThrough link.worker.outbox + replayWindow) :
    SentAgain wire h link event := by
  intro more last hhead hreplays ⟨record, hr, hseq⟩
  obtain ⟨rest, hrun⟩ : ∃ rest, more ++ [last] = event :: rest :=
    List.head?_eq_some_iff.mp hhead
  obtain ⟨hend, hcommitted⟩ := committed_run hw wire hsound (more ++ [last])
  obtain ⟨hlow, hhigh⟩ := hw.sequence_window hend.outbox hr
  -- the report puts the cursor below `h`
  have hrewound := hinted_below hnamed hnew (by omega)
  obtain ⟨through, n, hadvances⟩ := step_advances hw wire hsound.outbox event
  -- and it stays there until `h` is sent or committed
  have hpending := sends_cons_or (hadvances.pending (.inr hrewound))
    (pending_run hw wire rest (sound_step hw wire hsound event))
  rw [← runFrom_cons, ← hrun] at hpending
  rcases hpending with hsent | hgone | hbelow
  · exact hsent
  · omega
  · -- but a replay that returned leaves the cursor at the end of the window
    obtain ⟨hmore, -⟩ := committed_run hw wire hsound more
    obtain ⟨through', n', hlast⟩ := step_advances hw wire hmore.outbox last
    have hfull := hlast.full hreplays
    have hcursor := hlast.cursor
    rw [runFrom_snoc] at hbelow hcommitted hhigh
    omega

/-- In every run of a worker over a windowed outbox that may grow at any time:

- each step sends records retained then, at most `replayWindow` above what
  is committed, in increasing order and without a gap;
- acknowledgements that all name `h` as the lowest missing sequence have it
  sent at most once more than it would be without their reports;
- one that names another head than the last one chased has it sent by the
  next replay, if it is retained and was sent before or is within the window. -/
theorem replay_window (hw : Outbox.Windowed good) (wire : Wire J) (config : LinkConfig)
    {outbox : O} (ho : good outbox) (events : List (LinkEvent J good)) {initial link : Link O J}
    (hinitial : initial = new config outbox) (hlink : link = runFrom (step wire) initial events) :
    (∀ event : LinkEvent J good, InWindow wire link event)
      ∧ (∀ h (more : List (LinkEvent J good)), Along (step wire) (Names wire h) link more →
          sends wire h link more ≤ sends wire.silent h link more + 1)
      ∧ ∀ h (event : LinkEvent J good), link.named wire event = some h →
          lastChased wire initial events ≠ some h →
          (0 < sends wire h initial events
            ∨ h ≤ committedThrough link.worker.outbox + replayWindow) →
          SentAgain wire h link event := by
  subst hinitial hlink
  have hsound := sound_run hw wire config ho events
  refine ⟨step_inWindow hw wire hsound.outbox, fun h more => sends_named hw more hsound,
    fun h event hnamed hlast hreached => ?_⟩
  refine chased_sent hw hsound hnamed (fun hmemo => ?_) ?_
  · rcases memo_lastChased hw wire config ho events with hnone | hsame
    · rw [hnone] at hmemo
      cases hmemo
    · exact hlast (hsame.symm.trans hmemo)
  · rcases hreached with hsent | hwindow
    · exact sends_within hw wire events ⟨ho, Nat.zero_le _⟩ hsent
    · exact hwindow

def nothingStored : ResumeAckPayload :=
  { nothingCommitted "10000000-0000-4000-8000-000000000001" with missingRanges := [⟨1, 1⟩] }

def firstMissing : LinkEvent (Option ResumeAckPayload) DurableOutbox.InStep :=
  .on (.inbound (resumeAckOf nothingStored) 30000)

/-- Record 1 went out with the early poll; reported missing, it goes out
again. -/
theorem firstMissing_sent :
    0 < sends ackWire 1 (runFrom (step ackWire) (new quietConfig (DurableOutbox.openFresh 8))
      earlyPoll) [firstMissing] := by
  have hsent := (replay_window durable_windowed ackWire quietConfig
    (DurableOutbox.inStep_openFresh 8) earlyPoll rfl rfl).2.2 1 firstMissing (by decide)
    (by decide) (.inl (by decide))
  exact hsent [] firstMissing rfl ⟨.resumeAck nothingStored, _, rfl, by decide⟩
    ⟨⟨1, "a", "SmsReceived", []⟩, by decide, rfl⟩

end Link

end VodogeEdge
