import VodogeEdge.LinkGap

/-!
# Resending after a reconnect

One `UplinkWorker` over any number of connections. `replay_through` is
documented as the highest sequence handed to the transport *on this
connection*, but `start` does not reset it: after a reconnect the worker
skips what only an earlier connection was given, and since a lost tail
leaves no hole the peer could report, nothing ever rewinds the cursor.
-/

namespace VodogeEdge

open List Outbox UplinkWorker

variable {J : Type} {wire : Wire J} {O : Type} [Outbox O] {good : O → Prop}

def Outbox.lowestAbove (o : O) (c n : Nat) : List RetainedRecord :=
  ((sorted o).filter (c < ·.sequence)).take n

theorem Outbox.Windowed.mem_lowestAbove (hw : Outbox.Windowed good) {o : O} (ho : good o)
    {c : Nat} (hc : c ≤ committedThrough o) {n : Nat} {record : RetainedRecord} :
    record ∈ lowestAbove o c n ↔
      record ∈ records o ∧ record.sequence ≤ committedThrough o + n := by
  have hall : (sorted o).filter (c < ·.sequence) = sorted o := by
    refine filter_eq_self.mpr fun r hr => decide_eq_true ?_
    have := (hw.sequence_window ho (mem_sorted.mp hr)).1
    omega
  have hseq : ((sorted o).take n).map (·.sequence)
      = range' (committedThrough o + 1) (min n (lastAllocated o - committedThrough o)) := by
    rw [map_take, hw.sequences ho, take_upto, show lastAllocated o + 1 - (committedThrough o + 1)
        = lastAllocated o - committedThrough o by omega]
  rw [lowestAbove, hall]
  constructor
  · intro hr
    have hmem := mem_map_of_mem (f := (·.sequence)) hr
    rw [hseq, mem_range'_1] at hmem
    exact ⟨mem_sorted.mp (mem_of_mem_take hr), by omega⟩
  · rintro ⟨hr, hle⟩
    obtain ⟨h1, h2⟩ := hw.sequence_window ho hr
    have hmem : record.sequence ∈ ((sorted o).take n).map (·.sequence) := by
      rw [hseq, mem_range'_1]
      omega
    obtain ⟨record', hr', heq⟩ := mem_map.mp hmem
    have hnodup : ((records o).map (·.sequence)).Nodup :=
      (hw.window ho).nodup_iff.mpr (nodup_upto _ _)
    obtain rfl : record' = record := inj_on_of_nodup_map hnodup
      (mem_sorted.mp (mem_of_mem_take hr')) hr heq
    exact hr'

namespace Link

def OnConnection (wire : Wire J) (link : Link O J) (record : RetainedRecord) : Prop :=
  ∃ envelope ∈ link.conn.sent, envelope.Carries wire record

/-- What a reconnect owes the peer that has committed `c`: on the connection
are the lowest records above `c`, as many as the window allows, and every
retained record the replay cursor counts as sent. -/
def Resent (wire : Wire J) (link : Link O J) (c : Nat) : Prop :=
  (∀ record ∈ Outbox.lowestAbove link.worker.outbox c replayWindow,
      link.OnConnection wire record)
    ∧ ∀ record ∈ Outbox.records link.worker.outbox,
      record.sequence ≤ link.worker.replayThrough → link.OnConnection wire record

/-! ## Between `start` and ResumeAck -/

/-- Started with the cursor at `through` and `m` committed, and not resumed
yet, the connection holds what was handed over since, above both. -/
structure Waiting (good : O → Prop) (wire : Wire J) (through m : Nat) (link : Link O J) :
    Prop where
  sound : link.worker.Sound good
  committed : Outbox.committedThrough link.worker.outbox = m
  through_le : through ≤ link.worker.replayThrough
  carried : ∀ record ∈ Outbox.records link.worker.outbox, max through m < record.sequence →
    record.sequence ≤ link.worker.replayThrough → link.OnConnection wire record
  only : ∀ envelope ∈ link.conn.sent, ∀ q, envelope.seq = some q → max through m < q

theorem waiting_start (hw : Outbox.Windowed good) (wire : Wire J) {link : Link O J}
    (h : link.worker.Sound good) (answers : List (Option DialError)) (now : Nat) :
    Waiting good wire link.worker.replayThrough
      (committedThrough link.worker.outbox) (link.start wire answers now) := by
  obtain ⟨houtbox, hthrough, -⟩ := link.worker.start_cursor wire (Conn.dial answers) now
  have hsent := link.worker.start_sent wire (Conn.dial answers) now rfl
  refine ⟨sound_step hw wire h (.start answers now), ?_, le_of_eq hthrough.symm, ?_, ?_⟩
  · show committedThrough (link.worker.start wire (Conn.dial answers) now).2.1.outbox = _
    rw [houtbox]
  · intro record _ h1 h2
    have h2 : record.sequence
        ≤ (link.worker.start wire (Conn.dial answers) now).2.1.replayThrough := h2
    omega
  · intro envelope he q hq
    rw [hsent envelope he] at hq
    cases hq

section
variable {through m : Nat} {link : Link O J}

theorem Waiting.poll (hw : Outbox.Windowed good) (h : Waiting good wire through m link)
    {now : Nat} (hphase :
      (link.worker.poll wire link.conn now).2.1.session.phase = .resuming) :
    Waiting good wire through m (link.poll wire now) := by
  have hsound : (link.poll wire now).worker.Sound good :=
    sound_step hw wire h.sound (.on (.poll now))
  have hpoll := poll_waiting hphase
  have hlink : link.poll wire now
      = ⟨(link.worker.replay wire link.conn now).2.1,
          (link.worker.replay wire link.conn now).2.2⟩ := by
    rw [poll_eq, hpoll]
  rw [hlink] at hsound ⊢
  obtain ⟨n, envelopes, -, -, hsends, -⟩ :=
    replay_sent hw wire link.worker link.conn now h.sound.outbox rfl rfl
  have hreplayed := hsends.replayed hw h.sound.outbox
  have hworker := hreplayed.worker
  have hcommitted := h.committed
  have hle := h.through_le
  refine ⟨hsound, ?_, ?_, ?_, ?_⟩
  · rwa [hworker]
  · rw [hworker]
    show through ≤ max link.worker.replayThrough _ + n
    omega
  · intro record hr h1 h2
    rw [hworker] at hr h2
    by_cases hold : record.sequence ≤ link.worker.replayThrough
    · obtain ⟨envelope, he, hc⟩ := h.carried record hr h1 hold
      exact ⟨envelope, hreplayed.kept envelope he, hc⟩
    · exact hreplayed.carried record hr (by omega) h2
  · intro envelope he q hq
    rcases hreplayed.only envelope he with hold | ⟨record, -, h1, -, hc⟩
    · exact h.only envelope hold q hq
    · have hq' : record.sequence = q := Option.some.inj (hc.seq.symm.trans hq)
      omega

theorem Waiting.grow (hw : Outbox.Windowed good) (h : Waiting good wire through m link)
    (growth : Outbox.Growth good) :
    Waiting good wire through m (link.onEvent wire (.grow growth)) where
  sound := sound_step hw wire h.sound (.on (.grow growth))
  committed := (growth.committedThrough_apply h.sound.outbox).trans h.committed
  through_le := h.through_le
  carried := by
    intro record hr h1 h2
    have hle : record.sequence ≤ lastAllocated link.worker.outbox :=
      le_trans h2 h.sound.through
    exact h.carried record (growth.kept h.sound.outbox hr hle) h1 h2
  only := h.only

/-- As long as the session waits for ResumeAck, every event keeps it so;
one that no longer waits never waits again on this connection. -/
theorem waiting_onEvent (hw : Outbox.Windowed good)
    (h : link.worker.session.phase = .resuming → Waiting good wire through m link)
    (event : ConnEvent J good)
    (hphase : (link.onEvent wire event).worker.session.phase = .resuming) :
    Waiting good wire through m (link.onEvent wire event) := by
  cases event with
  | inbound envelope now =>
    have hsame : (link.worker.onInbound wire link.conn envelope now).2
        = (link.worker, link.conn) := onInbound_waiting hphase
    have hlink : link.inbound wire envelope now = link := by rw [inbound_eq, hsame]
    rw [onEvent, hlink] at hphase ⊢
    exact h hphase
  | poll now =>
    have hpoll : (link.worker.poll wire link.conn now).2.1.session.phase = .resuming := hphase
    have hquiet := hpoll
    rw [poll_session] at hquiet
    have hsession := LinkSession.poll_waiting hquiet
    rw [hsession] at hquiet
    exact (h hquiet).poll hw hpoll
  | disconnect now =>
    have hdropped := link.worker.markDropped_phase now
    have hphase : (link.worker.markDropped now).session.phase = .resuming := hphase
    rw [hdropped] at hphase
    cases hphase
  | grow growth => exact (h hphase).grow hw growth

theorem waiting_run (hw : Outbox.Windowed good) (h : Waiting good wire through m link)
    (between : List (ConnEvent J good))
    (hphase : (runFrom (onEvent wire) link between).worker.session.phase = .resuming) :
    Waiting good wire through m (runFrom (onEvent wire) link between) :=
  runFrom_invariant
    (I := fun link : Link O J =>
      link.worker.session.phase = .resuming → Waiting good wire through m link)
    (fun _ event hlink => waiting_onEvent hw hlink event) between (fun _ => h) hphase

/-! ## ResumeAck -/

variable (hw : Outbox.Windowed good) (h : Waiting good wire through m link)
  {envelope : Envelope J} {now : Nat} {ack : ResumeAckPayload}
  (hack : (link.worker.onInbound wire link.conn envelope now).1 = .ok (.resumeAck ack))
  (hgaps : ack.missingRanges = [])
include hw h hack hgaps

/-- An accepted ResumeAck moves the committed cursor to `max m c` and then
replays as much as the window allows. -/
theorem Waiting.resumed :
    ∃ sender base n, good sender.outbox
      ∧ committedThrough sender.outbox = max m ack.committedThrough
      ∧ (∀ record ∈ records sender.outbox, record ∈ records link.worker.outbox)
      ∧ base = max link.worker.replayThrough (committedThrough sender.outbox)
      ∧ n = min (replayWindow - (base - committedThrough sender.outbox))
          (lastAllocated sender.outbox - base)
      ∧ link.worker.replayThrough ≤ lastAllocated sender.outbox
      ∧ UplinkWorker.Replayed wire sender link.conn base n
          ((link.inbound wire envelope now).worker, (link.inbound wire envelope now).conn) := by
  obtain ⟨-, session, hacknowledge⟩ := onInbound_resumeAck hack
  rw [hgaps] at hacknowledge
  obtain ⟨observed, retired, outbox, hc, hobserved, hreplay⟩ :=
    acknowledge_ok hacknowledge
  obtain ⟨hgood, hlast, hcommitted, hsub⟩ := hw.acked h.sound.outbox hobserved
  obtain ⟨n, envelopes, -, -, hsends, hfull⟩ := replay_sent hw wire
    { link.worker with session, gapResentFrom := none, outbox } link.conn now hgood rfl rfl
  have hreplayed := hsends.replayed hw hgood
  rw [hreplay] at hreplayed hfull
  refine ⟨_, _, n, hgood, ?_, hsub, rfl, hfull rfl, ?_, hreplayed⟩
  · rw [hcommitted, hc, ← h.committed]
  · rw [hlast]
    exact h.sound.through

/-- What the accepted ResumeAck leaves is resent exactly when the cursor
carried over is at most what is committed then. -/
theorem Waiting.resent_iff :
    Resent wire (link.inbound wire envelope now) ack.committedThrough
      ↔ through ≤ max m ack.committedThrough := by
  obtain ⟨sender, base, n, hgood, hm, hsub, hbase, hn, hin, hreplayed⟩ := h.resumed hw hack hgaps
  have hle := h.through_le
  have hworker : (link.inbound wire envelope now).worker
      = { sender with replayThrough := base + n } := hreplayed.worker
  unfold Resent
  rw [hworker]
  rw [replayWindow] at hn
  constructor
  · rintro ⟨hlowest, -⟩
    by_contra hnot
    -- the lowest retained record is below the cursor carried over
    obtain ⟨record, hr, hq⟩ := hw.exists_record hgood
      (q := committedThrough sender.outbox + 1) (by omega) (by omega)
    have hmem := (hw.mem_lowestAbove hgood (c := ack.committedThrough) (n := replayWindow)
      (by omega)).mpr ⟨hr, by rw [replayWindow]; omega⟩
    obtain ⟨carrier, he, hcarry⟩ := hlowest record hmem
    rcases hreplayed.only carrier he with hold | ⟨record', -, h1, -, hcarry'⟩
    · have := h.only carrier hold _ hcarry.seq
      omega
    · have hsame : record'.sequence = record.sequence :=
        Option.some.inj (hcarry'.seq.symm.trans hcarry.seq)
      omega
  · intro hthrough_le
    have hall : ∀ record ∈ records sender.outbox, record.sequence ≤ base + n →
        OnConnection wire (link.inbound wire envelope now) record := by
      intro record hr hseq
      have habove := (hw.sequence_window hgood hr).1
      by_cases hnew : base < record.sequence
      · exact hreplayed.carried record hr hnew hseq
      · obtain ⟨carrier, he, hcarry⟩ := h.carried record (hsub record hr) (by omega) (by omega)
        exact ⟨carrier, hreplayed.kept carrier he, hcarry⟩
    refine ⟨fun record hr => ?_, hall⟩
    obtain ⟨hr, hseq⟩ := (hw.mem_lowestAbove hgood (by omega)).mp hr
    have hwindow := (hw.sequence_window hgood hr).2
    refine hall record hr ?_
    rw [replayWindow] at hseq
    omega

end

/-- In every run of one worker over any number of connections: start it on a
new connection and let anything happen until a ResumeAck with cursor `c` and no
holes is accepted. What the peer is owed has then been put on that connection
exactly if the replay cursor the worker came with is at most what is committed,
by the outbox or by `c`. -/
theorem reconnect_resends_iff (hw : Outbox.Windowed good) (config : LinkConfig) {outbox : O}
    (ho : good outbox) (before : List (LinkEvent J good)) (answers : List (Option DialError))
    (started : Nat) (between : List (ConnEvent J good)) (envelope : Envelope J) (now : Nat)
    (ack : ResumeAckPayload) {earlier reached : Link O J}
    (hearlier : earlier = runFrom (step wire) (new config outbox) before)
    (hreached : reached = runFrom (onEvent wire) (earlier.start wire answers started) between)
    (hack : (reached.worker.onInbound wire reached.conn envelope now).1 = .ok (.resumeAck ack))
    (hgaps : ack.missingRanges = []) :
    Resent wire (reached.inbound wire envelope now) ack.committedThrough
      ↔ earlier.worker.replayThrough
          ≤ max (committedThrough earlier.worker.outbox) ack.committedThrough := by
  have hsound : earlier.worker.Sound good := by
    rw [hearlier]
    exact sound_run hw wire config ho before
  have hstart := waiting_start hw wire hsound answers started
  have hphase := (onInbound_resumeAck hack).1
  rw [hreached] at hphase
  have hwaiting := waiting_run hw hstart between hphase
  rw [← hreached] at hwaiting
  exact hwaiting.resent_iff hw hack hgaps

/-! ## A lost tail -/

def ackWire : Wire (Option ResumeAckPayload) where
  encodeResume _ := none
  encodePing _ := none
  decodeResumeAck
    | some ack => .ok ack
    | none => .error "missing field connection_id"
  decodeUplinkAck _ := .error "missing field connection_id"
  decodePong _ := .error "missing field connection_id"
  decodeProtocolError _ := .error "missing field code"
  parse _ := .ok none

def quietConfig : LinkConfig where
  deviceId := "dev-1"
  snapshot := ⟨0, 0, none, [], "1", none, none, none, none⟩
  pingInterval := VodogeEdge.pingInterval
  idleTimeout := VodogeEdge.idleTimeout
  initialBackoff := VodogeEdge.initialBackoff
  maxBackoff := VodogeEdge.maxBackoff

def nothingCommitted (connectionId : String) : ResumeAckPayload :=
  ⟨connectionId, 0, [], false, 32, 0⟩

def resumeAckOf (ack : ResumeAckPayload) : Envelope (Option ResumeAckPayload) :=
  ⟨protocolVersion, .resumeAck, "r-1", 0, "dev-1", none, none, some ack⟩

/-- One record is handed to the first connection, which then drops. -/
def lostTail : List (LinkEvent (Option ResumeAckPayload) DurableOutbox.InStep) :=
  [.on (.grow (DurableOutbox.growth (NonBlank.mk "a" rfl) "SmsReceived" [])),
   .start [] 0,
   .on (.inbound (resumeAckOf (nothingCommitted "10000000-0000-4000-8000-000000000001")) 0),
   .on (.disconnect 0)]

def afterLostTail : Link DurableOutbox (Option ResumeAckPayload) :=
  runFrom (step ackWire) (new quietConfig (DurableOutbox.openFresh 8)) lostTail

/-- The second connection of that worker, resumed at cursor 0. -/
def secondConnection : Link DurableOutbox (Option ResumeAckPayload) :=
  (afterLostTail.start ackWire [] 1000).inbound ackWire
    (resumeAckOf (nothingCommitted "10000000-0000-4000-8000-000000000002")) 1000

/-- Record 1 is still retained and nobody acknowledged it, but the second
connection carries nothing but Resume. -/
theorem second_connection_gets_nothing :
    (afterLostTail.worker.start ackWire (Conn.dial []) 1000).1
        = .ok "10000000-0000-4000-8000-000000000002"
      ∧ ((afterLostTail.start ackWire [] 1000).worker.onInbound ackWire
          (afterLostTail.start ackWire [] 1000).conn
          (resumeAckOf (nothingCommitted "10000000-0000-4000-8000-000000000002")) 1000).1
        = .ok (.resumeAck (nothingCommitted "10000000-0000-4000-8000-000000000002"))
      ∧ (records secondConnection.worker.outbox).map (·.sequence) = [1]
      ∧ secondConnection.conn.sent.map (·.kind) = [.resume]
      ∧ ¬Resent ackWire secondConnection 0 := by
  refine ⟨by decide, by decide, by decide, by decide, ?_⟩
  rintro ⟨hlowest, -⟩
  have hmem : (⟨1, "a", "SmsReceived", []⟩)
      ∈ lowestAbove secondConnection.worker.outbox 0 replayWindow := by decide
  have hresume : ∀ envelope ∈ secondConnection.conn.sent, envelope.seq = none := by decide
  obtain ⟨envelope, he, hcarry⟩ := hlowest _ hmem
  exact absurd (hcarry.seq.symm.trans (hresume envelope he)) (by decide)

/-- On its first connection the same worker resends the record. -/
theorem first_connection_resends :
    Resent ackWire
      (((runFrom (step ackWire) (new quietConfig (DurableOutbox.openFresh 8))
          (lostTail.take 1)).start ackWire [] 0).inbound ackWire
        (resumeAckOf (nothingCommitted "10000000-0000-4000-8000-000000000001")) 0) 0 :=
  (reconnect_resends_iff durable_windowed quietConfig (DurableOutbox.inStep_openFresh 8)
    (lostTail.take 1) [] 0 [] _ 0 (nothingCommitted "10000000-0000-4000-8000-000000000001")
    rfl rfl (by decide) rfl).mpr (by decide)

end Link

end VodogeEdge
