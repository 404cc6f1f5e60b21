import VodogeEdge.LinkResend

/-!
# Resume before data

A session is live from the ResumeAck it accepts until it is dropped
(`live_resumed`). Envelopes of the outbox should go out only in between.

Acknowledgements see to that: the session moves first, and refuses them
in any other phase. `poll` does not: it replays whatever the session
says, also while ResumeAck is still awaited, and in the very call that
found the session idle for too long and dropped it.
`sendsLive_iff` says when a step keeps the rule.
-/

namespace VodogeEdge

open List DurableOutbox Outbox

variable {J : Type} {wire : Wire J} {O : Type}

/-! ## What a replay can send -/

namespace UplinkWorker

def Sequenced (envelopes : List (Envelope J)) : Prop := ∀ envelope ∈ envelopes, envelope.seq ≠ none

section
variable [Outbox O]

def nextRecord (self : UplinkWorker O) : Option RetainedRecord :=
  let committed := Outbox.committedThrough self.outbox
  let through := max self.replayThrough committed
  if replayWindow ≤ through - committed then none
  else (Outbox.sorted self.outbox).find? (through < ·.sequence)

def NothingToSend (wire : Wire J) (self : UplinkWorker O) (conn : Conn J) : Prop :=
  ∀ record, self.nextRecord = some record → record.Unsendable wire ∨ conn.Refuses

theorem replay_sends (wire : Wire J) (self : UplinkWorker O) (conn : Conn J) (now : Nat) :
    ∃ envelopes, (self.replay wire conn now).2.2.sent = conn.sent ++ envelopes
      ∧ Sequenced envelopes ∧ (envelopes = [] ↔ self.NothingToSend wire conn) := by
  obtain ⟨through, hthrough⟩ : ∃ through,
    through = max self.replayThrough (committedThrough self.outbox) := ⟨_, rfl⟩
  unfold NothingToSend nextRecord
  dsimp only
  rw [← hthrough]
  rcases replay_cases wire self conn now hthrough with ⟨reason, herror, hfailed⟩ | hreplay
  · have hnone : sorted self.outbox = [] := by
      rw [sorted, records, herror]
      rfl
    rw [hfailed, hnone]
    refine ⟨[], (append_nil _).symm, by simp [Sequenced], iff_of_true rfl ?_⟩
    intro record hrecord
    split at hrecord <;> cases hrecord
  · obtain ⟨n, -, ⟨-, envelopes, hsent, hcarry⟩, -, hnone⟩ := replayRecords_spec wire now
      (sorted self.outbox) { self with replayThrough := through } conn
      (replayWindow - (through - committedThrough self.outbox))
    have hsequenced : Sequenced envelopes := fun envelope he => by
      obtain ⟨record, -, hcarries⟩ := exists_carried hcarry he
      rw [hcarries.seq]
      exact Option.some_ne_none _
    have hempty : envelopes = [] ↔ (climb through (sorted self.outbox)).take n = [] := by
      rw [← length_eq_zero_iff, ← length_eq_zero_iff, hcarry.length_eq]
    rw [head?_climb] at hnone
    rw [hreplay]
    refine ⟨envelopes, hsent, hsequenced, (hempty.trans hnone).trans
      (forall_congr' fun record => ?_)⟩
    split
    next hfull =>
      exact iff_of_true (fun _ => .inl (Nat.sub_eq_zero_of_le hfull)) fun hrecord => by
        cases hrecord
    next hroom => exact imp_congr_right fun _ => or_iff_right (by omega)

theorem acknowledge_sends (wire : Wire J) (self : UplinkWorker O) (conn : Conn J)
    (committedThrough : Nat) (missingRanges : List WireRange) (moreMissing : Bool) (now : Nat) :
    ∃ envelopes, (self.acknowledge wire conn committedThrough missingRanges moreMissing
      now).2.2.sent = conn.sent ++ envelopes := by
  unfold acknowledge
  generalize self.applyAck committedThrough missingRanges moreMissing = r
  obtain ⟨result, worker⟩ := r
  cases result with
  | error halt => exact ⟨[], (append_nil _).symm⟩
  | ok retired =>
    obtain ⟨envelopes, hsent, -, -⟩ := worker.replay_sends wire conn now
    exact ⟨envelopes, hsent⟩

/-- An envelope makes the worker send only if the session took it as an
acknowledgement, and is live then. -/
theorem onInbound_sends (wire : Wire J) (self : UplinkWorker O) (conn : Conn J)
    (envelope : Envelope J) (now : Nat) :
    ∃ envelopes, (self.onInbound wire conn envelope now).2.2.sent = conn.sent ++ envelopes
      ∧ (envelopes ≠ [] → (self.onInbound wire conn envelope now).2.1.session.phase = .live) := by
  rw [onInbound_session]
  unfold onInbound
  have hhandled := self.session.onInbound_handled wire envelope now
  generalize self.session.onInbound wire envelope now = r at hhandled ⊢
  have hquiet : ∃ envelopes, conn.sent = conn.sent ++ envelopes
      ∧ (envelopes ≠ [] → r.2.phase = .live) :=
    ⟨[], (append_nil _).symm, fun hne => absurd rfl hne⟩
  cases hhandled with
  | refused e => exact hquiet
  | resumed ack hphase hconn =>
    obtain ⟨envelopes, hsent⟩ := acknowledge_sends wire { self with session := _ } conn
      ack.committedThrough ack.missingRanges ack.moreMissing now
    exact ⟨envelopes, hsent, fun _ => rfl⟩
  | acked ack hphase hconn =>
    obtain ⟨envelopes, hsent⟩ := acknowledge_sends wire { self with session := _ } conn
      ack.committedThrough ack.missingRanges ack.moreMissing now
    exact ⟨envelopes, hsent, fun _ => hphase⟩
  | ponged | stale | protocolError | delivered => exact hquiet

end

end UplinkWorker

/-! ## What a poll finds -/

namespace LinkSession

def Awake (self : LinkSession) (now : Nat) : Prop :=
  self.phase = .live ∧ self.idleExpired now = false

variable {self : LinkSession} {now : Nat}

theorem poll_awake (h : self.Awake now) (wire : Wire J) : (self.poll wire now).2.phase = .live := by
  obtain ⟨hphase, hrecent⟩ := h
  unfold poll
  rw [if_neg (not_not_intro hphase), if_neg (by rw [hrecent]; exact Bool.false_ne_true)]
  split
  · exact hphase
  split
  · exact hphase
  split <;> exact hphase

theorem poll_asleep (h : ¬self.Awake now) (wire : Wire J) :
    (self.poll wire now).1 = none ∧ (self.poll wire now).2.phase ≠ .live := by
  unfold poll
  by_cases hphase : self.phase = .live
  · have hexpired : self.idleExpired now := by
      cases hidle : self.idleExpired now with
      | false => exact absurd ⟨hphase, hidle⟩ h
      | true => rfl
    rw [if_neg (not_not_intro hphase), if_pos hexpired]
    exact ⟨rfl, by simp [dropConnection]⟩
  · rw [if_pos hphase]
    exact ⟨rfl, hphase⟩

end LinkSession

theorem LinkSession.handshake_cases (wire : Wire J) (self : LinkSession) (connectionId : String)
    (now : Nat) :
    (∃ e, self.handshake wire connectionId now = (.error e, self))
      ∨ ∃ resume session, self.handshake wire connectionId now = (.ok resume, session)
        ∧ session.phase = .resuming := by
  have hgreeted := self.handshake_greeted wire connectionId now
  generalize self.handshake wire connectionId now = r at hgreeted ⊢
  cases hgreeted with
  | refused e => exact .inl ⟨e, rfl⟩
  | opened resume hkind hseq => exact .inr ⟨resume, _, rfl, rfl⟩

/-! ## Steps -/

namespace Link

variable [Outbox O] {good : O → Prop} {link : Link O J}

/-- Sequenced envelopes are handed over only while the session is live. Every
call moves it before it sends, so the phase it leaves is the one it sent in. -/
def SendsLive (wire : Wire J) (link : Link O J) (event : LinkEvent J good) : Prop :=
  ∀ envelope ∈ link.handed wire event, envelope.seq ≠ none →
    (link.step wire event).worker.session.phase = .live

/-- A poll finds the session live and heard from, or nothing to send. -/
def Careful (wire : Wire J) (link : Link O J) : LinkEvent J good → Prop
  | .on (.poll now) => link.worker.session.Awake now ∨ link.worker.NothingToSend wire link.conn
  | _ => True

theorem sendsLive_poll_iff (wire : Wire J) (link : Link O J) (now : Nat) :
    SendsLive wire link (.on (.poll now) : LinkEvent J good)
      ↔ link.worker.session.Awake now ∨ link.worker.NothingToSend wire link.conn := by
  have hphase : (link.step wire (.on (.poll now) : LinkEvent J good)).worker.session.phase
      = (link.worker.session.poll wire now).2.phase :=
    congrArg LinkSession.phase (link.worker.poll_session wire link.conn now)
  unfold SendsLive
  rw [hphase]
  by_cases hawake : link.worker.session.Awake now
  · exact iff_of_true (fun _ _ _ => LinkSession.poll_awake hawake wire) (.inl hawake)
  · obtain ⟨hping, hasleep⟩ := LinkSession.poll_asleep hawake wire
    obtain ⟨envelopes, hsent, hsequenced, hnone⟩ := UplinkWorker.replay_sends wire
      { link.worker with session := (link.worker.session.poll wire now).2 } link.conn now
    have hpoll : (link.onEvent wire (.poll now : ConnEvent J good)).conn.sent
        = link.conn.sent ++ envelopes := by
      rw [← hsent]
      change (link.worker.poll wire link.conn now).2.2.sent = _
      unfold UplinkWorker.poll
      generalize link.worker.session.poll wire now = r at hping ⊢
      obtain ⟨ping, session⟩ := r
      obtain rfl : ping = none := hping
      rfl
    have hsame : link.worker.NothingToSend wire link.conn ↔ envelopes = [] := hnone.symm
    rw [handed_eq hpoll, or_iff_right hawake, hsame]
    constructor
    · intro h
      exact eq_nil_iff_forall_not_mem.mpr fun envelope he =>
        hasleep (h envelope he (hsequenced envelope he))
    · rintro rfl envelope he
      cases he

theorem sendsLive_iff (wire : Wire J) (link : Link O J) (event : LinkEvent J good) :
    SendsLive wire link event ↔ Careful wire link event := by
  cases event with
  | start answers now =>
    refine iff_of_true (fun envelope he hseq => absurd ?_ hseq) trivial
    exact link.worker.start_sent wire (Conn.dial answers) now rfl envelope he
  | on event =>
    cases event with
    | inbound envelope now =>
      obtain ⟨envelopes, hsent, hlive⟩ :=
        link.worker.onInbound_sends wire link.conn envelope now
      have hhanded : link.handed wire (.on (.inbound envelope now : ConnEvent J good))
          = envelopes := handed_eq hsent
      refine iff_of_true (fun sent he _ => hlive (ne_nil_of_mem (a := sent) ?_)) trivial
      rwa [hhanded] at he
    | poll now => exact sendsLive_poll_iff wire link now
    | disconnect | grow =>
      refine iff_of_true (fun sent he _ => ?_) trivial
      rw [handed_nil rfl] at he
      cases he

/-! ## How a session comes to be live -/

/-- The step accepts a ResumeAck for the connection the session is on. -/
def Resumes (wire : Wire J) (link : Link O J) (event : LinkEvent J good)
    (ack : ResumeAckPayload) : Prop :=
  ∃ envelope now, event = .on (.inbound envelope now)
    ∧ (link.worker.session.onInbound wire envelope now).1 = .ok (.resumeAck ack)
    ∧ link.worker.session.connectionId = some ack.connectionId

/-- In the run a ResumeAck was accepted, and the session has been live on
its connection ever since. -/
def Resumed (wire : Wire J) (initial : Link O J) (events : List (LinkEvent J good)) : Prop :=
  ∃ before event after ack, events = before ++ event :: after
    ∧ Resumes wire (runFrom (step wire) initial before) event ack
    ∧ ∀ since, since <+: after →
      let link := runFrom (step wire) initial (before ++ event :: since)
      link.worker.session.phase = .live
        ∧ link.worker.session.connectionId = some ack.connectionId

/-- `start` leaves a session live only if it refused to start. -/
theorem live_start {answers : List (Option DialError)} {now : Nat}
    (h : (link.start wire answers now).worker.session.phase = .live) :
    link.worker.session.phase = .live
      ∧ (link.start wire answers now).worker.session.connectionId
        = link.worker.session.connectionId := by
  change (link.worker.start wire (Conn.dial answers) now).2.1.session.phase = .live at h
  change _ ∧ (link.worker.start wire (Conn.dial answers) now).2.1.session.connectionId = _
  unfold UplinkWorker.start at h ⊢
  dsimp only at h ⊢
  generalize (Conn.dial answers).setReadTimeout _ = dialled at h ⊢
  rcases LinkSession.handshake_cases wire _ _ now with
    ⟨e, hrefused⟩ | ⟨resume, session, hok, hphase⟩
  · rw [hrefused] at h ⊢
    exact ⟨h, rfl⟩
  · rw [hok] at h
    obtain ⟨result, conn⟩ := dialled
    cases result with
    | error e => exact absurd (hphase.symm.trans h) (by decide)
    | ok u =>
      dsimp only at h
      generalize conn.sendEnvelope resume = sent at h
      obtain ⟨result, conn'⟩ := sent
      cases result with
      | error e => exact absurd ((UplinkWorker.markDropped_phase _ now).symm.trans h) (by decide)
      | ok u => exact absurd (hphase.symm.trans h) (by decide)

/-- A session that is live was live before the step, on the same
connection, or the step was its ResumeAck. -/
theorem live_step {event : LinkEvent J good}
    (h : (link.step wire event).worker.session.phase = .live) :
    (link.worker.session.phase = .live
        ∧ (link.step wire event).worker.session.connectionId = link.worker.session.connectionId)
      ∨ ∃ ack, Resumes wire link event ack
        ∧ (link.step wire event).worker.session.connectionId = some ack.connectionId := by
  cases event with
  | start answers now => exact .inl (live_start h)
  | on event =>
    cases event with
    | inbound envelope now =>
      have hsession := link.worker.onInbound_session wire link.conn envelope now
      change (link.worker.onInbound wire link.conn envelope now).2.1.session.phase = _ at h
      change (_ ∧ (link.worker.onInbound wire link.conn envelope now).2.1.session.connectionId
          = _) ∨ ∃ ack, _
        ∧ (link.worker.onInbound wire link.conn envelope now).2.1.session.connectionId = _
      rw [hsession] at h ⊢
      have hhandled := link.worker.session.onInbound_handled wire envelope now
      generalize hresult : link.worker.session.onInbound wire envelope now = r
        at h hhandled ⊢
      cases hhandled with
      | refused e => exact .inl ⟨h, rfl⟩
      | resumed ack hphase hconn =>
        exact .inr ⟨ack, ⟨envelope, now, rfl, by rw [hresult], hconn⟩, hconn⟩
      | acked ack hphase hconn | ponged pong hphase hconn | stale hphase => exact .inl ⟨hphase, rfl⟩
      | protocolError error => cases h
      | delivered => exact .inl ⟨h, rfl⟩
    | poll now =>
      have hsession := link.worker.poll_session wire link.conn now
      change (link.worker.poll wire link.conn now).2.1.session.phase = _ at h
      change (_ ∧ (link.worker.poll wire link.conn now).2.1.session.connectionId = _) ∨ _
      rw [hsession] at h ⊢
      have hpolled := link.worker.session.poll_polled wire now
      generalize link.worker.session.poll wire now = r at h hpolled ⊢
      cases hpolled with
      | quiet => exact .inl ⟨h, rfl⟩
      | expired hphase => cases h
      | pinged connectionId hphase hconn => exact .inl ⟨hphase, rfl⟩
    | disconnect now =>
      change (link.worker.markDropped now).session.phase = .live at h
      rw [link.worker.markDropped_phase] at h
      cases h
    | grow growth => exact .inl ⟨h, rfl⟩

theorem live_resumed (wire : Wire J) (config : LinkConfig) (outbox : O)
    (events : List (LinkEvent J good)) :
    (runFrom (step wire) (new config outbox) events).worker.session.phase = .live →
      Resumed wire (new config outbox) events := by
  refine runFrom_history (I := fun events (link : Link O J) =>
    link.worker.session.phase = .live → Resumed wire (new config outbox) events) ?_ ?_ events
  · intro h
    cases h
  · intro events event ih hlive
    rcases live_step hlive with ⟨hbefore, hsame⟩ | ⟨ack, hresumes, hconn⟩
    · obtain ⟨before, resume, after, ack, rfl, hresumes, hsince⟩ := ih hbefore
      refine ⟨before, resume, after ++ [event], ack, by simp, hresumes, fun since hbegins => ?_⟩
      rcases prefix_concat_iff.mp hbegins with rfl | hbegins
      · have hlink : runFrom (step wire) (new config outbox)
            (before ++ resume :: (after ++ [event]))
            = (runFrom (step wire) (new config outbox) (before ++ resume :: after)).step wire
              event := by
          rw [← cons_append, ← append_assoc, runFrom_snoc]
        rw [hlink]
        exact ⟨hlive, hsame.trans (hsince after (prefix_refl _)).2⟩
      · exact hsince since hbegins
    · refine ⟨events, event, [], ack, rfl, hresumes, fun since hbegins => ?_⟩
      obtain rfl := prefix_nil.mp hbegins
      rw [runFrom_snoc]
      exact ⟨hlive, hconn⟩

/-- Every sequenced envelope of the run was handed over while the session
was live, so after a ResumeAck for its connection and before it was
dropped. -/
def DataAfterResume (wire : Wire J) (initial : Link O J) (events : List (LinkEvent J good)) :
    Prop :=
  ∀ before event, before ++ [event] <+: events →
    ∀ envelope ∈ (runFrom (step wire) initial before).handed wire event, envelope.seq ≠ none →
      (runFrom (step wire) initial (before ++ [event])).worker.session.phase = .live
        ∧ Resumed wire initial (before ++ [event])

/-- A run keeps data behind Resume exactly if each of its polls is
careful. -/
theorem dataAfterResume_iff (wire : Wire J) (config : LinkConfig) (outbox : O)
    (events : List (LinkEvent J good)) :
    DataAfterResume wire (new config outbox) events
      ↔ Along (step wire) (Careful wire) (new config outbox) events := by
  rw [along_iff_before]
  refine forall₃_congr fun before event _ => ?_
  rw [← sendsLive_iff, runFrom_snoc]
  refine forall₃_congr fun envelope _ _ => ⟨And.left, fun hlive => ⟨hlive, ?_⟩⟩
  exact live_resumed wire config outbox (before ++ [event]) (by rwa [runFrom_snoc])

/-! ## A poll before ResumeAck -/

/-- A record is waiting when the worker starts, and the first poll comes
before the peer has answered. -/
def earlyPoll : List (LinkEvent (Option ResumeAckPayload) DurableOutbox.InStep) :=
  lostTail.take 2 ++ [.on (.poll 30000)]

theorem earlyPoll_sends :
    ((runFrom (step ackWire) (new quietConfig (openFresh 8))
        (earlyPoll.take 2)).handed ackWire
          (.on (.poll 30000) : LinkEvent (Option ResumeAckPayload) DurableOutbox.InStep)).map
        (·.seq) = [some 1]
      ∧ (runFrom (step ackWire) (new quietConfig (openFresh 8))
        earlyPoll).worker.session.phase = .resuming := by
  decide

theorem earlyPoll_before_resume :
    ¬DataAfterResume ackWire (new quietConfig (openFresh 8)) earlyPoll := by
  intro h
  obtain ⟨hseqs, hphase⟩ := earlyPoll_sends
  obtain ⟨envelope, he, hseq⟩ := mem_map.mp (hseqs ▸ mem_singleton_self (some 1))
  have hlive := (h (earlyPoll.take 2) (.on (.poll 30000)) (prefix_refl _) envelope he
    (by rw [hseq]; exact Option.some_ne_none 1)).1
  exact absurd (hphase.symm.trans hlive) (by decide)

end Link

end VodogeEdge
