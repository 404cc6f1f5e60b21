import VodogeEdge.LinkReplay

/-!
# The worker over its connections

What the calls of `UplinkWorker` do to its session, its outbox and its
replay cursor, and the machine a host makes of them: it dials a
connection and starts the worker on it, hands it envelopes, polls it,
reports disconnects, and appends to the outbox behind its back.
-/

namespace VodogeEdge

/-! ## A session still waiting for ResumeAck -/

namespace LinkSession

variable {J : Type} {wire : Wire J} {self : LinkSession} {now : Nat}

/-- A session that is still waiting after an envelope has not moved, and
the envelope acknowledged nothing. -/
theorem onInbound_waiting {envelope : Envelope J}
    (h : (self.onInbound wire envelope now).2.phase = .resuming) :
    (∃ e, self.onInbound wire envelope now = (.error e, self))
      ∨ self.onInbound wire envelope now = (.ok (.commandDeliver envelope), self) := by
  have hhandled := self.onInbound_handled wire envelope now
  generalize self.onInbound wire envelope now = r at h hhandled ⊢
  cases hhandled with
  | refused e => exact .inl ⟨e, rfl⟩
  | delivered => exact .inr rfl
  | resumed ack hphase hconn => cases h
  | acked ack hphase hconn | ponged pong hphase hconn | stale hphase =>
    exact absurd (hphase.symm.trans h) (by decide)
  | protocolError error => cases h

theorem poll_waiting
    (h : (self.poll wire now).2.phase = .resuming) : self.poll wire now = (none, self) := by
  have hpolled := self.poll_polled wire now
  generalize self.poll wire now = r at h hpolled ⊢
  cases hpolled with
  | quiet => rfl
  | expired hphase => cases h
  | pinged connectionId hphase hconn => exact absurd (hphase.symm.trans h) (by decide)

end LinkSession

namespace UplinkWorker

variable {J : Type} {wire : Wire J} {O : Type}

variable (self : UplinkWorker O) {envelope : Envelope J}

theorem rewind_frame (ranges : List SequenceRange) :
    (self.rewind ranges).session = self.session ∧ (self.rewind ranges).outbox = self.outbox
      ∧ (self.rewind ranges).replayThrough ≤ self.replayThrough := by
  unfold rewind
  split
  · split
    · exact ⟨rfl, rfl, min_le_left _ _⟩
    · exact ⟨rfl, rfl, le_refl _⟩
  · exact ⟨rfl, rfl, le_refl _⟩

theorem markDropped_phase (now : Nat) : (self.markDropped now).session.phase = .backoff := by
  unfold markDropped
  split
  · exact self.session.onDisconnect_phase now
  next hphase => exact Decidable.not_not.mp hphase

theorem markDropped_cursor (now : Nat) :
    (self.markDropped now).outbox = self.outbox
      ∧ (self.markDropped now).replayThrough = self.replayThrough
      ∧ (self.markDropped now).gapResentFrom = self.gapResentFrom := by
  unfold markDropped
  split <;> exact ⟨rfl, rfl, rfl⟩

variable [Outbox O]

theorem replay_frame (wire : Wire J) (self : UplinkWorker O) (conn : Conn J) (now : Nat) :
    ∃ through, (self.replay wire conn now).2.1 = { self with replayThrough := through } := by
  rcases replay_cases wire self conn now rfl with ⟨reason, -, hfailed⟩ | hreplay
  · rw [hfailed]
    exact ⟨_, rfl⟩
  · obtain ⟨n, -, hhanded, -⟩ := replayRecords_spec wire now (Outbox.sorted self.outbox)
      { self with replayThrough := _ } conn (replayWindow - _)
    rw [hreplay]
    exact ⟨_, hhanded.worker⟩

theorem applyAck_session (committedThrough : Nat) (missingRanges : List WireRange)
    (moreMissing : Bool) :
    (self.applyAck committedThrough missingRanges moreMissing).2.session = self.session := by
  unfold applyAck
  split
  · rfl
  dsimp only
  split
  · exact (self.rewind_frame _).1
  split <;> exact (self.rewind_frame _).1

theorem acknowledge_session (wire : Wire J) (self : UplinkWorker O) (conn : Conn J)
    (committedThrough : Nat) (missingRanges : List WireRange) (moreMissing : Bool) (now : Nat) :
    (self.acknowledge wire conn committedThrough missingRanges moreMissing now).2.1.session
      = self.session := by
  have hack := self.applyAck_session committedThrough missingRanges moreMissing
  unfold acknowledge
  generalize self.applyAck committedThrough missingRanges moreMissing = r at hack ⊢
  obtain ⟨result, worker⟩ := r
  cases result with
  | error halt => exact hack
  | ok retired =>
    obtain ⟨through, hframe⟩ := worker.replay_frame wire conn now
    show (worker.replay wire conn now).2.1.session = self.session
    rwa [hframe]

theorem dispatch_session (wire : Wire J) (self : UplinkWorker O) (conn : Conn J) (now : Nat) :
    ∀ inbound, (self.dispatch wire conn now inbound).2.1.session = self.session
  | .resumeAck _ => self.acknowledge_session wire conn _ _ _ now
  | .uplinkAck _ => self.acknowledge_session wire conn _ _ _ now
  | .ignoredStale | .pong _ | .commandDeliver _ | .protocolError _ => rfl

theorem onInbound_session (wire : Wire J) (self : UplinkWorker O) (conn : Conn J)
    (envelope : Envelope J) (now : Nat) :
    (self.onInbound wire conn envelope now).2.1.session
      = (self.session.onInbound wire envelope now).2 := by
  unfold onInbound
  generalize self.session.onInbound wire envelope now = r
  obtain ⟨result, session⟩ := r
  cases result with
  | error e => rfl
  | ok inbound => exact dispatch_session wire { self with session } conn now inbound

theorem poll_session (wire : Wire J) (self : UplinkWorker O) (conn : Conn J) (now : Nat) :
    (self.poll wire conn now).2.1.session = (self.session.poll wire now).2 := by
  unfold poll
  generalize self.session.poll wire now = r
  obtain ⟨ping, session⟩ := r
  dsimp only
  split
  · rfl
  next conn' _ =>
    obtain ⟨through, hframe⟩ := replay_frame wire { self with session } conn' now
    show (replay wire { self with session } conn' now).2.1.session = session
    rw [hframe]

variable {now : Nat} {conn : Conn J}

/-- Until ResumeAck arrives no envelope changes worker or connection. -/
theorem onInbound_waiting {self : UplinkWorker O}
    (h : (self.onInbound wire conn envelope now).2.1.session.phase = .resuming) :
    (self.onInbound wire conn envelope now).2 = (self, conn) := by
  rw [onInbound_session] at h
  rcases LinkSession.onInbound_waiting h with ⟨e, heq⟩ | heq
  · unfold onInbound
    rw [heq]
  · unfold onInbound
    rw [heq]
    rfl

theorem poll_waiting {self : UplinkWorker O}
    (h : (self.poll wire conn now).2.1.session.phase = .resuming) :
    (self.poll wire conn now).2 = (self.replay wire conn now).2 := by
  rw [poll_session] at h
  have hquiet := LinkSession.poll_waiting h
  unfold poll
  rw [hquiet]
  rfl

/-! ## Accepted acknowledgements -/

theorem onInbound_ok {self : UplinkWorker O} {inbound : Inbound J}
    (h : (self.onInbound wire conn envelope now).1 = .ok inbound) :
    ∃ session, self.session.onInbound wire envelope now = (.ok inbound, session)
      ∧ dispatch wire { self with session } conn now inbound
        = (.ok (), (self.onInbound wire conn envelope now).2) := by
  unfold onInbound at h ⊢
  generalize self.session.onInbound wire envelope now = r at h ⊢
  obtain ⟨handled, session⟩ := r
  cases handled with
  | error e => cases h
  | ok inbound' =>
    dsimp only at h ⊢
    generalize hdispatch : dispatch wire { self with session } conn now inbound' = r at h ⊢
    obtain ⟨result, worker, conn'⟩ := r
    cases result with
    | error halt => cases h
    | ok u =>
      cases h
      exact ⟨session, rfl, hdispatch⟩

theorem onInbound_resumeAck {self : UplinkWorker O} {ack : ResumeAckPayload}
    (h : (self.onInbound wire conn envelope now).1 = .ok (.resumeAck ack)) :
    self.session.phase = .resuming ∧ ∃ session,
      acknowledge wire { self with session } conn ack.committedThrough ack.missingRanges
          ack.moreMissing now
        = (.ok (), (self.onInbound wire conn envelope now).2) := by
  obtain ⟨session, hsession, hdispatch⟩ := onInbound_ok h
  have hhandled := self.session.onInbound_handled wire envelope now
  rw [hsession] at hhandled
  cases hhandled with
  | resumed _ hphase _ => exact ⟨hphase, _, hdispatch⟩

/-- An acknowledgement without holes that returned: the cursor moved and
the replay from there returned. -/
theorem acknowledge_ok {self : UplinkWorker O} {committedThrough : Nat} {moreMissing : Bool}
    {result : UplinkWorker O × Conn J}
    (h : self.acknowledge wire conn committedThrough [] moreMissing now = (.ok (), result)) :
    ∃ ack retired outbox, ack.committedThrough = committedThrough
      ∧ Outbox.observeAck self.outbox ack = (.ok retired, outbox)
      ∧ replay wire { self with gapResentFrom := none, outbox } conn now = (.ok (), result) := by
  unfold acknowledge applyAck at h
  have hnew : ∃ ack, UplinkAck.new committedThrough [] moreMissing = .ok ack
      ∧ ack.committedThrough = committedThrough := ⟨_, rfl, rfl⟩
  obtain ⟨ack, hnew, hc⟩ := hnew
  simp only [checkRanges, hnew, rewind, List.map_nil, List.min?_nil] at h
  refine ⟨ack, ?_⟩
  generalize Outbox.observeAck self.outbox ack = r at h ⊢
  obtain ⟨observed, outbox⟩ := r
  cases observed with
  | error halt => cases h
  | ok retired =>
    dsimp only at h
    refine ⟨retired, outbox, hc, rfl, ?_⟩
    generalize replay wire { self with gapResentFrom := none, outbox } conn now = r at h ⊢
    obtain ⟨replayed, worker, conn'⟩ := r
    cases replayed with
    | error e => cases h
    | ok u =>
      cases h
      rfl

theorem start_cursor (wire : Wire J) (self : UplinkWorker O) (conn : Conn J) (now : Nat) :
    (self.start wire conn now).2.1.outbox = self.outbox
      ∧ (self.start wire conn now).2.1.replayThrough = self.replayThrough
      ∧ (self.start wire conn now).2.1.gapResentFrom = self.gapResentFrom := by
  unfold start
  dsimp only
  split
  · exact ⟨rfl, rfl, rfl⟩
  split
  · exact ⟨rfl, rfl, rfl⟩
  split
  · exact markDropped_cursor _ now
  · exact ⟨rfl, rfl, rfl⟩

theorem start_sent (wire : Wire J) (self : UplinkWorker O) (conn : Conn J) (now : Nat)
    (hconn : conn.sent = []) :
    ∀ envelope ∈ (self.start wire conn now).2.2.sent, envelope.seq = none := by
  unfold start
  dsimp only
  split
  · intro envelope he
    rw [hconn] at he
    cases he
  rename_i resume session hhandshake
  have hresume := (LinkSession.handshake_ok wire hhandshake).2.1
  have hset := conn.setReadTimeout_sent (some VodogeEdge.pingInterval)
  generalize conn.setReadTimeout (some VodogeEdge.pingInterval) = r at hset ⊢
  obtain ⟨result, conn'⟩ := r
  have hempty : conn'.sent = [] := Eq.trans hset hconn
  cases result with
  | error e =>
    intro envelope he
    rw [hempty] at he
    cases he
  | ok u =>
    have hsend := conn'.sendEnvelope_cases resume
    dsimp only
    generalize conn'.sendEnvelope resume = r at hsend ⊢
    obtain ⟨result, conn''⟩ := r
    intro envelope he
    rcases hsend with ⟨-, error, rfl, hkept⟩ | ⟨-, rfl, hadded⟩
    · rw [show conn''.sent = conn'.sent from hkept, hempty] at he
      cases he
    · rw [show conn''.sent = conn'.sent ++ [resume] from hadded, hempty] at he
      obtain rfl := List.mem_singleton.mp he
      exact hresume

/-- The outbox is good and the replay cursor is within what was
allocated. -/
structure Sound (good : O → Prop) (worker : UplinkWorker O) : Prop where
  outbox : good worker.outbox
  through : worker.replayThrough ≤ Outbox.lastAllocated worker.outbox

end UplinkWorker

/-! ## The machine -/

section
variable {J : Type} (wire : Wire J) {O : Type} [Outbox O] {good : O → Prop}

inductive ConnEvent (J : Type) {O : Type} [Outbox O] (good : O → Prop) where
  | inbound (envelope : Envelope J) (now : Nat)
  | poll (now : Nat)
  | disconnect (now : Nat)
  | grow (growth : Outbox.Growth good)

/-- Dialling a new connection, or an event of the current one. -/
inductive LinkEvent (J : Type) {O : Type} [Outbox O] (good : O → Prop) where
  | start (answers : List (Option DialError)) (now : Nat)
  | on (event : ConnEvent J good)

structure Link (O J : Type) where
  worker : UplinkWorker O
  conn : Conn J

namespace Link

def new (config : LinkConfig) (outbox : O) : Link O J :=
  ⟨UplinkWorker.new config outbox, Conn.dial []⟩

def start (link : Link O J) (answers : List (Option DialError)) (now : Nat) : Link O J :=
  let (_, worker, conn) := link.worker.start wire (Conn.dial answers) now
  ⟨worker, conn⟩

def inbound (link : Link O J) (envelope : Envelope J) (now : Nat) : Link O J :=
  let (_, worker, conn) := link.worker.onInbound wire link.conn envelope now
  ⟨worker, conn⟩

def poll (link : Link O J) (now : Nat) : Link O J :=
  let (_, worker, conn) := link.worker.poll wire link.conn now
  ⟨worker, conn⟩

def onEvent (link : Link O J) : ConnEvent J good → Link O J
  | .inbound envelope now => link.inbound wire envelope now
  | .poll now => link.poll wire now
  | .disconnect now => { link with worker := link.worker.onDisconnect now }
  | .grow growth =>
    { link with worker := { link.worker with outbox := growth.apply link.worker.outbox } }

def step (link : Link O J) : LinkEvent J good → Link O J
  | .start answers now => link.start wire answers now
  | .on event => link.onEvent wire event

theorem inbound_eq (link : Link O J) (envelope : Envelope J) (now : Nat) :
    link.inbound wire envelope now
      = ⟨(link.worker.onInbound wire link.conn envelope now).2.1,
          (link.worker.onInbound wire link.conn envelope now).2.2⟩ := rfl

theorem poll_eq (link : Link O J) (now : Nat) :
    link.poll wire now
      = ⟨(link.worker.poll wire link.conn now).2.1,
          (link.worker.poll wire link.conn now).2.2⟩ := rfl

/-! ### The receive loop -/

/-- The step the loop makes of what it receives. -/
def heeds (now : Nat) : Except DialError (Envelope J) → ConnEvent J good
  | .ok envelope => .inbound envelope now
  | .error .timeout => .poll now
  | .error _ => .disconnect now

/-- The step succeeds and leaves the session out of backoff. -/
def GoesOn (link : Link O J) : ConnEvent J good → Prop
  | .inbound envelope now =>
    (∃ inbound, (link.worker.onInbound wire link.conn envelope now).1 = .ok inbound) ∧
      (link.inbound wire envelope now).worker.session.phase ≠ .backoff
  | .poll now =>
    (∃ ping, (link.worker.poll wire link.conn now).1 = .ok ping) ∧
      (link.poll wire now).worker.session.phase ≠ .backoff
  | .disconnect _ | .grow _ => False

/-- The steps the loop ends with. After a frame, and where nothing comes
any more, it drops the connection unless that is dropped already. -/
def closing (now : Nat) : List (ConnEvent J good) → List (ConnEvent J good)
  | [] => [.disconnect now]
  | .inbound envelope now :: _ => [.inbound envelope now, .disconnect now]
  | event :: _ => [event]

/-- One event after the other up to the first the loop does not go on
after, and there it ends. -/
def Heeded (now : Nat) (link final : Link O J) (events : List (ConnEvent J good)) : Prop :=
  ∃ before rest, events = before ++ rest ∧ Along (onEvent wire) (GoesOn wire) link before ∧
    (∀ event ∈ rest.head?, ¬GoesOn wire (runFrom (onEvent wire) link before) event) ∧
    final = runFrom (onEvent wire) link (before ++ closing now rest)

section
variable {wire} {now : Nat} {link final : Link O J} {event : ConnEvent J good}
  {events : List (ConnEvent J good)}

theorem Heeded.stop (h : ¬link.GoesOn wire event)
    (hfinal : final = runFrom (onEvent wire) link (closing now (event :: events))) :
    Heeded wire now link final (event :: events) := by
  refine ⟨[], _, rfl, trivial, fun first hfirst => ?_, hfinal⟩
  obtain rfl := Option.some_inj.mp hfirst
  exact h

theorem Heeded.cons (h : link.GoesOn wire event)
    (hrest : Heeded wire now (link.onEvent wire event) final events) :
    Heeded wire now link final (event :: events) := by
  obtain ⟨before, rest, rfl, halong, hstop, hfinal⟩ := hrest
  exact ⟨event :: before, rest, rfl, ⟨h, halong⟩, hstop, hfinal⟩

end

/-- The receive loop makes the steps of what it receives, one after the
other, up to the one it ends with. -/
theorem receive_steps (now : Nat) : ∀ received worker conn, Heeded wire now ⟨worker, conn⟩
    ⟨(worker.receive wire now conn received).2.1, (worker.receive wire now conn received).2.2⟩
    (received.map (heeds now) : List (ConnEvent J good))
  | [], worker, conn => ⟨[], [], rfl, trivial, by simp, rfl⟩
  | .ok envelope :: rest, worker, conn => by
    unfold UplinkWorker.receive
    rcases hin : worker.onInbound wire conn envelope now with ⟨result, worker', conn'⟩
    have hstep : onEvent wire ⟨worker, conn⟩ (.inbound envelope now : ConnEvent J good)
        = ⟨worker', conn'⟩ := by
      rw [onEvent, inbound_eq, hin]
    cases result with
    | error halt =>
      refine .stop (by simp [GoesOn, hin, heeds]) ?_
      rw [heeds, closing, runFrom_cons, hstep]
      rfl
    | ok inbound =>
      dsimp only
      split
      next hphase =>
        refine .stop (by simp [GoesOn, inbound_eq, hin, heeds, hphase]) ?_
        rw [heeds, closing, runFrom_cons, hstep]
        simp [onEvent, UplinkWorker.onDisconnect, UplinkWorker.markDropped, hphase]
      next hphase =>
        refine .cons (by simp [GoesOn, inbound_eq, hin, heeds, hphase]) ?_
        rw [heeds, hstep]
        exact receive_steps now rest worker' conn'
  | .error .timeout :: rest, worker, conn => by
    unfold UplinkWorker.receive
    rcases hpoll : worker.poll wire conn now with ⟨result, worker', conn'⟩
    have hstep : onEvent wire ⟨worker, conn⟩ (.poll now : ConnEvent J good) = ⟨worker', conn'⟩ := by
      rw [onEvent, poll_eq, hpoll]
    cases result with
    | error e =>
      exact .stop (by simp [GoesOn, hpoll, heeds]) hstep.symm
    | ok ping =>
      dsimp only
      split
      next hphase =>
        exact .stop (by simp [GoesOn, poll_eq, hpoll, heeds, hphase]) hstep.symm
      next hphase =>
        refine .cons (by simp [GoesOn, poll_eq, hpoll, heeds, hphase]) ?_
        rw [heeds, hstep]
        exact receive_steps now rest worker' conn'
  | .error .closed :: _, _, _ | .error .plaintextRejected :: _, _, _
  | .error (.unsupportedUrl _) :: _, _, _ | .error (.tls _) :: _, _, _ | .error (.io _) :: _, _, _
  | .error (.handshake _) :: _, _, _ | .error .nonBinaryFrame :: _, _, _
  | .error (.protocol _) :: _, _, _ => .stop id rfl

/-- What a step hands to the connection; `start` dials a new one. -/
def handed (link : Link O J) : LinkEvent J good → List (Envelope J)
  | .start answers now => (link.start wire answers now).conn.sent
  | .on event => (link.onEvent wire event).conn.sent.drop link.conn.sent.length

section
variable {wire} {link : Link O J} {event : ConnEvent J good}

theorem handed_eq {envelopes : List (Envelope J)}
    (h : (link.onEvent wire event).conn.sent = link.conn.sent ++ envelopes) :
    link.handed wire (.on event) = envelopes := by
  rw [handed, h, List.drop_left]

theorem handed_nil (h : (link.onEvent wire event).conn = link.conn) :
    link.handed wire (.on event) = [] :=
  handed_eq (by rw [h, List.append_nil])

end

end Link

end

end VodogeEdge
