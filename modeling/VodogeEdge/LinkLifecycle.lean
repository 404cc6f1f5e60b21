import VodogeEdge.LinkPhase

/-!
# The life of a session

`LinkSession` as a machine of its own, under every order of its
operations. Its optional fields follow the phase (`Coherent`), so nothing
set for one connection survives into the next. What moves it to live, and
what moves its cursor, is an acknowledgement for the connection of the
latest handshake (`session_lifecycle`).

Instants are arbitrary: nothing here needs the clock to go forward.
-/

namespace VodogeEdge

open Link LinkSession List

inductive SessionEvent (J : Type) where
  | handshake (connectionId : String) (now : Nat)
  | inbound (envelope : Envelope J) (now : Nat)
  | poll (now : Nat)
  | disconnect (now : Nat)
  | setSnapshot (snapshot : ResumeSnapshot)

/-- The connection and the cursor an acknowledgement carries. -/
def Envelope.acknowledges {J : Type} (wire : Wire J) (envelope : Envelope J) :
    Option (String × Nat) :=
  match envelope.kind with
  | .resumeAck =>
    (wire.decodeResumeAck envelope.payload).toOption.map
      fun ack => (ack.connectionId, ack.committedThrough)
  | .uplinkAck =>
    (wire.decodeUplinkAck envelope.payload).toOption.map
      fun ack => (ack.connectionId, ack.committedThrough)
  | _ => none

namespace LinkSession

variable {J : Type} (wire : Wire J) {self : LinkSession}

def step (self : LinkSession) : SessionEvent J → LinkSession
  | .handshake connectionId now => (self.handshake wire connectionId now).2
  | .inbound envelope now => (self.onInbound wire envelope now).2
  | .poll now => (self.poll wire now).2
  | .disconnect now => self.onDisconnect now
  | .setSnapshot snapshot => self.setSnapshot snapshot

/-- The connection the event opens, if it is a handshake that goes through. -/
def established (self : LinkSession) : SessionEvent J → Option String
  | .handshake connectionId now =>
    match (self.handshake wire connectionId now).1 with
    | .ok _ => some connectionId
    | .error _ => none
  | _ => none

/-! ## What an event does -/

/-- What an event leaves that opens no connection. -/
inductive Moved (wire : Wire J) (self : LinkSession) (event : SessionEvent J) :
    LinkSession → Prop
  | kept : Moved wire self event self
  | resumed (envelope : Envelope J) (now : Nat) (ack : ResumeAckPayload)
      (hevent : event = .inbound envelope now) (hkind : envelope.kind = .resumeAck)
      (hdecode : wire.decodeResumeAck envelope.payload = .ok ack)
      (hconn : self.connectionId = some ack.connectionId) :
      Moved wire self event (self.resumed ack now)
  | acked (envelope : Envelope J) (now : Nat) (ack : UplinkAckPayload)
      (hevent : event = .inbound envelope now) (hkind : envelope.kind = .uplinkAck)
      (hdecode : wire.decodeUplinkAck envelope.payload = .ok ack)
      (hconn : self.connectionId = some ack.connectionId) :
      Moved wire self event
        { self with lastRecvAt := some now, committedThrough := some ack.committedThrough }
  | heard (now : Nat) (hconn : self.connectionId.isSome) :
      Moved wire self event { self with lastRecvAt := some now }
  | pinged (now : Nat) (hphase : self.phase = .live) :
      Moved wire self event
        { self with
          nextPingAt := some (now + self.config.pingInterval)
          nextId := self.nextId + 1 }
  | dropped (now : Nat) : Moved wire self event (self.dropConnection now)
  | postponed (now : Nat) (hphase : self.phase = .idle) :
      Moved wire self event
        { self with reconnectAt := some (now + self.backoff), phase := .backoff }
  | told (snapshot : ResumeSnapshot) : Moved wire self event (self.setSnapshot snapshot)

theorem step_moved (self : LinkSession) (event : SessionEvent J) :
    (∃ connectionId now, self.established wire event = some connectionId
        ∧ self.step wire event = self.opening connectionId now)
      ∨ self.established wire event = none ∧ Moved wire self event (self.step wire event) := by
  cases event with
  | handshake connectionId now =>
    have hgreeted := self.handshake_greeted wire connectionId now
    simp only [step, established]
    generalize self.handshake wire connectionId now = r at hgreeted ⊢
    cases hgreeted with
    | refused e => exact .inr ⟨rfl, .kept⟩
    | opened resume hkind hseq => exact .inl ⟨connectionId, now, rfl, rfl⟩
  | inbound envelope now =>
    refine .inr ⟨rfl, ?_⟩
    have hhandled := self.onInbound_handled wire envelope now
    simp only [step]
    generalize self.onInbound wire envelope now = r at hhandled ⊢
    cases hhandled with
    | resumed ack hphase hconn hkind hdecode =>
      exact .resumed envelope now ack rfl hkind hdecode hconn
    | acked ack hphase hconn hkind hdecode => exact .acked envelope now ack rfl hkind hdecode hconn
    | ponged pong hphase hconn => exact .heard now (by rw [hconn]; rfl)
    | protocolError error => exact .dropped now
    | _ => exact .kept
  | poll now =>
    refine .inr ⟨rfl, ?_⟩
    have hpolled := self.poll_polled wire now
    simp only [step]
    generalize self.poll wire now = r at hpolled ⊢
    cases hpolled with
    | quiet => exact .kept
    | expired hphase => exact .dropped now
    | pinged connectionId hphase hconn => exact .pinged now hphase
  | disconnect now =>
    refine .inr ⟨rfl, ?_⟩
    simp only [step, onDisconnect]
    split
    next hidle => exact .postponed now hidle
    next => exact .dropped now
  | setSnapshot snapshot => exact .inr ⟨rfl, .told snapshot⟩

/-! ## The fields follow the phase -/

/-- Which fields are set in which phase, and the bounds of the backoff. -/
structure Coherent (config : LinkConfig) (session : LinkSession) : Prop where
  connected : session.phase = .resuming ∨ session.phase = .live ↔ session.connectionId.isSome
  received : session.connectionId.isSome ↔ session.lastRecvAt.isSome
  pinging : session.nextPingAt.isSome ↔ session.phase = .live
  waiting : session.reconnectAt.isSome ↔ session.phase = .backoff
  initial : session.config.initialBackoff = config.initialBackoff
  maximum : session.config.maxBackoff = config.maxBackoff
  atLeast : config.initialBackoff ≤ session.backoff
  atMost : session.backoff ≤ config.maxBackoff

namespace Coherent

variable {config : LinkConfig}

theorem new (hbackoff : config.initialBackoff ≤ config.maxBackoff) :
    Coherent config (new config) where
  connected := by simp [LinkSession.new]
  received := by simp [LinkSession.new]
  pinging := by simp [LinkSession.new]
  waiting := by simp [LinkSession.new]
  initial := rfl
  maximum := rfl
  atLeast := le_refl _
  atMost := hbackoff

variable (h : Coherent config self)
include h

theorem dropConnection (now : Nat) : Coherent config (self.dropConnection now) where
  __ := h
  connected := by simp [LinkSession.dropConnection]
  received := by simp [LinkSession.dropConnection]
  pinging := by simp [LinkSession.dropConnection]
  waiting := by simp [LinkSession.dropConnection]
  atLeast := by
    have hmax := h.maximum
    have hle := h.atLeast
    have hge := h.atMost
    simp only [LinkSession.dropConnection]
    split <;> omega
  atMost := by
    have hmax := h.maximum
    simp only [LinkSession.dropConnection]
    split <;> omega

theorem step (event : SessionEvent J) : Coherent config (self.step wire event) := by
  rcases self.step_moved wire event with ⟨connectionId, now, -, hopened⟩ | ⟨-, hmoved⟩
  · rw [hopened]
    exact { h with
      connected := by simp [opening]
      received := by simp [opening]
      pinging := by simp [opening]
      waiting := by simp [opening] }
  generalize self.step wire event = session at hmoved ⊢
  cases hmoved with
  | kept => exact h
  | resumed envelope now ack hevent hkind hdecode hconn =>
    have hle := h.atLeast
    have hge := h.atMost
    exact { h with
      connected := by simp [resumed, hconn]
      received := by simp [resumed, hconn]
      pinging := by simp [resumed]
      waiting := by simp [resumed]
      atLeast := by simp [resumed, h.initial]
      atMost := by
        simp only [resumed, h.initial]
        omega }
  | acked envelope now ack hevent hkind hdecode hconn | heard now hconn =>
    exact { h with received := by simp [hconn] }
  | pinged now hphase => exact { h with pinging := by simp [hphase] }
  | dropped now => exact h.dropConnection now
  | postponed now hidle =>
    -- an idle session has no connection to drop
    have hnone : ¬self.connectionId.isSome := by simp [← h.connected, hidle]
    have hquiet : ¬self.nextPingAt.isSome := by simp [h.pinging, hidle]
    exact { h with
      connected := by simpa using hnone
      pinging := by simpa using hquiet
      waiting := by simp }
  | told snapshot => exact { h with }

end Coherent

/-! ## The connection of the latest handshake -/

def latestHandshake (self : LinkSession) (events : List (SessionEvent J)) : Option String :=
  ((outputs (step wire) (established wire) self events).filterMap id).getLast?

theorem latestHandshake_snoc (self : LinkSession) (events : List (SessionEvent J))
    (event : SessionEvent J) :
    self.latestHandshake wire (events ++ [event])
      = ((runFrom (step wire) self events).established wire event).or
          (self.latestHandshake wire events) := by
  rw [latestHandshake, outputs_snoc, filterMap_append, getLast?_append]
  cases (runFrom (step wire) self events).established wire event <;> rfl

theorem connectionId_step {event : SessionEvent J} {connectionId : String}
    (h : (self.step wire event).connectionId = some connectionId) :
    self.established wire event = some connectionId
      ∨ self.established wire event = none ∧ self.connectionId = some connectionId := by
  rcases self.step_moved wire event with ⟨opened, now, hopened, hstep⟩ | ⟨hnone, hmoved⟩
  · rw [hstep] at h
    exact .inl (hopened.trans h)
  · refine .inr ⟨hnone, ?_⟩
    generalize self.step wire event = session at h hmoved
    cases hmoved with
    | dropped now => cases h
    | _ => exact h

theorem connectionId_latest (config : LinkConfig) (events : List (SessionEvent J)) :
    ∀ connectionId, (runFrom (step wire) (new config) events).connectionId = some connectionId →
      (new config).latestHandshake wire events = some connectionId := by
  refine runFrom_history (I := fun events (session : LinkSession) =>
    ∀ connectionId, session.connectionId = some connectionId →
      (new config).latestHandshake wire events = some connectionId) ?_ ?_ events
  · intro connectionId h
    cases h
  · intro events event ih connectionId h
    rw [latestHandshake_snoc]
    rcases connectionId_step wire h with hopened | ⟨hnone, hbefore⟩
    · rw [hopened, Option.some_or]
    · rw [hnone, Option.none_or, ih connectionId hbefore]

/-! ## What moves the phase and the cursor -/

section
variable {wire} {event : SessionEvent J}

theorem becomes_live (hbefore : self.phase ≠ .live)
    (hafter : (self.step wire event).phase = .live) :
    ∃ envelope now ack, event = .inbound envelope now ∧ envelope.kind = .resumeAck
      ∧ wire.decodeResumeAck envelope.payload = .ok ack
      ∧ self.connectionId = some ack.connectionId := by
  rcases self.step_moved wire event with ⟨opened, now, -, hstep⟩ | ⟨-, hmoved⟩
  · rw [hstep] at hafter
    cases hafter
  generalize self.step wire event = session at hafter hmoved
  cases hmoved with
  | resumed envelope now ack hevent hkind hdecode hconn =>
    exact ⟨envelope, now, ack, hevent, hkind, hdecode, hconn⟩
  | dropped | postponed => cases hafter
  | _ => exact absurd hafter hbefore

/-- Apart from a handshake, an acknowledgement for its own connection is
all that moves the cursor of a session. -/
theorem moves_cursor (hopened : self.established wire event = none)
    (hmoved : (self.step wire event).committedThrough ≠ self.committedThrough) :
    ∃ envelope now connectionId through, event = .inbound envelope now
      ∧ envelope.acknowledges wire = some (connectionId, through)
      ∧ self.connectionId = some connectionId
      ∧ (self.step wire event).committedThrough = some through := by
  rcases self.step_moved wire event with ⟨opened, now, hsome, -⟩ | ⟨-, hcase⟩
  · rw [hopened] at hsome
    cases hsome
  generalize self.step wire event = session at hmoved hcase ⊢
  cases hcase with
  | resumed envelope now ack hevent hkind hdecode hconn
  | acked envelope now ack hevent hkind hdecode hconn =>
    exact ⟨envelope, now, _, _, hevent,
      by simp [Envelope.acknowledges, hkind, hdecode, Except.toOption], hconn, rfl⟩
  | _ => exact absurd rfl hmoved

end

/-- In every run the fields follow the phase and the backoff keeps its bounds;
the session becomes live only by ResumeAck for the connection opened last, and
its cursor moves, other than by opening, only by an acknowledgement for it. -/
theorem session_lifecycle (config : LinkConfig)
    (hbackoff : config.initialBackoff ≤ config.maxBackoff) (events : List (SessionEvent J)) :
    Coherent config (runFrom (step wire) (new config) events)
      ∧ (∀ event, (runFrom (step wire) (new config) events).phase ≠ .live →
          ((runFrom (step wire) (new config) events).step wire event).phase = .live →
          ∃ envelope now ack, event = .inbound envelope now ∧ envelope.kind = .resumeAck
            ∧ wire.decodeResumeAck envelope.payload = .ok ack
            ∧ (new config).latestHandshake wire events = some ack.connectionId)
      ∧ ∀ event, (runFrom (step wire) (new config) events).established wire event = none →
          ((runFrom (step wire) (new config) events).step wire event).committedThrough
            ≠ (runFrom (step wire) (new config) events).committedThrough →
          ∃ envelope now connectionId through, event = .inbound envelope now
            ∧ envelope.acknowledges wire = some (connectionId, through)
            ∧ (new config).latestHandshake wire events = some connectionId
            ∧ ((runFrom (step wire) (new config) events).step wire event).committedThrough
              = some through := by
  have hlatest := connectionId_latest wire config events
  refine ⟨runFrom_invariant (fun session event h => h.step wire event) events (.new hbackoff),
    fun event hbefore hafter => ?_, fun event hopened hmoved => ?_⟩
  · obtain ⟨envelope, now, ack, hevent, hkind, hdecode, hconn⟩ := becomes_live hbefore hafter
    exact ⟨envelope, now, ack, hevent, hkind, hdecode, hlatest _ hconn⟩
  · obtain ⟨envelope, now, connectionId, through, hevent, hack, hconn, hcursor⟩ :=
      moves_cursor hopened hmoved
    exact ⟨envelope, now, connectionId, through, hevent, hack, hlatest _ hconn, hcursor⟩

/-- A session that was dropped, dialled again and is waiting for
ResumeAck, after the drop of the first connection doubled the backoff. -/
def redialled : List (SessionEvent (Option ResumeAckPayload)) :=
  [.handshake "c-1" 0, .inbound (Link.resumeAckOf (Link.nothingCommitted "c-1")) 10, .poll 40,
   .disconnect 50, .handshake "c-2" 2000]

theorem redialled_resumes :
    Coherent quietConfig (runFrom (step ackWire) (new quietConfig) redialled)
      ∧ ∃ envelope now ack,
        SessionEvent.inbound (resumeAckOf (nothingCommitted "c-2")) 2010 = .inbound envelope now
          ∧ envelope.kind = .resumeAck ∧ ackWire.decodeResumeAck envelope.payload = .ok ack
          ∧ (new quietConfig).latestHandshake ackWire redialled = some ack.connectionId := by
  obtain ⟨hcoherent, hlive, -⟩ :=
    session_lifecycle ackWire quietConfig (by decide) redialled
  exact ⟨hcoherent, hlive (.inbound (resumeAckOf (nothingCommitted "c-2")) 2010)
    (by decide) (by decide)⟩

/-! ## Dead links -/

/-- The connection is given up and a time to dial again is set. -/
def GivenUp (session : LinkSession) : Prop :=
  session.phase = .backoff ∧ session.reconnectAt.isSome

instance (session : LinkSession) : Decidable session.GivenUp := inferInstanceAs (Decidable (_ ∧ _))

/-- In a connected phase the receive timer runs. -/
def Armed (session : LinkSession) : Prop :=
  session.phase = .resuming ∨ session.phase = .live → session.lastRecvAt.isSome

theorem Armed.step (h : self.Armed) (event : SessionEvent J) : (self.step wire event).Armed := by
  rcases self.step_moved wire event with ⟨connectionId, now, -, hopened⟩ | ⟨-, hmoved⟩
  · intro _
    rw [hopened]
    rfl
  generalize self.step wire event = session at hmoved ⊢
  cases hmoved with
  | kept | pinged | told => exact h
  | dropped now => simp [Armed, dropConnection]
  | postponed now hidle => simp [Armed]
  | _ => exact fun _ => rfl

section
variable {wire} {last : Nat}

/-- Until ResumeAck a poll looks at nothing but the phase. -/
theorem polls_not_live (h : self.phase ≠ .live) (instants : List Nat) :
    runFrom (step wire) self (instants.map .poll) = self := by
  induction instants with
  | nil => rfl
  | cons now instants ih =>
    rw [map_cons, runFrom_cons, step, poll, if_pos h]
    exact ih

variable (wire) in
/-- A poll of a live session drops it if it is overdue, and leaves the
timer as it is otherwise. -/
theorem poll_live (hphase : self.phase = .live) (hlast : self.lastRecvAt = some last) (now : Nat) :
    (self.config.idleTimeout ≤ now - last ∧ (self.poll wire now).2 = self.dropConnection now)
      ∨ ¬self.config.idleTimeout ≤ now - last ∧ (self.poll wire now).2.phase = .live
        ∧ (self.poll wire now).2.lastRecvAt = some last
        ∧ (self.poll wire now).2.config = self.config := by
  unfold poll
  rw [if_neg (not_not_intro hphase)]
  by_cases hdue : self.config.idleTimeout ≤ now - last
  · refine .inl ⟨hdue, ?_⟩
    simp [idleExpired, hlast, hdue]
  · refine .inr ⟨hdue, ?_⟩
    rw [if_neg (by simp [idleExpired, hlast, hdue])]
    split
    · exact ⟨hphase, hlast, rfl⟩
    split
    · exact ⟨hphase, hlast, rfl⟩
    split <;> exact ⟨hphase, hlast, rfl⟩

theorem polls_live (instants : List Nat) : ∀ self, self.phase = .live →
    self.lastRecvAt = some last →
    (∃ now ∈ instants, self.config.idleTimeout ≤ now - last) →
    (runFrom (step wire) self (instants.map .poll)).GivenUp := by
  induction instants with
  | nil =>
    rintro self - - ⟨now, hmem, -⟩
    cases hmem
  | cons now instants ih =>
    intro self hphase hlast hoverdue
    rw [map_cons, runFrom_cons, step]
    rcases poll_live wire hphase hlast now with ⟨-, hdropped⟩ | ⟨hdue, hkept⟩
    · rw [hdropped, polls_not_live (by simp [dropConnection])]
      exact ⟨rfl, rfl⟩
    · obtain ⟨hphase', hlast', hconfig⟩ := hkept
      refine ih _ hphase' hlast' ?_
      rw [hconfig]
      obtain ⟨late, hmem, hlate⟩ := hoverdue
      rcases mem_cons.mp hmem with rfl | hmem
      · exact absurd hlate hdue
      · exact ⟨late, hmem, hlate⟩

end

/-- In a connected phase the receive timer is armed. Polled past the idle
timeout, alone or among other polls, the connection is given up exactly if
ResumeAck had arrived: until then `poll` never looks at the timer. -/
theorem deadLink_dropped_iff (config : LinkConfig) (events : List (SessionEvent J))
    {session : LinkSession} (hrun : runFrom (step wire) (new config) events = session)
    (hconnected : session.phase = .resuming ∨ session.phase = .live) :
    ∃ last, session.lastRecvAt = some last
      ∧ (∀ now, session.config.idleTimeout ≤ now - last →
          ((session.poll wire now).2.GivenUp ↔ session.phase = .live))
      ∧ ∀ instants : List Nat, (∃ now ∈ instants, session.config.idleTimeout ≤ now - last) →
          ((runFrom (step wire) session (instants.map .poll)).GivenUp
            ↔ session.phase = .live) := by
  have harmed : session.Armed := by
    rw [← hrun]
    exact runFrom_invariant (fun session event h => h.step wire event) events
      (show (new config).Armed by simp [Armed, new])
  obtain ⟨last, hlast⟩ := Option.isSome_iff_exists.mp (harmed hconnected)
  have hpolls : ∀ instants : List Nat,
      (∃ now ∈ instants, session.config.idleTimeout ≤ now - last) →
      ((runFrom (step wire) session (instants.map .poll)).GivenUp ↔ session.phase = .live) := by
    intro instants hoverdue
    by_cases hphase : session.phase = .live
    · exact iff_of_true (polls_live instants session hphase hlast hoverdue) hphase
    · have hresuming : session.phase = .resuming := hconnected.resolve_right hphase
      rw [polls_not_live hphase]
      simp [GivenUp, hresuming]
  refine ⟨last, hlast, fun now hnow => ?_, hpolls⟩
  exact hpolls [now] ⟨now, mem_singleton_self now, hnow⟩

/-- A session heard from last at 10, with ResumeAck. -/
def answered : List (SessionEvent (Option ResumeAckPayload)) :=
  [.handshake "c-1" 0, .inbound (Link.resumeAckOf (Link.nothingCommitted "c-1")) 10]

theorem answered_dropped :
    ∃ last, (runFrom (step ackWire) (new quietConfig) answered).lastRecvAt = some last
      ∧ ∀ now, quietConfig.idleTimeout ≤ now - last →
        ((runFrom (step ackWire) (new quietConfig) answered).poll ackWire now).2.GivenUp := by
  obtain ⟨last, hlast, hpoll, -⟩ :=
    deadLink_dropped_iff ackWire quietConfig answered rfl (by decide)
  exact ⟨last, hlast, fun now hnow => (hpoll now hnow).mpr (by decide)⟩

/-- No ResumeAck after the handshake at 0: the polls at ever later
instants change nothing. -/
theorem unanswered_kept :
    let session := runFrom (step ackWire) (new quietConfig) [.handshake "c-1" 0]
    session.phase = .resuming ∧ session.lastRecvAt = some 0
      ∧ session.config.idleTimeout ≤ 90000
      ∧ runFrom (step ackWire) session [.poll 90000, .poll 900000, .poll 9000000] = session
      ∧ ¬session.GivenUp := by
  decide

end LinkSession

end VodogeEdge
