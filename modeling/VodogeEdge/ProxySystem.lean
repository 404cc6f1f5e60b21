import VodogeEdge.ProxyManager
import VodogeEdge.Runs
import VodogeEdge.Tasks

/-!
# The proxy at work

The manager, the accept loops it spawned and the clients these accepted,
as one machine: every interleaving of calls of the manager, steps of the
loops and steps of the clients is a run of it.

A client is a task of its own. It takes along the instance, the upstream
and the interface of the loop that accepted it, and goes through the
stages of `handle_client`. What the rest of the world can see is kept in
`events`.
-/

namespace VodogeEdge.Proxy

open Std List

/-! ## Calls -/

inductive Call where
  | apply (around : Surroundings) (instances : List InstanceSpec) (upstreams : List UpstreamSpec)
  | start (around : Surroundings) (spec : InstanceSpec)
  | stop (id : String)
  | restart (around : Surroundings) (id : String)
  | drainTraffic

def Manager.call (m : Manager) : Call → Manager
  | .apply around instances upstreams => (m.apply around instances upstreams).2
  | .start around spec => (m.start around spec).2
  | .stop id => (m.stop id).2
  | .restart around id => (m.restart around id).2
  | .drainTraffic => m.drainTraffic.2

/-! ## Clients -/

inductive Stage where
  /-- In `negotiate`, with what has arrived so far. -/
  | negotiating (socket : Socket)
  /-- In front of `connect_out`. -/
  | connecting (target : Target) (socket : Socket)
  /-- In `connect_out`. -/
  | awaiting (target : Target) (socket : Socket)
  /-- In `relay`. -/
  | relaying (server : Socket)
  | ended

structure Client where
  /-- The loop that accepted it. -/
  loop : Nat
  view : View
  stage : Stage

inductive Event where
  | dialled (loop : Nat) (view : View) (target : Target) (attempt : Dialled)
  /-- The connection out is up. -/
  | opened (loop : Nat) (view : View) (target : Target) (server : Socket)
  | relayed (loop : Nat) (up : Bool) (bytes : Bytes)
deriving DecidableEq

def Event.loop : Event → Nat
  | .dialled loop _ _ _ => loop
  | .opened loop _ _ _ => loop
  | .relayed loop _ _ => loop

structure System where
  manager : Manager
  clients : List Client
  events : List Event

def System.new : System := ⟨Manager.new, [], []⟩

/-! ## Steps -/

inductive LoopStep where
  | wake
  | accept
  | acceptFails
  | yield

inductive ClientStep where
  | arrive (segments : List Bytes)
  | poll
  | hangUp
  | dial (network : Network)
  | answer (network : Network)
  | relay (up : Bool) (bytes : Bytes)
  /-- The relay is over; the totals are counted. -/
  | finish (up down : Nat)
  /-- A write to the client fails. -/
  | broken

inductive Label where
  | call (call : Call)
  | loop (task : Nat) (step : LoopStep)
  | client (client : Nat) (step : ClientStep)

def Phase.awake : Phase → Bool
  | .polling | .aborting => true
  | .idle | .gone => false

def Phase.wake : Phase → Phase
  | .idle => .polling
  | phase => phase

/-- Back to waiting; an aborted task is dropped there. -/
def Phase.yield : Phase → Phase
  | .polling => .idle
  | .aborting => .gone
  | phase => phase

def Loop.countConnection (loop : Loop) : Loop :=
  { loop with counters := { loop.counters with connections := loop.counters.connections + 1 } }

def Loop.countError (loop : Loop) : Loop :=
  { loop with counters := { loop.counters with errors := loop.counters.errors + 1 } }

def Loop.countBytes (up down : Nat) (loop : Loop) : Loop :=
  { loop with
    counters := { loop.counters with
      bytesUp := loop.counters.bytesUp + up
      bytesDown := loop.counters.bytesDown + down } }

/-- What a step of a client comes to: its next stage, what can be seen,
and what is counted. -/
structure Act where
  stage : Stage
  events : List Event := []
  count : Loop → Loop := id

def Act.fail : Act := { stage := .ended, count := Loop.countError }

namespace Client

def negotiation (client : Client) (socket : Socket) : Talked ProtocolError Target × Socket :=
  (negotiate client.view.spec).run socket

def connection (client : Client) (network : Network) (target : Target) :
    Talked IoError Socket × List Dialled :=
  connectOut network target client.view.upstream client.view.interface

def act (client : Client) (step : ClientStep) : Act :=
  match client.stage, step with
  | .negotiating socket, .arrive segments =>
    { stage := .negotiating { socket with arrived := socket.arrived ++ segments } }
  | .negotiating socket, .poll =>
    match client.negotiation socket with
    | (.done target, socket) => { stage := .connecting target socket }
    | (.failed _, _) => .fail
    | (.blocked, _) => { stage := client.stage }
  | .negotiating socket, .hangUp =>
    match client.negotiation socket with
    | (.done target, socket) => { stage := .connecting target socket }
    | _ => .fail
  | .connecting target socket, .dial network =>
    { stage := .awaiting target socket
      events := (client.connection network target).2.map
        (.dialled client.loop client.view target) }
  | .awaiting target _, .answer network =>
    match (client.connection network target).1 with
    | .done server =>
      { stage := .relaying server, events := [.opened client.loop client.view target server] }
    | .failed _ => .fail
    | .blocked => { stage := client.stage }
  | .relaying server, .relay up bytes =>
    { stage := .relaying server, events := [.relayed client.loop up bytes] }
  | .relaying _, .finish up down => { stage := .ended, count := Loop.countBytes up down }
  | .ended, _ => { stage := .ended }
  | _, .broken => .fail
  | _, _ => { stage := client.stage }

end Client

namespace System

def setLoop (s : System) (task : Nat) (f : Loop → Loop) : System :=
  { s with manager := { s.manager with loops := s.manager.loops.modify task f } }

def loopStep (s : System) (task : Nat) (step : LoopStep) : System :=
  match s.manager.loops[task]? with
  | none => s
  | some loop =>
    match step with
    | .wake => s.setLoop task fun loop => { loop with phase := loop.phase.wake }
    | .yield => s.setLoop task fun loop => { loop with phase := loop.phase.yield }
    | .acceptFails => if loop.phase.awake then s.setLoop task Loop.countError else s
    | .accept =>
      if loop.phase.awake then
        { s.setLoop task Loop.countConnection with
          clients := s.clients ++ [⟨task, loop.view, .negotiating .fresh⟩] }
      else s

def clientStep (s : System) (n : Nat) (step : ClientStep) : System :=
  match s.clients[n]? with
  | none => s
  | some client =>
    let act := client.act step
    { s.setLoop client.loop act.count with
      clients := s.clients.modify n fun c => { c with stage := act.stage }
      events := s.events ++ act.events }

def step (s : System) : Label → System
  | .call call => { s with manager := s.manager.call call }
  | .loop task step => s.loopStep task step
  | .client n step => s.clientStep n step

end System

/-! ## What a step keeps of the loops -/

namespace Manager

variable {m : Manager} {m' : Manager}

/-- What the loops serve with, in the order they were started. -/
def views (m : Manager) : List View := m.loops.map Loop.view

@[simp] theorem views_tearDown (id : String) : (m.tearDown id).views = m.views := by
  rw [tearDown]
  split
  · exact map_modify_of_eq (show ∀ loop : Loop, loop.abort.view = loop.view from fun _ => rfl) _ _
  · rfl

@[simp] theorem views_prune (wanted : Instances)
    (upstreams : Upstreams) : (m.prune wanted upstreams).views = m.views :=
  prune_induction (P := (·.views = m.views)) (fun _ h => h)
    (fun _ id h => (views_tearDown id).trans h) wanted upstreams rfl

/-- A call tears listeners down, starts some and replaces tables. -/
theorem call_induction {P : Manager → Prop}
    (hupstreams : ∀ m upstreams, P m →
      P { m with upstreams := upstreamTable upstreams })
    (hfailed : ∀ m, P m → P { m with failed := ∅ })
    (hreported : ∀ m reported, P m → P { m with reported := reported })
    (htearDown : ∀ m id, P m → P (m.tearDown id))
    (hstart : ∀ m around spec, P m → P (m.start around spec).2) (h : P m) (call : Call) :
    P (m.call call) := by
  cases call with
  | apply around instances upstreams =>
    exact apply_induction hfailed htearDown (fun m spec _ => hstart m around spec)
      (hupstreams m upstreams h)
  | start around spec => exact hstart m around spec h
  | stop id => exact htearDown m id h
  | restart around id =>
    rw [Manager.call, restart]
    split
    · exact hstart _ around _ (htearDown m id h)
    · exact h
  | drainTraffic => exact hreported m _ h

theorem Sound.call (h : m.Sound) (call : Call) : (m.call call).Sound :=
  call_induction (fun _ _ h => h) (fun _ h => h) (fun _ _ h => h) (fun _ id h => h.tearDown id)
    (fun _ _ _ h => h.start) h call

/-- A change of a loop that keeps what it serves with, neither aborts nor
revives it, and leaves a dropped one. -/
structure Gentle (f : Loop → Loop) : Prop where
  view : ∀ loop, (f loop).view = loop.view
  live : ∀ loop, (f loop).phase.live = loop.phase.live
  gone : ∀ loop, loop.phase = .gone → (f loop).phase = .gone

theorem Sound.modify (h : m.Sound) {f : Loop → Loop} (hf : Gentle f) (task : Nat) :
    Sound { m with loops := m.loops.modify task f } := by
  intro id running hr
  obtain ⟨hid, loop, hloop, hspec, hinterface, halive⟩ := h id running hr
  refine ⟨hid, if task = running.task then f loop else loop, ?_, ?_, ?_, ?_⟩
  · rw [getElem?_modify, hloop]
    rfl
  all_goals split
  · exact (congrArg View.spec (hf.view loop)).trans hspec
  · exact hspec
  · exact (congrArg View.interface (hf.view loop)).trans hinterface
  · exact hinterface
  · exact (hf.live loop).trans halive
  · exact halive

inductive Tended (m : Manager) : Manager → Prop where
  | same : Tended m m
  | modify {f : Loop → Loop} (hf : Gentle f) (task : Nat) :
      Tended m { m with loops := m.loops.modify task f }

theorem Sound.tended (h : m.Sound) (ht : Tended m m') : m'.Sound := by
  cases ht with
  | same => exact h
  | modify hf task => exact h.modify hf task

theorem views_tended (ht : Tended m m') : m'.views = m.views := by
  cases ht with
  | same => rfl
  | modify hf task => exact map_modify_of_eq hf.view _ _

theorem upstreams_tended (ht : Tended m m') : m'.upstreams = m.upstreams := by
  cases ht <;> rfl

theorem gentle_id : Gentle id := ⟨fun _ => rfl, fun _ => rfl, fun _ h => h⟩

theorem gentle_wake : Gentle fun loop => { loop with phase := loop.phase.wake } :=
  ⟨fun _ => rfl, fun loop => by cases h : loop.phase <;> rfl, fun loop h => by simp [h, Phase.wake]⟩

theorem gentle_yield : Gentle fun loop => { loop with phase := loop.phase.yield } :=
  ⟨fun _ => rfl, fun loop => by cases h : loop.phase <;> rfl,
    fun loop h => by simp [h, Phase.yield]⟩

theorem gentle_countConnection : Gentle Loop.countConnection :=
  ⟨fun _ => rfl, fun _ => rfl, fun _ h => h⟩

theorem gentle_countError : Gentle Loop.countError :=
  ⟨fun _ => rfl, fun _ => rfl, fun _ h => h⟩

theorem gentle_countBytes (up down : Nat) : Gentle (Loop.countBytes up down) :=
  ⟨fun _ => rfl, fun _ => rfl, fun _ h => h⟩

end Manager

/-! ## What a step can do -/

inductive Move (client : Client) : Stage → List Event → Prop where
  | stay : Move client client.stage []
  | fail : Move client .ended []
  | arrive {socket : Socket} (h : client.stage = .negotiating socket)
      (segments : List Bytes) :
      Move client (.negotiating { socket with arrived := socket.arrived ++ segments }) []
  | negotiated {socket socket' : Socket} {target : Target}
      (h : client.stage = .negotiating socket)
      (hrun : (negotiate client.view.spec).run socket = (.done target, socket')) :
      Move client (.connecting target socket') []
  | dial {target : Target} {socket : Socket} (h : client.stage = .connecting target socket)
      (network : Network) :
      Move client (.awaiting target socket)
        ((connectOut network target client.view.upstream client.view.interface).2.map
          (.dialled client.loop client.view target))
  | opened {target : Target} {socket server : Socket} (h : client.stage = .awaiting target socket)
      {network : Network}
      (hopen : (connectOut network target client.view.upstream client.view.interface).1
        = .done server) :
      Move client (.relaying server) [.opened client.loop client.view target server]
  | relay {server : Socket} (h : client.stage = .relaying server) (up : Bool)
      (bytes : Bytes) :
      Move client (.relaying server) [.relayed client.loop up bytes]

theorem Client.act_cases (client : Client) (step : ClientStep) :
    Move client (client.act step).stage (client.act step).events ∧
      Manager.Gentle (client.act step).count := by
  have hstay : Move client client.stage [] ∧ Manager.Gentle id := ⟨.stay, Manager.gentle_id⟩
  have hfail : Move client Act.fail.stage Act.fail.events ∧ Manager.Gentle Act.fail.count :=
    ⟨.fail, Manager.gentle_countError⟩
  unfold act
  split
  case h_1 socket segments hstage => exact ⟨.arrive hstage segments, Manager.gentle_id⟩
  case h_2 socket hstage =>
    split
    next target socket' hrun => exact ⟨.negotiated hstage hrun, Manager.gentle_id⟩
    · exact hfail
    · exact hstay
  case h_3 socket hstage =>
    split
    next target socket' hrun => exact ⟨.negotiated hstage hrun, Manager.gentle_id⟩
    · exact hfail
  case h_4 target socket network hstage => exact ⟨.dial hstage network, Manager.gentle_id⟩
  case h_5 target socket network hstage =>
    split
    next server hopen => exact ⟨.opened hstage hopen, Manager.gentle_id⟩
    · exact hfail
    · exact hstay
  case h_6 server up bytes hstage => exact ⟨.relay hstage up bytes, Manager.gentle_id⟩
  case h_7 server up down hstage => exact ⟨.fail, Manager.gentle_countBytes up down⟩
  case h_8 hstage => exact ⟨.fail, Manager.gentle_id⟩
  case h_9 => exact hfail
  case h_10 => exact hstay

namespace System

open Manager (Tended)

variable {s : System}

/-- Where a client comes from: it was there, a loop between two waits has
taken it in, or it has made a move. -/
inductive Arises (s : System) (events : List Event) : Client → Prop where
  | kept {client : Client} (h : client ∈ s.clients) : Arises s events client
  | accepted {n : Nat} {loop : Loop} (hloop : s.manager.loops[n]? = some loop)
      (hawake : loop.phase.awake) : Arises s events ⟨n, loop.view, .negotiating .fresh⟩
  | moved {client : Client} (h : client ∈ s.clients) {stage : Stage}
      (hmove : Move client stage events) : Arises s events { client with stage := stage }

/-- A step is a call of the manager or tends its loops; what can be seen of
it is of a move of a client. -/
structure Steps (called : Prop) (s s' : System) (new : List Event) : Prop where
  manager : called ∨ Tended s.manager s'.manager
  events : s'.events = s.events ++ new
  clients : ∀ client ∈ s'.clients, Arises s new client
  shown : ∀ event ∈ new, ∃ client ∈ s.clients, ∃ stage, Move client stage new

theorem exists_steps (s : System) (label : Label) :
    ∃ events, Steps (∃ call, label = .call call) s (s.step label) events := by
  have hquiet {called : Prop} (m : Manager) (h : called ∨ Tended s.manager m) :
      ∃ events, Steps called s { s with manager := m } events :=
    ⟨[], h, (append_nil _).symm, fun _ h => .kept h, by simp⟩
  cases label with
  | call call => exact hquiet _ (.inl ⟨call, rfl⟩)
  | loop task step =>
    rw [System.step, loopStep]
    split
    · exact hquiet s.manager (.inr .same)
    next loop hloop =>
      cases step with
      | wake => exact hquiet _ (.inr (.modify Manager.gentle_wake task))
      | yield => exact hquiet _ (.inr (.modify Manager.gentle_yield task))
      | acceptFails =>
        dsimp only
        split
        · exact hquiet _ (.inr (.modify Manager.gentle_countError task))
        · exact hquiet s.manager (.inr .same)
      | accept =>
        dsimp only
        split
        next hawake =>
          refine ⟨[], .inr (.modify Manager.gentle_countConnection task),
            (append_nil _).symm, fun client hmem => ?_, by simp⟩
          rcases mem_append.mp hmem with hmem | hmem
          · exact .kept hmem
          · rw [mem_singleton.mp hmem]
            exact .accepted hloop hawake
        · exact hquiet s.manager (.inr .same)
  | client n step =>
    rw [System.step, clientStep]
    cases hclient : s.clients[n]? with
    | none => exact hquiet s.manager (.inr .same)
    | some client =>
      obtain ⟨hmove, hgentle⟩ := client.act_cases step
      have hmem := mem_of_getElem? hclient
      refine ⟨_, .inr (.modify hgentle _), rfl, fun c hc => ?_, fun _ _ => ⟨client, hmem, _, hmove⟩⟩
      rcases mem_modify hc with hc | ⟨old, hold, rfl⟩
      · exact .kept hc
      · obtain rfl := Option.some_inj.mp (hclient.symm.trans hold)
        exact .moved hmem hmove

theorem sound_step (label : Label) (h : s.manager.Sound) : (s.step label).manager.Sound := by
  obtain ⟨events, hsteps⟩ := s.exists_steps label
  rcases hsteps.manager with ⟨call, rfl⟩ | htended
  · exact h.call call
  · exact h.tended htended

def after (labels : List Label) : System := runFrom step .new labels

theorem sound_after (labels : List Label) : (after labels).manager.Sound :=
  runFrom_invariant (I := fun s : System => s.manager.Sound)
    (fun _ label => sound_step label) labels Manager.sound_new

end System

end VodogeEdge.Proxy
