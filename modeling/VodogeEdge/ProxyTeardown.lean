import VodogeEdge.ProxyChain

/-!
# Listeners that are torn down

`stop` and `apply` forget a listener and abort its accept loop. A loop that
waits is dropped there; one in the middle of a poll may still take in a
client. The clients are tasks nobody holds: each goes on with what it was
accepted with, through its negotiation, the connection out and the relay.

So a loop falls silent exactly if it is dropped and every client it has
taken in is past serving: ended, or with bytes sent that begin no
negotiation its instance would accept.
-/

namespace VodogeEdge.Proxy

open List

open Std Talk

inductive TearsDown (m : Manager) (id : String) : Call → Prop where
  | stop : TearsDown m id (.stop id)
  /-- It is not wanted any more, disabled or wanted differently. -/
  | apply (around : Surroundings) {instances : List InstanceSpec} (upstreams : List UpstreamSpec)
      (hrunning : (m.task id).isSome)
      (hstale : m.stale (Manager.wantedOf instances) id) :
      TearsDown m id (.apply around instances upstreams)

/-- Whatever comes, no client of the loop dials, is connected or relays. -/
def System.Silent (s : System) (n : Nat) : Prop :=
  ∀ labels, ∀ event ∈ (runFrom System.step s labels).events.drop s.events.length, event.loop ≠ n

/-- The client has ended, or what it has sent neither begins with a
negotiation its instance accepts nor can become one. -/
def Client.Spent (client : Client) : Prop :=
  match client.stage with
  | .negotiating socket => ∀ target bytes, Negotiated client.view.spec target bytes →
      ¬bytes <+: socket.stream ∧ ¬socket.stream <+: bytes
  | .ended => True
  | _ => False

/-- Before the call: the loop is dropped, or held and waiting, or asks for
credentials nobody can send; and its clients are spent. -/
structure CutOff (s : System) (id : String) (n : Nat) (loop : Loop) : Prop where
  loop : loop.phase = .gone ∨ loop.phase = .idle ∧ s.manager.task id = some n ∨
    ¬CredentialsFit loop.spec
  clients : ∀ client ∈ s.clients, client.loop = n → client.Spent

/-! ## Loops under a call -/

namespace Manager

variable {m m' : Manager} {id : String} {n : Nat} {loop : Loop}

/-- A call that tears the listener down aborts the loop the manager holds
and leaves the others of that id. -/
theorem getElem?_of_tearsDown (h : m.Sound) {call : Call} (hcall : TearsDown m id call)
    (hloop : m.loops[n]? = some loop) (hid : loop.spec.id = id) :
    (m.call call).loops[n]? = some (if m.task id = some n then loop.abort else loop) := by
  have hcleared : (m.cleared call).loops[n]?
      = some (if m.task id = some n then loop.abort else loop) := by
    cases hcall with
    | stop =>
      rw [cleared, getElem?_tearDown, hloop]
      rfl
    | apply around upstreams hrunning hstale =>
      rw [cleared, getElem?_prune h, hloop, Option.map_some, hid]
      simp [hstale]
  rwa [loops_call h, List.getElem?_append_left (List.getElem?_eq_some_iff.mp hcleared).1]

/-- Every loop of the first manager is one of the second, with what it
serves with, and not revived. -/
def Carries (m m' : Manager) : Prop :=
  ∀ ⦃n : Nat⦄ ⦃loop : Loop⦄, m.loops[n]? = some loop → ∃ loop', m'.loops[n]? = some loop' ∧
    loop'.view = loop.view ∧ (loop.phase = .gone → loop'.phase = .gone)

theorem Carries.trans {m'' : Manager} (h : m.Carries m') (h' : m'.Carries m'') : m.Carries m'' := by
  intro n loop hloop
  obtain ⟨loop', hloop', hview, hgone⟩ := h hloop
  obtain ⟨loop'', hloop'', hview', hgone'⟩ := h' hloop'
  exact ⟨loop'', hloop'', hview'.trans hview, fun hphase => hgone' (hgone hphase)⟩

theorem carries_of_kept (h : m.loops <+: m'.loops) : m.Carries m' := by
  intro n loop hloop
  obtain ⟨hn, rfl⟩ := List.getElem?_eq_some_iff.mp hloop
  exact ⟨_, prefix_iff_getElem?.mp h n hn, rfl, id⟩

theorem carries_tearDown (m : Manager) (id : String) : m.Carries (m.tearDown id) := by
  intro n loop hloop
  refine ⟨_, by rw [getElem?_tearDown, hloop]; rfl, ?_, ?_⟩
  · split <;> rfl
  · intro hphase
    split
    · simp [Loop.abort, hphase, Phase.abort]
    · exact hphase

theorem carries_call (m : Manager) (call : Call) : m.Carries (m.call call) :=
  call_induction (fun _ _ h => h) (fun _ h => h) (fun _ _ h => h)
    (fun m' id h => h.trans (carries_tearDown m' id))
    (fun _ _ _ h => h.trans (carries_of_kept (loops_start ▸ prefix_append _ _)))
    (carries_of_kept prefix_rfl) call

theorem carries_tended (h : Tended m m') : m.Carries m' := by
  cases h with
  | same => exact carries_of_kept prefix_rfl
  | @modify f hf task =>
    intro n loop hloop
    refine ⟨if task = n then f loop else loop, ?_, ?_, ?_⟩
    · rw [getElem?_modify, hloop]
      rfl
    · split
      · exact hf.view loop
      · rfl
    · intro hphase
      split
      · exact hf.gone loop hphase
      · exact hphase

end Manager

/-! ## What clients can still do -/

variable {stage : Stage} {events : List Event}

namespace Client

variable {client : Client}

theorem Spent.move (h : client.Spent)
    (hmove : Move client stage events) : events = [] ∧ { client with stage := stage }.Spent := by
  cases hmove with
  | stay => exact ⟨rfl, h⟩
  | fail => exact ⟨rfl, trivial⟩
  | @arrive socket hstage segments =>
    simp only [Spent, hstage] at h
    refine ⟨rfl, fun target bytes hneg => ?_⟩
    obtain ⟨hshort, hlong⟩ := h target bytes hneg
    have hstream : Socket.stream { socket with arrived := socket.arrived ++ segments }
        = socket.stream ++ segments.flatten := flatten_append
    rw [hstream]
    refine ⟨fun hbytes => ?_, fun hbytes => hlong ((prefix_append _ _).trans hbytes)⟩
    rcases prefix_or_prefix_of_prefix hbytes (prefix_append socket.stream _) with h | h
    · exact hshort h
    · exact hlong h
  | @negotiated socket socket' target hstage hrun =>
    simp only [Spent, hstage] at h
    obtain ⟨bytes, hneg, hbytes⟩ := (negotiate_reads _).consumes hrun
    exact absurd ⟨_, hbytes.symm⟩ (h target bytes hneg).1
  | dial hstage | opened hstage | relay hstage => simp [Spent, hstage] at h

end Client

/-- A client that has sent nothing is spent exactly if the credentials its
instance asks for cannot be sent. -/
theorem spent_fresh {n : Nat} {view : View} :
    Client.Spent ⟨n, view, .negotiating .fresh⟩ ↔ ¬CredentialsFit view.spec := by
  constructor
  · intro h hfits
    have hneg : Negotiated view.spec (.domain "" 0)
        (greeting [requiredMethod view.spec] ++ credentials view.spec
          ++ connectBytes 0 (.domain "" 0)) := by
      refine ⟨hfits, ?_, [requiredMethod view.spec], 0, by simp, mem_singleton_self _, rfl⟩
      rintro _ _ ⟨⟩
      decide
    exact (h _ _ hneg).2 nil_prefix
  · exact fun hfits target bytes hneg => absurd hneg.fits hfits

theorem exists_connectOut (target : Target) (upstream : Option UpstreamSpec)
    (interface : Option String) :
    ∃ network server, (connectOut network target upstream interface).1 = .done server := by
  cases upstream with
  | none => exact ⟨⟨fun _ => .ok .fresh⟩, .fresh, rfl⟩
  | some upstream =>
    -- an upstream that takes the first method and answers at once
    exact ⟨⟨fun _ => .ok ⟨[[version, authNone, version, replySuccess, 0, 9]], false, [], []⟩⟩,
      _, rfl⟩

theorem connectOut_ne_nil (network : Network) (target : Target) (upstream : Option UpstreamSpec)
    (interface : Option String) : (connectOut network target upstream interface).2 ≠ [] := by
  cases upstream with
  | some upstream =>
    rw [(connectOut_upstream network target upstream interface).1]
    exact cons_ne_nil _ _
  | none =>
    rw [connectOut, connectVia]
    cases network.connect ⟨.target target, interface⟩ <;> exact cons_ne_nil _ _

theorem Move.loop {client : Client}
    (h : Move client stage events) : ∀ event ∈ events, event.loop = client.loop := by
  intro event hevent
  cases h with
  | stay | fail | arrive | negotiated => exact absurd hevent not_mem_nil
  | dial =>
    obtain ⟨attempt, -, rfl⟩ := mem_map.mp hevent
    rfl
  | opened | relay =>
    rw [mem_singleton.mp hevent]
    rfl

namespace System

variable {s : System} {n k : Nat} {client : Client}

/-! ## Silence -/

theorem Silent.step (h : s.Silent n) (label : Label) : (s.step label).Silent n := by
  intro labels event hevent
  refine h (label :: labels) event (drop_subset_drop_left _ ?_ hevent)
  obtain ⟨new, hsteps⟩ := s.exists_steps label
  rw [hsteps.events, length_append]
  exact Nat.le_add_right _ _

theorem Silent.next (h : s.Silent n) {label : Label} {new : List Event}
    (hnew : (s.step label).events = s.events ++ new) : ∀ event ∈ new, event.loop ≠ n := by
  intro event hevent
  refine h [label] event ?_
  rwa [runFrom_cons, runFrom_nil, hnew, drop_left]

theorem getElem?_clientStep (hclient : s.clients[k]? = some client) (step : ClientStep) :
    (s.step (.client k step)).clients[k]? = some { client with stage := (client.act step).stage } ∧
      (s.step (.client k step)).events = s.events ++ (client.act step).events := by
  simp only [System.step, clientStep, hclient]
  refine ⟨?_, trivial⟩
  rw [getElem?_modify, hclient]
  exact congrArg some (if_pos rfl)

theorem Silent.events_act (h : s.Silent n) (hclient : s.clients[k]? = some client)
    (hn : client.loop = n) (step : ClientStep) :
    ∀ event ∈ (client.act step).events, event.loop ≠ client.loop :=
  hn ▸ h.next (getElem?_clientStep hclient step).2

/-- The sockets of clients that negotiate take what is written. -/
def Open (s : System) : Prop :=
  ∀ client ∈ s.clients, ∀ socket, client.stage = .negotiating socket → socket.writes = []

theorem open_step (h : s.Open) (label : Label) : (s.step label).Open := by
  obtain ⟨new, hsteps⟩ := s.exists_steps label
  intro client hmem socket hsocket
  cases hsteps.clients client hmem with
  | kept hmem => exact h client hmem socket hsocket
  | accepted =>
    cases hsocket
    rfl
  | @moved old hold _ hmove =>
    cases hmove with
    | stay => exact h old hold socket hsocket
    | arrive hstage segments =>
      have hwrites := h old hold _ hstage
      cases hsocket
      exact hwrites
    | fail | negotiated | dial | opened | relay => cases hsocket

variable {socket : Socket} {target : Target} (labels : List Label) {loop : Loop}

theorem Silent.stage_ne_connecting (h : s.Silent n) (hclient : s.clients[k]? = some client)
    (hn : client.loop = n) : client.stage ≠ .connecting target socket := by
  intro hstage
  have hquiet := h.events_act hclient hn (.dial ⟨fun _ => .ok .fresh⟩)
  obtain ⟨attempt, hattempt⟩ := exists_mem_of_ne_nil _
    (connectOut_ne_nil ⟨fun _ => .ok .fresh⟩ target client.view.upstream client.view.interface)
  refine hquiet (.dialled client.loop client.view target attempt) ?_ rfl
  simp only [Client.act, hstage]
  exact mem_map_of_mem hattempt

/-- A client of a silent loop has not sent, and can never send, what its
instance accepts. -/
theorem Silent.not_negotiated (h : s.Silent n) (hopen : s.Open)
    (hclient : s.clients[k]? = some client) (hn : client.loop = n)
    (hstage : client.stage = .negotiating socket) {bytes : Bytes}
    (hneg : Negotiated client.view.spec target bytes) (more rest : Bytes) :
    socket.stream ++ more ≠ bytes ++ rest := by
  intro hbytes
  -- the rest of the negotiation arrives, and the client is asked to go on
  have harrived := (getElem?_clientStep hclient (.arrive [more])).1
  simp only [Client.act, hstage] at harrived
  have hstream : Socket.stream { socket with arrived := socket.arrived ++ [more] }
      = bytes ++ rest := by
    rw [← hbytes, Socket.stream, flatten_append, flatten_singleton]
    rfl
  have hwrites := hopen client (mem_of_getElem? hclient) socket hstage
  obtain ⟨socket', hrun, -⟩ := (negotiate_reads _).accepts hneg hstream hwrites
  have hpolled := (getElem?_clientStep harrived .poll).1
  simp only [Client.act, Client.negotiation, hrun] at hpolled
  exact ((h.step _).step _).stage_ne_connecting hpolled hn rfl

theorem Silent.spent (h : s.Silent n) (hopen : s.Open) (hmem : client ∈ s.clients)
    (hn : client.loop = n) : client.Spent := by
  obtain ⟨k, hclient⟩ := mem_iff_getElem?.mp hmem
  cases hstage : client.stage with
  | negotiating socket =>
    simp only [Client.Spent, hstage]
    refine fun target bytes hneg => ⟨?_, ?_⟩
    · rintro ⟨rest, hrest⟩
      refine h.not_negotiated hopen hclient hn hstage hneg [] rest ?_
      rw [append_nil, hrest]
    · rintro ⟨more, hmore⟩
      refine h.not_negotiated hopen hclient hn hstage hneg more [] ?_
      rw [append_nil, hmore]
  | connecting target socket => exact absurd hstage (h.stage_ne_connecting hclient hn)
  | awaiting target socket =>
    obtain ⟨network, server, hserver⟩ :=
      exists_connectOut target client.view.upstream client.view.interface
    refine absurd rfl (h.events_act hclient hn (.answer network)
      (.opened client.loop client.view target server) ?_)
    simp [Client.act, hstage, Client.connection, hserver]
  | relaying server =>
    refine absurd rfl (h.events_act hclient hn (.relay true []) (.relayed client.loop true []) ?_)
    simp [Client.act, hstage]
  | ended => simp [Client.Spent, hstage]

/-- The loop takes in nobody who could be served, and nobody it has taken
in can be. -/
structure Shut (s : System) (n : Nat) : Prop where
  loop : ∃ loop, s.manager.loops[n]? = some loop ∧
    (loop.phase = .gone ∨ ¬CredentialsFit loop.spec)
  clients : ∀ client ∈ s.clients, client.loop = n → client.Spent

/-- A silent loop is shut: one that could still be woken takes in a client
that can be served. -/
theorem Silent.shut (h : s.Silent n) (hopen : s.Open)
    (hloop : s.manager.loops[n]? = some loop) : s.Shut n := by
  refine ⟨⟨loop, hloop, or_iff_not_imp_left.mpr fun hgone => ?_⟩,
    fun client hmem hn => h.spent hopen hmem hn⟩
  have hwoken : (s.step (.loop n .wake)).manager.loops[n]?
      = some { loop with phase := loop.phase.wake } := by
    simp only [System.step, loopStep, hloop, setLoop, getElem?_modify]
    exact congrArg some (if_pos trivial)
  have hawake : loop.phase.wake.awake := by
    cases hphase : loop.phase with
    | gone => exact absurd hphase hgone
    | idle | polling | aborting => rfl
  have hmem : ⟨n, loop.view, .negotiating .fresh⟩
      ∈ ((s.step (.loop n .wake)).step (.loop n .accept)).clients := by
    rw [System.step, loopStep, hwoken]
    simp only [hawake]
    exact mem_append_right _ (mem_singleton_self _)
  have hspent := ((h.step _).step _).spent (open_step (open_step hopen _) _) hmem rfl
  exact spent_fresh.mp hspent

/-- A step leaves a shut loop shut, and shows nothing of it. -/
theorem Shut.step (h : s.Shut n) (label : Label) :
    (s.step label).Shut n ∧ ∃ new, (s.step label).events = s.events ++ new ∧
      ∀ event ∈ new, event.loop ≠ n := by
  obtain ⟨⟨loop, hloop, hshut⟩, hclients⟩ := h
  obtain ⟨new, hsteps⟩ := s.exists_steps label
  refine ⟨⟨?_, fun client hmem hn => ?_⟩, new, hsteps.events, fun event hevent hn => ?_⟩
  · have hcarries : s.manager.Carries (s.step label).manager := by
      rcases hsteps.manager with ⟨call, rfl⟩ | htended
      · exact Manager.carries_call s.manager call
      · exact Manager.carries_tended htended
    obtain ⟨loop', hloop', hview, hgone⟩ := hcarries hloop
    have hspec : loop'.spec = loop.spec := congrArg View.spec hview
    exact ⟨loop', hloop', hshut.imp hgone fun hfits => hspec ▸ hfits⟩
  · cases hsteps.clients client hmem with
    | kept hmem => exact hclients client hmem hn
    | accepted hloop' hawake =>
      -- only a loop that is not dropped takes in a client
      obtain rfl := hn
      obtain rfl := Option.some_inj.mp (hloop.symm.trans hloop')
      refine spent_fresh.mpr (hshut.resolve_left fun hgone => ?_)
      rw [hgone] at hawake
      cases hawake
    | moved hold hmove => exact ((hclients _ hold hn).move hmove).2
  · obtain ⟨old, hold, stage, hmove⟩ := hsteps.shown event hevent
    have hloop' := hmove.loop event hevent
    have hnil := ((hclients old hold (hloop'.symm.trans hn)).move hmove).1
    rw [hnil] at hevent
    exact not_mem_nil hevent

theorem Shut.run : ∀ {s : System}, s.Shut n →
    ∃ new, (runFrom System.step s labels).events = s.events ++ new ∧
      ∀ event ∈ new, event.loop ≠ n := by
  induction labels with
  | nil => exact fun _ => ⟨[], (append_nil _).symm, by simp⟩
  | cons label labels ih =>
    intro s h
    obtain ⟨hnext, first, hfirst, hquiet⟩ := h.step label
    obtain ⟨rest, hrest, hquiet'⟩ := ih hnext
    refine ⟨first ++ rest, ?_, fun event hevent => ?_⟩
    · rw [runFrom_cons, hrest, hfirst, append_assoc]
    · exact (mem_append.mp hevent).elim (hquiet event) (hquiet' event)

theorem silent_iff_shut (hopen : s.Open) (hloop : s.manager.loops[n]? = some loop) :
    s.Silent n ↔ s.Shut n := by
  refine ⟨fun h => h.shut hopen hloop, fun h labels event hevent => ?_⟩
  obtain ⟨new, hnew, hquiet⟩ := h.run labels
  rw [hnew, drop_left] at hevent
  exact hquiet event hevent

theorem open_after : (after labels).Open :=
  runFrom_invariant (I := Open) (fun _ label h => open_step h label) labels
    (by simp [Open, System.new])

end System

/-- In every run, once a listener is torn down, a loop of its id is silent
exactly if it was cut off before. -/
theorem tornDown_silent_iff (labels : List Label) {id : String} {call : Call}
    (hcall : TearsDown (System.after labels).manager id call) {n : Nat} {loop : Loop}
    (hloop : (System.after labels).manager.loops[n]? = some loop) (hid : loop.spec.id = id) :
    ((System.after labels).step (.call call)).Silent n ↔
      CutOff (System.after labels) id n loop := by
  have hopen := System.open_step (System.open_after labels) (.call call)
  have hnext : ((System.after labels).step (.call call)).manager.loops[n]? = _ :=
    Manager.getElem?_of_tearsDown (System.sound_after labels) hcall hloop hid
  rw [System.silent_iff_shut hopen hnext]
  have hphase : (if (System.after labels).manager.task id = some n then loop.abort
      else loop).phase = .gone ↔ loop.phase = .gone ∨
        loop.phase = .idle ∧ (System.after labels).manager.task id = some n := by
    split
    next htask =>
      cases hp : loop.phase <;> simp [Loop.abort, Phase.abort, hp, htask]
    next htask => simp [htask]
  have hspec : (if (System.after labels).manager.task id = some n then loop.abort
      else loop).spec = loop.spec := by
    split <;> rfl
  constructor
  · rintro ⟨⟨loop', hloop', hshut⟩, hclients⟩
    obtain rfl := Option.some_inj.mp (hnext.symm.trans hloop')
    rw [hphase, hspec, or_assoc] at hshut
    exact ⟨hshut, hclients⟩
  · rintro ⟨hcut, hclients⟩
    refine ⟨⟨_, hnext, ?_⟩, hclients⟩
    rwa [hphase, hspec, or_assoc]

/-- A client is accepted and connected through the upstream. -/
def servesOne : List Label :=
  asksThrough [upstreamAt "10.0.0.1:1080" true] ++
    [.client 0 (.answer ⟨fun _ =>
      .ok ⟨[[version, authNone, version, replySuccess, 0, 9]], false, [], []⟩⟩)]

/-- It is relayed for and done, and the listener waits again. -/
def servedOne : List Label :=
  servesOne ++ [.client 0 (.relay true [1]), .client 0 (.finish 1 0), .loop 0 .yield]

/-- A listener that is stopped after its client has ended. -/
theorem tornDown_silent_served :
    ((System.after servedOne).step (.call (.stop "inst-1"))).Silent 0 := by
  have hended : ∀ client ∈ (System.after servedOne).clients, client.stage = .ended := by
    have hclients : (System.after servedOne).clients =
        [⟨0, ⟨chainedInstance, some (upstreamAt "10.0.0.1:1080" true), some "wwan0"⟩, .ended⟩] :=
      rfl
    simp [hclients]
  have hloop : (System.after servedOne).manager.loops[0]? = some ⟨chainedInstance,
      some (upstreamAt "10.0.0.1:1080" true), some "wwan0", ⟨1, 0, 1, 0⟩, .idle⟩ := by
    decide +kernel
  refine (tornDown_silent_iff servedOne .stop hloop rfl).mpr
    ⟨.inr (.inl ⟨rfl, by decide +kernel⟩), fun client hmem _ => ?_⟩
  simp [Client.Spent, hended client hmem]

/-- Its listener is stopped, or not wanted any more, and it relays on. -/
theorem tornDown_relays :
    (∀ call ∈ [Call.stop "inst-1", Call.apply (bindsOn "wwan0") [] []],
      (System.after (servesOne ++ [.call call])).manager.running.isEmpty ∧
        (System.after (servesOne ++ [.call call, .client 0 (.relay true [1])])).events
          = (System.after servesOne).events ++ [.relayed 0 true [1]]) ∧
      ¬((System.after servesOne).step (.call (.stop "inst-1"))).Silent 0 := by
  refine ⟨by decide +kernel, fun h => ?_⟩
  exact h [.client 0 (.relay true [1])] (.relayed 0 true [1]) (by decide +kernel) rfl

end VodogeEdge.Proxy
