import VodogeEdge.Runs
import VodogeEdge.IkeInit

/-!
# The socket under a run of IKE_SA_INIT

A run, the socket it exchanges its messages over, and the network behind
it, in one machine. The runner asks for an exchange; `ExchangeIKE` clears
the queue, transmits the request until the transmissions are used up, and
takes the first datagram whose header fits. The reader of the socket hands
over what arrives in the meantime, in the three steps of `deliver`. What
arrives is the answer to any earlier transmission, at any time and any
number of times: the network may delay, lose and repeat.

The headers of a run's requests are all the same, so an exchange takes the
answer to an earlier request for its own if that one is handed over after
the queue was cleared. While no such answer is, every response is the
answer to its own request, and the run goes as on a network without loss.

`Queue` is the socket alone, between the reader and any number of consumers.

The reader knows a message by the non-ESP marker, also where the socket
writes none: `received` undoes `framed` just with the marker.
-/

namespace VodogeEdge.Ike

open List

/-- `RetransmitPolicy` and `SocketConfig`, without the waits. -/
structure SocketConfig where
  queueDepth : Int
  attempts : Int
  /-- The peer, as it is printed. -/
  peer : String

def SocketConfig.depth (S : SocketConfig) : Nat :=
  if S.queueDepth ≤ 0 then 32 else S.queueDepth.toNat

def SocketConfig.transmissions (S : SocketConfig) : Nat :=
  if S.attempts ≤ 0 then 1 else S.attempts.toNat

/-- A datagram in the hands of `deliver`, before each of its selects. -/
inductive Handing where
  | first (payload : Bytes)
  | full (payload : Bytes)
  | second (payload : Bytes)

def Handing.payload : Handing → Bytes
  | .first payload => payload
  | .full payload => payload
  | .second payload => payload

structure Ongoing where
  request : Bytes
  header : Header
  /-- Transmissions still to make. -/
  left : Nat
  waiting : Bool

structure Socket where
  queue : List Bytes
  handing : Option Handing
  current : Option Ongoing
  /-- What was transmitted, oldest first. -/
  sent : List Bytes

variable {result : Except InitError Bytes} {raw : Bytes}

namespace Transport

structure State where
  socket : Socket
  program : InitDialogue InitResult
  /-- What the runner has asked for and was answered, oldest first. -/
  heard : List (Turn InitAnswer)

inductive Event where
  /-- The runner is answered a question that is not for the socket. -/
  | given
  /-- `ExchangeIKE` is called, up to `drainStale`. -/
  | call
  | write
  | writeFails (e : InitError)
  | receive
  | expire
  /-- The context is done, or the socket closed. -/
  | cancel (e : InitError)
  /-- The reader gets an answer to the `i`-th transmission. -/
  | arrive (i : Nat)
  /-- The next select of `deliver`. -/
  | deliver

def State.start (program : InitDialogue InitResult) : State :=
  ⟨⟨[], none, none, []⟩, program, []⟩

def notIke (e : MirrorError) : InitError :=
  ⟨.other, "vowifi/ike: outgoing message is not IKEv2: " ++ e.text, e.alternativeGroup⟩

def exhausted (S : SocketConfig) : InitError :=
  ⟨.other, "vowifi/ike: no response after all retransmissions: "
    ++ toString S.transmissions ++ " transmissions to " ++ S.peer, none⟩

def State.returned (s : State) (result : Except InitError Bytes) : State :=
  match s.program with
  | .ask (.exchange request) next =>
    { socket := { s.socket with current := none }
      program := next result
      heard := s.heard ++ [⟨.exchange request, result⟩] }
  | _ => s

def State.given (supplied : ∀ q, InitAnswer q) (s : State) : State :=
  match s.program with
  | .ask (.exchange _) _ => s
  | .ask q next => { s with program := next (supplied q), heard := s.heard ++ [⟨q, supplied q⟩] }
  | _ => s

def State.call (M : Mirror) (S : SocketConfig) (s : State) : State :=
  match s.socket.current, s.program with
  | none, .ask (.exchange request) _ =>
    match M.parseHeader request with
    | .error e => s.returned (.error (notIke e))
    | .ok header =>
      { s with socket := { s.socket with
          queue := [], current := some ⟨request, header, S.transmissions, false⟩ } }
  | _, _ => s

/-- The selects of `awaitResponse` and the write, by the exchange that is
going on. -/
def State.ongoing (M : Mirror) (S : SocketConfig) (s : State) (ex : Ongoing) : Event → State
  | .write =>
    if ex.waiting ∨ ex.left = 0 then s
    else
      { s with socket := { s.socket with
          sent := s.socket.sent ++ [ex.request]
          current := some { ex with left := ex.left - 1, waiting := true } } }
  | .writeFails e => if ex.waiting then s else s.returned (.error e)
  | .receive =>
    match s.socket.queue with
    | [] => s
    | raw :: rest =>
      if !ex.waiting then s
      else
        let s' := { s with socket := { s.socket with queue := rest } }
        if matchesResponse M ex.header raw then s'.returned (.ok raw) else s'
  | .expire =>
    if !ex.waiting then s
    else if ex.left = 0 then s.returned (.error (exhausted S))
    else { s with socket := { s.socket with current := some { ex with waiting := false } } }
  | .cancel e => if ex.waiting then s.returned (.error e) else s
  | _ => s

def Socket.deliver (S : SocketConfig) (socket : Socket) : Socket :=
  match socket.handing with
  | none => socket
  | some (.first payload) =>
    if socket.queue.length < S.depth then
      { socket with queue := socket.queue ++ [payload], handing := none }
    else { socket with handing := some (.full payload) }
  | some (.full payload) =>
    { socket with queue := socket.queue.tail, handing := some (.second payload) }
  | some (.second payload) =>
    if socket.queue.length < S.depth then
      { socket with queue := socket.queue ++ [payload], handing := none }
    else { socket with handing := none }

def Socket.arrive (answer : Bytes → Bytes) (socket : Socket) (i : Nat) : Socket :=
  match socket.handing, socket.sent[i]? with
  | none, some request => { socket with handing := some (.first (answer request)) }
  | _, _ => socket

/-- `answer` is what the responder answers a request, by its content;
`supplied` is what the runner is given for its other questions. -/
def step (M : Mirror) (S : SocketConfig) (answer : Bytes → Bytes) (supplied : ∀ q, InitAnswer q)
    (s : State) : Event → State
  | .given => s.given supplied
  | .call => s.call M S
  | .arrive i => { s with socket := Socket.arrive answer s.socket i }
  | .deliver => { s with socket := Socket.deliver S s.socket }
  | event =>
    match s.socket.current with
    | none => s
    | some ex => s.ongoing M S ex event

/-! ## What was returned -/

def responseOf : Turn InitAnswer → Option (Bytes × Except InitError Bytes)
  | ⟨.exchange request, result⟩ => some (request, result)
  | _ => none

/-- What `ExchangeIKE` has returned, with the requests it was called with. -/
def State.returns (s : State) : List (Bytes × Except InitError Bytes) :=
  s.heard.filterMap responseOf

theorem mem_returns {s : State} {request : Bytes} :
    (request, result) ∈ s.returns ↔ ⟨.exchange request, result⟩ ∈ s.heard := by
  rw [State.returns, mem_filterMap]
  constructor
  · rintro ⟨⟨q, r⟩, hmem, hq⟩
    cases q with
    | exchange request' =>
      obtain ⟨rfl, rfl⟩ := Prod.mk.inj (Option.some.inj hq)
      exact hmem
    | spi | nonce | keyPair => cases hq
  · intro hmem
    exact ⟨_, hmem, rfl⟩

/-! ## The network without loss -/

/-- What `ExchangeIKE` returns if every transmission is answered once, at
once. -/
def onTime (M : Mirror) (S : SocketConfig) (answer : Bytes → Bytes) (request : Bytes) :
    Except InitError Bytes :=
  match M.parseHeader request with
  | .error e => .error (notIke e)
  | .ok header =>
    if matchesResponse M header (answer request) then .ok (answer request)
    else .error (exhausted S)

def lossFree (M : Mirror) (S : SocketConfig) (answer : Bytes → Bytes)
    (supplied : ∀ q, InitAnswer q) : ∀ q, InitAnswer q
  | .exchange request => onTime M S answer request
  | .spi attempt => supplied (.spi attempt)
  | .nonce => supplied .nonce
  | .keyPair group => supplied (.keyPair group)

theorem onTime_ok {M : Mirror} {S : SocketConfig} {answer : Bytes → Bytes} {request : Bytes}
    (h : onTime M S answer request = .ok raw) : raw = answer request := by
  unfold onTime at h
  split at h
  · cases h
  · split_ifs at h
    exact (Except.ok.inj h).symm

/-! ## Late answers -/

/-- What is handed over while an exchange is going on answers the request of
that exchange. -/
def Timely (answer : Bytes → Bytes) (s : State) : Event → Prop
  | .deliver =>
    ∀ ex ∈ s.socket.current, ∀ handing ∈ s.socket.handing, handing.payload = answer ex.request
  | _ => True

instance (answer : Bytes → Bytes) (s : State) : ∀ event, Decidable (Timely answer s event)
  | .deliver =>
    inferInstanceAs (Decidable (∀ ex ∈ s.socket.current, ∀ handing ∈ s.socket.handing,
      handing.payload = answer ex.request))
  | .given | .call | .write | .writeFails _ | .receive | .expire | .cancel _ | .arrive _ =>
    isTrue trivial

section
variable {M : Mirror} {S : SocketConfig} {answer : Bytes → Bytes} {supplied : ∀ q, InitAnswer q}
  {program : InitDialogue InitResult}

/-- A failed exchange, or an answer as on the network without loss. -/
def Fits (M : Mirror) (S : SocketConfig) (answer : Bytes → Bytes) (supplied : ∀ q, InitAnswer q)
    (turn : Turn InitAnswer) : Prop :=
  (∃ request e, turn = ⟨.exchange request, .error e⟩) ∨
    turn.2 = lossFree M S answer supplied turn.1

/-- The invariant: the exchange that is going on is the one the runner asked
for, and the queue has nothing but answers to its request. -/
structure Attributed (M : Mirror) (S : SocketConfig) (answer : Bytes → Bytes)
    (supplied : ∀ q, InitAnswer q) (program : InitDialogue InitResult) (s : State) : Prop where
  asked : ∀ ex, s.socket.current = some ex → M.parseHeader ex.request = .ok ex.header ∧
    ∃ next, s.program = .ask (.exchange ex.request) next
  queued : ∀ ex, s.socket.current = some ex → ∀ raw ∈ s.socket.queue, raw = answer ex.request
  fits : ∀ turn ∈ s.heard, Fits M S answer supplied turn
  leads : Dialogue.Leads program s.heard s.program

theorem attributed_start : Attributed M S answer supplied program (.start program) where
  asked := nofun
  queued := nofun
  fits := nofun
  leads := .stay _

variable {s : State}

theorem fits_error (request : Bytes) (e : InitError) :
    Fits M S answer supplied ⟨.exchange request, (.error e)⟩ :=
  .inl ⟨request, e, rfl⟩

theorem queue_deliver {socket : Socket} (h : raw ∈ (Socket.deliver S socket).queue) :
    raw ∈ socket.queue ∨ ∃ handing ∈ socket.handing, raw = handing.payload := by
  unfold Socket.deliver at h
  split at h
  · exact .inl h
  case h_2 payload hhanding =>
    split_ifs at h
    · rcases mem_append.mp h with h | h
      · exact .inl h
      · exact .inr ⟨_, hhanding, mem_singleton.mp h⟩
    · exact .inl h
  · exact .inl (mem_of_mem_tail h)
  case h_4 payload hhanding =>
    split_ifs at h
    · rcases mem_append.mp h with h | h
      · exact .inl h
      · exact .inr ⟨_, hhanding, mem_singleton.mp h⟩
    · exact .inl h

theorem current_deliver (socket : Socket) : (Socket.deliver S socket).current = socket.current := by
  unfold Socket.deliver
  split <;> try split_ifs
  all_goals rfl

theorem arrive_frame (answer : Bytes → Bytes) (socket : Socket) (i : Nat) :
    (Socket.arrive answer socket i).current = socket.current ∧
      (Socket.arrive answer socket i).queue = socket.queue := by
  unfold Socket.arrive
  split <;> exact ⟨rfl, rfl⟩

variable (h : Attributed M S answer supplied program s)
  {request : Bytes} {ex : Ongoing} {event : Event}
include h

theorem Attributed.returned {next : InitAnswer (.exchange request) → InitDialogue InitResult}
    (hprogram : s.program = .ask (.exchange request) next)
    (hfits : Fits M S answer supplied ⟨.exchange request, result⟩) :
    Attributed M S answer supplied program (s.returned result) := by
  have hs : s.returned result =
      { socket := { s.socket with current := none }
        program := next result
        heard := s.heard ++ [⟨.exchange request, result⟩] } := by
    rw [State.returned, hprogram]
  rw [hs]
  refine ⟨nofun, nofun, ?_, ?_⟩
  · intro turn hturn
    rcases mem_append.mp hturn with hturn | hturn
    · exact h.fits turn hturn
    · rwa [mem_singleton.mp hturn]
  · have hleads := h.leads
    rw [hprogram] at hleads
    exact hleads.snoc result

theorem Attributed.given : Attributed M S answer supplied program (s.given supplied) := by
  unfold State.given
  split
  · exact h
  case h_2 q next hlocal hprogram =>
    have hleads := h.leads
    rw [hprogram] at hleads
    refine ⟨fun ex hex => ?_, h.queued, fun turn hturn => ?_, hleads.snoc _⟩
    · -- the runner waits for the socket as long as an exchange is going on
      obtain ⟨-, next', hask⟩ := h.asked ex hex
      rw [hprogram] at hask
      cases hask
      exact (hlocal _ _ rfl HEq.rfl).elim
    · rcases mem_append.mp hturn with hturn | hturn
      · exact h.fits turn hturn
      · rw [mem_singleton.mp hturn]
        refine .inr ?_
        cases q with
        | exchange request => exact (hlocal request next rfl HEq.rfl).elim
        | spi | nonce | keyPair => rfl
  · exact h

theorem Attributed.call : Attributed M S answer supplied program (s.call M S) := by
  unfold State.call
  split
  case h_1 request next hcurrent hprogram =>
    split
    · exact h.returned hprogram (fits_error _ _)
    case h_2 header hheader =>
      refine ⟨fun ex hex => ?_, fun ex _ => nofun, h.fits, h.leads⟩
      obtain rfl := Option.some.inj hex
      exact ⟨hheader, next, hprogram⟩
  · exact h

theorem Attributed.current {ex' : Ongoing} {sent : List Bytes} (hex : s.socket.current = some ex)
    (hrequest : ex'.request = ex.request) (hheader : ex'.header = ex.header) :
    Attributed M S answer supplied program
      { s with socket := { s.socket with sent := sent, current := some ex' } } where
  asked ex'' hex'' := by
    obtain rfl := Option.some.inj hex''
    rw [hrequest, hheader]
    exact h.asked ex hex
  queued ex'' hex'' := by
    obtain rfl := Option.some.inj hex''
    rw [hrequest]
    exact h.queued ex hex
  fits := h.fits
  leads := h.leads

/-- What the reader changes: nothing the runner sees, and only answers to the
request come into the queue. -/
theorem Attributed.socket {socket : Socket} (hcurrent : socket.current = s.socket.current)
    (hqueue : ∀ ex, s.socket.current = some ex → ∀ raw ∈ socket.queue, raw = answer ex.request) :
    Attributed M S answer supplied program { s with socket := socket } where
  asked ex hex := h.asked ex (hcurrent ▸ hex)
  queued ex hex := hqueue ex (hcurrent ▸ hex)
  fits := h.fits
  leads := h.leads

theorem Attributed.receive (hex : s.socket.current = some ex) :
    Attributed M S answer supplied program (s.ongoing M S ex .receive) := by
  obtain ⟨hheader, next, hprogram⟩ := h.asked ex hex
  rw [State.ongoing]
  split
  · exact h
  case h_2 raw rest hqueue =>
    have hraw : ∀ raw' ∈ raw :: rest, raw' = answer ex.request := hqueue ▸ h.queued ex hex
    have hrest : Attributed M S answer supplied program
        { s with socket := { s.socket with queue := rest } } := by
      refine h.socket rfl fun ex' hex' raw' hraw' => ?_
      obtain rfl := Option.some.inj (hex.symm.trans hex')
      exact hraw raw' (mem_cons_of_mem _ hraw')
    by_cases hwaiting : ex.waiting
    · simp only [hwaiting, Bool.not_true, Bool.false_eq_true, if_false]
      split_ifs with hmatches
      · refine hrest.returned hprogram (.inr ?_)
        obtain rfl := hraw raw mem_cons_self
        change Except.ok (answer ex.request) = onTime M S answer ex.request
        rw [onTime, hheader]
        exact (if_pos hmatches).symm
      · exact hrest
    · simpa [hwaiting] using h

theorem Attributed.ongoing (hex : s.socket.current = some ex) :
    Attributed M S answer supplied program (s.ongoing M S ex event) := by
  obtain ⟨-, next, hprogram⟩ := h.asked ex hex
  cases event with
  | given | call | arrive | deliver => exact h
  | receive => exact h.receive hex
  | write =>
    rw [State.ongoing]
    split_ifs
    · exact h
    · exact h.current hex rfl rfl
  | writeFails e =>
    rw [State.ongoing]
    split_ifs
    · exact h
    · exact h.returned hprogram (fits_error _ _)
  | expire =>
    rw [State.ongoing]
    split_ifs
    · exact h
    · exact h.returned hprogram (fits_error _ _)
    · exact h.current hex rfl rfl
  | cancel e =>
    rw [State.ongoing]
    split_ifs
    · exact h.returned hprogram (fits_error _ _)
    · exact h

theorem Attributed.step (htimely : Timely answer s event) :
    Attributed M S answer supplied program (step M S answer supplied s event) := by
  have hongoing : Attributed M S answer supplied program
      (match s.socket.current with
        | none => s
        | some ex => s.ongoing M S ex event) := by
    split
    · exact h
    case h_2 ex hex => exact h.ongoing hex
  cases event with
  | given => exact h.given
  | call => exact h.call
  | arrive i =>
    obtain ⟨hcurrent, hqueue⟩ := arrive_frame answer s.socket i
    refine h.socket hcurrent fun ex hex raw hraw => ?_
    rw [hqueue] at hraw
    exact h.queued ex hex raw hraw
  | deliver =>
    refine h.socket (current_deliver s.socket) fun ex hex raw hraw => ?_
    rcases queue_deliver hraw with hraw | ⟨handing, hhanding, rfl⟩
    · exact h.queued ex hex raw hraw
    · exact htimely ex hex handing hhanding
  | write | writeFails | receive | expire | cancel => exact hongoing

theorem Attributed.response {response : Bytes}
    (hmem : (request, .ok response) ∈ s.returns) : response = answer request := by
  rcases h.fits _ (mem_returns.mp hmem) with ⟨request', e, heq⟩ | heq
  · cases heq
  · exact onTime_ok (Eq.symm heq)

theorem Attributed.outcome
    (hfailed : ∀ request e, (request, .error e) ∈ s.returns → onTime M S answer request = .error e)
    {result : Except InitError InitResult} (hresult : s.program.outcome = some result) :
    program.against (lossFree M S answer supplied) = result := by
  rw [Dialogue.against_of_leads h.leads fun turn hturn => ?_]
  · exact Dialogue.against_of_outcome hresult
  · rcases h.fits turn hturn with ⟨request, e, rfl⟩ | heq
    · exact (hfailed request e (mem_returns.mpr hturn)).symm
    · exact heq

omit h in
theorem attributed_run {events : List Event}
    (htimely : Along (step M S answer supplied) (Timely answer) (.start program) events) :
    Attributed M S answer supplied program
      (runFrom (step M S answer supplied) (.start program) events) :=
  Along.invariant (fun _ _ h ht => h.step ht) events attributed_start htimely

end

/-- If what is handed over during an exchange answers its request, every
response returned is the answer to its own request; and a run whose exchanges
fail only where they would without loss ends as it would there. -/
theorem responses_attributed (M : Mirror) (D : Dh) (S : SocketConfig) (r : InitRunner)
    (cfg : InitConfig) (answer : Bytes → Bytes) (supplied : ∀ q, InitAnswer q) (events : List Event)
    (htimely : Along (step M S answer supplied) (Timely answer)
      (.start (InitRunner.run M D r cfg)) events) :
    (∀ request response, (request, .ok response) ∈
        (runFrom (step M S answer supplied) (.start (InitRunner.run M D r cfg)) events).returns →
      response = answer request) ∧
    ((∀ request e, (request, .error e) ∈
        (runFrom (step M S answer supplied) (.start (InitRunner.run M D r cfg)) events).returns →
          onTime M S answer request = .error e) →
      ∀ result,
        (runFrom (step M S answer supplied)
          (.start (InitRunner.run M D r cfg)) events).program.outcome = some result →
        (InitRunner.run M D r cfg).against (lossFree M S answer supplied) = result) := by
  have h := attributed_run htimely
  exact ⟨fun request response => h.response, fun hfailed result => h.outcome hfailed⟩

/-! ## A cookie that is demanded twice -/

namespace Sample

def dh : Dh where
  keyPairFromPrivate _ secret := .ok ⟨secret, secret⟩
  computeSharedSecret _ peer := .ok peer

def runner : InitRunner where
  groups := [groupModp2048]
  suites := []
  maxCookieRounds := 1
  maxGroupRetries := 1
  seed := { initiatorSpi := 1, nonceI := List.replicate 32 3 }
  mobike := false

def config : InitConfig := ⟨0, [], ⟨[]⟩, fun _ => .ok [], 0⟩

def socket : SocketConfig := ⟨0, 5, "epdg"⟩

def answer (request : Bytes) : Bytes :=
  if payloadNotify ∈ request then [flagResponse, payloadSa, payloadKe, payloadNonce]
  else [flagResponse, payloadNotify]

def supplied : ∀ q, InitAnswer q
  | .spi _ => Except.ok (List.replicate 8 1)
  | .nonce => Except.ok (List.replicate 32 3)
  | .keyPair _ => Except.ok ⟨[1], [2]⟩
  | .exchange _ => Except.error ⟨.other, "", none⟩

def program : InitDialogue InitResult := InitRunner.run sampleMirror dh runner config

/-- The first request is transmitted twice and its answer comes twice, the
second time before the second exchange. -/
def promptEvents : List Event :=
  [.given, .call, .write, .expire, .write, .arrive 0, .deliver, .receive, .arrive 1, .deliver,
    .call, .write, .arrive 2, .deliver, .receive]

/-- The same, but the second answer comes after the second request. -/
def lateEvents : List Event :=
  [.given, .call, .write, .expire, .write, .arrive 0, .deliver, .receive,
    .call, .write, .arrive 1, .deliver, .receive]

def after (events : List Event) : State :=
  runFrom (step sampleMirror socket answer supplied) (.start program) events

end Sample

/-- The demand that comes between the exchanges is cleared. -/
theorem responses_attributed_prompt :
    (Sample.after Sample.promptEvents).program.outcome = some (Sample.program.against
      (lossFree sampleMirror Sample.socket Sample.answer Sample.supplied)) := by
  have hended : (Sample.after Sample.promptEvents).program.outcome.isSome := by
    decide +kernel
  have hok : (Sample.after Sample.promptEvents).returns.all (·.2.isOk) := by decide +kernel
  obtain ⟨result, hresult⟩ := Option.isSome_iff_exists.mp hended
  rw [hresult]
  refine congrArg some (Eq.symm ?_)
  refine (responses_attributed sampleMirror Sample.dh Sample.socket Sample.runner Sample.config
    Sample.answer Sample.supplied Sample.promptEvents (by decide +kernel)).2 ?_ result hresult
  intro request e hmem
  cases all_eq_true.mp hok _ hmem

/-- The second exchange takes the demand that answers the first, and the run
fails that succeeds without loss. -/
theorem lateCookie_fails_run :
    (Sample.program.against
        (lossFree sampleMirror Sample.socket Sample.answer Sample.supplied)).isOk ∧
      (Sample.after Sample.lateEvents).returns.getLast? =
        some ([flagInitiator, payloadNotify, payloadSa, payloadKe, payloadNonce],
          .ok [flagResponse, payloadNotify]) ∧
      Sample.answer [flagInitiator, payloadNotify, payloadSa, payloadKe, payloadNonce] ≠
        [flagResponse, payloadNotify] ∧
      (Sample.after Sample.lateEvents).program.outcome =
        some (.error (.because .invalidInitResponse "responder demanded a COOKIE 2 times")) := by
  decide +kernel

/-! ## The queue -/

variable {S : SocketConfig}

/-- The socket between its reader and any number of consumers, with what
was handed to `deliver` and what was consumed, oldest first. The source
has two such queues, `ike` and `esp`, that share nothing but the reader
and the counter: this is either of them by itself. -/
structure Queue where
  socket : Socket
  /-- What this queue adds to the counter. -/
  queueOverflowDrops : UInt64
  delivered : List Bytes
  consumed : List Bytes

inductive QueueEvent where
  /-- The reader calls `deliver`. -/
  | call (payload : Bytes)
  | deliver
  | consume

def Queue.new : Queue :=
  ⟨⟨[], none, none, []⟩, 0, [], []⟩

/-- What the next select of `deliver` drops. -/
def Socket.dropped (S : SocketConfig) (socket : Socket) : List Bytes :=
  match socket.handing with
  | some (.full _) => socket.queue.take 1
  | some (.second payload) => if socket.queue.length < S.depth then [] else [payload]
  | _ => []

def Queue.step (S : SocketConfig) (s : Queue) : QueueEvent → Queue
  | .call payload =>
    if s.socket.handing.isSome then s
    else
      { s with
        socket := { s.socket with handing := some (.first payload) }
        delivered := s.delivered ++ [payload] }
  | .deliver =>
    { s with
      socket := Socket.deliver S s.socket
      queueOverflowDrops := s.queueOverflowDrops + .ofNat (Socket.dropped S s.socket).length }
  | .consume =>
    match s.socket.queue with
    | [] => s
    | raw :: rest =>
      { s with socket := { s.socket with queue := rest }, consumed := s.consumed ++ [raw] }

/-- What has come through and what may still. -/
def Queue.kept (s : Queue) : List Bytes :=
  s.consumed ++ s.socket.queue ++ (s.socket.handing.map Handing.payload).toList

structure Queue.Conserved (S : SocketConfig) (s : Queue) : Prop where
  ordered : s.kept <+ s.delivered
  counted : ∃ lost, s.queueOverflowDrops = .ofNat lost ∧ s.kept.length + lost = s.delivered.length
  bounded : s.socket.queue.length ≤ S.depth

theorem Queue.conserved_new : Queue.new.Conserved S :=
  ⟨.slnil, ⟨0, rfl, rfl⟩, Nat.zero_le _⟩

/-- A select of `deliver` keeps the order, and drops what it says. -/
theorem Queue.kept_deliver (s : Queue) :
    (s.step S .deliver).kept <+ s.kept ∧
      (s.step S .deliver).kept.length + (Socket.dropped S s.socket).length = s.kept.length := by
  obtain ⟨⟨queue, handing, current, sent⟩, drops, delivered, consumed⟩ := s
  rcases handing with _ | payload | payload | payload
  case some.full =>
    cases queue <;> simp [step, kept, Socket.deliver, Socket.dropped, Handing.payload]
    omega
  all_goals
    by_cases hroom : queue.length < S.depth <;>
      simp [step, kept, Socket.deliver, Socket.dropped, hroom, Handing.payload]
  omega

theorem Queue.conserved_step (s : Queue) (event : QueueEvent) (h : s.Conserved S) :
    (s.step S event).Conserved S := by
  obtain ⟨lost, hdrops, hlength⟩ := h.counted
  cases event with
  | call payload =>
    obtain ⟨⟨queue, _ | handing, current, sent⟩, drops, delivered, consumed⟩ := s
    · have hordered : consumed ++ queue <+ delivered := by simpa [kept] using h.ordered
      refine ⟨hordered.append (.refl [payload]), ⟨lost, hdrops, ?_⟩, h.bounded⟩
      simp [kept, step] at hlength ⊢
      omega
    · exact h
  | deliver =>
    obtain ⟨hsub, hlen⟩ := s.kept_deliver (S := S)
    refine ⟨hsub.trans h.ordered, ⟨lost + (Socket.dropped S s.socket).length, ?_, ?_⟩, ?_⟩
    · simp [step, hdrops]
    · change _ + _ = s.delivered.length
      omega
    · have hbound := h.bounded
      simp only [step, Socket.deliver]
      grind
  | consume =>
    obtain ⟨⟨_ | ⟨raw, rest⟩, handing, current, sent⟩, drops, delivered, consumed⟩ := s
    · exact h
    · have hkept : consumed ++ raw :: rest = consumed ++ [raw] ++ rest := append_cons ..
      have hordered := h.ordered
      rw [kept, hkept] at hordered hlength
      exact ⟨hordered, ⟨lost, hdrops, hlength⟩, Nat.le_of_succ_le h.bounded⟩

/-- The selects `deliver` has still to make, at most. -/
def selects : Option Handing → Nat
  | none => 0
  | some (.first _) => 3
  | some (.full _) => 2
  | some (.second _) => 1

theorem selects_le (handing : Option Handing) : selects handing ≤ 3 := by
  rcases handing with _ | _ | _ | _ <;> simp [selects]

theorem none_of_selects {handing : Option Handing} (h : selects handing ≤ 0) : handing = none := by
  rcases handing with _ | _ | _ | _ <;> first | rfl | cases h

theorem selects_round {s : Queue} {k : Nat} (h : selects s.socket.handing ≤ k + 1) (n : Nat) :
    selects (runFrom (Queue.step S) s (.deliver :: replicate n .consume)).socket.handing ≤ k := by
  induction n with
  | zero =>
    change selects (Socket.deliver S s.socket).handing ≤ k
    unfold Socket.deliver
    grind [selects]
  | succ n ih =>
    rw [replicate_succ', ← cons_append, runFrom_snoc, Queue.step]
    split <;> exact ih

/-- In every interleaving: what was delivered was consumed, in its order, is
queued or in the reader's hands, or was dropped and counted; and `deliver` is
back after three selects. -/
theorem queue_conserved (S : SocketConfig) (events : List QueueEvent) :
    let s := runFrom (Queue.step S) .new events
    s.kept <+ s.delivered ∧
      (∃ dropped, s.delivered ~ s.kept ++ dropped ∧
        s.queueOverflowDrops = .ofNat dropped.length) ∧
      s.socket.queue.length ≤ S.depth ∧
      ∀ n m k, (runFrom (Queue.step S) s (.deliver :: replicate n .consume ++
        (.deliver :: replicate m .consume) ++
        (.deliver :: replicate k .consume))).socket.handing = none := by
  intro s
  have h : s.Conserved S := runFrom_invariant Queue.conserved_step events Queue.conserved_new
  obtain ⟨lost, hdrops, hlength⟩ := h.counted
  obtain ⟨dropped, hperm⟩ := h.ordered.exists_perm_append
  refine ⟨h.ordered, ⟨dropped, hperm, ?_⟩, h.bounded, fun n m k => ?_⟩
  · have hlost := hperm.length_eq
    rw [length_append] at hlost
    rw [hdrops, show lost = dropped.length by omega]
  · rw [runFrom_append, runFrom_append]
    exact none_of_selects (selects_round (selects_round (selects_round (selects_le _) n) m) k)

end Transport

/-! ## Datagrams -/

inductive Kind where
  | ike
  | esp
  | natt
  | unknown

/-- `Classify`. -/
def classify (payload : Bytes) : Kind :=
  if payload = [0xff] then .natt
  else if payload.take 4 = [0, 0, 0, 0] then .ike
  else if 8 ≤ payload.length then .esp
  else .unknown

/-- A request as `ExchangeIKE` writes it. -/
def framed (marker : Bool) (request : Bytes) : Bytes :=
  if marker then [0, 0, 0, 0] ++ request else request

inductive Received where
  | keepalive
  /-- Into the queue of `ExchangeIKE`. -/
  | ike (payload : Bytes)
  /-- Into the queue of ESP packets. -/
  | esp (packet : Bytes)
  | dropped
deriving DecidableEq

/-- What `readLoop` does with a datagram of the peer. -/
def received (wire : Bytes) : Received :=
  match classify wire with
  | .natt => .keepalive
  | .ike => .ike (wire.drop 4)
  | .esp => .esp wire
  | .unknown => .dropped

theorem received_framed (message : Bytes) : received (framed true message) = .ike message := by
  simp [received, framed, classify]

/-- Without the marker a message is never handed on as it is: the first four
bytes are taken for a marker, or it is taken for a packet. -/
theorem received_plain (message : Bytes) : received (framed false message) ≠ .ike message := by
  change received message ≠ _
  unfold received classify
  split_ifs with hkeepalive hzeros
  · simp
  · intro h
    have hlength := congrArg length (Received.ike.inj h)
    have hfour := congrArg length hzeros
    rw [length_drop] at hlength
    rw [length_take, length_cons, length_cons, length_cons] at hfour
    omega
  · simp
  · simp

/-- Framing is undone for every message, and packets are let through, just
with the marker. -/
theorem demultiplexed_iff (marker : Bool) (message : Bytes) :
    (received (framed marker message) = .ike message ∧
      (marker → ∀ packet : Bytes, 8 ≤ packet.length → packet.take 4 ≠ [0, 0, 0, 0] →
        received packet = .esp packet)) ↔ marker := by
  constructor
  · rintro ⟨hmessage, -⟩
    cases marker with
    | true => rfl
    | false => exact absurd hmessage (received_plain message)
  · rintro rfl
    refine ⟨received_framed message, fun _ packet hlength hspi => ?_⟩
    have hlong : packet ≠ [0xff] := by
      rintro rfl
      exact absurd hlength (by decide)
    rw [received, classify, if_neg hlong, if_neg hspi, if_pos hlength]

/-- The header of an IKE_SA_INIT request. -/
def initHeader (spi : Bytes) : Bytes :=
  spi ++ replicate 8 0 ++ [33, 0x20, 34, 0x08, 0, 0, 0, 0, 0, 0, 0, 28]

/-- Without the marker one request is a packet to the socket, and another
loses the half of its SPI that is zero. -/
theorem plain_request_lost :
    received (framed false (initHeader [1, 2, 3, 4, 5, 6, 7, 8])) =
        .esp (initHeader [1, 2, 3, 4, 5, 6, 7, 8]) ∧
      received (framed false (initHeader [0, 0, 0, 0, 5, 6, 7, 8])) =
        .ike ((initHeader [0, 0, 0, 0, 5, 6, 7, 8]).drop 4) := by
  decide

end VodogeEdge.Ike
