import VodogeEdge.LinkRun
import VodogeEdge.Logged

/-!
# Reported gaps and the replay cursor

Acknowledgements push the replay cursor forward and the gaps they report
pull it back, once per gap head. `hinted` is the worker once a report has
moved its cursor, and `Advances` says once what the call does from there:
it hands over `(through, through + n]`, all of it inside the window.
`step_advances` has it for every step of the machine.
-/

namespace VodogeEdge

open List Nat UplinkWorker

variable {J : Type} {wire : Wire J} {O : Type}

/-! ## Reported gaps -/

def Inbound.missing : Inbound J → Option (List WireRange)
  | .resumeAck ack => some ack.missingRanges
  | .uplinkAck ack => some ack.missingRanges
  | .pong _ | .protocolError _ | .commandDeliver _ | .ignoredStale => none

namespace UplinkWorker

def lowestMissing (ranges : List WireRange) : Option Nat :=
  match checkRanges ranges with
  | .ok ranges => (ranges.map (·.start)).min?
  | .error _ => none

def hinted (self : UplinkWorker O) (ranges : List WireRange) : UplinkWorker O :=
  match checkRanges ranges with
  | .ok ranges => self.rewind ranges
  | .error _ => self

/-- A report without a head can only end the chase; one with the head
already chased changes nothing; any other rewinds to just below it. -/
theorem hinted_cases (self : UplinkWorker O) (ranges : List WireRange) :
    (lowestMissing ranges = none ∧ ∃ memo, (memo = none ∨ memo = self.gapResentFrom)
        ∧ self.hinted ranges = { self with gapResentFrom := memo })
      ∨ ∃ h, lowestMissing ranges = some h
        ∧ ((self.gapResentFrom = some h ∧ self.hinted ranges = self)
          ∨ (self.gapResentFrom ≠ some h ∧ self.hinted ranges
              = { self with
                  replayThrough := min self.replayThrough (h - 1), gapResentFrom := some h })) := by
  unfold lowestMissing hinted
  cases checkRanges ranges with
  | error e => exact .inl ⟨rfl, _, .inr rfl, rfl⟩
  | ok ranges =>
    dsimp only
    unfold rewind
    cases (ranges.map (·.start)).min? with
    | none => exact .inl ⟨rfl, _, .inl rfl, rfl⟩
    | some h =>
      refine .inr ⟨h, rfl, ?_⟩
      dsimp only
      split
      next hnew => exact .inr ⟨hnew, rfl⟩
      next hsame => exact .inl ⟨Decidable.not_not.mp hsame, rfl⟩

theorem hinted_cursor (self : UplinkWorker O) (ranges : List WireRange) :
    (self.hinted ranges).outbox = self.outbox
      ∧ (self.hinted ranges).replayThrough ≤ self.replayThrough := by
  unfold hinted
  split
  · exact (self.rewind_frame _).2
  · exact ⟨rfl, le_refl _⟩

theorem hinted_session (self : UplinkWorker O) (session : LinkSession) (ranges : List WireRange) :
    hinted { self with session } ranges = { self.hinted ranges with session } := by
  unfold hinted rewind
  split
  · split
    · split <;> rfl
    · rfl
  · rfl

/-! ## What a call does to the cursor and the wire -/

variable [Outbox O] {good : O → Prop}

/-- A call that began as `began` handed over `handed`, with the outbox records
`(through, through + n]` in it. If it `returned` from a replay, the cursor is
at the end of the window. -/
structure Advances (good : O → Prop) (wire : Wire J) (began : UplinkWorker O) (returned : Prop)
    (handed : List (Envelope J)) (result : UplinkWorker O) (through n : Nat) : Prop where
  good : good result.outbox
  memo : result.gapResentFrom = began.gapResentFrom
  committed : Outbox.committedThrough began.outbox ≤ Outbox.committedThrough result.outbox
  allocated : Outbox.lastAllocated began.outbox ≤ Outbox.lastAllocated result.outbox
  above : began.replayThrough ≤ through
  below : through ≤ max began.replayThrough (Outbox.committedThrough result.outbox)
  cursor : result.replayThrough = through + n
  seqs : handed.filterMap (·.seq) = List.range' (through + 1) n
  carried : ∀ envelope ∈ handed, envelope.seq ≠ none →
    ∃ record ∈ Outbox.records result.outbox, envelope.Carries wire record
  room : 0 < n → Outbox.committedThrough result.outbox ≤ through
    ∧ through + n ≤ Outbox.committedThrough result.outbox + replayWindow
    ∧ through + n ≤ Outbox.lastAllocated result.outbox
  full : returned → min (Outbox.committedThrough result.outbox + replayWindow)
    (Outbox.lastAllocated result.outbox) ≤ through + n

section
variable {self began result : UplinkWorker O} {returned returned' : Prop}
  {handed : List (Envelope J)} {through n : Nat} {conn : Conn J}

/-- The cursor and the chase are as they were, and nothing went back. -/
structure Keeps (began result : UplinkWorker O) : Prop where
  memo : result.gapResentFrom = began.gapResentFrom
  committed : Outbox.committedThrough began.outbox ≤ Outbox.committedThrough result.outbox
  allocated : Outbox.lastAllocated began.outbox ≤ Outbox.lastAllocated result.outbox
  cursor : result.replayThrough = began.replayThrough

theorem Keeps.of_same (houtbox : result.outbox = self.outbox)
    (hthrough : result.replayThrough = self.replayThrough)
    (hmemo : result.gapResentFrom = self.gapResentFrom) : Keeps self result :=
  ⟨hmemo, by rw [houtbox], by rw [houtbox], hthrough⟩

theorem Advances.still (hgood : good result.outbox) (hkept : Keeps self result)
    (hreturned : ¬returned) (hhanded : ∀ envelope ∈ handed, envelope.seq = none) :
    Advances good wire self returned handed result self.replayThrough 0 where
  good := hgood
  memo := hkept.memo
  committed := hkept.committed
  allocated := hkept.allocated
  above := le_refl _
  below := le_max_left _ _
  cursor := hkept.cursor
  seqs := filterMap_eq_nil_iff.mpr hhanded
  carried envelope he hseq := absurd (hhanded envelope he) hseq
  room h := absurd h (lt_irrefl 0)
  full h := absurd h hreturned

section
variable (h : Advances good wire self returned handed result through n) (q : Nat)
include h

theorem Advances.unsequenced {first : List (Envelope J)}
    (hfirst : ∀ envelope ∈ first, envelope.seq = none) :
    Advances good wire self returned (first ++ handed) result through n :=
  { h with
    seqs := by rw [filterMap_append, filterMap_eq_nil_iff.mpr hfirst, nil_append, h.seqs]
    carried := fun envelope he hseq => by
      rcases mem_append.mp he with he | he
      · exact absurd (hfirst envelope he) hseq
      · exact h.carried envelope he hseq }

/-- Each sequence goes out at most once, and only from below the cursor to
above it. -/
theorem Advances.count_seq :
    handed.countP (·.seq == some q) = if through < q ∧ q ≤ through + n then 1 else 0 := by
  rw [← count_filterMap, h.seqs, count_range_1']
  congr 1
  rw [eq_iff_iff]
  omega

theorem Advances.count_le :
    handed.countP (·.seq == some q) + (if result.replayThrough < q then 1 else 0)
      ≤ if self.replayThrough < q then 1 else 0 := by
  have habove := h.above
  rw [h.count_seq, h.cursor]
  split_ifs <;> omega

/-- A sequence below which the cursor was is handed over, committed, or
still ahead. -/
theorem Advances.pending {q : Nat}
    (hq : q ≤ Outbox.committedThrough self.outbox ∨ self.replayThrough < q) :
    0 < handed.countP (·.seq == some q) ∨ q ≤ Outbox.committedThrough result.outbox
      ∨ result.replayThrough < q := by
  have hcommitted := h.committed
  have hbelow := h.below
  rw [h.count_seq, h.cursor]
  split_ifs <;> omega

theorem Advances.sound (hw : Outbox.Windowed good)
    (hself : self.replayThrough ≤ Outbox.lastAllocated self.outbox) : result.Sound good := by
  have hcursors := hw.cursors h.good
  have hallocated := h.allocated
  have hbelow := h.below
  refine ⟨h.good, ?_⟩
  rw [h.cursor]
  rcases Nat.eq_zero_or_pos n with rfl | hn
  · omega
  · exact (h.room hn).2.2

end

/-- The same of a call with its connection. -/
def Moves (good : O → Prop) (wire : Wire J) (began : UplinkWorker O) (returned : Prop)
    (conn : Conn J) (after : UplinkWorker O × Conn J) : Prop :=
  ∃ envelopes through n, after.2.sent = conn.sent ++ envelopes
    ∧ Advances good wire began returned envelopes after.1 through n

theorem Moves.still {conn' : Conn J} (hgood : good result.outbox) (hkept : Keeps self result)
    (hconn : conn'.sent = conn.sent) (hreturned : ¬returned) :
    Moves good wire self returned conn (result, conn') :=
  ⟨[], _, 0, by rw [append_nil, hconn], .still hgood hkept hreturned (by simp)⟩

/-- The cursor of the session plays no part. -/
theorem Moves.of_began {after : UplinkWorker O × Conn J}
    (h : Moves good wire self returned conn after) (hreturned : returned' → returned)
    (hkept : Keeps began self) : Moves good wire began returned' conn after := by
  obtain ⟨envelopes, through, n, hsent, hadvances⟩ := h
  exact ⟨envelopes, through, n, hsent, { hadvances with
    memo := hadvances.memo.trans hkept.memo
    committed := le_trans hkept.committed hadvances.committed
    allocated := le_trans hkept.allocated hadvances.allocated
    above := hkept.cursor ▸ hadvances.above
    below := hkept.cursor ▸ hadvances.below
    full := fun h => hadvances.full (hreturned h) }⟩

end

section
variable (hw : Outbox.Windowed good) (wire : Wire J) {self : UplinkWorker O}
include hw

theorem replay_moves (self : UplinkWorker O) (ho : good self.outbox) (conn : Conn J) (now : Nat) :
    Moves good wire self ((self.replay wire conn now).1 = .ok ()) conn
      (self.replay wire conn now).2 := by
  obtain ⟨through, hthrough⟩ : ∃ through,
    through = max self.replayThrough (Outbox.committedThrough self.outbox) := ⟨_, rfl⟩
  obtain ⟨n, envelopes, hroom, hlast, hsends, hfull⟩ :=
    replay_sent hw wire self conn now ho hthrough rfl
  refine ⟨envelopes, through, n, hsends.sent, ?_⟩
  rw [hsends.worker]
  have hseqs : envelopes.filterMap (·.seq) = range' (through + 1) n := by
    have hid := congrArg (filterMap id) hsends.seqs
    rwa [filterMap_map, filterMap_map, Function.id_comp, Function.id_comp, filterMap_some] at hid
  exact {
    good := ho
    memo := rfl
    committed := le_refl _
    allocated := le_refl _
    above := by omega
    below := le_of_eq hthrough
    cursor := rfl
    seqs := hseqs
    carried := fun envelope he _ => hsends.carried envelope he
    room := fun _ => by dsimp only; omega
    full := fun hok => by
      have := hfull hok
      dsimp only
      omega }

/-- Applying an acknowledgement first lets the report move the cursor, then
the outbox retire what is committed. -/
theorem applyAck_hinted (ho : good self.outbox) (committedThrough : Nat)
    (ranges : List WireRange) (moreMissing : Bool) :
    ∃ outbox, (self.applyAck committedThrough ranges moreMissing).2
        = { self.hinted ranges with outbox }
      ∧ good outbox ∧ Outbox.committedThrough self.outbox ≤ Outbox.committedThrough outbox
      ∧ Outbox.lastAllocated self.outbox ≤ Outbox.lastAllocated outbox := by
  unfold applyAck hinted
  cases checkRanges ranges with
  | error e => exact ⟨self.outbox, rfl, ho, le_refl _, le_refl _⟩
  | ok ranges =>
    obtain ⟨-, houtbox, -⟩ := self.rewind_frame ranges
    dsimp only
    split
    · exact ⟨(self.rewind ranges).outbox, rfl, houtbox ▸ ho, by rw [houtbox], by rw [houtbox]⟩
    split
    next halt outbox hrefused =>
      rw [houtbox] at hrefused
      obtain rfl := hw.refused ho hrefused
      exact ⟨_, rfl, ho, le_refl _, le_refl _⟩
    next retired outbox hacked =>
      rw [houtbox] at hacked
      obtain ⟨hgood, hlast, hcommitted, -⟩ := hw.acked ho hacked
      exact ⟨outbox, rfl, hgood, by omega, le_of_eq hlast.symm⟩

theorem acknowledge_moves (self : UplinkWorker O) (ho : good self.outbox) (conn : Conn J)
    (committedThrough : Nat) (ranges : List WireRange) (moreMissing : Bool) (now : Nat) :
    Moves good wire (self.hinted ranges)
      ((self.acknowledge wire conn committedThrough ranges moreMissing now).1 = .ok ()) conn
      (self.acknowledge wire conn committedThrough ranges moreMissing now).2 := by
  obtain ⟨outbox, happly, hgood, hcommitted, hallocated⟩ :=
    applyAck_hinted hw ho committedThrough ranges moreMissing
  rw [← (self.hinted_cursor ranges).1] at hcommitted hallocated
  unfold acknowledge
  generalize self.applyAck committedThrough ranges moreMissing = r at happly ⊢
  obtain ⟨result, worker⟩ := r
  obtain rfl : worker = { self.hinted ranges with outbox } := happly
  have hkept : Keeps (self.hinted ranges) { self.hinted ranges with outbox } :=
    ⟨rfl, hcommitted, hallocated, rfl⟩
  cases result with
  | error halt => exact .still hgood hkept rfl (by simp)
  | ok retired =>
    exact (replay_moves hw wire { self.hinted ranges with outbox } hgood conn now).of_began
      mapError_eq_ok.mp hkept

theorem dispatch_moves (self : UplinkWorker O) (ho : good self.outbox) (conn : Conn J) (now : Nat)
    (inbound : Inbound J) :
    Moves good wire (inbound.missing.elim self self.hinted)
      (inbound.missing ≠ none ∧ (self.dispatch wire conn now inbound).1 = .ok ()) conn
      (self.dispatch wire conn now inbound).2 := by
  have hack : ∀ committedThrough ranges moreMissing,
      Moves good wire (self.hinted ranges) (some ranges ≠ none
        ∧ (self.acknowledge wire conn committedThrough ranges moreMissing now).1 = .ok ()) conn
        (self.acknowledge wire conn committedThrough ranges moreMissing now).2 :=
    fun committedThrough ranges moreMissing =>
      (acknowledge_moves hw wire self ho conn committedThrough ranges moreMissing now).of_began
        And.right (.of_same rfl rfl rfl)
  have hquiet : ∀ {returned : Prop}, ¬returned → Moves good wire self returned conn (self, conn) :=
    .still ho (.of_same rfl rfl rfl) rfl
  cases inbound with
  | resumeAck | uplinkAck => exact hack _ _ _
  | pong | protocolError | commandDeliver | ignoredStale => exact hquiet fun h => h.1 rfl

omit [Outbox O] hw in
theorem sendPing_cases (conn : Conn J) (ping : Option (Envelope J)) :
    (∃ error, (sendPing conn ping).1 = .error error ∧ (sendPing conn ping).2.sent = conn.sent)
      ∨ ((sendPing conn ping).1 = .ok ()
        ∧ (sendPing conn ping).2.sent = conn.sent ++ ping.toList) := by
  cases ping with
  | none => exact .inr ⟨rfl, (append_nil _).symm⟩
  | some envelope => exact (conn.sendEnvelope_cases envelope).imp And.right And.right

theorem poll_moves (ho : good self.outbox) (conn : Conn J) (now : Nat) :
    Moves good wire self (∃ ping, (self.poll wire conn now).1 = .ok ping) conn
      (self.poll wire conn now).2 := by
  have hping : ∀ envelope ∈ (self.session.poll wire now).1.toList, envelope.seq = none := by
    have hpolled := self.session.poll_polled wire now
    generalize self.session.poll wire now = r at hpolled ⊢
    cases hpolled with
    | quiet | expired | pinged => simp
  unfold poll
  generalize self.session.poll wire now = r at hping ⊢
  obtain ⟨ping, session⟩ := r
  have hsend := sendPing_cases conn ping
  dsimp only at hping ⊢
  generalize sendPing conn ping = r at hsend ⊢
  obtain ⟨result, conn'⟩ := r
  rcases hsend with ⟨error, rfl, hsent⟩ | ⟨rfl, hsent⟩
  · refine .still ho (.of_same rfl rfl rfl) hsent ?_
    rintro ⟨ping', hok⟩
    cases hok
  · have hreplay := replay_moves hw wire { self with session } ho conn' now
    dsimp only
    generalize replay wire { self with session } conn' now = r at hreplay ⊢
    have hreturned : (∃ ping', (r.1.map fun _ => ping) = .ok ping') → r.1 = .ok () := by
      rintro ⟨ping', hok⟩
      cases hresult : r.1 with
      | error e =>
        rw [hresult] at hok
        cases hok
      | ok u => rfl
    obtain ⟨envelopes, through, n, hmore, hadvances⟩ : Moves good wire self _ conn' r.2 :=
      hreplay.of_began hreturned (.of_same rfl rfl rfl)
    refine ⟨ping.toList ++ envelopes, through, n, ?_, hadvances.unsequenced hping⟩
    rwa [← append_assoc, ← hsent]

end

end UplinkWorker

/-! ## Steps of the machine -/

namespace Link

variable [Outbox O] {good : O → Prop}

/-- The ranges the step reports missing, if the session takes what came in
for an acknowledgement. -/
def missing (wire : Wire J) (link : Link O J) : LinkEvent J good → Option (List WireRange)
  | .on (.inbound envelope now) =>
    (link.worker.session.onInbound wire envelope now).1.toOption.bind Inbound.missing
  | _ => none

def Replays (wire : Wire J) (link : Link O J) : LinkEvent J good → Prop
  | .on (.inbound envelope now) => ∃ inbound ranges, inbound.missing = some ranges
      ∧ (link.worker.onInbound wire link.conn envelope now).1 = .ok inbound
  | .on (.poll now) => ∃ ping, (link.worker.poll wire link.conn now).1 = .ok ping
  | _ => False

def hinted (wire : Wire J) (link : Link O J) (event : LinkEvent J good) : UplinkWorker O :=
  (link.missing wire event).elim link.worker link.worker.hinted

def named (wire : Wire J) (link : Link O J) (event : LinkEvent J good) : Option Nat :=
  (link.missing wire event).bind UplinkWorker.lowestMissing

theorem named_cases {link : Link O J} {event : LinkEvent J good} {h : Nat}
    (hnamed : link.named wire event = some h) :
    (link.worker.gapResentFrom = some h ∧ link.hinted wire event = link.worker)
      ∨ (link.worker.gapResentFrom ≠ some h ∧ link.hinted wire event
          = { link.worker with
              replayThrough := min link.worker.replayThrough (h - 1)
              gapResentFrom := some h }) := by
  obtain ⟨ranges, hmissing, hlowest⟩ := Option.bind_eq_some_iff.mp hnamed
  have hhinted : link.hinted wire event = link.worker.hinted ranges := by
    rw [hinted, hmissing]
    rfl
  rw [hhinted]
  rcases link.worker.hinted_cases ranges with ⟨hnone, -⟩ | ⟨h', hsome, hcases⟩
  · rw [hlowest] at hnone
    cases hnone
  · obtain rfl : h' = h := Option.some.inj (hsome.symm.trans hlowest)
    exact hcases

theorem hinted_cursor (wire : Wire J) (link : Link O J) (event : LinkEvent J good) :
    (link.hinted wire event).outbox = link.worker.outbox
      ∧ (link.hinted wire event).replayThrough ≤ link.worker.replayThrough := by
  unfold hinted
  cases link.missing wire event with
  | none => exact ⟨rfl, le_refl _⟩
  | some ranges => exact link.worker.hinted_cursor ranges

section
variable (hw : Outbox.Windowed good) (wire : Wire J) {link : Link O J}
include hw

theorem inbound_moves (ho : good link.worker.outbox) (envelope : Envelope J) (now : Nat)
    {event : LinkEvent J good} (hevent : event = .on (.inbound envelope now)) :
    UplinkWorker.Moves good wire (link.hinted wire event) (Replays wire link event) link.conn
      (link.worker.onInbound wire link.conn envelope now).2 := by
  subst hevent
  -- a replay that returned is the one the session's answer led to
  have hreplays : Replays wire link (.on (.inbound envelope now) : LinkEvent J good) →
      ∃ inbound session, inbound.missing ≠ none
        ∧ link.worker.session.onInbound wire envelope now = (.ok inbound, session)
        ∧ (dispatch wire { link.worker with session } link.conn now inbound).1
          = .ok () := by
    rintro ⟨inbound, ranges, hmissing, hok⟩
    obtain ⟨session, hsession, hdispatch⟩ := onInbound_ok hok
    exact ⟨inbound, session, by rw [hmissing]; exact Option.some_ne_none _, hsession,
      by rw [hdispatch]⟩
  have hmissing : link.missing wire (.on (.inbound envelope now) : LinkEvent J good)
      = (link.worker.session.onInbound wire envelope now).1.toOption.bind Inbound.missing := rfl
  rw [hinted, hmissing]
  unfold onInbound
  generalize link.worker.session.onInbound wire envelope now = r at hreplays ⊢
  obtain ⟨result, session⟩ := r
  cases result with
  | error e =>
    refine .still ho (.of_same rfl rfl rfl) rfl fun h => ?_
    obtain ⟨inbound, session', -, heq, -⟩ := hreplays h
    cases heq
  | ok inbound =>
    have hmoves := dispatch_moves hw wire { link.worker with session } ho link.conn
      now inbound
    have hsession : inbound.missing.elim { link.worker with session }
          (UplinkWorker.hinted { link.worker with session })
        = { inbound.missing.elim link.worker link.worker.hinted with session } := by
      cases inbound.missing with
      | none => rfl
      | some ranges => exact link.worker.hinted_session session ranges
    rw [hsession] at hmoves
    refine hmoves.of_began (fun h => ?_) (.of_same rfl rfl rfl)
    obtain ⟨inbound', session', hmissing, heq, hok⟩ := hreplays h
    cases heq
    exact ⟨hmissing, hok⟩

theorem step_advances (ho : good link.worker.outbox) (event : LinkEvent J good) :
    ∃ through n, UplinkWorker.Advances good wire (link.hinted wire event) (Replays wire link event)
      (link.handed wire event) (link.step wire event).worker through n := by
  cases event with
  | start answers now =>
    obtain ⟨houtbox, hthrough, hmemo⟩ :=
      link.worker.start_cursor wire (Conn.dial answers) now
    exact ⟨_, 0, .still (houtbox ▸ ho) (.of_same houtbox hthrough hmemo) id
      (link.worker.start_sent wire (Conn.dial answers) now rfl)⟩
  | on event =>
    cases event with
    | inbound envelope now =>
      obtain ⟨envelopes, through, n, hsent, hadvances⟩ :=
        inbound_moves hw wire ho envelope now rfl
      have hhanded : link.handed wire (.on (.inbound envelope now : ConnEvent J good))
          = envelopes := handed_eq hsent
      rw [hhanded]
      exact ⟨through, n, hadvances⟩
    | poll now =>
      obtain ⟨envelopes, through, n, hsent, hadvances⟩ :=
        poll_moves hw wire ho link.conn now
      have hhanded : link.handed wire (.on (.poll now : ConnEvent J good)) = envelopes :=
        handed_eq hsent
      rw [hhanded]
      exact ⟨through, n, hadvances⟩
    | disconnect now =>
      obtain ⟨houtbox, hthrough, hmemo⟩ := link.worker.markDropped_cursor now
      rw [handed_nil rfl]
      exact ⟨_, 0, .still (houtbox ▸ ho) (.of_same houtbox hthrough hmemo) id (by simp)⟩
    | grow growth =>
      rw [handed_nil rfl]
      exact ⟨_, 0, .still (growth.good_apply ho)
        ⟨rfl, le_of_eq (growth.committedThrough_apply ho).symm,
          growth.lastAllocated_apply ho, rfl⟩ id (by simp)⟩

theorem sound_step (h : link.worker.Sound good) (event : LinkEvent J good) :
    (link.step wire event).worker.Sound good := by
  obtain ⟨through, n, hadvances⟩ := step_advances hw wire h.outbox event
  obtain ⟨houtbox, hle⟩ := hinted_cursor wire link event
  refine hadvances.sound hw ?_
  rw [houtbox]
  exact le_trans hle h.through

theorem sound_run (config : LinkConfig) {outbox : O} (ho : good outbox)
    (events : List (LinkEvent J good)) :
    (runFrom (step wire) (new config outbox) events).worker.Sound good :=
  runFrom_invariant (I := fun link : Link O J => link.worker.Sound good)
    (fun _ event h => sound_step hw wire h event) events ⟨ho, zero_le _⟩

end

end Link

end VodogeEdge
