import VodogeEdge.Runs
import VodogeEdge.Tasks
import VodogeEdge.Word

/-!
# Challenges in flight

The AKA bridge bounds how many challenges it may have outstanding on the
daemon by a channel of slots: `reserve` sends into it, the closure it
returns receives from it. `CalculateAKA` holds a slot until it returns,
except that a call that times out leaves the connection and the slot to a
reaper.

The machine is every interleaving of calls and reapers. `log` tells on
whose behalf a slot was taken or given back.

`reap` that cannot set the deadline gives the slot back itself and reports
that it has not taken it over, and the call gives it back once more. All
the books balance exactly as long as that does not happen.
-/

namespace VodogeEdge.Lease

open List Option

/-! ## Calls -/

structure Provider where
  /-- `Timeout`, in nanoseconds. -/
  timeout : Int
  maxInFlight : Int
  /-- Whether `sim.NewAKAAuthRequest` takes a RAND and an AUTN. -/
  takes : Bytes → Bytes → Bool

def defaultTimeout : Int := 15000000000

def defaultMaxInFlight : Nat := 4

namespace Provider

def deadlined (p : Provider) : Bool := 0 < if p.timeout = 0 then defaultTimeout else p.timeout

def capacity (p : Provider) : Nat :=
  if p.maxInFlight ≤ 0 then defaultMaxInFlight else p.maxInFlight.toNat

end Provider

/-- What an error of an operation on the connection was met in. -/
inductive Phase where
  | writing
  | reading
deriving DecidableEq

/-- What `CalculateAKA` returns: an error, or what `decode` makes of the
line. -/
inductive Answer where
  | badChallenge
  | busy
  | dial
  | timeout (phase : Phase)
  | protocol (phase : Phase)
  | decoded (line : String)
deriving DecidableEq

/-- `CalculateAKA` between two of its operations. -/
inductive Stage where
  /-- In front of the first `select` of `reserve`. -/
  | reserving
  /-- Waiting for a slot. -/
  | queueing
  | dialling
  /-- In front of `SetDeadline`. -/
  | bounding
  | writing
  | reading
  /-- In `reap`, in front of `SetDeadline`. -/
  | reaping (answer : Answer)
  /-- In `reap`, with no deadline set and no slot to give back. -/
  | dropping (answer : Answer)
  /-- In front of the deferred `release`. -/
  | leaving (answer : Answer)
  | returned (answer : Answer)
deriving DecidableEq

inductive Outcome where
  | done
  | line (text : String)
  | timedOut
  | failed

inductive Gate where
  | untouched
  | sent
  | received
deriving DecidableEq

structure Effect where
  stage : Stage
  gate : Gate
  /-- A reaper is started. -/
  spawns : Bool

def Effect.goto (stage : Stage) : Effect := ⟨stage, .untouched, false⟩

def Provider.send (p : Provider) (occupied : Nat) (stage : Stage) : Option Effect :=
  if occupied < p.capacity then some ⟨stage, .sent, false⟩ else none

def receive (occupied : Nat) (stage : Stage) : Option Effect :=
  if 0 < occupied then some ⟨stage, .received, false⟩ else none

def Stage.next (p : Provider) (occupied : Nat) : Stage → Outcome → Option Effect
  | .reserving, _ => (p.send occupied .dialling).or (some (.goto .queueing))
  | .queueing, .timedOut => if p.deadlined then some (.goto (.returned .busy)) else none
  | .queueing, _ => p.send occupied .dialling
  | .dialling, .done => some (.goto (if p.deadlined then .bounding else .writing))
  | .dialling, _ => some (.goto (.leaving .dial))
  | .bounding, .done => some (.goto .writing)
  | .bounding, _ => some (.goto (.leaving .dial))
  | .writing, .done => some (.goto .reading)
  | .writing, .timedOut => some (.goto (.reaping (.timeout .writing)))
  | .writing, _ => some (.goto (.leaving (.protocol .writing)))
  | .reading, .line text => some (.goto (.leaving (.decoded text)))
  | .reading, .timedOut => some (.goto (.reaping (.timeout .reading)))
  | .reading, _ => some (.goto (.leaving (.protocol .reading)))
  | .reaping answer, .done => some ⟨.returned answer, .untouched, true⟩
  -- `SetDeadline` fails and the connection is closed; then `release`
  | .reaping answer, _ =>
    (receive occupied (.leaving answer)).or (some (.goto (.dropping answer)))
  | .dropping answer, _ => receive occupied (.leaving answer)
  | .leaving answer, _ => receive occupied (.returned answer)
  | .returned _, _ => none

/-! ## Reapers -/

inductive Reap where
  | reading
  /-- In front of the deferred `release`. -/
  | leaving
  | finished
deriving DecidableEq

structure Reaper where
  /-- The call it was started by. -/
  call : Nat
  stage : Reap
deriving DecidableEq

/-! ## The machine -/

inductive Event where
  | reserved (call : Nat)
  | released (call : Nat)
deriving DecidableEq

structure State where
  /-- `len(slots)`. -/
  occupied : Nat
  calls : List Stage
  reapers : List Reaper
  log : List Event
deriving DecidableEq

def State.new : State := ⟨0, [], [], []⟩

inductive Label where
  | begin (rand autn : Bytes)
  | call (i : Nat) (outcome : Outcome)
  | reaper (j : Nat)

namespace State

/-- The channel and the log after a step on behalf of a call. -/
def pass (s : State) (call : Nat) : Gate → State
  | .untouched => s
  | .sent => { s with occupied := s.occupied + 1, log := s.log ++ [.reserved call] }
  | .received => { s with occupied := s.occupied - 1, log := s.log ++ [.released call] }

def perform (s : State) (i : Nat) (effect : Effect) : State :=
  { s.pass i effect.gate with
    calls := s.calls.modify i fun _ => effect.stage
    reapers := if effect.spawns then s.reapers ++ [⟨i, .reading⟩] else s.reapers }

def callStep (p : Provider) (s : State) (i : Nat) (outcome : Outcome) : State :=
  match s.calls[i]?.bind fun stage => stage.next p s.occupied outcome with
  | none => s
  | some effect => s.perform i effect

/-- Whatever the reaper reads, or fails to, it leaves. -/
def reaperStep (s : State) (j : Nat) : State :=
  match s.reapers[j]? with
  | some ⟨call, .reading⟩ => { s with reapers := s.reapers.modify j fun _ => ⟨call, .leaving⟩ }
  | some ⟨call, .leaving⟩ =>
    if 0 < s.occupied then
      { s.pass call .received with reapers := s.reapers.modify j fun _ => ⟨call, .finished⟩ }
    else s
  | _ => s

def step (p : Provider) (s : State) : Label → State
  | .begin rand autn =>
    { s with
      calls := s.calls ++
        [if p.takes rand autn then .reserving else .returned .badChallenge] }
  | .call i outcome => s.callStep p i outcome
  | .reaper j => s.reaperStep j

def after (p : Provider) (labels : List Label) : State := runFrom (step p) .new labels

end State

/-! ## The books -/

/-- The slot is the call's: it has been reserved, and neither given back
nor taken over. -/
def Stage.holds : Stage → Bool
  | .reserving | .queueing | .returned _ => false
  | _ => true

def Stage.releasing : Stage → Bool
  | .dropping _ | .leaving _ => true
  | _ => false

def Reaper.holds (reaper : Reaper) : Bool := reaper.stage ≠ .finished

/-- How often a call's slot is held, by itself or by a reaper. -/
def State.holding (s : State) (i : Nat) : Nat :=
  s.calls[i]?.toList.countP Stage.holds +
    s.reapers.countP fun reaper => reaper.call = i && reaper.holds

structure Conserved (p : Provider) (s : State) : Prop where
  /-- As many slots are taken as are held. -/
  occupied : s.occupied = s.calls.countP Stage.holds + s.reapers.countP Reaper.holds
  bounded : s.occupied ≤ p.capacity
  /-- No call reserves twice, and what it has reserved is given back once
  or is held still. -/
  once : ∀ i, s.log.count (.reserved i) ≤ 1 ∧
    s.log.count (.released i) + s.holding i = s.log.count (.reserved i)
  /-- A `release` finds something to receive. -/
  calls : ∀ stage ∈ s.calls, stage.releasing → 0 < s.occupied
  reapers : ∀ reaper ∈ s.reapers, reaper.stage = .leaving → 0 < s.occupied

/-- No call fails to set the deadline for its reaper. -/
def Extends (s : State) : Label → Prop
  | .call i outcome => ∀ answer, s.calls[i]? = some (.reaping answer) → outcome = .done
  | _ => True

/-! ## What an operation does -/

def Stage.waits : Stage → Bool
  | .reserving | .queueing => true
  | _ => false

inductive Passage (p : Provider) (occupied : Nat) (stage : Stage) (outcome : Outcome) :
    Effect → Prop where
  | take (hwaits : stage.waits) (hroom : occupied < p.capacity) :
      Passage p occupied stage outcome ⟨.dialling, .sent, false⟩
  | goto {next : Stage} (hholds : next.holds = stage.holds)
      (hwaits : next.waits → stage.waits)
      (hdropping : ∀ answer, next = .dropping answer →
        stage = .reaping answer ∧ outcome ≠ .done) :
      Passage p occupied stage outcome (.goto next)
  | hand {answer : Answer} (hstage : stage = .reaping answer) (houtcome : outcome = .done) :
      Passage p occupied stage outcome ⟨.returned answer, .untouched, true⟩
  | give {answer : Answer} (hstage : stage = .leaving answer) (hfull : 0 < occupied) :
      Passage p occupied stage outcome ⟨.returned answer, .received, false⟩
  | slip {answer : Answer}
      (hstage : stage = .reaping answer ∧ outcome ≠ .done ∨ stage = .dropping answer)
      (hfull : 0 < occupied) :
      Passage p occupied stage outcome ⟨.leaving answer, .received, false⟩

variable {p : Provider} {occupied : Nat} {stage : Stage} {effect : Effect}

theorem send_eq_some :
    p.send occupied stage = some effect ↔
      occupied < p.capacity ∧ effect = ⟨stage, .sent, false⟩ := by
  rw [Provider.send]
  split
  next hroom => simp [hroom, eq_comm]
  next hroom => simp [hroom]

theorem receive_eq_some :
    receive occupied stage = some effect ↔
      0 < occupied ∧ effect = ⟨stage, .received, false⟩ := by
  rw [receive]
  split
  next hfull => simp [hfull, eq_comm]
  next hfull => simp [hfull]

theorem Stage.next_cases {outcome : Outcome} (h : stage.next p occupied outcome = some effect) :
    Passage p occupied stage outcome effect := by
  have hgoto {next : Stage} (hnext : some (Effect.goto next) = some effect)
      (hholds : next.holds = stage.holds) (hwaits : next.waits → stage.waits)
      (hdropping : ∀ answer, next ≠ .dropping answer) :
      Passage p occupied stage outcome effect := by
    obtain rfl := some_inj.mp hnext
    exact .goto hholds hwaits fun answer hd => absurd hd (hdropping answer)
  have htake (hwaits : stage.waits) (hsend : p.send occupied .dialling = some effect) :
      Passage p occupied stage outcome effect := by
    obtain ⟨hroom, rfl⟩ := send_eq_some.mp hsend
    exact .take hwaits hroom
  cases stage with
  | reserving =>
    rcases or_eq_some_iff.mp h with hsend | ⟨-, hqueue⟩
    · exact htake rfl hsend
    · exact hgoto hqueue rfl (fun _ => rfl) (by simp)
  | queueing =>
    cases outcome with
    | timedOut =>
      simp only [next] at h
      split at h
      · exact hgoto h rfl (fun h => by cases h) (by simp)
      · cases h
    | done | line | failed => exact htake rfl h
  | dialling =>
    cases outcome with
    | done =>
      refine hgoto h ?_ ?_ ?_ <;> cases p.deadlined <;> simp [holds, waits]
    | line | timedOut | failed => exact hgoto h rfl (fun h => by cases h) (by simp)
  | bounding | writing | reading =>
    cases outcome <;> exact hgoto h rfl (fun h => by cases h) (by simp)
  | reaping answer =>
    cases outcome with
    | done =>
      obtain rfl := some_inj.mp h
      exact .hand rfl rfl
    | line | timedOut | failed =>
      rcases or_eq_some_iff.mp h with hreceive | ⟨-, hdrop⟩
      · obtain ⟨hfull, rfl⟩ := receive_eq_some.mp hreceive
        exact .slip (.inl ⟨rfl, by simp⟩) hfull
      · obtain rfl := some_inj.mp hdrop
        refine .goto rfl (fun h => by cases h) ?_
        rintro _ ⟨⟩
        exact ⟨rfl, by simp⟩
  | dropping answer =>
    obtain ⟨hfull, rfl⟩ := receive_eq_some.mp h
    exact .slip (.inr rfl) hfull
  | leaving answer =>
    obtain ⟨hfull, rfl⟩ := receive_eq_some.mp h
    exact .give rfl hfull
  | returned answer => cases h

def Gate.sends (gate : Gate) : Nat := if gate = .sent then 1 else 0

def Gate.receives (gate : Gate) : Nat := if gate = .received then 1 else 0

/-- What the call held and what it took is what it holds, what it left to a
reaper and what it gave back. -/
def Balanced (stage : Stage) (effect : Effect) : Prop :=
  (if stage.holds then 1 else 0) + effect.gate.sends =
    (if effect.stage.holds then 1 else 0) + (if effect.spawns then 1 else 0)
      + effect.gate.receives

namespace Passage

variable {outcome : Outcome}

/-- Every operation is balanced, but for the `release` of a `reap` that has
failed. -/
theorem balanced_iff (h : Passage p occupied stage outcome effect) :
    Balanced stage effect ↔ ¬∃ answer, effect = ⟨.leaving answer, .received, false⟩ := by
  cases h with
  | take hwaits =>
    have hholds : stage.holds = false := by
      cases stage <;> first | rfl | cases hwaits
    simp [Balanced, hholds, Gate.sends, Gate.receives, show Stage.dialling.holds = true from rfl]
  | goto hholds => simp [Balanced, hholds, Gate.sends, Gate.receives, Effect.goto]
  | hand hstage | give hstage => simp [Balanced, hstage, Gate.sends, Gate.receives, Stage.holds]
  | slip hstage =>
    have hholds : stage.holds := by
      rcases hstage with ⟨rfl, -⟩ | rfl <;> rfl
    have hnext (answer : Answer) : (Stage.leaving answer).holds := rfl
    simp [Balanced, hholds, hnext, Gate.sends, Gate.receives]

/-- Only a call that waits for a slot takes one, and the channel lets
through what it does. -/
theorem guards (h : Passage p occupied stage outcome effect) :
    (effect.gate = .sent → stage.waits ∧ effect.stage.waits = false ∧
        occupied < p.capacity) ∧
      (effect.gate ≠ .sent → effect.stage.waits → stage.waits) ∧
      (effect.gate = .received → 0 < occupied) := by
  cases h with
  | take hwaits hroom => simp [hwaits, hroom, show Stage.dialling.waits = false from rfl]
  | goto _ hwaits => simpa [Effect.goto] using hwaits
  | hand => simp [Stage.waits]
  | give _ hfull | slip _ hfull => simp [hfull, Stage.waits]

end Passage

namespace State

variable {s : State} {k : Nat}

theorem callStep_cases (p : Provider) (s : State) (i : Nat) (outcome : Outcome) :
    s.callStep p i outcome = s ∨ ∃ stage effect, s.calls[i]? = some stage ∧
      Passage p s.occupied stage outcome effect ∧
      s.callStep p i outcome = s.perform i effect := by
  rw [callStep]
  cases hstage : s.calls[i]? with
  | none => exact .inl rfl
  | some stage =>
    cases hnext : stage.next p s.occupied outcome with
    | none =>
      left
      simp [hnext]
    | some effect =>
      right
      refine ⟨stage, effect, rfl, Stage.next_cases hnext, ?_⟩
      simp [hnext]

/-! ## The books along a run -/

structure Kept (p : Provider) (s : State) : Prop where
  occupied : s.occupied = s.calls.countP Stage.holds + s.reapers.countP Reaper.holds
  bounded : s.occupied ≤ p.capacity
  balance : ∀ i, s.log.count (.released i) + s.holding i = s.log.count (.reserved i)
  /-- Only a call that has left `reserve` has reserved. -/
  reserved : ∀ i, s.log.count (.reserved i) ≤
    s.calls[i]?.toList.countP fun stage => !stage.waits
  steady : ∀ answer, .dropping answer ∉ s.calls

theorem Kept.conserved (h : Kept p s) : Conserved p s where
  occupied := h.occupied
  bounded := h.bounded
  once i := by
    refine ⟨Nat.le_trans (h.reserved i) ?_, h.balance i⟩
    cases s.calls[i]? with
    | none => simp
    | some stage => exact countP_le_length
  calls stage hmem hreleasing := by
    have hholds : stage.holds := by
      cases stage <;> first | rfl | cases hreleasing
    have hpos : 0 < s.calls.countP Stage.holds := countP_pos_iff.mpr ⟨stage, hmem, hholds⟩
    rw [h.occupied]
    omega
  reapers reaper hmem hleaving := by
    have hholds : reaper.holds := by
      rw [Reaper.holds, hleaving]
      rfl
    have hpos : 0 < s.reapers.countP Reaper.holds := countP_pos_iff.mpr ⟨reaper, hmem, hholds⟩
    rw [h.occupied]
    omega

theorem occupied_perform (h : effect.gate = .received → 0 < s.occupied) :
    (s.perform k effect).occupied + effect.gate.receives = s.occupied + effect.gate.sends := by
  obtain ⟨next, gate, spawns⟩ := effect
  cases gate with
  | untouched | sent => rfl
  | received => exact Nat.sub_add_cancel (h rfl)

theorem count_perform (s : State) (k : Nat) (effect : Effect) (i : Nat) :
    (s.perform k effect).log.count (.reserved i)
        = s.log.count (.reserved i) + (if k = i then effect.gate.sends else 0) ∧
      (s.perform k effect).log.count (.released i)
        = s.log.count (.released i) + (if k = i then effect.gate.receives else 0) := by
  obtain ⟨next, gate, spawns⟩ := effect
  cases gate <;> simp [perform, pass, Gate.sends, Gate.receives, count_singleton]

theorem countP_reapers_perform (q : Reaper → Bool) (k : Nat) (effect : Effect) :
    (s.perform k effect).reapers.countP q
      = s.reapers.countP q + (if effect.spawns && q ⟨k, .reading⟩ then 1 else 0) := by
  rw [perform]
  cases effect.spawns <;> simp

theorem holding_perform (hstage : s.calls[k]? = some stage) (effect : Effect) (i : Nat) :
    (s.perform k effect).holding i + (if k = i then if stage.holds then 1 else 0 else 0)
      = s.holding i + (if k = i then (if effect.stage.holds then 1 else 0)
          + (if effect.spawns then 1 else 0) else 0) := by
  rw [holding, holding, countP_reapers_perform, perform, getElem?_modify]
  by_cases hk : k = i
  · subst hk
    simp only [hstage, Reaper.holds]
    simp
    omega
  · simp [hk]

theorem Kept.perform (h : Kept p s) {outcome : Outcome} (hstage : s.calls[k]? = some stage)
    (hpassage : Passage p s.occupied stage outcome effect) (hbalanced : Balanced stage effect)
    (hdropping : ∀ answer, effect.stage ≠ .dropping answer) : Kept p (s.perform k effect) := by
  have hcalls : (s.perform k effect).calls.countP Stage.holds + _ = _ + _ :=
    countP_modify Stage.holds (fun _ => effect.stage) hstage
  have hreapers := s.countP_reapers_perform Reaper.holds k effect
  obtain ⟨hsent, hkept, hfull⟩ := hpassage.guards
  have hoccupied := occupied_perform (k := k) hfull
  rw [Balanced] at hbalanced
  refine ⟨?_, ?_, fun i => ?_, fun i => ?_, fun answer hmem => ?_⟩
  · have hbefore := h.occupied
    rw [hreapers]
    simp only [show Reaper.holds ⟨k, .reading⟩ = true from rfl, Bool.and_true]
    omega
  · have hbefore := h.bounded
    by_cases hgate : effect.gate = .sent
    · have hroom := (hsent hgate).2.2
      simp only [hgate, Gate.sends, if_true] at hoccupied
      omega
    · simp only [hgate, Gate.sends, if_false] at hoccupied
      omega
  · obtain ⟨hreserved, hreleased⟩ := s.count_perform k effect i
    have hholding := holding_perform hstage effect i
    have hbefore := h.balance i
    by_cases hk : k = i
    · simp only [hk, if_true] at hholding hreserved hreleased
      subst hk
      omega
    · simp only [hk, if_false] at hholding hreserved hreleased
      omega
  · have hreserved := (s.count_perform k effect i).1
    have hbefore := h.reserved i
    by_cases hk : k = i
    · subst hk
      have hafter : (s.perform k effect).calls[k]? = some effect.stage := by
        rw [State.perform, List.getElem?_modify, hstage]
        exact congrArg some (if_pos rfl)
      rw [hstage, Option.toList_some, countP_singleton] at hbefore
      rw [hreserved, hafter, Option.toList_some, countP_singleton]
      by_cases hgate : effect.gate = .sent
      · obtain ⟨hwaits, hnext, -⟩ := hsent hgate
        simp only [hwaits, Bool.not_true, Bool.false_eq_true, if_false] at hbefore
        simp only [hgate, Gate.sends, hnext, Bool.not_false, if_true]
        omega
      · simp only [hgate, Gate.sends]
        refine Nat.le_trans hbefore ?_
        cases hnext : effect.stage.waits with
        | false => split <;> simp
        | true => simp [hkept hgate hnext]
    · rw [hreserved, State.perform]
      simpa [hk] using hbefore
  · rcases mem_modify hmem with hmem | ⟨_, _, heq⟩
    · exact h.steady answer hmem
    · exact hdropping answer heq.symm

theorem kept_new (p : Provider) : Kept p .new where
  occupied := rfl
  bounded := Nat.zero_le _
  balance _ := rfl
  reserved _ := Nat.zero_le _
  steady _ := not_mem_nil

theorem Kept.begin (h : Kept p s) (hholds : stage.holds = false)
    (hdropping : ∀ answer, stage ≠ .dropping answer) :
    Kept p { s with calls := s.calls ++ [stage] } := by
  have hnew (q : Stage → Bool) (i : Nat) : (s.calls ++ [stage])[i]?.toList.countP q
      = s.calls[i]?.toList.countP q + (if i = s.calls.length ∧ q stage then 1 else 0) := by
    rw [List.getElem?_append]
    split
    next hi => simp [Nat.ne_of_lt hi]
    next hi =>
      rw [List.getElem?_eq_none (Nat.le_of_not_lt hi)]
      by_cases heq : i = s.calls.length
      · simp [heq]
      · have : ¬i - s.calls.length = 0 := by omega
        simp [this, heq]
  refine ⟨?_, h.bounded, fun i => ?_, fun i => ?_, fun answer hmem => ?_⟩
  · simp only [countP_append, countP_singleton, hholds]
    exact h.occupied
  · have hbefore := h.balance i
    rw [holding] at hbefore ⊢
    simp only [hnew, hholds]
    simpa using hbefore
  · have hbefore := h.reserved i
    simp only [hnew]
    omega
  · rcases mem_append.mp hmem with hmem | hmem
    · exact h.steady answer hmem
    · exact hdropping answer (mem_singleton.mp hmem).symm

theorem Kept.reaperStep (h : Kept p s) (j : Nat) : Kept p (s.reaperStep j) := by
  rw [State.reaperStep]
  split
  next call hreaper =>
    have hcount (q : Reaper → Bool) (hq : q ⟨call, .leaving⟩ = q ⟨call, .reading⟩) :
        (s.reapers.modify j fun _ => ⟨call, .leaving⟩).countP q = s.reapers.countP q := by
      have := countP_modify q (fun _ => ⟨call, .leaving⟩) hreaper
      rw [hq] at this
      omega
    refine ⟨?_, h.bounded, fun i => ?_, h.reserved, h.steady⟩
    · simp only [hcount Reaper.holds rfl]
      exact h.occupied
    · have hbefore := h.balance i
      rw [holding] at hbefore ⊢
      rwa [hcount _ rfl]
  next call hreaper =>
    split
    next hfull =>
      have hcount (q : Reaper → Bool) := countP_modify q (fun _ => ⟨call, .finished⟩) hreaper
      refine ⟨?_, ?_, fun i => ?_, fun i => ?_, h.steady⟩
      · have hbefore := h.occupied
        have hone := hcount Reaper.holds
        simp only [show Reaper.holds ⟨call, .leaving⟩ = true from rfl,
          show Reaper.holds ⟨call, .finished⟩ = false from rfl] at hone
        simp only [pass]
        simp at hone
        omega
      · exact Nat.le_trans (Nat.sub_le _ _) h.bounded
      · have hbefore := h.balance i
        have hone := hcount fun reaper => reaper.call = i && reaper.holds
        simp only [show Reaper.holds ⟨call, .leaving⟩ = true from rfl,
          show Reaper.holds ⟨call, .finished⟩ = false from rfl, Bool.and_true, Bool.and_false,
          decide_eq_true_eq, Bool.false_eq_true, if_false] at hone
        rw [holding] at hbefore ⊢
        simp only [pass, count_append]
        by_cases hcall : call = i
        · simp only [hcall, if_true] at hone ⊢
          simp only [count_singleton_self, count_singleton, beq_iff_eq, reduceCtorEq, if_false]
          omega
        · simp only [hcall, if_false] at hone
          simp only [count_singleton, beq_iff_eq, Event.released.injEq, hcall, reduceCtorEq]
          omega
      · have hbefore := h.reserved i
        simpa [pass] using hbefore
    · exact h
  · exact h

theorem Kept.step (h : Kept p s) (label : Label) (hextends : Extends s label) :
    Kept p (s.step p label) := by
  cases label with
  | begin rand autn =>
    rw [State.step]
    split <;> exact h.begin rfl (by simp)
  | reaper j => exact h.reaperStep j
  | call k outcome =>
    rw [State.step]
    rcases callStep_cases p s k outcome with hsame | ⟨stage, effect, hstage, hpassage, hperform⟩
    · rwa [hsame]
    · have hclean : Balanced stage effect ∧ ∀ answer, effect.stage ≠ .dropping answer := by
        rw [hpassage.balanced_iff]
        cases hpassage with
        | take | hand | give => simp
        | goto _ _ hdropping =>
          refine ⟨by simp [Effect.goto], fun answer hnext => ?_⟩
          obtain ⟨rfl, hfailed⟩ := hdropping answer hnext
          exact hfailed (hextends answer hstage)
        | slip hslip =>
          rcases hslip with ⟨rfl, hfailed⟩ | rfl
          · exact absurd (hextends _ hstage) hfailed
          · exact absurd (mem_of_getElem? hstage) (h.steady _)
      rw [hperform]
      exact h.perform hstage hpassage hclean.1 hclean.2

/-- Where `reap` fails, a slot is given back that is still held. -/
theorem not_conserved_step (h : Conserved p s) {label : Label} (hfails : ¬Extends s label) :
    ¬Conserved p (s.step p label) := by
  cases label with
  | begin | reaper => exact absurd trivial hfails
  | call k outcome =>
    simp only [Extends, not_forall] at hfails
    obtain ⟨answer, hstage, houtcome⟩ := hfails
    have hpos : 0 < s.calls.countP Stage.holds :=
      countP_pos_iff.mpr ⟨_, mem_of_getElem? hstage, rfl⟩
    have hbefore := h.occupied
    have hreceive : receive s.occupied (.leaving answer)
        = some ⟨.leaving answer, .received, false⟩ := receive_eq_some.mpr ⟨by omega, rfl⟩
    have hnext : (Stage.reaping answer).next p s.occupied outcome
        = some ⟨.leaving answer, .received, false⟩ := by
      cases outcome with
      | done => exact absurd rfl houtcome
      | line | timedOut | failed => simp [Stage.next, hreceive]
    have hcalls := countP_modify Stage.holds (fun _ => .leaving answer) hstage
    intro hafter
    have hoccupied := hafter.occupied
    simp only [State.step, callStep, hstage, bind_some, hnext, State.perform, pass] at hoccupied
    simp only [show (Stage.reaping answer).holds = true from rfl,
      show (Stage.leaving answer).holds = true from rfl] at hcalls
    simp at hoccupied
    omega

end State

/-- Exactly in the runs in which `reap` always sets its deadline: each
reservation is always given back once or held by one unfinished call or
reaper, the slots taken are those held, and no `release` waits. -/
theorem slots_conserved_iff (p : Provider) (labels : List Label) :
    (∀ before, before <+: labels → Conserved p (State.after p before)) ↔
      Along (State.step p) Extends .new labels := by
  constructor
  · intro h
    rw [along_iff_before]
    intro before label hbefore
    by_contra hfails
    refine State.not_conserved_step (h before ((prefix_append _ _).trans hbefore)) hfails ?_
    have hnext := h (before ++ [label]) hbefore
    rwa [State.after, runFrom_snoc] at hnext
  · rintro h before ⟨rest, rfl⟩
    have hkept := Along.invariant (fun s label hs hl => hs.step label hl) before
      (State.kept_new p) ((Along.append before rest).mp h).1
    exact hkept.conserved

/-- One slot; a call that times out while it writes and cannot set the
deadline for its reaper. -/
def reapFails : List Label :=
  [.begin (List.replicate 16 0) (List.replicate 16 0), .call 0 .done, .call 0 .done,
    .call 0 .done, .call 0 .timedOut, .call 0 .failed]

/-- It waits for ever in its second `release`; or it gives back the slot
another call has got meanwhile, and two are in flight. -/
theorem reapFails_releases_twice :
    let p : Provider := ⟨0, 1, fun rand autn => rand.length = 16 && autn.length = 16⟩
    let other : Label := .begin (replicate 16 1) (replicate 16 1)
    let stolen := State.after p (reapFails ++ [other, .call 1 .done, .call 0 .done])
    ((State.after p reapFails).occupied = 0 ∧
      (State.after p reapFails).calls = [.leaving (.timeout .writing)] ∧
      (State.after p (reapFails ++ [.call 0 .done])) = State.after p reapFails) ∧
    (stolen.log = [.reserved 0, .released 0, .reserved 1, .released 0] ∧
      stolen.calls = [.returned (.timeout .writing), .dialling] ∧ stolen.occupied = 0) := by
  decide +kernel

end VodogeEdge.Lease
