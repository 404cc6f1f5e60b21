import VodogeEdge.AgentLedger

/-!
# Self-updates

The arm of `SelfUpdate` stages the binary before anything about the
execution is written: no `executing` row stands between two deliveries.
If the terminal row is lost, the redelivery stages again, and
`UpdateGuard::start` then takes the version staged first as the one to
roll back to.

`UpdateSafe` is what the executor is meant to keep: one staging per
command, and the rollback target of the first one until a handshake
settles it. `AgentHost.Careful` is the condition on each step under which
it does.
-/

namespace VodogeEdge

open Std List

variable {P U J V M C : Type} (lib : AgentLib J V M C)
  {self : CommandExecutor P U J V M} {payload : CommandDeliverPayload J V} {deliveryId : String}
  {now : Int}

/-! ## The condition -/

namespace CommandExecutor

/-- No other update awaits its handshake, and nothing can fail between
the staging and the terminal row. -/
structure StagesCleanly [UpdatePort U J] (worker : CommandExecutor P U J V M)
    (request : SelfUpdateRequest) : Prop where
  settled : worker.guard.previous = none
  writes : ∀ fate ∈ worker.rows.fates, fate = .commit
  returns : (UpdatePort.stage worker.updater request).1 ≠ none
  room : worker.uplink.lastAllocated < u64Max

end CommandExecutor

/-- Updates are staged cleanly, and the process is not restarted while
one awaits its handshake. -/
def AgentHost.Careful [UpdatePort U J] (host : AgentHost P U J V M) :
    AgentEvent P U J V M → Prop
  | .deliver fates deliveryId payload now =>
    ∀ executor request, host = .up executor → stageRequest payload = some request →
      executor.Executes deliveryId payload now →
      (executor.planned fates).StagesCleanly request
  | .confirmHandshake _ => True
  | .restart _ _ _ => host.executor.guard.previous = none

namespace CommandExecutor

/-! ## Deliveries that stage -/

section
variable [UpdatePort U J]

variable {request : SelfUpdateRequest}

/-- A staging that returns leaves its note, and moves the guard if the
update was accepted. -/
theorem stageUpdate_returns (self : CommandExecutor P U J V M)
    (h : (UpdatePort.stage self.updater request).1 ≠ none) (cmdId : String) (now attempts : Int) :
    ∃ executed accepted updater, self.stageUpdate cmdId request now attempts
      = (.ok executed, { self with
          updater
          guard := if accepted then self.guard.start request.version else self.guard
          trace := self.trace ++ [.staged cmdId self.guard.current accepted] }) := by
  unfold stageUpdate
  dsimp only
  split
  next hnone => exact absurd hnone h
  · exact ⟨_, true, _, rfl⟩
  · exact ⟨_, false, _, rfl⟩

variable [SendPort P J C]

/-- A clean staging: one note, the guard moved if it was accepted, and
the command started for good. -/
theorem run_stages (hrequest : stageRequest payload = some request)
    (hexecutes : self.Executes deliveryId payload now) (hclean : self.StagesCleanly request)
    (receipt : CommandReceiptPayload) :
    ∃ accepted,
      (self.run lib payload receipt now).2.trace
          = self.trace ++ [.staged payload.cmdId self.guard.current accepted]
        ∧ (self.run lib payload receipt now).2.guard
          = (if accepted then self.guard.start request.version else self.guard)
        ∧ ((self.run lib payload receipt now).2.ledger lib).Started payload.cmdId := by
  rcases recordFirst_cases lib self hexecutes.recorded with
    ⟨halt, fates, hfails, -⟩ | ⟨rows, commands, hwrites, hfirst, hrecorded, -⟩
  · exact absurd hclean.writes hfails
  have hattempt : ∀ executor : CommandExecutor P U J V M, executor.attempt lib payload now
      = executor.stageUpdate payload.cmdId request now (payload.attempt.getD 1) := by
    intro executor
    unfold attempt
    rw [if_neg (Int.not_le.mpr hexecutes.live)]
    unfold execute
    unfold stageRequest at hrequest
    split at hrequest
    next heq =>
      cases hrequest
      rw [heq]
    · cases hrequest
  obtain ⟨executed, accepted, updater, hstaged⟩ := stageUpdate_returns
    { self with rows, commands } hclean.returns payload.cmdId now
    (payload.attempt.getD 1)
  rcases storeTerminal_cases lib
    { self with
      rows, commands, updater
      guard := if accepted then self.guard.start request.version else self.guard
      trace := self.trace ++ [.staged payload.cmdId self.guard.current accepted] }
    (.inl hrecorded) executed.result with
    ⟨halt, fates, uplink, hfails, -⟩ | ⟨sequence, rows', uplink, commands', hstored, hfinished⟩
  · exact absurd ⟨hwrites hclean.writes, hexecutes.cmd, hclean.room⟩ hfails
  · refine ⟨accepted, ?_⟩
    unfold run
    rw [hfirst]
    dsimp only
    unfold conclude
    rw [hattempt, hstaged]
    dsimp only
    rw [hstored]
    exact ⟨rfl, rfl, hfinished.started⟩

end

end CommandExecutor

/-! ## Runs -/

/-- What a careful run keeps: every command staged is started, so that no
delivery executes it again. -/
structure UpdatesKept (executor : CommandExecutor P U J V M) : Prop where
  started : ∀ {cmdId : String}, 0 < stagings cmdId executor.trace →
    (executor.ledger lib).Started cmdId
  safe : ∀ cmdId : String, UpdateSafe cmdId executor

namespace UpdatesKept

variable {lib}

variable {after executor : CommandExecutor P U J V M}

theorem quiet (h : UpdatesKept lib executor) (hquiet : Quiet executor after)
    (hkept : ∀ {k}, (executor.ledger lib).Started k → (after.ledger lib).Started k) :
    UpdatesKept lib after := by
  obtain ⟨notes, htrace, hnotes⟩ := hquiet.trace
  refine ⟨fun {cmdId} hstaged => ?_, fun cmdId => ⟨?_, fun version hversion => ?_⟩⟩
  · rw [htrace, stagings_quiet cmdId hnotes] at hstaged
    exact hkept (h.started hstaged)
  · rw [htrace, stagings_quiet cmdId hnotes]
    exact (h.safe cmdId).once
  · rw [htrace, rollbackTarget, foldl_append, noteTarget_quiet cmdId hnotes] at hversion
    rw [hquiet.guard]
    exact (h.safe cmdId).target version hversion

/-- Without a version to roll back to, no update awaits its handshake. -/
theorem no_target (h : UpdatesKept lib executor) (hprevious : executor.guard.previous = none)
    (cmdId : String) : rollbackTarget cmdId executor.trace = none := by
  cases htarget : rollbackTarget cmdId executor.trace with
  | none => rfl
  | some version =>
    have hsome := (h.safe cmdId).target version htarget
    rw [hprevious] at hsome
    cases hsome

theorem staged (h : UpdatesKept lib executor) {cmdId version : String} {accepted : Bool}
    (hprevious : executor.guard.previous = none) (hfresh : ¬(executor.ledger lib).Started cmdId)
    (htrace : after.trace = executor.trace ++ [.staged cmdId executor.guard.current accepted])
    (hguard : after.guard = (if accepted then executor.guard.start version else executor.guard))
    (hstarted : (after.ledger lib).Started cmdId)
    (hkept : ∀ {k}, (executor.ledger lib).Started k → (after.ledger lib).Started k) :
    UpdatesKept lib after := by
  have hcount : ∀ k, stagings k after.trace
      = stagings k executor.trace + if cmdId = k then 1 else 0 := by
    intro k
    unfold stagings
    rw [htrace, countP_append, countP_singleton]
    simp [AgentNote.stages]
  have htarget : ∀ k, rollbackTarget k after.trace
      = if accepted ∧ cmdId = k then some executor.guard.current else none := by
    intro k
    have hnone := h.no_target hprevious k
    unfold rollbackTarget at hnone ⊢
    rw [htrace, foldl_append, hnone]
    cases accepted with
    | false => rfl
    | true =>
      by_cases hk : cmdId = k <;> simp [noteTarget]
  refine ⟨fun {k} hstaged => ?_, fun k => ⟨?_, fun target hversion => ?_⟩⟩
  · by_cases hk : cmdId = k
    · exact hk ▸ hstarted
    · rw [hcount, if_neg hk] at hstaged
      exact hkept (h.started hstaged)
  · rw [hcount]
    by_cases hk : cmdId = k
    · subst hk
      have hzero : stagings cmdId executor.trace = 0 :=
        Nat.eq_zero_of_not_pos fun hpos => hfresh (h.started hpos)
      rw [hzero, if_pos rfl]
    · rw [if_neg hk]
      exact (h.safe k).once
  · rw [htarget] at hversion
    split at hversion
    next hcond => rwa [hguard, if_pos hcond.1]
    · cases hversion

theorem confirmed (h : UpdatesKept lib executor) {handshakeOk : Bool}
    (htrace : after.trace = executor.trace ++ [.confirmed handshakeOk])
    (hledger : after.ledger lib = executor.ledger lib) : UpdatesKept lib after := by
  have hcount : ∀ k, stagings k after.trace = stagings k executor.trace := by
    intro k
    unfold stagings
    rw [htrace, countP_append]
    rfl
  refine ⟨fun {k} hstaged => ?_, fun k => ⟨?_, fun version hversion => ?_⟩⟩
  · rw [hcount] at hstaged
    rw [hledger]
    exact h.started hstaged
  · rw [hcount]
    exact (h.safe k).once
  · unfold rollbackTarget at hversion
    rw [htrace, foldl_append] at hversion
    cases hversion

theorem restart [UpdatePort U J] (h : UpdatesKept lib executor)
    (hprevious : executor.guard.previous = none) (port : P) (updater : U) (matrix : M) :
    UpdatesKept lib (executor.restart lib port updater matrix) := by
  obtain ⟨commands, hframe⟩ := executor.restart_frame lib port updater matrix
  have htrace : (executor.restart lib port updater matrix).trace = executor.trace := by
    rw [hframe]
    rfl
  refine ⟨fun {k} hstaged => ?_, fun k => ⟨?_, fun version hversion => ?_⟩⟩
  · rw [htrace] at hstaged
    rw [CommandExecutor.ledger_restart]
    exact (h.started hstaged).reload
  · rw [htrace]
    exact (h.safe k).once
  · rw [htrace, h.no_target hprevious] at hversion
    cases hversion

end UpdatesKept

section
variable [SendPort P J C] [UpdatePort U J]

omit [SendPort P J C] in
theorem CommandExecutor.confirmHandshake_trace (self : CommandExecutor P U J V M)
    (handshakeOk : Bool) :
    (self.confirmHandshake handshakeOk).2.trace = self.trace ++ [.confirmed handshakeOk] := by
  unfold confirmHandshake
  dsimp only
  split
  · rfl
  · split <;> rfl

theorem CommandExecutor.deliver_updatesKept
    (h : UpdatesKept lib self) (hcareful : ∀ request, stageRequest payload = some request →
      self.Executes deliveryId payload now → self.StagesCleanly request) :
    UpdatesKept lib (self.deliver lib deliveryId payload now).2 := by
  have hmoved := self.deliver_moved lib deliveryId payload now
  have hkept : ∀ {k}, (self.ledger lib).Started k →
      ((self.deliver lib deliveryId payload now).2.ledger lib).Started k :=
    fun hk => hk.steps hmoved.steps
  by_cases hexecutes : self.Executes deliveryId payload now
  · cases hrequest : stageRequest payload with
    | none => exact h.quiet (hmoved.quiet fun hstages => hstages.2 hrequest) hkept
    | some request =>
      have hclean := hcareful request hrequest hexecutes
      have hdelivered := self.deliver_delivered lib deliveryId payload now
      generalize self.deliver lib deliveryId payload now = call at hdelivered hkept ⊢
      cases hdelivered with
      | blank | terminal => exact h
      | unknown stored hcmd hstored hphase =>
        rw [hexecutes.recorded stored hstored] at hphase
        cases hphase
      | run status hdelivery hcmd hphase =>
        obtain ⟨accepted, htrace, hguard, hstarted⟩ := run_stages lib hrequest hexecutes
          hclean (receipt payload.cmdId deliveryId status now)
        have hfresh : ¬(self.ledger lib).Started payload.cmdId := by
          intro hstarted
          rcases mem_of_recorded lib hphase with hmem | hmem
          · exact Ledger.not_settled_none (hmem ▸ hstarted.2)
          · exact Ledger.not_settled_recorded (hmem ▸ hstarted.2)
        exact h.staged hclean.settled hfresh htrace hguard hstarted hkept
  · exact h.quiet (hmoved.quiet fun hstages => hexecutes hstages.1) hkept

theorem AgentHost.step_updatesKept (host : AgentHost P U J V M) (event : AgentEvent P U J V M)
    (h : UpdatesKept lib host.executor) (hcareful : host.Careful event) :
    UpdatesKept lib (host.step lib event).executor := by
  cases event with
  | deliver fates deliveryId payload now =>
    cases host with
    | up executor =>
      show UpdatesKept lib (settle _).executor
      rw [executor_settle]
      have hplanned : UpdatesKept lib (executor.planned fates) :=
        h.quiet (.same rfl rfl) fun hk => hk
      refine CommandExecutor.deliver_updatesKept lib hplanned fun request hrequest hexec => ?_
      exact hcareful executor request rfl hrequest
        ⟨hexec.delivery, hexec.cmd, hexec.live, hexec.recorded⟩
    | down executor => exact h
  | confirmHandshake handshakeOk =>
    cases host with
    | up executor =>
      show UpdatesKept lib (settle _).executor
      rw [executor_settle]
      exact h.confirmed (executor.confirmHandshake_trace handshakeOk)
        (executor.confirmHandshake_ledger lib handshakeOk)
    | down executor => exact h
  | restart port updater matrix => exact h.restart hcareful port updater matrix

/-- In a careful run every command is staged at most once, and its
rollback target stays until a handshake settles it. -/
theorem AgentHost.careful_update_safe (port : P) (updater : U) (matrix : M)
    (events : List (AgentEvent P U J V M))
    (hcareful : Along (step lib) Careful (fresh port updater matrix) events) (cmdId : String) :
    UpdateSafe cmdId (runFrom (step lib) (fresh port updater matrix) events).executor := by
  have hfresh : UpdatesKept lib (fresh port updater matrix).executor :=
    ⟨fun hpos => absurd hpos (Nat.lt_irrefl 0), fun _ => ⟨Nat.zero_le 1, nofun⟩⟩
  have hrun := Along.invariant
    (I := fun host : AgentHost P U J V M => UpdatesKept lib host.executor)
    (fun host event => host.step_updatesKept lib event) events hfresh hcareful
  exact hrun.safe cmdId

end

/-! ## A lost terminal row -/

def updateCommand : CommandDeliverPayload Unit Unit :=
  ⟨"c-1", 0, 1000, none, .selfUpdate "1.1.0" "edge-1.1.0.bin" "00" "sig"⟩

def deliverUpdate (fates : List Fate) : AgentEvent SilentPort ReadyUpdater Unit Unit Unit :=
  .deliver fates "d-1" updateCommand 1

/-- The terminal row of the first delivery is refused. The redelivery
stages again, and the version to roll back to is the staged one. -/
theorem AgentHost.redelivery_stages_again :
    let final := (runFrom (step plainLib) (fresh .mk ⟨"1.0.0"⟩ ())
      [deliverUpdate [.commit, .refuse], deliverUpdate []]).executor
    ¬UpdateSafe "c-1" final ∧ stagings "c-1" final.trace = 2
      ∧ rollbackTarget "c-1" final.trace = some "1.0.0"
      ∧ final.guard.previous = some "1.1.0" := by
  refine ⟨fun h => ?_, by decide, by decide, by decide⟩
  exact absurd h.once (by decide)

/-- Delivered twice with every write going through, it is staged once. -/
theorem AgentHost.delivered_twice_staged_once :
    UpdateSafe "c-1" (runFrom (step plainLib) (fresh .mk ⟨"1.0.0"⟩ ())
      [deliverUpdate [], deliverUpdate []]).executor := by
  refine careful_update_safe plainLib .mk ⟨"1.0.0"⟩ () [deliverUpdate [], deliverUpdate []]
    ⟨?_, ?_, trivial⟩ "c-1"
  · intro executor request hup hrequest hexecutes
    cases hup
    exact ⟨rfl, nofun, nofun, by decide⟩
  · intro executor request hup hrequest hexecutes
    -- the command is terminal by now, and nothing is executed
    cases hup
    have hphase := hexecutes.recorded _ rfl
    cases hphase

end VodogeEdge
