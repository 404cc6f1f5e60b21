import VodogeEdge.AgentJournal
import VodogeEdge.Runs

/-!
# The executor is a write-ahead ledger

`deliver_moved` says that one delivery only takes ledger steps of its own
command, and `ledger_restart` that a restart is a reload. What the
library proves about ledgers then holds for every run of the agent.
-/

namespace VodogeEdge

open Std List Option

namespace CommandExecutor

variable {P U J V M C : Type} (lib : AgentLib J V M C)

/-! ## Running a command -/

section
variable [SendPort P J C]

variable (self : CommandExecutor P U J V M) {payload : CommandDeliverPayload J V} {cmdId : String}

theorem perform_frame (cmdId : String) (action : PortAction J) :
    ∃ port, (self.perform cmdId action).2
      = { self with port, trace := self.trace ++ [.called cmdId action] } := by
  unfold perform
  dsimp only
  split <;> exact ⟨_, rfl⟩

theorem refuseUnsupported_frame (imei : Option String) (operation : Operation) :
    ∃ port, (self.refuseUnsupported lib imei operation).2 = { self with port } := by
  unfold refuseUnsupported
  dsimp only
  split
  · exact ⟨_, rfl⟩
  · exact ⟨_, rfl⟩
  · split <;> exact ⟨_, rfl⟩

omit [SendPort P J C] in
theorem stageUpdate_ledger [UpdatePort U J] (cmdId : String) (request : SelfUpdateRequest)
    (now attempts : Int) :
    (self.stageUpdate cmdId request now attempts).2.ledger lib = self.ledger lib := by
  have hnote : ∀ accepted, (self.trace ++ [AgentNote.staged cmdId self.guard.current
      accepted]).filterMap AgentNote.deed = self.trace.filterMap AgentNote.deed := by
    intro accepted
    rw [filterMap_append]
    exact append_nil _
  unfold stageUpdate
  dsimp only
  split
  · exact ledger_congr lib rfl rfl (hnote false)
  · exact ledger_congr lib rfl rfl (hnote true)
  · exact ledger_congr lib rfl rfl (hnote false)

/-- What an arm of `execute` does: it marks before it acts, acts once, and
leaves updates alone unless it is `staging` one. -/
structure Arm (cmdId : String) (staging : Prop) (before after : CommandExecutor P U J V M) :
    Prop where
  work : Ledger.Work cmdId (before.ledger lib) (after.ledger lib)
  quiet : ¬staging → Quiet before after

variable {staging : Prop} (deliveryId : String)

omit [SendPort P J C] in
theorem marked_arm {before after : CommandExecutor P U J V M}
    (hrow : (after.ledger lib).row
      = Function.update (before.ledger lib).row cmdId (some .executing))
    (hmem : (after.ledger lib).mem
      = Function.update (before.ledger lib).mem cmdId (some .executing))
    (hguard : after.guard = before.guard) (acted : Option (PortAction J))
    (htrace : after.trace = before.trace ++ .marked cmdId :: (acted.map (.called cmdId)).toList) :
    Arm lib cmdId staging before after := by
  refine ⟨.mark acted hrow hmem ?_, fun _ => ⟨hguard, _, htrace, ?_⟩⟩
  · show after.trace.filterMap AgentNote.deed = _
    rw [htrace, filterMap_append]
    cases acted <;> rfl
  · cases acted <;> simp [AgentNote.quiet]

variable {self} in
theorem relay_arm (h : self.Recorded lib cmdId) (action : PortAction J) :
    Arm lib cmdId staging self (self.relay lib cmdId action).2 := by
  unfold relay
  rcases markExecuting_cases lib h with ⟨halt, fates, heq⟩ | ⟨rows, commands, heq, hrow, hmem⟩
  · rw [heq]
    exact ⟨.idle rfl, fun _ => .same rfl rfl⟩
  · obtain ⟨port, hframe⟩ := perform_frame
      { self with rows, commands, trace := self.trace ++ [.marked cmdId] } cmdId action
    rw [heq]
    dsimp only
    rw [hframe]
    exact marked_arm lib hrow hmem rfl (some action) (by simp)

variable {self} in
/-- Sending an SMS is marked before it is checked; a refusal calls
nothing. -/
theorem relaySms_arm (h : self.Recorded lib cmdId) (send : SmsSend) :
    Arm lib cmdId staging self (self.relaySms lib cmdId send).2 := by
  unfold relaySms
  rcases markExecuting_cases lib h with ⟨halt, fates, heq⟩ | ⟨rows, commands, heq, hrow, hmem⟩
  · rw [heq]
    exact ⟨.idle rfl, fun _ => .same rfl rfl⟩
  rw [heq]
  dsimp only
  obtain ⟨port, hframe⟩ := refuseUnsupported_frame lib
    { self with rows, commands, trace := self.trace ++ [.marked cmdId] } send.modemImei .smsSend
  generalize refuseUnsupported lib
    { self with rows, commands, trace := self.trace ++ [.marked cmdId] } send.modemImei .smsSend
    = r at hframe ⊢
  obtain ⟨verdict, checked⟩ := r
  obtain rfl := hframe
  have hmarked : Arm lib cmdId staging self
      { self with rows, commands, port, trace := self.trace ++ [.marked cmdId] } :=
    marked_arm lib hrow hmem rfl none rfl
  match verdict with
  | .error halt => exact hmarked
  | .ok (some refusal) => exact hmarked
  | .ok none =>
    obtain ⟨port', hframe⟩ := perform_frame
      { self with rows, commands, port, trace := self.trace ++ [.marked cmdId] } cmdId
      (.sendSms send)
    dsimp only
    rw [hframe]
    exact marked_arm lib hrow hmem rfl (some (.sendSms send)) (by simp)

/-- Installing a matrix touches neither the journal nor a port action. -/
theorem updateMatrix_arm (cmdId matrixVersion matrixSha256 : String) (matrix : V)
    (now attempts : Int) :
    Arm lib cmdId staging self
      (self.updateMatrix lib cmdId matrixVersion matrixSha256 matrix now attempts).2 := by
  have hidle : ∀ port matrix, Arm lib cmdId staging self { self with port, matrix } :=
    fun _ _ => ⟨.idle rfl, fun _ => .same rfl rfl⟩
  unfold updateMatrix
  split
  · exact hidle _ _
  · dsimp only
    split
    · exact hidle _ _
    · split <;> exact hidle _ _

variable [UpdatePort U J]

section
variable {self : CommandExecutor P U J V M} (h : self.Recorded lib payload.cmdId)
include h

theorem execute_arm (now attempts : Int) :
    Arm lib payload.cmdId (stageRequest payload ≠ none) self
      (self.execute lib payload now attempts).2 := by
  unfold execute
  split
  case h_1 => exact relaySms_arm lib h _
  case h_3 => exact updateMatrix_arm lib self _ _ _ _ _ _
  case h_4 heq =>
    refine ⟨.idle (stageUpdate_ledger lib self _ _ _ _), fun hquiet => absurd ?_ hquiet⟩
    simp [stageRequest, heq]
  all_goals exact relay_arm lib h _

theorem attempt_arm (now : Int) :
    Arm lib payload.cmdId (now < payload.expiresAt ∧ stageRequest payload ≠ none) self
      (self.attempt lib payload now).2 := by
  unfold attempt
  split
  · exact ⟨.idle rfl, fun _ => .same rfl rfl⟩
  next hlive =>
    have harm := execute_arm lib h now (payload.attempt.getD 1)
    exact ⟨harm.work, fun hquiet => harm.quiet fun hstages => hquiet ⟨Int.not_le.mp hlive, hstages⟩⟩

end

/-! ## Deliveries -/

/-- What a delivery does: ledger steps of its own command, no update unless
it is `staging` one, and a result only as the command's terminal. -/
structure Moved (cmdId : String) (staging : Prop) (before : CommandExecutor P U J V M)
    (call : Except (Halt CommandError) (DeliveryOutcome V) × CommandExecutor P U J V M) :
    Prop where
  steps : Steps lib cmdId before call.2
  quiet : ¬staging → Quiet before call.2
  terminal : ∀ outcome, call.1 = .ok outcome →
    (call.2.ledger lib).mem cmdId = some (.terminal outcome.result)

variable {self} in
theorem conclude_moved (h : self.Recorded lib payload.cmdId) (receipt : CommandReceiptPayload)
    (now : Int) :
    Moved lib payload.cmdId (now < payload.expiresAt ∧ stageRequest payload ≠ none) self
      (self.conclude lib payload receipt now) := by
  have harm := attempt_arm lib h now
  unfold conclude
  generalize self.attempt lib payload now = r at harm ⊢
  obtain ⟨outcome, after⟩ := r
  have hfirst : Steps lib payload.cmdId self after := .single (.work h harm.work)
  cases outcome with
  | error halt => exact ⟨hfirst, harm.quiet, by simp⟩
  | ok executed =>
    dsimp only
    rcases storeTerminal_cases lib after (harm.work.still_open h) executed.result with
      ⟨halt, fates, uplink, -, heq⟩ | ⟨sequence, rows, uplink, commands, heq, hfinished⟩
    · rw [heq]
      exact ⟨hfirst, fun hquiet => (harm.quiet hquiet).trans (.same rfl rfl), by simp⟩
    · rw [heq]
      refine ⟨hfirst.trans hfinished.steps,
        fun hquiet => (harm.quiet hquiet).trans (.same rfl rfl), fun outcome h => ?_⟩
      cases h
      exact hfinished.terminal

omit [SendPort P J C] [UpdatePort U J] in
theorem finishUnknown_moved {staging : Prop} {deliveryId : String} {now : Int}
    (h : (self.ledger lib).mem payload.cmdId = some .executing) :
    Moved lib payload.cmdId staging self (self.finishUnknown lib payload deliveryId now) := by
  unfold finishUnknown
  dsimp only
  rcases storeTerminal_cases lib self (.inr h) _ with
    ⟨halt, fates, uplink, -, heq⟩ | ⟨sequence, rows, uplink, commands, heq, hfinished⟩
  · rw [heq]
    exact ⟨.refl, fun _ => .same rfl rfl, by simp⟩
  · rw [heq]
    refine ⟨hfinished.steps, fun _ => .same rfl rfl, fun outcome h => ?_⟩
    cases h
    exact hfinished.terminal

/-- A command that is new or recorded: recorded, run, stored. -/
theorem run_moved
    (hphase : ∀ stored, self.commands[payload.cmdId]? = some stored → stored.phase = .recorded)
    (receipt : CommandReceiptPayload) (now : Int) :
    Moved lib payload.cmdId (now < payload.expiresAt ∧ stageRequest payload ≠ none) self
      (self.run lib payload receipt now) := by
  unfold run
  rcases recordFirst_cases lib self hphase with
    ⟨halt, fates, -, heq⟩ | ⟨rows, commands, -, heq, hrecorded, hsteps⟩
  · rw [heq]
    exact ⟨.refl, fun _ => .same rfl rfl, by simp⟩
  · rw [heq]
    have hmoved := conclude_moved lib hrecorded receipt now
    have hquiet : Quiet self { self with rows, commands } := .same rfl rfl
    exact ⟨hsteps.trans hmoved.steps, fun hidle => hquiet.trans (hmoved.quiet hidle),
      hmoved.terminal⟩

inductive Delivered (worker : CommandExecutor P U J V M) (deliveryId : String)
    (payload : CommandDeliverPayload J V) (now : Int) :
    Except (Halt CommandError) (DeliveryOutcome V) × CommandExecutor P U J V M → Prop where
  | blank (error : CommandError)
      (hblank : trimIsEmpty deliveryId ∨ trimIsEmpty payload.cmdId) :
      Delivered worker deliveryId payload now (.error (.failed error), worker)
  | terminal (stored : StoredCommand V) (hcmd : trimIsEmpty payload.cmdId = false)
      (hstored : worker.commands[payload.cmdId]? = some stored)
      (hphase : stored.phase = .terminal) :
      Delivered worker deliveryId payload now
        ((worker.replay payload.cmdId deliveryId now).elim (.error (.failed .emptyCmdId)) .ok,
          worker)
  | unknown (stored : StoredCommand V) (hcmd : trimIsEmpty payload.cmdId = false)
      (hstored : worker.commands[payload.cmdId]? = some stored)
      (hphase : stored.phase = .executing) :
      Delivered worker deliveryId payload now (worker.finishUnknown lib payload deliveryId now)
  | run (status : String) (hdelivery : trimIsEmpty deliveryId = false)
      (hcmd : trimIsEmpty payload.cmdId = false)
      (hphase : ∀ stored, worker.commands[payload.cmdId]? = some stored →
        stored.phase = .recorded) :
      Delivered worker deliveryId payload now
        (worker.run lib payload (receipt payload.cmdId deliveryId status now) now)

theorem deliver_delivered (payload : CommandDeliverPayload J V) (now : Int) :
    Delivered lib self deliveryId payload now (self.deliver lib deliveryId payload now) := by
  unfold deliver
  split
  next hblank => exact .blank _ (.inl hblank)
  rename_i hdelivery
  split
  next hblank => exact .blank _ (.inr hblank)
  rename_i hcmd
  rw [Bool.not_eq_true] at hdelivery hcmd
  split
  next hphase =>
    obtain ⟨stored, hstored, hterminal⟩ := map_eq_some_iff.mp hphase
    have h : Delivered lib self deliveryId payload now _ :=
      .terminal stored hcmd hstored hterminal
    cases hreplay : self.replay payload.cmdId deliveryId now with
    | none | some =>
      rw [hreplay] at h
      exact h
  next hphase =>
    obtain ⟨stored, hstored, hexecuting⟩ := map_eq_some_iff.mp hphase
    exact .unknown stored hcmd hstored hexecuting
  next hphase =>
    obtain ⟨stored, hstored, hrecorded⟩ := map_eq_some_iff.mp hphase
    refine .run _ hdelivery hcmd fun other hother => ?_
    rw [hstored] at hother
    cases hother
    exact hrecorded
  next hphase =>
    refine .run _ hdelivery hcmd fun other hother => ?_
    rw [map_eq_none_iff.mp hphase] at hother
    cases hother

variable {self} in
omit [SendPort P J C] [UpdatePort U J] in
theorem replay_result {deliveryId : String} {now : Int} {stored : StoredCommand V}
    (hstored : self.commands[cmdId]? = some stored) (hphase : stored.phase = .terminal)
    {outcome : DeliveryOutcome V} (h : self.replay cmdId deliveryId now = some outcome) :
    (self.ledger lib).mem cmdId = some (.terminal outcome.result) := by
  show (self.commands[cmdId]?).map StoredCommand.cell = _
  unfold replay at h
  rw [hstored] at h ⊢
  obtain ⟨phase, result, sequence⟩ := stored
  have hphase : phase = .terminal := hphase
  subst hphase
  cases result with
  | none => cases h
  | some result =>
    cases sequence with
    | none => cases h
    | some sequence =>
      cases h
      rfl

theorem deliver_moved (payload : CommandDeliverPayload J V) (now : Int) :
    Moved lib payload.cmdId (self.Executes deliveryId payload now ∧ stageRequest payload ≠ none)
      self (self.deliver lib deliveryId payload now) := by
  have hdelivered := self.deliver_delivered lib deliveryId payload now
  generalize self.deliver lib deliveryId payload now = call at hdelivered ⊢
  cases hdelivered with
  | blank error hblank => exact ⟨.refl, fun _ => .same rfl rfl, by simp⟩
  | terminal stored hcmd hstored hphase =>
    refine ⟨.refl, fun _ => .same rfl rfl, fun outcome h => ?_⟩
    cases hreplay : self.replay payload.cmdId deliveryId now with
    | none =>
      rw [hreplay] at h
      cases h
    | some replayed =>
      rw [hreplay] at h
      cases h
      exact replay_result lib hstored hphase hreplay
  | unknown stored hcmd hstored hphase =>
    refine finishUnknown_moved lib self ?_
    obtain ⟨phase, result, sequence⟩ := stored
    subst hphase
    exact congrArg (Option.map StoredCommand.cell) hstored
  | run status hdelivery hcmd hphase =>
    have hmoved := run_moved lib self hphase (receipt payload.cmdId deliveryId status now) now
    exact ⟨hmoved.steps, fun hquiet => hmoved.quiet fun ⟨hlive, hstages⟩ =>
      hquiet ⟨⟨hdelivery, hcmd, hlive, hphase⟩, hstages⟩, hmoved.terminal⟩

omit [SendPort P J C] in
theorem confirmHandshake_ledger (handshakeOk : Bool) :
    (self.confirmHandshake handshakeOk).2.ledger lib = self.ledger lib := by
  have hnote : (self.trace ++ [AgentNote.confirmed handshakeOk]).filterMap AgentNote.deed
      = self.trace.filterMap AgentNote.deed := by
    rw [filterMap_append]
    exact append_nil _
  unfold confirmHandshake
  dsimp only
  split
  · exact ledger_congr lib rfl rfl hnote
  · split <;> exact ledger_congr lib rfl rfl hnote

end

/-! ## Restarts -/

variable (rows : List (RestoredCommand V)) (self : CommandExecutor P U J V M)

/-- What a row restores to, under the id of its command. -/
def restoredEntry (row : RestoredCommand V) : Option (String × StoredCommand V) :=
  (restoredCommand row).map (row.cmdId, ·)

/-- The loop inserts the entries of its rows and touches nothing else. -/
theorem restoreCommands_eq : (self.restoreCommands rows).2
    = { self with
      commands := (rows.filterMap restoredEntry).foldl
        (fun commands entry => commands.insert entry.1 entry.2) self.commands } := by
  induction rows generalizing self with
  | nil => rfl
  | cons row rest ih =>
    unfold restoreCommands
    split
    next hskipped =>
      rw [filterMap_cons_none (by rw [restoredEntry, hskipped]; rfl)]
      exact ih self
    next stored hstored =>
      rw [filterMap_cons_some (by rw [restoredEntry, hstored]; rfl)]
      exact ih _

variable (port : P) (updater : U) (matrix : M)

theorem commands_restart [UpdatePort U J] (k : String) :
    (self.restart lib port updater matrix).commands[k]?
      = (self.rows.db[k]?).bind fun row => restoredCommand (restoreRow lib k row) := by
  have hnodup : (((self.rows.db.toList.map fun entry => restoreRow lib entry.1 entry.2).filterMap
      restoredEntry).map Prod.fst).Nodup := by
    rw [filterMap_map, Nodup, pairwise_map, pairwise_filterMap]
    refine self.rows.db.distinct_keys_toList.imp fun {a b} hne x hx y hy heq => hne ?_
    obtain ⟨_, -, rfl⟩ := map_eq_some_iff.mp hx
    obtain ⟨_, -, rfl⟩ := map_eq_some_iff.mp hy
    exact Std.compare_eq_iff_eq.mpr heq
  refine Option.ext fun stored => ?_
  rw [restart, restoreCommands_eq, bind_eq_some_iff]
  refine (getElem?_foldl_insert Prod.fst Prod.snd _ ∅ hnodup (by simp) k stored).trans ?_
  constructor
  · rintro (hempty | ⟨_, hentry, rfl, rfl⟩)
    · cases ExtTreeMap.getElem?_empty.symm.trans hempty
    · obtain ⟨_, hmem, hentry⟩ := mem_filterMap.mp hentry
      obtain ⟨⟨id, row⟩, hrow, rfl⟩ := mem_map.mp hmem
      obtain ⟨stored, hstored, rfl⟩ := map_eq_some_iff.mp hentry
      exact ⟨row, ExtTreeMap.mem_toList_iff_getElem?_eq_some.mp hrow, hstored⟩
  · rintro ⟨row, hrow, hstored⟩
    refine .inr ⟨(k, stored), mem_filterMap.mpr ⟨restoreRow lib k row, mem_map.mpr ⟨(k, row),
      ExtTreeMap.mem_toList_iff_getElem?_eq_some.mpr hrow, rfl⟩, ?_⟩, rfl, rfl⟩
    rw [restoredEntry, hstored]
    rfl

/-- The rows and the history survive; everything else starts over. -/
theorem restart_frame [UpdatePort U J] :
    ∃ commands, self.restart lib port updater matrix
      = { (withJournal port updater ⟨self.rows.db, []⟩ matrix self.trace :
          CommandExecutor P U J V M) with commands } :=
  ⟨_, restoreCommands_eq _ _⟩

theorem ledger_restart [UpdatePort U J] :
    (self.restart lib port updater matrix).ledger lib = (self.ledger lib).reload := by
  obtain ⟨commands, hframe⟩ := self.restart_frame lib port updater matrix
  refine Ledger.ext ?_ ?_ ?_
  · rw [hframe]
    rfl
  · funext k
    show ((self.restart lib port updater matrix).commands[k]?).map StoredCommand.cell = _
    rw [commands_restart, map_bind]
    rfl
  · rw [hframe]
    rfl

end CommandExecutor

/-! ## Runs -/

namespace AgentHost

variable {P U J V M C : Type} (lib : AgentLib J V M C)

theorem executor_settle {E A : Type}
    (call : Except (Halt E) A × CommandExecutor P U J V M) : (settle call).executor = call.2 := by
  obtain ⟨outcome, after⟩ := call
  match outcome with
  | .error .crashed => rfl
  | .error (.failed _) => rfl
  | .ok _ => rfl

variable [SendPort P J C] [UpdatePort U J]

/-- One event is steps of one command, or a reload. -/
theorem step_ledger (host : AgentHost P U J V M) (event : AgentEvent P U J V M) :
    (∃ k, Ledger.Steps (∀ r, lib.readResult (lib.resultText r) = some r) k
        (host.executor.ledger lib) ((host.step lib event).executor.ledger lib))
      ∨ (host.step lib event).executor.ledger lib = (host.executor.ledger lib).reload := by
  cases event with
  | deliver fates deliveryId payload now =>
    refine .inl ⟨payload.cmdId, ?_⟩
    cases host with
    | up executor =>
      show Ledger.Steps _ _ _ ((settle _).executor.ledger lib)
      rw [executor_settle]
      exact ((executor.planned fates).deliver_moved lib deliveryId payload now).steps
    | down executor => exact .refl
  | confirmHandshake handshakeOk =>
    refine .inl ⟨"", ?_⟩
    cases host with
    | up executor =>
      show Ledger.Steps _ _ _ ((settle _).executor.ledger lib)
      rw [executor_settle, CommandExecutor.confirmHandshake_ledger]
      exact .refl
    | down executor => exact .refl
  | restart port updater matrix => exact .inr (host.executor.ledger_restart lib port updater matrix)

end AgentHost

end VodogeEdge
