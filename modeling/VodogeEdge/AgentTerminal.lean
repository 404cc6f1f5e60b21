import Mathlib.Logic.Encodable.Basic
import Mathlib.Logic.Equiv.List
import VodogeEdge.AgentLedger

/-!
# Terminal results are stable

Once a delivery of a command returned, its result is in memory and in the
journal (`deliver_terminal`). As long as stored results read back as what
they were, storage has every terminal that memory has, and
`Ledger.Final` carries the result through every later delivery, crash and
restart. A later delivery of the command finds it and hands it out as a
duplicate (`deliver_final`).
-/

namespace VodogeEdge

open Std

variable {P U J V M C : Type} (lib : AgentLib J V M C) {result : CommandResultPayload V}

namespace CommandExecutor

section
variable [SendPort P J C] [UpdatePort U J]

variable {payload : CommandDeliverPayload J V} {deliveryId : String}

/-- Whatever way a delivery returned, its result is the command's
terminal. -/
theorem deliver_terminal {self : CommandExecutor P U J V M} {now : Int}
    {outcome : DeliveryOutcome V} (h : (self.deliver lib deliveryId payload now).1 = .ok outcome) :
    trimIsEmpty payload.cmdId = false
      ∧ ((self.deliver lib deliveryId payload now).2.ledger lib).mem payload.cmdId
        = some (.terminal outcome.result) := by
  refine ⟨?_, (self.deliver_moved lib deliveryId payload now).terminal outcome h⟩
  cases hcmd : trimIsEmpty payload.cmdId with
  | false => rfl
  | true =>
    unfold deliver at h
    split at h <;> cases h

/-! ## A delivery of a terminal command -/

/-- A terminal command is answered from memory, whatever is delivered. -/
theorem deliver_final (self : CommandExecutor P U J V M)
    (hdelivery : trimIsEmpty deliveryId = false) (hcmd : trimIsEmpty payload.cmdId = false)
    (h : (self.ledger lib).mem payload.cmdId = some (.terminal result)) (now : Int) :
    ∃ sequence, self.deliver lib deliveryId payload now
      = (.ok ⟨receipt payload.cmdId deliveryId receiptDuplicate now, result, sequence, false,
          none⟩, self) := by
  have hcell : (self.commands[payload.cmdId]?).map StoredCommand.cell = some (.terminal result) := h
  obtain ⟨stored, hstored, hterminal⟩ := Option.map_eq_some_iff.mp hcell
  have hshape : ∃ sequence, stored = ⟨.terminal, some result, some sequence⟩ := by
    obtain ⟨phase, stored, sequence⟩ := stored
    cases phase with
    | recorded | executing => cases hterminal
    | terminal =>
      cases stored with
      | none => cases hterminal
      | some stored =>
        cases sequence with
        | none => cases hterminal
        | some sequence =>
          cases hterminal
          exact ⟨sequence, rfl⟩
  obtain ⟨sequence, rfl⟩ := hshape
  refine ⟨sequence, ?_⟩
  unfold deliver replay
  rw [hdelivery, hcmd, hstored]
  rfl

end

end CommandExecutor

/-! ## Runs -/

namespace AgentHost

section
variable [SendPort P J C] [UpdatePort U J]
variable {lib} (hread : ∀ r, lib.readResult (lib.resultText r) = some r)

include hread

variable (host : AgentHost P U J V M) (event : AgentEvent P U J V M)

/-- With readable results one event is steps that store what memory
gets, or a reload. -/
theorem step_readable :
    (∃ k, Ledger.Steps True k (host.executor.ledger lib)
        ((host.step lib event).executor.ledger lib))
      ∨ (host.step lib event).executor.ledger lib = (host.executor.ledger lib).reload := by
  rcases host.step_ledger lib event with ⟨k, hsteps⟩ | hreload
  · refine .inl ⟨k, Relation.ReflTransGen.mono (fun _ _ hstep => ?_) _ _ hsteps⟩
    exact hstep.mono fun _ => hread
  · exact .inr hreload

theorem step_agrees (h : (host.executor.ledger lib).Agrees) :
    ((host.step lib event).executor.ledger lib).Agrees := by
  rcases host.step_readable hread event with ⟨k, hsteps⟩ | hreload
  · exact h.steps hsteps
  · rw [hreload]
    exact Ledger.Agrees.reload

theorem step_final {cmdId : String} (h : (host.executor.ledger lib).Final cmdId result) :
    ((host.step lib event).executor.ledger lib).Final cmdId result := by
  rcases host.step_readable hread event with ⟨k, hsteps⟩ | hreload
  · exact h.steps hsteps
  · rw [hreload]
    exact h.reload

/-- After a delivery returned, every later one of that command returns
the same result, as a duplicate, and changes nothing. -/
theorem terminal_result_stable (port : P) (updater : U) (matrix : M)
    (before between : List (AgentEvent P U J V M)) {executor later : CommandExecutor P U J V M}
    (fates : List Fate) (deliveryId : String) (payload : CommandDeliverPayload J V) (now : Int)
    {outcome : DeliveryOutcome V}
    (hup : runFrom (step lib) (fresh port updater matrix) before = .up executor)
    (hok : ((executor.planned fates).deliver lib deliveryId payload now).1 = .ok outcome)
    (hlater : runFrom (step lib) (fresh port updater matrix)
      (before ++ .deliver fates deliveryId payload now :: between) = .up later)
    (fates' : List Fate) (deliveryId' : String) (payload' : CommandDeliverPayload J V) (now' : Int)
    (hdelivery : trimIsEmpty deliveryId' = false) (hcmd : payload'.cmdId = payload.cmdId) :
    ∃ sequence, (later.planned fates').deliver lib deliveryId' payload' now'
      = (.ok ⟨receipt payload.cmdId deliveryId' receiptDuplicate now', outcome.result, sequence,
          false, none⟩, later.planned fates') := by
  obtain ⟨hblank, hterminal⟩ := CommandExecutor.deliver_terminal lib hok
  -- the state right after the first delivery
  have hagrees : ∀ events,
      ((runFrom (step lib) (fresh port updater matrix) events).executor.ledger lib).Agrees :=
    fun events => runFrom_invariant
      (I := fun host : AgentHost P U J V M => (host.executor.ledger lib).Agrees)
      (fun host event => host.step_agrees hread event) events (fun _ _ hmem => by cases hmem)
  have hafter : ((runFrom (step lib) (fresh port updater matrix)
      (before ++ [.deliver fates deliveryId payload now])).executor.ledger lib).Final
        payload.cmdId outcome.result := by
    refine ⟨hagrees _, ?_⟩
    rw [runFrom_snoc, hup]
    show ((settle _).executor.ledger lib).mem _ = _
    rwa [executor_settle]
  -- nothing later changes it
  have hfinal : (later.ledger lib).Final payload.cmdId outcome.result := by
    have hrun := runFrom_invariant
      (I := fun host : AgentHost P U J V M =>
        (host.executor.ledger lib).Final payload.cmdId outcome.result)
      (fun host event => host.step_final hread event) between hafter
    rwa [← runFrom_append, List.append_assoc, List.singleton_append, hlater] at hrun
  rw [← hcmd] at hblank hfinal ⊢
  exact CommandExecutor.deliver_final lib (later.planned fates') hdelivery hblank hfinal.2 now'

end

/-! ## A run with a restart -/

instance charCodes : Encodable Char :=
  Encodable.ofLeftInjection Char.toNat (fun n => some (Char.ofNat n)) (fun c => by simp)

instance stringCodes : Encodable String :=
  Encodable.ofLeftInjection String.toList (fun cs => some (String.ofList cs)) (fun s => by simp)

instance resultCodes : Encodable (CommandResultPayload Unit) :=
  Encodable.ofLeftInjection
    (fun r => (r.cmdId, r.status, r.completedAt, r.attempts, r.reasonCode, r.reason, r.details))
    (fun (cmdId, status, completedAt, attempts, reasonCode, reason, details) =>
      some ⟨cmdId, status, completedAt, attempts, reasonCode, reason, details⟩)
    (fun _ => rfl)

/-- Results are stored as tallies: one stroke for each number below
theirs. -/
def tallyLib : AgentLib Unit Unit Unit Unit :=
  { plainLib with
    resultText := fun result => String.ofList (List.replicate (resultCodes.encode result) '|')
    readResult := fun text => resultCodes.decode text.length }

theorem tallyLib_reads (r : CommandResultPayload Unit) :
    tallyLib.readResult (tallyLib.resultText r) = some r := by
  show resultCodes.decode (String.ofList _).length = some r
  rw [String.length_ofList, List.length_replicate]
  exact resultCodes.encodek r

def restartCommand (expiresAt : Int) : CommandDeliverPayload Unit Unit :=
  ⟨"c-1", 0, expiresAt, none, .restartModem "imei"⟩

/-- Executed, restarted, delivered again after it expired: the result is
the first one. -/
theorem restarted_agent_repeats_result :
    ∃ later sequence,
      runFrom (step tallyLib) (fresh SilentPort.mk (ReadyUpdater.mk "1.0.0") ())
          [.deliver [] "d-1" (restartCommand 1000) 1, .restart .mk ⟨"1.0.0"⟩ ()] = .up later
        ∧ (later.planned []).deliver tallyLib "d-2" (restartCommand 1000) 5000
          = (.ok ⟨receipt "c-1" "d-2" receiptDuplicate 5000,
              terminalResult "c-1" resultSucceeded 1 1 none none, sequence, false, none⟩,
            later.planned []) := by
  have hstable := terminal_result_stable tallyLib_reads SilentPort.mk (ReadyUpdater.mk "1.0.0") ()
    [] [.restart .mk ⟨"1.0.0"⟩ ()] [] "d-1" (restartCommand 1000) 1 rfl rfl rfl
    [] "d-2" (restartCommand 1000) 5000 (by decide) rfl
  obtain ⟨sequence, hsequence⟩ := hstable
  exact ⟨_, sequence, rfl, hsequence⟩

end AgentHost

end VodogeEdge
