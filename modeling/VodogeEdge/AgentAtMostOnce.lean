import VodogeEdge.AgentLedger

/-!
# Port actions run at most once

Over every run of an agent (deliveries in any order and as often as
liked, refused journal writes, crashes at any write or inside a port
call, restarts from the journal) a `cmd_id` has at most one port call,
and that call comes after its `executing` row was written.

The run invariant is `Ledger.Sound` of the executor's ledger; the rest of
the module reads it back in terms of the trace and the journal rows.
-/

namespace VodogeEdge

open CommandExecutor

variable {P U J V M C : Type} (lib : AgentLib J V M C) {cmdId : String}

def portCalls (cmdId : String) : List (AgentNote J) → List (PortAction J)
  | [] => []
  | .called id action :: rest =>
    if id = cmdId then action :: portCalls cmdId rest else portCalls cmdId rest
  | .marked _ :: rest => portCalls cmdId rest
  | .staged _ _ _ :: rest => portCalls cmdId rest
  | .confirmed _ :: rest => portCalls cmdId rest

def MarkedFirst (cmdId : String) (trace : List (AgentNote J)) : Prop :=
  ∀ before action after, trace = before ++ .called cmdId action :: after →
    AgentNote.marked cmdId ∈ before

def RowStarted (cmdId : String) (db : JournalDb) : Prop :=
  ∃ row, db[cmdId]? = some row ∧ (row.phase = "executing" ∨ row.phase = "terminal")

/-! ## Reading the ledger back -/

theorem portCalls_eq_actions (cmdId : String) (trace : List (AgentNote J)) :
    portCalls cmdId trace = Ledger.actions cmdId (trace.filterMap AgentNote.deed) := by
  induction trace with
  | nil => rfl
  | cons note rest ih =>
    cases note with
    | marked id => exact ih
    | called id action => simp [portCalls, AgentNote.deed, Ledger.actions, ih]
    | staged | confirmed => exact ih

theorem deed_eq_marked {note : AgentNote J}
    (h : note.deed = some (.marked cmdId)) : note = .marked cmdId := by
  cases note with
  | marked id =>
    cases h
    rfl
  | called | staged | confirmed => cases h

theorem rowStarted_of_settled {db : JournalDb}
    (h : Cell.Settled ((db[cmdId]?).bind (rowCell lib cmdId))) : RowStarted cmdId db := by
  have hcell : ∃ cell, (db[cmdId]?).bind (rowCell lib cmdId) = some cell
      ∧ cell ≠ .recorded := by
    rcases h with h | ⟨result, h⟩ <;> exact ⟨_, h, nofun⟩
  obtain ⟨cell, hbind, hne⟩ := hcell
  obtain ⟨⟨phase, result, sequence⟩, hrow, hrestored⟩ := Option.bind_eq_some_iff.mp hbind
  refine ⟨_, hrow, ?_⟩
  obtain ⟨stored, hstored, rfl⟩ := Option.map_eq_some_iff.mp hrestored
  unfold restoredCommand restoreRow at hstored
  dsimp only at hstored ⊢
  split at hstored
  · cases hstored
    exact absurd rfl hne
  · exact .inl rfl
  · exact .inr rfl
  · cases hstored

/-! ## Runs -/

section
variable [SendPort P J C] [UpdatePort U J]

theorem AgentHost.step_sound (host : AgentHost P U J V M) (event : AgentEvent P U J V M)
    (h : (host.executor.ledger lib).Sound) : ((host.step lib event).executor.ledger lib).Sound := by
  rcases host.step_ledger lib event with ⟨k, hsteps⟩ | hreload
  · exact h.steps hsteps
  · rw [hreload]
    exact h.reload

omit [SendPort P J C] in
theorem AgentHost.fresh_sound (port : P) (updater : U) (matrix : M) :
    ((fresh port updater matrix : AgentHost P U J V M).executor.ledger lib).Sound where
  started ha := by cases ha
  once _ := Nat.zero_le 1
  marked_before {before after k a} heq := by
    have hnil : ([] : List (Deed String (PortAction J))) = before ++ .acted k a :: after := heq
    cases before with
    | nil | cons => cases hnil

theorem AgentHost.run_sound (port : P) (updater : U) (matrix : M)
    (events : List (AgentEvent P U J V M)) :
    ((runFrom (step lib) (fresh port updater matrix) events).executor.ledger lib).Sound :=
  runFrom_invariant (I := fun host : AgentHost P U J V M => (host.executor.ledger lib).Sound)
    (fun host event => host.step_sound lib event) events (fresh_sound lib port updater matrix)

/-- At most one port call per command over a whole run; before it comes
the mark, and after it the journal has the row. -/
theorem AgentHost.port_action_at_most_once (port : P) (updater : U) (matrix : M)
    (events : List (AgentEvent P U J V M)) (cmdId : String) :
    let final := (runFrom (step lib) (fresh port updater matrix) events).executor
    (portCalls cmdId final.trace).length ≤ 1
      ∧ MarkedFirst cmdId final.trace
      ∧ (portCalls cmdId final.trace = [] ∨ RowStarted cmdId final.rows.db) := by
  intro final
  have hsound : (final.ledger lib).Sound := run_sound lib port updater matrix events
  refine ⟨?_, ?_, ?_⟩
  · rw [portCalls_eq_actions]
    exact hsound.once cmdId
  · intro before action after htrace
    have hdeeds : (final.ledger lib).deeds = before.filterMap AgentNote.deed
        ++ .acted cmdId action :: after.filterMap AgentNote.deed := by
      show final.trace.filterMap AgentNote.deed = _
      rw [htrace, List.filterMap_append]
      rfl
    obtain ⟨note, hnote, hdeed⟩ := List.mem_filterMap.mp (hsound.marked_before hdeeds)
    exact deed_eq_marked hdeed ▸ hnote
  · by_cases hacted : ∃ action, Deed.acted cmdId action ∈ (final.ledger lib).deeds
    · obtain ⟨action, hacted⟩ := hacted
      exact .inr (rowStarted_of_settled lib (hsound.started hacted).1)
    · left
      rw [portCalls_eq_actions]
      exact Ledger.actions_eq_nil fun action h => hacted ⟨action, h⟩

end

end VodogeEdge
