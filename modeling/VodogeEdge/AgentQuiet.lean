import VodogeEdge.AgentExecutor

/-!
# Notes about updates

What the trace says about staged updates, and the calls that say nothing
about them: `Quiet` calls leave the guard alone and at most mark and call.
Every part of a delivery except the arm of `SelfUpdate` is quiet, and that
one only where it `Executes`.
-/

namespace VodogeEdge

open Std List

variable {P U J V M : Type}

def AgentNote.stages (cmdId : String) : AgentNote J → Bool
  | .staged id _ _ => id == cmdId
  | _ => false

def stagings (cmdId : String) (trace : List (AgentNote J)) : Nat :=
  trace.countP (AgentNote.stages cmdId)

def noteTarget (cmdId : String) (target : Option String) : AgentNote J → Option String
  | .staged id running true => if id = cmdId then target.or (some running) else target
  | .confirmed _ => none
  | _ => target

/-- The version that ran before the first staged update of the command,
until a handshake is confirmed. -/
def rollbackTarget (cmdId : String) (trace : List (AgentNote J)) : Option String :=
  trace.foldl (noteTarget cmdId) none

/-- At most one staging, and its rollback target is kept. -/
structure UpdateSafe (cmdId : String) (executor : CommandExecutor P U J V M) : Prop where
  once : stagings cmdId executor.trace ≤ 1
  target : ∀ version, rollbackTarget cmdId executor.trace = some version →
    executor.guard.previous = some version

def stageRequest (payload : CommandDeliverPayload J V) : Option SelfUpdateRequest :=
  match payload.command with
  | .selfUpdate version url sha256 signature => some ⟨version, url, sha256, signature⟩
  | _ => none

namespace CommandExecutor

structure Executes (worker : CommandExecutor P U J V M) (deliveryId : String)
    (payload : CommandDeliverPayload J V) (now : Int) : Prop where
  delivery : trimIsEmpty deliveryId = false
  cmd : trimIsEmpty payload.cmdId = false
  live : now < payload.expiresAt
  recorded : ∀ stored, worker.commands[payload.cmdId]? = some stored → stored.phase = .recorded

end CommandExecutor

/-! ## Calls that leave updates alone -/

def AgentNote.quiet : AgentNote J → Bool
  | .marked _ => true
  | .called _ _ => true
  | .staged _ _ _ => false
  | .confirmed _ => false

variable {notes : List (AgentNote J)} (cmdId : String)

theorem stagings_quiet (h : ∀ note ∈ notes, note.quiet)
    (trace : List (AgentNote J)) : stagings cmdId (trace ++ notes) = stagings cmdId trace := by
  have hnone : notes.countP (AgentNote.stages cmdId) = 0 := by
    rw [countP_eq_zero]
    intro note hnote
    have hquiet := h note hnote
    cases note with
    | marked | called => exact Bool.false_ne_true
    | staged | confirmed => cases hquiet
  unfold stagings
  rw [countP_append, hnone, add_zero]

theorem noteTarget_quiet (h : ∀ note ∈ notes, note.quiet)
    (target : Option String) : notes.foldl (noteTarget cmdId) target = target := by
  induction notes with
  | nil => rfl
  | cons note rest ih =>
    have hquiet := h note mem_cons_self
    have hrest : rest.foldl (noteTarget cmdId) target = target := by
      refine ih ?_
      intro other hother
      exact h other (mem_cons_of_mem _ hother)
    cases note with
    | marked | called => exact hrest
    | staged | confirmed => cases hquiet

/-- The call left the guard alone, and at most marked and called. -/
structure Quiet (before after : CommandExecutor P U J V M) : Prop where
  guard : after.guard = before.guard
  trace : ∃ notes, after.trace = before.trace ++ notes ∧ ∀ note ∈ notes, note.quiet

namespace Quiet

theorem same {before after : CommandExecutor P U J V M} (hguard : after.guard = before.guard)
    (htrace : after.trace = before.trace) : Quiet before after :=
  ⟨hguard, [], by rw [htrace, append_nil], nofun⟩

theorem trans {before mid after : CommandExecutor P U J V M} (h : Quiet before mid)
    (h' : Quiet mid after) : Quiet before after := by
  obtain ⟨notes, htrace, hnotes⟩ := h.trace
  obtain ⟨notes', htrace', hnotes'⟩ := h'.trace
  refine ⟨h'.guard.trans h.guard, notes ++ notes', ?_, fun note hnote => ?_⟩
  · rw [htrace', htrace, append_assoc]
  · rcases mem_append.mp hnote with hnote | hnote
    · exact hnotes note hnote
    · exact hnotes' note hnote

end Quiet

end VodogeEdge
