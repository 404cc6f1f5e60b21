import VodogeEdge.AgentQuiet
import VodogeEdge.Ledger

/-!
# The command journal as a ledger

`CommandExecutor.ledger` reads an executor as a `Ledger`: a journal row
counts as what `restore_commands` would make of it, a command in memory
as its phase, and the deeds are the marks and port calls of the trace.

Each of the three writes of a command (recorded, executing, terminal) is
the ledger step of that name, or leaves the ledger alone; the `_cases` lemma
of each says what exactly it leaves.
-/

namespace VodogeEdge

open Std Function

def StoredCommand.cell {V : Type} : StoredCommand V → Cell (CommandResultPayload V)
  | ⟨.recorded, _, _⟩ => .recorded
  | ⟨.executing, _, _⟩ => .executing
  | ⟨.terminal, some result, some _⟩ => .terminal result
  | ⟨.terminal, _, _⟩ => .executing

def AgentNote.deed {J : Type} : AgentNote J → Option (Deed String (PortAction J))
  | .marked cmdId => some (.marked cmdId)
  | .called cmdId action => some (.acted cmdId action)
  | .staged _ _ _ => none
  | .confirmed _ => none

/-! ## Journal rows -/

theorem JournalDb.getElem?_recordCommandPhase (db : JournalDb) (cmdId phase : String)
    (result : Option String) (resultSequence : Option Int) (k : String) :
    (db.recordCommandPhase cmdId phase result resultSequence)[k]?
      = if cmdId = k then
          some ⟨phase, result.or ((db[cmdId]?).bind JournalRow.result),
            resultSequence.or ((db[cmdId]?).bind JournalRow.resultSequence)⟩
        else db[k]? := by
  unfold JournalDb.recordCommandPhase
  cases hrow : db[cmdId]? with
  | none =>
    rw [ExtTreeMap.getElem?_insert]
    simp
  | some row =>
    rw [ExtTreeMap.getElem?_insert]
    simp

namespace CommandExecutor

variable {P U J V M C : Type} (lib : AgentLib J V M C)

def rowCell (cmdId : String) (row : JournalRow) : Option (Cell (CommandResultPayload V)) :=
  (restoredCommand (restoreRow lib cmdId row)).map StoredCommand.cell

def ledger (self : CommandExecutor P U J V M) :
    Ledger String (PortAction J) (CommandResultPayload V) where
  row k := (self.rows.db[k]?).bind (rowCell lib k)
  mem k := (self.commands[k]?).map StoredCommand.cell
  deeds := self.trace.filterMap AgentNote.deed

variable {self : CommandExecutor P U J V M}

theorem ledger_congr {other : CommandExecutor P U J V M} (hdb : other.rows.db = self.rows.db)
    (hcommands : other.commands = self.commands)
    (hdeeds : other.trace.filterMap AgentNote.deed = self.trace.filterMap AgentNote.deed) :
    other.ledger lib = self.ledger lib := by
  unfold ledger
  rw [hdb, hcommands, hdeeds]

theorem rowCell_terminal (cmdId : String) (result : CommandResultPayload V) (sequence : Int) :
    ∃ stored, rowCell lib cmdId ⟨"terminal", some (lib.resultText result), some sequence⟩
        = some stored
      ∧ Cell.Settled (some stored)
      ∧ (lib.readResult (lib.resultText result) = some result → stored = .terminal result) := by
  cases hread : lib.readResult (lib.resultText result) with
  | none =>
    refine ⟨.executing, ?_, .inl rfl, fun h => by cases h⟩
    simp [rowCell, restoreRow, restoredCommand, hread, StoredCommand.cell]
  | some readBack =>
    refine ⟨.terminal readBack, ?_, .inr ⟨_, rfl⟩, fun h => by cases h; rfl⟩
    simp [rowCell, restoreRow, restoredCommand, hread, StoredCommand.cell]

theorem ledger_row_recorded (db : JournalDb) (cmdId phase : String) (result : Option String)
    (resultSequence : Option Int) {cell : Cell (CommandResultPayload V)}
    (hcell : rowCell lib cmdId ⟨phase, result.or ((db[cmdId]?).bind JournalRow.result),
      resultSequence.or ((db[cmdId]?).bind JournalRow.resultSequence)⟩ = some cell) :
    (fun k => ((db.recordCommandPhase cmdId phase result resultSequence)[k]?).bind (rowCell lib k))
      = update (fun k => (db[k]?).bind (rowCell lib k)) cmdId (some cell) := by
  funext k
  rw [JournalDb.getElem?_recordCommandPhase]
  by_cases hk : cmdId = k
  · subst hk
    rwa [if_pos rfl, update_self]
  · rw [if_neg hk, update_of_ne (Ne.symm hk)]

theorem ledger_mem_insert (commands : ExtTreeMap String (StoredCommand V)) (cmdId : String)
    (stored : StoredCommand V) :
    (fun k => ((commands.insert cmdId stored)[k]?).map StoredCommand.cell)
      = update (fun k => (commands[k]?).map StoredCommand.cell) cmdId (some stored.cell) := by
  funext k
  rw [ExtTreeMap.getElem?_insert]
  by_cases hk : cmdId = k
  · subst hk
    rw [if_pos ReflOrd.compare_self, update_self]
    rfl
  · rw [if_neg (mt Std.compare_eq_iff_eq.mp hk), update_of_ne (Ne.symm hk)]

/-- Every write of the call goes through. -/
def Commits (self : CommandExecutor P U J V M) : Prop := ∀ fate ∈ self.rows.fates, fate = .commit

theorem journal_cases (self : CommandExecutor P U J V M) (cmdId phase : String)
    (result : Option (CommandResultPayload V)) (resultSequence : Option Nat) :
    (∃ fates, (self.Commits → ∀ fate ∈ fates, fate = Fate.commit)
        ∧ self.journal lib cmdId phase result resultSequence
          = (.ok (), { self with rows := ⟨self.rows.db.recordCommandPhase cmdId phase
              (result.map lib.resultText) (resultSequence.map asI64), fates⟩ }))
      ∨ ∃ halt fates, ¬self.Commits ∧ self.journal lib cmdId phase result resultSequence
        = (.error halt, { self with rows := ⟨self.rows.db, fates⟩ }) := by
  unfold journal
  by_cases hcommits : self.Commits
  · obtain ⟨fates, hfates, heq⟩ := Disk.execute_always_committed journalRefusal hcommits
      (JournalDb.recordCommandPhase cmdId phase (result.map lib.resultText)
        (resultSequence.map asI64))
    rw [heq]
    exact .inl ⟨fates, fun _ => hfates, rfl⟩
  rcases self.rows.execute_cases journalRefusal (Disk.always _ (JournalDb.recordCommandPhase cmdId
      phase (result.map lib.resultText) (resultSequence.map asI64))) with
    ⟨db, fates, hstmt, heq⟩ | ⟨halt, fates, heq⟩
  · cases hstmt
    rw [heq]
    exact .inl ⟨fates, fun h => absurd h hcommits, rfl⟩
  · rw [heq]
    exact .inr ⟨halt.map .journal, fates, hcommits, rfl⟩

/-! ## Recording, marking, storing -/

def Recorded (self : CommandExecutor P U J V M) (cmdId : String) : Prop :=
  (self.ledger lib).mem cmdId = some .recorded

variable {cmdId : String}

theorem Recorded.exists (h : self.Recorded lib cmdId) :
    ∃ result sequence, self.commands[cmdId]? = some ⟨.recorded, result, sequence⟩ := by
  obtain ⟨stored, hstored, hcell⟩ := Option.map_eq_some_iff.mp h
  obtain ⟨phase, result, sequence⟩ := stored
  cases phase with
  | recorded => exact ⟨result, sequence, hstored⟩
  | executing => cases hcell
  | terminal =>
    cases result with
    | none => cases hcell
    | some result =>
      cases sequence with
      | none | some => cases hcell

theorem mem_of_recorded
    (hphase : ∀ stored, self.commands[cmdId]? = some stored → stored.phase = .recorded) :
    (self.ledger lib).mem cmdId = none ∨ (self.ledger lib).mem cmdId = some .recorded := by
  show (self.commands[cmdId]?).map StoredCommand.cell = none
    ∨ (self.commands[cmdId]?).map StoredCommand.cell = some .recorded
  cases hstored : self.commands[cmdId]? with
  | none => exact .inl rfl
  | some stored =>
    obtain ⟨phase, result, sequence⟩ := stored
    have hrecorded : phase = .recorded := hphase _ hstored
    subst hrecorded
    exact .inr rfl

abbrev Steps (cmdId : String) (before after : CommandExecutor P U J V M) : Prop :=
  Ledger.Steps (∀ r, lib.readResult (lib.resultText r) = some r) cmdId (before.ledger lib)
    (after.ledger lib)

/-- Marking writes the row, then the memory, then the note; or it
changes nothing that shows. -/
theorem markExecuting_cases (h : self.Recorded lib cmdId) :
    (∃ halt fates, self.markExecuting lib cmdId
        = (.error halt, { self with rows := ⟨self.rows.db, fates⟩ }))
      ∨ ∃ rows commands, self.markExecuting lib cmdId
          = (.ok (), { self with rows, commands, trace := self.trace ++ [.marked cmdId] })
        ∧ (ledger lib { self with rows, commands }).row
          = update (self.ledger lib).row cmdId (some .executing)
        ∧ (ledger lib { self with rows, commands }).mem
          = update (self.ledger lib).mem cmdId (some .executing) := by
  obtain ⟨result, sequence, hstored⟩ := h.exists
  unfold markExecuting
  rcases self.journal_cases lib cmdId "executing" none none with
    ⟨fates, -, heq⟩ | ⟨halt, fates, -, heq⟩
  · rw [heq]
    dsimp only
    rw [hstored]
    exact .inr ⟨_, _, rfl, ledger_row_recorded lib self.rows.db cmdId "executing" none none rfl,
      ledger_mem_insert self.commands cmdId ⟨.executing, result, sequence⟩⟩
  · rw [heq]
    exact .inl ⟨halt, fates, rfl⟩

/-- What a stored terminal leaves. -/
structure Finished (cmdId : String) (result : CommandResultPayload V)
    (before after : CommandExecutor P U J V M) : Prop where
  steps : Steps lib cmdId before after
  terminal : (after.ledger lib).mem cmdId = some (.terminal result)
  started : (after.ledger lib).Started cmdId

theorem settle_cases (self : CommandExecutor P U J V M)
    (hopen : (self.ledger lib).mem cmdId = some .recorded
      ∨ (self.ledger lib).mem cmdId = some .executing)
    (result : CommandResultPayload V) (sequence : Nat) :
    (∃ halt fates, ¬self.Commits ∧ self.settle lib cmdId result sequence
        = (.error halt, { self with rows := ⟨self.rows.db, fates⟩ }))
      ∨ ∃ rows commands,
        self.settle lib cmdId result sequence = (.ok sequence, { self with rows, commands })
        ∧ Finished lib cmdId result self { self with rows, commands } := by
  obtain ⟨stored, hstored⟩ : ∃ stored, self.commands[cmdId]? = some stored := by
    rcases hopen with h | h <;> exact (Option.map_eq_some_iff.mp h).imp fun _ => And.left
  unfold settle
  rcases self.journal_cases lib cmdId "terminal" (some result) (some sequence) with
    ⟨fates, -, heq⟩ | ⟨halt, fates, hfails, heq⟩
  · rw [heq]
    dsimp only
    rw [hstored]
    obtain ⟨cell, hcell, hsettled, hread⟩ := rowCell_terminal lib cmdId result (asI64 sequence)
    have hrow := ledger_row_recorded lib self.rows.db cmdId "terminal" (some _) (some _) hcell
    have hmem := ledger_mem_insert self.commands cmdId ⟨.terminal, some result, some sequence⟩
    have hterminal := (congrFun hmem cmdId).trans (update_self _ _ _)
    refine .inr ⟨_, _, rfl,
      .single (.finish result cell hopen hsettled (fun h => hread (h result)) hrow hmem rfl),
      hterminal, ?_, .inr ⟨result, hterminal⟩⟩
    exact (congrArg Cell.Settled ((congrFun hrow cmdId).trans (update_self _ _ _))).mpr hsettled
  · rw [heq]
    exact .inl ⟨halt, fates, hfails, rfl⟩

/-- A result is sequenced in memory and then stored. That fails only with a
write, at a blank id, or when the sequences are used up. -/
theorem storeTerminal_cases (self : CommandExecutor P U J V M)
    (hopen : (self.ledger lib).mem cmdId = some .recorded
      ∨ (self.ledger lib).mem cmdId = some .executing) (result : CommandResultPayload V) :
    (∃ halt fates uplink, ¬(self.Commits ∧ trimIsEmpty cmdId = false
          ∧ self.uplink.lastAllocated < u64Max)
        ∧ self.storeTerminal lib cmdId result
          = (.error halt, { self with rows := ⟨self.rows.db, fates⟩, uplink }))
      ∨ ∃ sequence rows uplink commands, self.storeTerminal lib cmdId result
          = (.ok sequence, { self with rows, uplink, commands })
        ∧ Finished lib cmdId result self { self with rows, uplink, commands } := by
  unfold storeTerminal
  split
  next e hid =>
    refine .inl ⟨_, self.rows.fates, self.uplink, fun ⟨_, hcmd, _⟩ => ?_, rfl⟩
    rw [resultEnvelopeId, show EnvelopeId.new cmdId = .ok (⟨cmdId, hcmd⟩) from
      EnvelopeId.new_asStr (⟨cmdId, hcmd⟩)] at hid
    cases hid
  have hsettle : ∀ sequence uplink,
      (∃ halt fates uplink', ¬(self.Commits ∧ trimIsEmpty cmdId = false
            ∧ self.uplink.lastAllocated < u64Max)
          ∧ settle lib { self with uplink } cmdId result sequence
            = (.error halt, { self with rows := ⟨self.rows.db, fates⟩, uplink := uplink' }))
        ∨ ∃ sequence' rows uplink' commands, settle lib { self with uplink } cmdId result sequence
            = (.ok sequence', { self with rows, uplink := uplink', commands })
          ∧ Finished lib cmdId result self { self with rows, uplink := uplink', commands } := by
    intro sequence uplink
    rcases settle_cases lib { self with uplink } hopen result sequence with
      ⟨halt, fates, hfails, heq⟩ | ⟨rows, commands, heq, hfinished⟩
    · exact .inl ⟨halt, fates, uplink, fun h => hfails h.1, heq⟩
    · exact .inr ⟨sequence, rows, uplink, commands, heq, hfinished.steps, hfinished.terminal,
        hfinished.started⟩
  split
  · exact hsettle _ _
  · exact hsettle _ _
  next error uplink hother heq =>
    refine .inl ⟨_, self.rows.fates, uplink, fun ⟨_, _, hroom⟩ => ?_, rfl⟩
    -- a known envelope was dealt with above
    unfold UplinkState.append at heq
    split at heq
    · cases heq
      exact hother _ _ rfl
    · rw [checkedSucc_eq_some.mpr ⟨hroom, rfl⟩] at heq
      cases heq

/-- The first delivery records the command; later ones find it there. -/
theorem recordFirst_cases (self : CommandExecutor P U J V M)
    (hphase : ∀ stored, self.commands[cmdId]? = some stored → stored.phase = .recorded) :
    (∃ halt fates, ¬self.Commits ∧ self.recordFirst lib cmdId
        = (.error halt, { self with rows := ⟨self.rows.db, fates⟩ }))
      ∨ ∃ rows commands, (self.Commits → ∀ fate ∈ rows.fates, fate = Fate.commit)
        ∧ self.recordFirst lib cmdId = (.ok (), { self with rows, commands })
        ∧ Recorded lib { self with rows, commands } cmdId
        ∧ Steps lib cmdId self { self with rows, commands } := by
  unfold recordFirst
  by_cases hknown : cmdId ∈ self.commands
  · rw [if_pos hknown]
    refine .inr ⟨self.rows, self.commands, id, rfl,
      (mem_of_recorded lib hphase).resolve_left fun hnone => ?_, .refl⟩
    have hnone : (self.commands[cmdId]?).map StoredCommand.cell = none := hnone
    rw [ExtTreeMap.getElem?_eq_some_getElem hknown] at hnone
    cases hnone
  · rw [if_neg hknown]
    have hfree : (self.ledger lib).mem cmdId = none := by
      show (self.commands[cmdId]?).map StoredCommand.cell = none
      rw [ExtTreeMap.getElem?_eq_none hknown]
      rfl
    rcases self.journal_cases lib cmdId "recorded" none none with
      ⟨fates, hfates, heq⟩ | ⟨halt, fates, hfails, heq⟩
    · rw [heq]
      have hrow := ledger_row_recorded lib self.rows.db cmdId "recorded" none none rfl
      have hcommands := ledger_mem_insert self.commands cmdId ⟨.recorded, none, none⟩
      exact .inr ⟨⟨_, fates⟩, self.commands.insert cmdId ⟨.recorded, none, none⟩, hfates, rfl,
        (congrFun hcommands cmdId).trans (update_self _ _ _),
        .single (.record hfree hrow hcommands rfl)⟩
    · rw [heq]
      exact .inl ⟨halt, fates, hfails, rfl⟩

end CommandExecutor

end VodogeEdge
