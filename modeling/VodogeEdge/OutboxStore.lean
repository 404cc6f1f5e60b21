import VodogeEdge.Faults
import VodogeEdge.UplinkState

/-!
# The outbox tables

The three tables of the edge database the uplink journal is kept in, and
the statements `edge-store` issues on them. There is no transaction
around a call: every statement below is committed on its own.

`seq` is a signed INTEGER PRIMARY KEY, so the rows are a table keyed by
`Int` and `ORDER BY seq ASC` is its iteration order. The cursor table
holds exactly the row the migration inserted. `created_at` is never
read and is left out.
-/

namespace VodogeEdge

open Std

structure OutboxCell where
  envelopeId : String
  kind : String
  payload : Bytes
  isProtected : Bool
deriving DecidableEq

structure GapCell where
  ranges : String
  reason : String
  accepted : Bool
deriving DecidableEq

structure Db where
  outbox : ExtTreeMap Int OutboxCell
  gaps : ExtTreeMap String GapCell
  cursor : Int × Int
deriving DecidableEq

def Db.fresh : Db := ⟨∅, ∅, (0, 0)⟩

inductive SqliteError where
  | uniqueViolation (column : String)
  | unavailable
deriving DecidableEq

inductive StoreError where
  | sqlite (error : SqliteError)
deriving DecidableEq

structure OutboxRow where
  seq : Nat
  envelopeId : String
  kind : String
  payload : Bytes
  isProtected : Bool

abbrev Store : Type := Disk Db

namespace Db

/-- `INSERT INTO uplink_outbox`: the key and the envelope are unique. -/
def insertOutbox (seq : Int) (cell : OutboxCell) (db : Db) : Except StoreError Db :=
  if seq ∈ db.outbox then .error (.sqlite (.uniqueViolation "uplink_outbox.seq"))
  else if (tableValues db.outbox).any (·.envelopeId == cell.envelopeId) then
    .error (.sqlite (.uniqueViolation "uplink_outbox.envelope_id"))
  else .ok { db with outbox := db.outbox.insert seq cell }

def updateCursor (committedThrough lastAllocated : Nat) (db : Db) : Db :=
  { db with cursor := (asI64 committedThrough, asI64 lastAllocated) }

def deleteSequence (sequence : Nat) (db : Db) : Db :=
  { db with outbox := db.outbox.erase (asI64 sequence) }

def insertGap (gapId ranges reason : String) (db : Db) : Except StoreError Db :=
  if gapId ∈ db.gaps then .error (.sqlite (.uniqueViolation "uplink_gaps.gap_id"))
  else .ok { db with gaps := db.gaps.insert gapId ⟨ranges, reason, false⟩ }

/-- The cursor row, cast back to `u64`. -/
def readCursor (db : Db) : Nat × Nat := (asU64 db.cursor.1, asU64 db.cursor.2)

def loadOutbox (db : Db) : List OutboxRow :=
  db.outbox.toList.map fun (seq, cell) =>
    ⟨asU64 seq, cell.envelopeId, cell.kind, cell.payload, cell.isProtected⟩

end Db

namespace Store

def refusal : StoreError := .sqlite .unavailable

def enqueue (self : Store) (seq : Int) (envelopeId kind : String) (payload : Bytes)
    (isProtected : Bool) : Except (Halt StoreError) Unit × Store :=
  self.execute refusal (Db.insertOutbox seq ⟨envelopeId, kind, payload, isProtected⟩)

def setCursor (self : Store) (committedThrough lastAllocated : Nat) :
    Except (Halt StoreError) Unit × Store :=
  self.execute refusal (Disk.always _ (Db.updateCursor committedThrough lastAllocated))

def deleteSequences (self : Store) (sequences : List Nat) :
    Except (Halt StoreError) Unit × Store :=
  self.executeAll refusal ((sequences.map Db.deleteSequence).map (Disk.always _))

def insertGap (self : Store) (gapId ranges reason : String) :
    Except (Halt StoreError) Unit × Store :=
  self.execute refusal (Db.insertGap gapId ranges reason)

end Store

/-! ## What the statements do to the rows -/

namespace Db

/-- An INSERT goes through exactly when neither the sequence nor the
envelope has a row. -/
theorem insertOutbox_ok {seq : Int} {cell : OutboxCell} {db db' : Db} :
    insertOutbox seq cell db = .ok db' ↔
      seq ∉ db.outbox
        ∧ (∀ (k : Int) c, db.outbox[k]? = some c →
            c.envelopeId ≠ cell.envelopeId)
        ∧ db' = { db with outbox := db.outbox.insert seq cell } := by
  have hany : (tableValues db.outbox).any (·.envelopeId == cell.envelopeId) ↔
      ∃ (k : Int) (c : OutboxCell), db.outbox[k]? = some c
        ∧ c.envelopeId = cell.envelopeId := by
    simp only [List.any_eq_true, beq_iff_eq, mem_tableValues]
    constructor
    · rintro ⟨c, ⟨k, hk⟩, hc⟩
      exact ⟨k, c, hk, hc⟩
    · rintro ⟨k, c, hk, hc⟩
      exact ⟨c, ⟨k, hk⟩, hc⟩
  unfold insertOutbox
  split
  next hseq => simp [hseq]
  next hseq =>
    split
    next hdup =>
      obtain ⟨k, c, hk, hc⟩ := hany.mp hdup
      simp only [reduceCtorEq, false_iff]
      rintro ⟨-, hfree, -⟩
      exact hfree k c hk hc
    next hdup =>
      rw [hany] at hdup
      simp only [Except.ok.injEq, eq_comm (b := db')]
      constructor
      · intro h
        exact ⟨hseq, fun k c hk hc => hdup ⟨k, c, hk, hc⟩, h⟩
      · exact fun h => h.2.2

theorem applyAll_delete : ∀ (sequences : List Nat) db,
    Disk.applyAll db (sequences.map deleteSequence)
      = { db with outbox := (sequences.map asI64).foldl (fun m k => m.erase k) db.outbox }
  | [], _ => rfl
  | q :: qs, db => by
    rw [List.map_cons, Disk.applyAll_cons, applyAll_delete]
    rfl

theorem mem_loadOutbox {db : Db} {row : OutboxRow} :
    row ∈ db.loadOutbox ↔ ∃ (seq : Int) (cell : OutboxCell), db.outbox[seq]? = some cell
      ∧ row = ⟨asU64 seq, cell.envelopeId, cell.kind, cell.payload, cell.isProtected⟩ := by
  simp only [loadOutbox, List.mem_map, Prod.exists, ExtTreeMap.mem_toList_iff_getElem?_eq_some]
  exact exists₂_congr fun _ _ => and_congr_right fun _ => eq_comm

end Db

end VodogeEdge
