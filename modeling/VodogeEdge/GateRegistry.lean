import Mathlib.Data.List.Sort
import VodogeEdge.GateRetro
import VodogeEdge.Tables

/-!
# The registry of managed modules

The two tables of the edge database that say which modules are managed and
which were taken away, and the statements issued on them. The quarantine
of a module is three columns of its row: when the gates first refused it,
why, and in how many passes. `Countdown` is what those columns count with;
the lemmas say what each statement does to it, module by module.
-/

namespace VodogeEdge

open Std

structure RegisteredModem where
  imei : String
  registeredAt : Int
  registeredBy : String
  usbDevice : Option String
  family : Option String
  note : Option String

structure GateFailure where
  since : Int
  reason : String
  passes : Nat

structure Retirement where
  imei : String
  registeredAt : Int
  registeredBy : String
  family : Option String
  usbDevice : Option String
  retiredAt : Int
  reason : String
  detail : Option String
  matrixVersion : Option String

structure RegisteredRow where
  registeredAt : Int
  registeredBy : String
  usbDevice : Option String
  family : Option String
  note : Option String
  gateFailedSince : Option Int
  gateFailedReason : Option String
  gateFailedPasses : Nat

structure RegistryStore where
  registered : ExtTreeMap String RegisteredRow
  retirements : ExtTreeMap String Retirement

structure Countdown where
  since : Option Int
  passes : Nat

namespace Countdown

def unmarked : Countdown := ⟨none, 0⟩

def marked (self : Countdown) (now : Int) : Countdown :=
  ⟨some (self.since.getD now), self.passes + 1⟩

def restarted (now : Int) : Countdown := ⟨some now, 0⟩

end Countdown

def RegisteredRow.countdown (self : RegisteredRow) : Countdown :=
  ⟨self.gateFailedSince, self.gateFailedPasses⟩

namespace RegistryStore

def empty : RegistryStore := ⟨∅, ∅⟩

variable (self : RegistryStore)

/-- Adopting again keeps who adopted it and when, and starts over with the
gates. -/
def registerModem (modem : RegisteredModem) : RegistryStore :=
  { self with
    registered := self.registered.alter modem.imei fun
      | none =>
        some ⟨modem.registeredAt, modem.registeredBy, modem.usbDevice, modem.family, modem.note,
          none, none, 0⟩
      | some row =>
        some { row with
          usbDevice := modem.usbDevice
          family := modem.family.or row.family
          gateFailedSince := none
          gateFailedReason := none
          gateFailedPasses := 0 } }

def unregisterModem (imei : String) : RegistryStore :=
  { self with registered := self.registered.erase imei }

/-- The start is written once; every mark counts. -/
def markGateFailure (imei reason : String) (now : Int) : RegistryStore :=
  { self with
    registered := self.registered.modify imei fun row =>
      { row with
        gateFailedSince := some (row.gateFailedSince.getD now)
        gateFailedReason := some reason
        gateFailedPasses := row.gateFailedPasses + 1 } }

def restartGateFailure (imei reason : String) (now : Int) : RegistryStore :=
  { self with
    registered := self.registered.modify imei fun row =>
      { row with
        gateFailedSince := some now
        gateFailedReason := some reason
        gateFailedPasses := 0 } }

def clearGateFailure (imei : String) : RegistryStore :=
  { self with
    registered := self.registered.modify imei fun row =>
      { row with gateFailedSince := none, gateFailedReason := none, gateFailedPasses := 0 } }

/-- The mark of a module, its count cast to `u32`. -/
def gateFailure (imei : String) : Option GateFailure :=
  self.registered[imei]?.bind fun row =>
    row.gateFailedSince.map fun since =>
      ⟨since, row.gateFailedReason.getD "", row.gateFailedPasses % 2 ^ 32⟩

/-- The record moves to the retirements and the row goes, in one
transaction. A second retirement keeps the first one's history. -/
def retireModem (retirement : Retirement) : RegistryStore where
  registered := self.registered.erase retirement.imei
  retirements := self.retirements.alter retirement.imei fun
    | none => some retirement
    | some old =>
      some { old with
        retiredAt := retirement.retiredAt
        reason := retirement.reason
        detail := retirement.detail
        matrixVersion := retirement.matrixVersion }

/-- `ORDER BY registered_at, imei`. -/
def listedBefore (a b : RegisteredModem) : Prop :=
  a.registeredAt < b.registeredAt ∨ a.registeredAt = b.registeredAt ∧ a.imei ≤ b.imei

instance : DecidableRel listedBefore := fun a b =>
  inferInstanceAs (Decidable (a.registeredAt < b.registeredAt
    ∨ a.registeredAt = b.registeredAt ∧ a.imei ≤ b.imei))

def registeredModems : List RegisteredModem :=
  (self.registered.toList.map fun (imei, row) =>
    ⟨imei, row.registeredAt, row.registeredBy, row.usbDevice, row.family, row.note⟩).insertionSort
    listedBefore

def countdown (imei : String) : Option Countdown :=
  self.registered[imei]?.map RegisteredRow.countdown

/-! ## What each statement does to a countdown -/

section
variable (self : RegistryStore) (target reason imei : String) (now : Int)

theorem countdown_registerModem (modem : RegisteredModem) (imei : String) :
    (self.registerModem modem).countdown imei
      = if modem.imei = imei then some .unmarked else self.countdown imei := by
  unfold countdown registerModem
  rw [ExtTreeMap.getElem?_alter]
  simp only [Std.compare_eq_iff_eq]
  split
  · split <;> rfl
  · rfl

theorem countdown_unregisterModem (gone imei : String) :
    (self.unregisterModem gone).countdown imei
      = if gone = imei then none else self.countdown imei := by
  unfold countdown unregisterModem
  rw [ExtTreeMap.getElem?_erase]
  simp only [Std.compare_eq_iff_eq]
  split <;> rfl

theorem countdown_modify {write : RegisteredRow → RegisteredRow}
    {f : Countdown → Countdown} (hwrite : ∀ row, (write row).countdown = f row.countdown) :
    countdown { self with registered := self.registered.modify target write } imei
      = if target = imei then (self.countdown imei).map f else self.countdown imei := by
  unfold countdown
  rw [ExtTreeMap.getElem?_modify]
  simp only [Std.compare_eq_iff_eq]
  split
  next heq =>
    subst heq
    rw [Option.map_map, Option.map_map]
    exact congrArg (Option.map · _) (funext hwrite)
  · rfl

theorem countdown_markGateFailure :
    (self.markGateFailure target reason now).countdown imei
      = if target = imei then (self.countdown imei).map (·.marked now)
        else self.countdown imei :=
  self.countdown_modify target imei fun _ => rfl

theorem countdown_restartGateFailure :
    (self.restartGateFailure target reason now).countdown imei
      = if target = imei then (self.countdown imei).map (fun _ => .restarted now)
        else self.countdown imei :=
  self.countdown_modify target imei fun _ => rfl

theorem countdown_clearGateFailure :
    (self.clearGateFailure target).countdown imei
      = if target = imei then (self.countdown imei).map (fun _ => .unmarked)
        else self.countdown imei :=
  self.countdown_modify target imei fun _ => rfl

theorem countdown_retireModem (retirement : Retirement) (imei : String) :
    (self.retireModem retirement).countdown imei
      = if retirement.imei = imei then none else self.countdown imei :=
  self.countdown_unregisterModem retirement.imei imei

/-- The mark as it is read: none before the first refusal, and the count
modulo the width it is cast to. -/
theorem gateFailure_eq {imei : String} {countdown : Countdown}
    (h : self.countdown imei = some countdown) :
    (self.gateFailure imei).map GateFailure.since = countdown.since
      ∧ ((self.gateFailure imei).map GateFailure.passes).getD 0 ≤ countdown.passes := by
  obtain ⟨row, hrow, rfl⟩ := Option.map_eq_some_iff.mp h
  unfold gateFailure
  rw [hrow, Option.bind_some]
  cases hsince : row.gateFailedSince with
  | none => exact ⟨by simp [RegisteredRow.countdown, hsince], Nat.zero_le _⟩
  | some since => exact ⟨by simp [RegisteredRow.countdown, hsince], Nat.mod_le _ _⟩

end

theorem nodup_map_imei_registeredModems :
    (self.registeredModems.map RegisteredModem.imei).Nodup := by
  rw [registeredModems, ((List.perm_insertionSort _ _).map _).nodup_iff, List.map_map]
  refine List.pairwise_map.mpr (self.registered.distinct_keys_toList.imp ?_)
  intro a b hkeys heq
  exact hkeys (Std.compare_eq_iff_eq.mpr heq)

end RegistryStore

end VodogeEdge
