import VodogeEdge.Readings
import VodogeEdge.Tables
import VodogeEdge.Trim

/-!
# Card facts in the modem inventory

`upsert_local_modem_with` of the edge store: one row per IMEI, written
every round with whatever the round could read. Some columns belong to
the module, some to the round, and five belong to the card (the number,
the APN contexts, the home network and the IMSI). A card fact is to be
kept while the card stays and dropped when it goes.

The statement decides this for every card-scoped column by comparing the
stored `msisdn_iccid`, the card the *number* was read from, with the card
number the row is about to have. That column is itself card-scoped, so it
is `NULL` until a number has been read. `cardFacts_follow_iff` says when
the comparison answers the question it stands for.
-/

namespace VodogeEdge.Inventory

open Std List Option

/-! ## The row -/

/-- Whether this round asked for the card number. -/
inductive CardRead where
  /-- Asked: no number means no card. -/
  | answered
  /-- Not asked: the stored number may not be overwritten. -/
  | unasked

structure LocalModem where
  imei : String
  family : String
  firmware : Option String
  msisdn : Option String
  /-- The card the number was read from. -/
  msisdnIccid : Option String
  apnContexts : Option String
  iccid : Option String
  state : String
  lastSeen : Option Int
  mcc : Option Nat
  mnc : Option Nat
  homeMcc : Option Nat
  homeMnc : Option Nat
  imsi : Option String
  discovery : String
  manageable : Bool
  controlPort : Option String

/-! ## The upsert -/

section
variable (card : CardRead) (excluded stored : LocalModem)

/-- The card number the row has after this round. -/
def effectiveIccid : Option String :=
  match card with
  | .answered => excluded.iccid
  | .unasked => excluded.iccid.or stored.iccid

/-- The rule of a card-scoped column. `IS` compares two `NULL`s as equal. -/
def cardScoped {α : Type} (column : LocalModem → Option α) : Option α :=
  match column excluded with
  | some value => some value
  | none =>
    if stored.msisdnIccid = effectiveIccid card excluded stored then column stored else none

/-- SQLite's `TRIM`: spaces only. -/
def sqlTrim (text : String) : String := String.ofList (trimBy (· == ' ') text.toList)

def onConflict : LocalModem where
  imei := stored.imei
  -- A reading that failed is the word `unknown`, not a `NULL`.
  family := if sqlTrim excluded.family ∈ ["", "unknown"] then stored.family else excluded.family
  firmware := excluded.firmware.or stored.firmware
  msisdn := cardScoped card excluded stored (·.msisdn)
  msisdnIccid := cardScoped card excluded stored (·.msisdnIccid)
  apnContexts := cardScoped card excluded stored (·.apnContexts)
  iccid := effectiveIccid card excluded stored
  state := excluded.state
  lastSeen := excluded.lastSeen
  discovery := excluded.discovery
  manageable := excluded.manageable
  controlPort := excluded.controlPort
  mcc := excluded.mcc.or stored.mcc
  mnc := excluded.mnc.or stored.mnc
  homeMcc := cardScoped card excluded stored (·.homeMcc)
  homeMnc := cardScoped card excluded stored (·.homeMnc)
  imsi := cardScoped card excluded stored (·.imsi)

end

abbrev LocalModems := ExtTreeMap String LocalModem

def upsertLocalModemWith (rows : LocalModems) (modem : LocalModem) (card : CardRead) :
    LocalModems :=
  match rows[modem.imei]? with
  | none => rows.insert modem.imei modem
  | some stored => rows.insert modem.imei (onConflict card modem stored)

/-! ## Card-scoped columns -/

inductive CardColumn where
  | msisdn
  | apnContexts
  | homeMcc
  | homeMnc
  | imsi

namespace CardColumn

def Value : CardColumn → Type
  | .msisdn | .apnContexts | .imsi => String
  | .homeMcc | .homeMnc => Nat

instance : (column : CardColumn) → DecidableEq column.Value
  | .msisdn | .apnContexts | .imsi => inferInstanceAs (DecidableEq String)
  | .homeMcc | .homeMnc => inferInstanceAs (DecidableEq Nat)

def read : (column : CardColumn) → LocalModem → Option column.Value
  | .msisdn => LocalModem.msisdn
  | .apnContexts => LocalModem.apnContexts
  | .homeMcc => LocalModem.homeMcc
  | .homeMnc => LocalModem.homeMnc
  | .imsi => LocalModem.imsi

theorem read_onConflict (column : CardColumn) (card : CardRead) (excluded stored : LocalModem) :
    column.read (onConflict card excluded stored)
      = cardScoped card excluded stored column.read := by
  cases column <;> rfl

end CardColumn

theorem cardScoped_eq {α : Type} (card : CardRead) (excluded stored : LocalModem)
    (column : LocalModem → Option α) :
    cardScoped card excluded stored column
      = (column excluded).or
          (if stored.msisdnIccid = effectiveIccid card excluded stored
            then column stored else none) := by
  rw [cardScoped]
  cases column excluded with
  | none | some => rfl

/-! ## Histories -/

structure Upsert where
  modem : LocalModem
  card : CardRead

def LocalModems.step (rows : LocalModems) (call : Upsert) : LocalModems :=
  upsertLocalModemWith rows call.modem call.card

section
variable (imei : String)

/-- The card number the row names; `none` while there is no row. -/
def cardOf (rows : LocalModems) : Option (Option String) := rows[imei]?.map (·.iccid)

def supplied (column : CardColumn) (call : Upsert) : Option column.Value :=
  if call.modem.imei = imei then column.read call.modem else none

/-- After the calls, every card-scoped column of the row is the value last
supplied for it since the row's card number last changed. -/
def FactsFollow (calls : List Upsert) : Prop :=
  ∀ column : CardColumn,
    (runFrom LocalModems.step ∅ calls)[imei]?.bind column.read
      = latest (supplied imei column) (sinceChange LocalModems.step (cardOf imei) ∅ calls)

def LeavesUnread (stored : LocalModem) (call : Upsert) : Prop :=
  ∃ column : CardColumn, column.read call.modem = none ∧ column.read stored ≠ none

/-- The card the number was read from and the card the row names are both the
card of this round, or neither is. Nothing is asked of a call that leaves no
card fact unread. -/
def PointerStands (rows : LocalModems) (call : Upsert) : Prop :=
  call.modem.imei = imei → ∀ stored, rows[imei]? = some stored → LeavesUnread stored call →
    (stored.msisdnIccid = effectiveIccid call.card call.modem stored ↔
      stored.iccid = effectiveIccid call.card call.modem stored)

/-- A card fact the call leaves unread is kept exactly if the call keeps
the row's card number. -/
def KeepsWithCard (rows : LocalModems) (call : Upsert) : Prop :=
  call.modem.imei = imei → ∀ stored, rows[imei]? = some stored → ∀ column : CardColumn,
    column.read call.modem = none → column.read stored ≠ none →
      ((rows.step call)[imei]?.bind column.read = column.read stored ↔
        cardOf imei (rows.step call) = cardOf imei rows)

end

variable {imei : String} {rows : LocalModems} {call : Upsert} {stored : LocalModem}

/-! ## One call -/

theorem step_other (h : call.modem.imei ≠ imei) : (rows.step call)[imei]? = rows[imei]? := by
  rw [LocalModems.step, upsertLocalModemWith]
  split <;> rw [ExtTreeMap.getElem?_insert, if_neg (mt Std.compare_eq_iff_eq.mp h)]

theorem step_first (himei : call.modem.imei = imei) (h : rows[imei]? = none) :
    (rows.step call)[imei]? = some call.modem := by
  subst himei
  rw [LocalModems.step, upsertLocalModemWith, h, ExtTreeMap.getElem?_insert_self]

theorem step_again (himei : call.modem.imei = imei) (h : rows[imei]? = some stored) :
    (rows.step call)[imei]? = some (onConflict call.card call.modem stored) := by
  subst himei
  rw [LocalModems.step, upsertLocalModemWith, h, ExtTreeMap.getElem?_insert_self]

/-- On a row already there the card number stays if it is the one the row
is about to have. -/
theorem cardOf_step_again (himei : call.modem.imei = imei) (h : rows[imei]? = some stored) :
    cardOf imei (rows.step call) = cardOf imei rows ↔
      stored.iccid = effectiveIccid call.card call.modem stored := by
  rw [cardOf, cardOf, step_again himei h, h, map_some, map_some, some_inj]
  exact eq_comm

/-- What becomes of a column that holds what was last supplied: it holds
it again, or the call left it unread and misjudged the card. -/
theorem follows_step_again (himei : call.modem.imei = imei)
    (h : rows[imei]? = some stored) (column : CardColumn) :
    (rows.step call)[imei]?.bind column.read
        = (supplied imei column call).or
            (if cardOf imei (rows.step call) = cardOf imei rows then column.read stored else none) ↔
      (column.read call.modem = none → column.read stored ≠ none →
        (stored.msisdnIccid = effectiveIccid call.card call.modem stored ↔
          stored.iccid = effectiveIccid call.card call.modem stored)) := by
  simp only [cardOf_step_again himei h]
  rw [step_again himei h, bind_some, CardColumn.read_onConflict, cardScoped_eq, supplied,
    if_pos himei]
  cases column.read call.modem with
  | some value => simp
  | none =>
    cases column.read stored with
    | none => simp
    | some value =>
      split <;> simp_all

theorem keepsWithCard_iff : KeepsWithCard imei rows call ↔ PointerStands imei rows call := by
  have hkept : ∀ stored (column : CardColumn), call.modem.imei = imei →
      rows[imei]? = some stored → column.read call.modem = none → column.read stored ≠ none →
      (((rows.step call)[imei]?.bind column.read = column.read stored) ↔
        stored.msisdnIccid = effectiveIccid call.card call.modem stored) := by
    intro stored column himei hstored hunread hheld
    rw [step_again himei hstored, bind_some, CardColumn.read_onConflict, cardScoped_eq, hunread]
    split
    · simp_all
    · simp_all [Ne.symm]
  constructor
  · rintro h himei stored hstored ⟨column, hunread, hheld⟩
    rw [← hkept stored column himei hstored hunread hheld, ← cardOf_step_again himei hstored]
    exact h himei stored hstored column hunread hheld
  · intro h himei stored hstored column hunread hheld
    rw [hkept stored column himei hstored hunread hheld, cardOf_step_again himei hstored]
    exact h himei stored hstored ⟨column, hunread, hheld⟩

/-! ## Every history -/

theorem factsFollow_nil : FactsFollow imei [] := fun _ => rfl

/-- One more call: the facts go on following the card exactly if the
pointer stands for it. -/
theorem factsFollow_snoc {calls : List Upsert} (h : FactsFollow imei calls) :
    FactsFollow imei (calls ++ [call]) ↔
      PointerStands imei (runFrom LocalModems.step ∅ calls) call := by
  simp only [FactsFollow, runFrom_snoc, latest_sinceChange_snoc, ← h _]
  by_cases himei : call.modem.imei = imei
  · cases hstored : (runFrom LocalModems.step ∅ calls)[imei]? with
    | none =>
      -- The first call for this module writes the row as it was read.
      simp only [PointerStands, hstored, reduceCtorEq, false_implies, implies_true, iff_true]
      intro column
      rw [step_first himei hstored, bind_some, supplied, if_pos himei, bind_none, ite_self, or_none]
    | some stored => simp [follows_step_again, PointerStands, himei, hstored, LeavesUnread]
  · have hsame : ((runFrom LocalModems.step ∅ calls).step call)[imei]?
        = (runFrom LocalModems.step ∅ calls)[imei]? := step_other himei
    simp only [PointerStands, himei, false_implies, iff_true]
    intro column
    rw [supplied, if_neg himei, none_or, if_pos (by rw [cardOf, cardOf, hsame]), hsame]

/-- Exactly in the histories whose calls all find the pointer standing for the
card: the card facts of a row are always those supplied since its card number
last changed, and a call keeps what it leaves unread just if it keeps the card. -/
theorem cardFacts_follow_iff (imei : String) (calls : List Upsert) :
    ((∀ before, before <+: calls → FactsFollow imei before) ↔
        Along LocalModems.step (PointerStands imei) ∅ calls) ∧
      (Along LocalModems.step (KeepsWithCard imei) ∅ calls ↔
        Along LocalModems.step (PointerStands imei) ∅ calls) := by
  refine ⟨?_, ?_⟩
  · induction calls using reverseRecOn with
    | nil =>
      refine iff_of_true (fun before hbefore => ?_) trivial
      rw [prefix_nil.mp hbefore]
      exact factsFollow_nil
    | append_singleton calls call ih =>
      rw [Along.snoc, ← ih]
      constructor
      · intro h
        have hcalls := h calls (prefix_append _ _)
        exact ⟨fun before hbefore => h before (hbefore.trans (prefix_append _ _)),
          (factsFollow_snoc hcalls).mp (h _ prefix_rfl)⟩
      · rintro ⟨hbefore, hpointer⟩ before hprefix
        rcases prefix_concat_iff.mp hprefix with rfl | hprefix
        · exact (factsFollow_snoc (hbefore calls prefix_rfl)).mpr hpointer
        · exact hbefore before hprefix
  · simp [along_iff_before, keepsWithCard_iff]

/-- A module seen with the given card and home network, no number read. -/
def seen (iccid : Option String) (homeMcc : Option Nat) : LocalModem where
  imei := "867018069509705"
  family := "EC20"
  firmware := none
  msisdn := none
  msisdnIccid := none
  apnContexts := none
  iccid := iccid
  state := "online"
  lastSeen := some 1
  mcc := none
  mnc := none
  homeMcc := homeMcc
  homeMnc := none
  imsi := none
  discovery := "qmi"
  manageable := true
  controlPort := some "/dev/cdc-wdm0"

/-- The home network of a card whose number was never read outlives the card
in an empty slot, and is lost when the same card answers without it. -/
theorem homeNetwork_without_number : let card := some "8986003031401770106"
    let first : Upsert := ⟨seen card (some 460), .answered⟩
    let pulled : Upsert := ⟨seen none none, .answered⟩
    let same : Upsert := ⟨seen card none, .answered⟩
    let rows (calls : List Upsert) := runFrom LocalModems.step ∅ calls
    ((rows [first, pulled])["867018069509705"]?.map fun row => (row.iccid, row.homeMcc))
        = some (none, some 460) ∧
      ¬FactsFollow "867018069509705" [first, pulled] ∧
      ((rows [first, same])["867018069509705"]?.map fun row => (row.iccid, row.homeMcc))
        = some (card, none) ∧
      ¬FactsFollow "867018069509705" [first, same] := by
  refine ⟨by decide +kernel, fun h => ?_, by decide +kernel, fun h => ?_⟩
  · exact absurd (h .homeMcc) (by decide +kernel)
  · exact absurd (h .homeMcc) (by decide +kernel)

end VodogeEdge.Inventory
