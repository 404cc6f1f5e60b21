import Mathlib.Tactic.NormNum
import Mathlib.Data.Int.Basic

/-!
# Words, bytes and characters

Sequence numbers are `u64` in memory and `i64` in the database. They are
modelled as `Nat` and `Int`; the places where the width shows are
`checked_add(1)`, the two `as` casts at the database boundary, and the
saturating subtraction of timestamps.
-/

namespace VodogeEdge

/-- A byte string, `Vec<u8>` or a slice of it. -/
abbrev Bytes : Type := List UInt8

/-- The characters of a `str`. -/
abbrev Chars : Type := List Char

def u64Max : Nat := 2 ^ 64 - 1

/-- `n.checked_add(1)` on `u64`. -/
def checkedSucc (n : Nat) : Option Nat :=
  if n < u64Max then some (n + 1) else none

variable {n : Nat} {m : Nat}

theorem checkedSucc_eq_some : checkedSucc n = some m ↔ n < u64Max ∧ m = n + 1 := by
  unfold checkedSucc
  split <;> simp_all [eq_comm]

theorem checkedSucc_eq_none : checkedSucc n = none ↔ u64Max ≤ n := by
  unfold checkedSucc
  split <;> simp_all

def asI64 (n : Nat) : Int := if n < 2 ^ 63 then n else (n : Int) - 2 ^ 64

def asU64 (i : Int) : Nat := (i % 2 ^ 64).toNat

/-- A sequence number survives the trip through an INTEGER column. -/
theorem asU64_asI64 (h : n ≤ u64Max) : asU64 (asI64 n) = n := by
  unfold u64Max at h
  unfold asU64 asI64
  split <;> omega

theorem asI64_inj (hn : n ≤ u64Max) (hm : m ≤ u64Max) (h : asI64 n = asI64 m) : n = m := by
  rw [← asU64_asI64 hn, h, asU64_asI64 hm]

def saturatingSub (a b : Int) : Int := max (-2 ^ 63) (min (2 ^ 63 - 1) (a - b))

theorem asI64_of_lt (h : n < 2 ^ 63) : asI64 n = n := if_pos h

end VodogeEdge
