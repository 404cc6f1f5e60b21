import Mathlib.Data.Nat.Bitwise
import VodogeEdge.Word

/-!
# Bytes as pairs of nibbles

The low nibble of a byte comes first, as in the number fields of a card.
Digits are packed two to a byte, and an odd last digit is completed with the
filler `F`; reading the packed bytes gives the digits back, the filler
behind them (`nibbles_packNibbles`).
-/

namespace VodogeEdge

open List

def filler : Nat := 15

/-- The nibbles of a byte string, low nibbles first. -/
def nibbles (bytes : Bytes) : List Nat :=
  bytes.flatMap fun byte : UInt8 => [(byte &&& 0x0f).toNat, (byte >>> 4).toNat]

/-- Two digits to a byte, the last byte completed with the filler. -/
def packNibbles : List Nat → Bytes
  | [] => []
  | [low] => [UInt8.ofNat (low ||| filler <<< 4)]
  | low :: high :: rest => UInt8.ofNat (low ||| high <<< 4) :: packNibbles rest

variable (byte : UInt8)

theorem nibbles_cons (rest : Bytes) :
    nibbles (byte :: rest) = (byte &&& 0x0f).toNat :: (byte >>> 4).toNat :: nibbles rest := rfl

theorem lowNibble_eq : (byte &&& 0x0f).toNat = byte.toNat % 16 := by
  exact Nat.and_two_pow_sub_one_eq_mod byte.toNat 4

theorem highNibble_eq : (byte >>> 4).toNat = byte.toNat / 16 := by
  exact Nat.shiftRight_eq_div_pow byte.toNat 4

@[simp] theorem length_nibbles (bytes : Bytes) : (nibbles bytes).length = 2 * bytes.length := by
  induction bytes with
  | nil => rfl
  | cons byte rest ih =>
    rw [nibbles_cons, length_cons, length_cons, length_cons]
    omega

theorem lt_of_mem_nibbles {bytes : Bytes} {n : Nat} (h : n ∈ nibbles bytes) : n < 16 := by
  obtain ⟨byte, -, hn⟩ := mem_flatMap.mp h
  have hbyte := byte.toNat_lt
  rw [lowNibble_eq, highNibble_eq, mem_cons, mem_singleton] at hn
  omega

theorem nibbles_injective {bytes other : Bytes} (h : nibbles bytes = nibbles other) :
    bytes = other := by
  induction bytes generalizing other with
  | nil =>
    have hlength := congrArg List.length h
    exact (eq_nil_of_length_eq_zero (by simpa using hlength.symm)).symm
  | cons byte rest ih =>
    cases other with
    | nil => cases h
    | cons byte' rest' =>
      rw [nibbles_cons, nibbles_cons, List.cons.injEq, List.cons.injEq, lowNibble_eq, lowNibble_eq,
        highNibble_eq, highNibble_eq] at h
      have hbyte : byte = byte' := UInt8.toNat_inj.mp (by omega)
      rw [hbyte, ih h.2.2]

theorem nibbles_pair {low high : Nat} (hlow : low < 16) (hhigh : high < 16) (rest : Bytes) :
    nibbles (UInt8.ofNat (low ||| high <<< 4) :: rest) = low :: high :: nibbles rest := by
  have hsum : low ||| high <<< 4 = low + 16 * high := by
    rw [Nat.lor_comm, ← Nat.shiftLeft_add_eq_or_of_lt hlow]
    omega
  have hbyte : (UInt8.ofNat (low ||| high <<< 4)).toNat = low + 16 * high := by
    rw [UInt8.toNat_ofNat']
    omega
  rw [nibbles_cons, lowNibble_eq, highNibble_eq]
  congr 2 <;> omega

theorem nibbles_packNibbles : ∀ {digits : List Nat}, (∀ n ∈ digits, n < 16) →
    nibbles (packNibbles digits) = digits ++ replicate (digits.length % 2) filler
  | [], _ => rfl
  | [low], h => by
    rw [packNibbles, nibbles_pair (h low (mem_singleton_self low)) (by decide)]
    rfl
  | low :: high :: rest, h => by
    have hrest : ∀ n ∈ rest, n < 16 := fun n hn => h n (mem_cons_of_mem _ (mem_cons_of_mem _ hn))
    rw [packNibbles, nibbles_pair (h low mem_cons_self)
      (h high (mem_cons_of_mem _ mem_cons_self)), nibbles_packNibbles hrest]
    simp only [length_cons]
    congr 4
    omega

theorem length_packNibbles : ∀ digits, (packNibbles digits).length = (digits.length + 1) / 2
  | [] => rfl
  | [_] => by simp [packNibbles]
  | _ :: _ :: rest => by
    rw [packNibbles, length_cons, length_packNibbles, length_cons, length_cons]
    omega

end VodogeEdge
