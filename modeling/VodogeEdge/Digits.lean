import Mathlib.Data.Nat.Digits.Defs
import Mathlib.Data.Nat.Digits.Lemmas

/-!
# Fixed-length digits

A list of digits and the number it stands for, lowest digit first. Bits
that are packed into units of one width and read in units of another are
the digits of one number in two bases.
-/

namespace VodogeEdge

open List Nat

def lowDigits (b : Nat) : Nat → Nat → List Nat
  | 0, _ => []
  | n + 1, value => value % b :: lowDigits b n (value / b)

section
variable {b : Nat}

@[simp] theorem length_lowDigits (b n value : Nat) : (lowDigits b n value).length = n := by
  induction n generalizing value with
  | zero => rfl
  | succ n ih => rw [lowDigits, length_cons, ih]

theorem lt_of_mem_lowDigits (hb : 0 < b) {n value digit : Nat}
    (h : digit ∈ lowDigits b n value) : digit < b := by
  induction n generalizing value with
  | zero => cases h
  | succ n ih =>
    rcases mem_cons.mp h with rfl | h
    · exact mod_lt value hb
    · exact ih h

theorem lowDigits_add (b n m value : Nat) :
    lowDigits b (n + m) value = lowDigits b n value ++ lowDigits b m (value / b ^ n) := by
  induction n generalizing value with
  | zero => rw [Nat.zero_add, pow_zero, Nat.div_one]; rfl
  | succ n ih =>
    rw [Nat.succ_add, lowDigits, ih, Nat.div_div_eq_div_mul, ← Nat.pow_succ']
    rfl

theorem take_lowDigits {n m : Nat} (h : n ≤ m) (value : Nat) :
    (lowDigits b m value).take n = lowDigits b n value := by
  obtain ⟨k, rfl⟩ := Nat.exists_eq_add_of_le h
  rw [lowDigits_add, take_left' (length_lowDigits b n value)]

theorem drop_lowDigits (n m value : Nat) :
    (lowDigits b (n + m) value).drop n = lowDigits b m (value / b ^ n) := by
  rw [lowDigits_add, drop_left' (length_lowDigits b n value)]

theorem lowDigits_add_mul (hb : 0 < b) (n value rest : Nat) :
    lowDigits b n (value + b ^ n * rest) = lowDigits b n value := by
  induction n generalizing value with
  | zero => rfl
  | succ n ih =>
    have hshift : value + b ^ (n + 1) * rest = value + b * (b ^ n * rest) := by
      rw [pow_succ', mul_assoc]
    rw [lowDigits, lowDigits, hshift, add_mul_mod_self_left, add_mul_div_left _ _ hb, ih]

theorem lowDigits_ofDigits {digits : List Nat} (h : ∀ digit ∈ digits, digit < b) (rest : Nat) :
    lowDigits b digits.length (ofDigits b digits + b ^ digits.length * rest) = digits := by
  induction digits with
  | nil => rfl
  | cons digit digits ih =>
    have hdigit := h digit mem_cons_self
    have hshift : ofDigits b (digit :: digits) + b ^ (digits.length + 1) * rest
        = digit + b * (ofDigits b digits + b ^ digits.length * rest) := by
      rw [ofDigits_cons]
      ring
    rw [length_cons, lowDigits, hshift, add_mul_mod_self_left,
      mod_eq_of_lt hdigit, add_mul_div_left _ _ (zero_lt_of_lt hdigit),
      div_eq_of_lt hdigit, zero_add,
      ih fun digit hdigit => h digit (mem_cons_of_mem _ hdigit)]

theorem ofDigits_lowDigits (hb : 0 < b) {n value : Nat} (h : value < b ^ n) :
    ofDigits b (lowDigits b n value) = value := by
  induction n generalizing value with
  | zero =>
    rw [pow_zero, lt_one_iff] at h
    rw [h]
    rfl
  | succ n ih =>
    rw [lowDigits, ofDigits_cons, ih, mod_add_div]
    rwa [div_lt_iff_lt_mul hb]

end

end VodogeEdge
