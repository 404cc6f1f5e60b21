import Mathlib.Data.Int.ModEq

/-!
# The clocks of a bridged call

A packet goes from one leg of a call to the other with its timestamp moved
to the clock of that leg. The timestamp is known modulo `2 ^ 32` only, which
the division does not respect: where the one rate does not divide the other,
the output jumps when the input wraps.
-/

namespace VodogeEdge.Bridge

/-- `inRate` and `outRate` are `from` and `to`. -/
def rescaleTimestamp (ts : Nat) (inRate outRate : Int) : Nat :=
  if inRate ≤ 0 ∨ outRate ≤ 0 ∨ inRate = outRate then ts
  else ts * outRate.toNat % 2 ^ 64 / inRate.toNat % 2 ^ 32

/-- Positive rates, and a time and a step that are whole on both clocks. -/
structure Whole (inRate outRate ts delta : Nat) : Prop where
  rates : 0 < inRate ∧ 0 < outRate
  word : ts < 2 ^ 32
  stamp : inRate ∣ ts * outRate
  step : inRate ∣ delta * outRate

/-- The output goes on by as much as the input, on its own clock. -/
def Continues (inRate outRate ts delta : Nat) : Prop :=
  Whole inRate outRate ts delta →
    rescaleTimestamp ((ts + delta) % 2 ^ 32) inRate outRate
      - (rescaleTimestamp ts inRate outRate : Int) ≡ ↑(delta * outRate / inRate) [ZMOD 2 ^ 32]

/-- What the product is off by, of a time that is cut to 32 bits and then
cut itself to 64. -/
def off (outRate n : Nat) : Int :=
  (n % 2 ^ 32 * outRate % 2 ^ 64 : Nat) - (n * outRate : Nat)

variable {inRate outRate n : Nat}

theorem rescaled (hin : 0 < inRate) (hout : 0 < outRate) (hne : inRate ≠ outRate)
    (hn : inRate ∣ n * outRate) : rescaleTimestamp (n % 2 ^ 32) inRate outRate ≡
      ↑(n * outRate / inRate) + off outRate n / inRate [ZMOD 2 ^ 32] := by
  have hrates : ¬((inRate : Int) ≤ 0 ∨ (outRate : Int) ≤ 0 ∨ (inRate : Int) = outRate) := by
    omega
  rw [rescaleTimestamp, if_neg hrates, Int.natCast_ediv,
    ← Int.add_ediv_of_dvd_left (Int.natCast_dvd_natCast.mpr hn), off, add_sub_cancel]
  exact_mod_cast Nat.mod_modEq _ _

theorem continues_iff_off (ts delta : Nat) : Continues inRate outRate ts delta ↔
    (Whole inRate outRate ts delta → inRate = outRate ∨
      off outRate (ts + delta) / inRate ≡ off outRate ts / inRate [ZMOD 2 ^ 32]) := by
  refine imp_congr_right fun ⟨⟨hin, hout⟩, hword, hts, hdelta⟩ => ?_
  rcases eq_or_ne inRate outRate with rfl | hne
  · rw [Nat.mul_div_cancel _ hin, Int.ModEq]
    simp only [rescaleTimestamp, or_true, if_true, true_or, iff_true]
    omega
  · have hbefore := rescaled hin hout hne hts
    have hafter := rescaled hin hout hne (Nat.add_mul ts delta outRate ▸ Nat.dvd_add hts hdelta)
    rw [Nat.add_mul, Nat.add_div_of_dvd_right hts] at hafter
    rw [Nat.mod_eq_of_lt hword] at hbefore
    unfold Int.ModEq at *
    omega

theorem off_eq (h : outRate < 2 ^ 32) : off outRate n = -2 ^ 32 * (n / 2 ^ 32 * outRate : Nat) := by
  have hlt : n % 2 ^ 32 * outRate < 2 ^ 64 := by
    have := Nat.mul_lt_mul'' (Nat.mod_lt n (Nat.two_pow_pos 32)) h
    omega
  have hn := congrArg (· * outRate) (Nat.mod_add_div n (2 ^ 32))
  rw [off]
  simp only [Nat.add_mul, Nat.mul_assoc] at hn
  omega

/-- For which times and steps the output does not jump; and the rates for
which it never does. -/
theorem continues_iff (inRate outRate ts delta : Nat) :
    (Continues inRate outRate ts delta ↔ (Whole inRate outRate ts delta → inRate = outRate ∨
      off outRate (ts + delta) / inRate ≡ off outRate ts / inRate [ZMOD 2 ^ 32])) ∧
    (0 < inRate → inRate < 2 ^ 32 → 0 < outRate → outRate < 2 ^ 32 →
      ((∀ ts delta, Continues inRate outRate ts delta) ↔ inRate ∣ outRate)) := by
  refine ⟨continues_iff_off ts delta, fun hin hin' hout hout' => ?_⟩
  simp only [continues_iff_off, off_eq hout']
  constructor
  · intro h
    have hfrom := Nat.lt_mul_div_succ (2 ^ 32) hin
    have hto := Nat.mul_div_le (2 ^ 32) inRate
    have hone : (0 + inRate * (2 ^ 32 / inRate + 1)) / 2 ^ 32 = 1 := by
      rw [Nat.mul_succ] at hfrom ⊢
      omega
    rcases h 0 (inRate * (2 ^ 32 / inRate + 1)) ⟨⟨hin, hout⟩, by simp, by simp,
      (Nat.dvd_mul_right ..).mul_right _⟩ with rfl | h
    · exact Nat.dvd_refl _
    · rw [hone, Nat.zero_div, Nat.zero_mul, Nat.one_mul, Int.natCast_zero, Int.mul_zero,
        Int.zero_ediv, Int.modEq_zero_iff_dvd] at h
      obtain ⟨j, hj⟩ := h
      have hle := Int.mul_ediv_self_le (x := -2 ^ 32 * (outRate : Int)) (k := inRate) (by omega)
      have hlt := Int.lt_mul_ediv_self_add (x := -2 ^ 32 * (outRate : Int)) (k := inRate) (by omega)
      rw [hj, Int.mul_left_comm] at hle hlt
      exact Int.natCast_dvd_natCast.mp ⟨-j, by rw [Int.mul_neg]; omega⟩
  · rintro ⟨k, rfl⟩ ts delta -
    have hzero (n : Nat) : -2 ^ 32 * ((n / 2 ^ 32 * (inRate * k) : Nat) : Int) / inRate ≡ 0
        [ZMOD 2 ^ 32] := by
      rw [Nat.mul_left_comm, Int.natCast_mul, Int.mul_left_comm,
        Int.mul_ediv_cancel_left _ (by omega), Int.modEq_zero_iff_dvd]
      exact (Int.dvd_neg.mpr (Int.dvd_refl _)).mul_right _
    exact .inr ((hzero _).trans (hzero _).symm)

/-- From 16 kHz to 8 kHz, two ticks before the wrap and 20 ms on. -/
theorem wrap_jumps : ¬Continues 16000 8000 4294967294 320 := by
  intro h
  exact absurd (h ⟨by decide, by decide, by decide, by decide⟩) (by decide)

end VodogeEdge.Bridge
