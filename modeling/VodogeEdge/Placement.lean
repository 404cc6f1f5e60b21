import Mathlib.Logic.ExistsUnique
import Mathlib.Order.Basic

/-!
# Windows of placed numbers

A log hands out numbers in order and retires them from the low end, so
the live numbers form a window `(c, l]`. In between, a number may move
from one place to another (a queue, a quarantine, a set of known
losses). `Placed c l H` says that the bookkeeping `H` loses and
duplicates nothing: every number of the window stands in exactly one
place, every other number in none.
-/

namespace VodogeEdge

variable {P : Type*}

/-- `H q p` reads "number `q` stands in place `p`". -/
structure Placed (c l : Nat) (H : Nat → P → Prop) : Prop where
  le : c ≤ l
  window : ∀ {q : Nat} {p : P}, H q p → c < q ∧ q ≤ l
  unique : ∀ {q : Nat}, c < q → q ≤ l → ∃! p, H q p

namespace Placed

variable {c l : Nat} {H H' : Nat → P → Prop}

theorem empty (hH : ∀ q p, ¬H q p) : Placed c c H where
  le := Nat.le_refl c
  window h := absurd h (hH _ _)
  unique h1 h2 := by omega

theorem eq_of_holds (h : Placed c l H) {q : Nat} (p p' : P) (hp : H q p)
    (hp' : H q p') : p = p' := by
  obtain ⟨h1, h2⟩ := h.window hp
  exact (h.unique h1 h2).unique hp hp'

theorem extend (h : Placed c l H) (p₀ : P)
    (hH : ∀ q p, H' q p ↔ H q p ∨ (q = l + 1 ∧ p = p₀)) : Placed c (l + 1) H' where
  le := Nat.le_succ_of_le h.le
  window {q p} hq := by
    have hle := h.le
    rcases (hH q p).mp hq with hold | ⟨rfl, -⟩
    · have := h.window hold
      omega
    · omega
  unique {q} h1 h2 := by
    rcases Nat.lt_or_eq_of_le h2 with hlt | rfl
    · obtain ⟨p, hp, huniq⟩ := h.unique h1 (Nat.lt_succ_iff.mp hlt)
      refine ⟨p, (hH q p).mpr (.inl hp), fun p' hp' => ?_⟩
      rcases (hH q p').mp hp' with hold | ⟨rfl, -⟩
      · exact huniq p' hold
      · omega
    · refine ⟨p₀, (hH _ _).mpr (.inr ⟨rfl, rfl⟩), fun p' hp' => ?_⟩
      rcases (hH _ p').mp hp' with hold | ⟨-, rfl⟩
      · have := h.window hold
        omega
      · rfl

theorem relocate (h : Placed c l H) (f : Nat → P → P)
    (hH : ∀ q p', H' q p' ↔ ∃ p, H q p ∧ f q p = p') : Placed c l H' where
  le := h.le
  window {q p'} hq := by
    obtain ⟨p, hp, -⟩ := (hH q p').mp hq
    exact h.window hp
  unique {q} h1 h2 := by
    obtain ⟨p, hp, huniq⟩ := h.unique h1 h2
    refine ⟨f q p, (hH q _).mpr ⟨p, hp, rfl⟩, fun p' hp' => ?_⟩
    obtain ⟨p'', hp'', rfl⟩ := (hH q p').mp hp'
    rw [huniq p'' hp'']

theorem advance (h : Placed c l H) {c' : Nat} (hc : c ≤ c') (hl : c' ≤ l)
    (hH : ∀ q p, H' q p ↔ H q p ∧ c' < q) : Placed c' l H' where
  le := hl
  window {q p} hq := by
    obtain ⟨hold, hlt⟩ := (hH q p).mp hq
    exact ⟨hlt, (h.window hold).2⟩
  unique {q} h1 h2 := by
    obtain ⟨p, hp, huniq⟩ := h.unique (Nat.lt_of_le_of_lt hc h1) h2
    exact ⟨p, (hH q p).mpr ⟨hp, h1⟩, fun p' hp' => huniq p' ((hH q p').mp hp').1⟩

end Placed

end VodogeEdge
