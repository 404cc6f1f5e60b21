import Mathlib.Data.List.Basic

/-!
# Cutting a list into pieces of one size

`chunks size l` are the pieces of a list, each of the given size but for the
last, which holds what is left.
-/

namespace VodogeEdge

open List

variable {α : Type} {size : Nat}

/-- `slice::chunks`. -/
def chunks (size : Nat) (l : List α) : List (List α) :=
  (List.range ((l.length + (size - 1)) / size)).map fun i => (l.drop (i * size)).take size

theorem flatten_first_chunks (size : Nat) (l : List α) (count : Nat) :
    ((List.range count).map fun i => (l.drop (i * size)).take size).flatten
      = l.take (count * size) := by
  induction count with
  | zero => rw [Nat.zero_mul]; rfl
  | succ count ih =>
    rw [range_succ, map_append, flatten_append, ih, Nat.succ_mul, take_add,
      map_singleton, flatten_singleton]

theorem flatten_chunks (h : 0 < size) (l : List α) : (chunks size l).flatten = l := by
  rw [chunks, flatten_first_chunks]
  refine take_of_length_le ?_
  have hdiv := Nat.div_add_mod (l.length + (size - 1)) size
  have hmod := Nat.mod_lt (l.length + (size - 1)) h
  rw [Nat.mul_comm]
  omega

theorem length_of_mem_chunks (h : 0 < size) {l piece : List α}
    (hpiece : piece ∈ chunks size l) : 0 < piece.length ∧ piece.length ≤ size := by
  obtain ⟨i, hi, rfl⟩ := mem_map.mp hpiece
  rw [mem_range, Nat.lt_div_iff_mul_lt h] at hi
  rw [length_take, length_drop]
  omega

end VodogeEdge
