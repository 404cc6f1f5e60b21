import Std.Data.ExtTreeMap
import Std.Data.ExtTreeSet
import Mathlib.Order.Basic
import Mathlib.Data.List.Nodup
import Mathlib.Data.List.Perm.Subperm

/-!
# Ordered tables

`BTreeMap` and `BTreeSet` are modelled by `Std.ExtTreeMap` and
`Std.ExtTreeSet`: ordered iteration, and equality is equality of
contents. This file adds what the loops of the source need on top of the
library: erasing or inserting the elements of a list one by one, and the
inclusive range `lo..=hi` those loops run over.
-/

namespace VodogeEdge

open Std List ExtTreeMap

/-! ## Inclusive ranges -/

/-- The values of `lo..=hi`, ascending. -/
def upto (lo hi : Nat) : List Nat := List.range' lo (hi + 1 - lo)

@[simp] theorem mem_upto {lo hi q : Nat} : q ∈ upto lo hi ↔ lo ≤ q ∧ q ≤ hi := by
  rw [upto, mem_range'_1]
  omega

theorem upto_eq_nil {lo hi : Nat} (h : hi < lo) : upto lo hi = [] := by
  rw [upto, show hi + 1 - lo = 0 by omega]
  rfl

theorem upto_eq_cons {lo hi : Nat} (h : lo ≤ hi) : upto lo hi = lo :: upto (lo + 1) hi := by
  rw [upto, show hi + 1 - lo = (hi + 1 - (lo + 1)) + 1 by omega]
  rfl

theorem length_upto (lo hi : Nat) : (upto lo hi).length = hi + 1 - lo := by
  simp [upto]

theorem nodup_upto (lo hi : Nat) : (upto lo hi).Nodup := nodup_range'

theorem take_upto (lo hi n : Nat) : (upto lo hi).take n = range' lo (min n (hi + 1 - lo)) := by
  rw [upto]
  rcases Nat.le_total n (hi + 1 - lo) with h | h
  · rw [take_range'_of_length_ge h, Nat.min_eq_left h]
  · rw [take_range'_of_length_le h, Nat.min_eq_right h]

theorem eq_of_sorted_of_mem_iff {α : Type*} (key : α → Nat) {l₁ l₂ : List α}
    (h₁ : l₁.Pairwise (fun a b => key a < key b)) (h₂ : l₂.Pairwise (fun a b => key a < key b))
    (hmem : ∀ a, a ∈ l₁ ↔ a ∈ l₂) : l₁ = l₂ := by
  have hnodup : ∀ {l : List α}, l.Pairwise (fun a b => key a < key b) → l.Nodup := by
    intro l h
    refine h.imp fun {a b} hlt heq => ?_
    rw [heq] at hlt
    exact Nat.lt_irrefl _ hlt
  have hperm : l₁.Perm l₂ := (perm_ext_iff_of_nodup (hnodup h₁) (hnodup h₂)).mpr hmem
  refine hperm.eq_of_pairwise (fun a b _ _ hab hba => ?_) h₁ h₂
  exact absurd hab (Nat.not_lt.mpr (Nat.le_of_lt hba))

theorem filter_lt_upto {lo hi cut : Nat} (h : lo ≤ cut + 1) :
    (upto lo hi).filter (cut < ·) = upto (cut + 1) hi := by
  have hlt : ∀ a b, (upto a b).Pairwise (fun x y => id x < id y) := fun _ _ => pairwise_lt_range'
  refine eq_of_sorted_of_mem_iff id ((hlt lo hi).filter _) (hlt (cut + 1) hi) fun q => ?_
  simp only [mem_filter, mem_upto, decide_eq_true_eq]
  omega

/-! ## Folds over tables -/

section
variable {κ ν : Type*} [Ord κ] [TransOrd κ] [LawfulEqOrd κ] {m : ExtTreeMap κ ν}

omit [LawfulEqOrd κ] in
theorem mem_table {m : ExtTreeMap κ ν} {k : κ} : k ∈ m ↔ ∃ v, m[k]? = some v := by
  rw [mem_iff_isSome_getElem?, Option.isSome_iff_exists]

omit [LawfulEqOrd κ] in
theorem not_mem_table {m : ExtTreeMap κ ν} {k : κ} : k ∉ m ↔ m[k]? = none := by
  rw [mem_table, ← not_iff_not, not_not, ← Option.ne_none_iff_exists']

def tableValues (m : ExtTreeMap κ ν) : List ν := m.toList.map Prod.snd

theorem size_le_of_subset {m' : ExtTreeMap κ ν} (h : ∀ k ∈ m, k ∈ m') : m.size ≤ m'.size := by
  rw [← length_keys, ← length_keys]
  exact (subperm_of_subset nodup_keys fun k hk => mem_keys.mpr (h k (mem_keys.mp hk))).length_le

theorem mem_tableValues {v : ν} : v ∈ tableValues m ↔ ∃ k : κ, m[k]? = some v := by
  rw [tableValues, mem_map]
  constructor
  · rintro ⟨⟨k, w⟩, hmem, rfl⟩
    exact ⟨k, mem_toList_iff_getElem?_eq_some.mp hmem⟩
  · rintro ⟨k, hk⟩
    exact ⟨(k, v), mem_toList_iff_getElem?_eq_some.mpr hk, rfl⟩

theorem erase_of_not_mem {k : κ} (h : k ∉ m) : m.erase k = m := by
  refine ext_getElem? fun a => ?_
  rw [getElem?_erase]
  split
  next ha => rw [← Std.compare_eq_iff_eq.mp ha, not_mem_table.mp h]
  · rfl

theorem getElem?_foldl_erase [DecidableEq κ] : ∀ (ks : List κ) (m : ExtTreeMap κ ν) k,
    (ks.foldl (fun m k => m.erase k) m)[k]? = if k ∈ ks then none else m[k]?
  | [], m, k => by simp
  | a :: ks, m, k => by
    rw [foldl_cons, getElem?_foldl_erase, getElem?_erase]
    by_cases hk : k ∈ ks
    · simp [hk]
    · by_cases ha : k = a
      · simp [ha]
      · simp [ha, Ne.symm]

theorem getElem?_foldl_insert {α : Type*} (key : α → κ) (val : α → ν) :
    ∀ (xs : List α) (m : ExtTreeMap κ ν), (xs.map key).Nodup → (∀ x ∈ xs, key x ∉ m) →
      ∀ k v, (xs.foldl (fun m x => m.insert (key x) (val x)) m)[k]? = some v ↔
        m[k]? = some v ∨ ∃ x ∈ xs, key x = k ∧ val x = v
  | [], m, _, _, k, v => by simp
  | a :: xs, m, hnd, hfree, k, v => by
    rw [map_cons, nodup_cons] at hnd
    have hrest : ∀ x ∈ xs, key x ∉ m.insert (key a) (val a) := by
      intro x hx hmem
      rcases ExtTreeMap.mem_insert.mp hmem with heq | hold
      · exact hnd.1 (Std.compare_eq_iff_eq.mp heq ▸ mem_map_of_mem hx)
      · exact hfree x (mem_cons_of_mem _ hx) hold
    rw [foldl_cons, getElem?_foldl_insert key val xs _ hnd.2 hrest, ExtTreeMap.getElem?_insert]
    by_cases ha : key a = k
    · subst ha
      have hnone : m[key a]? = none := not_mem_table.mp (hfree a mem_cons_self)
      simp [hnone]
    · simp [ha]

theorem mem_foldl_insert (ks : List κ) (s : ExtTreeSet κ) (k : κ) :
    k ∈ ks.foldl (fun s k => s.insert k) s ↔ k ∈ s ∨ k ∈ ks := by
  induction ks generalizing s with
  | nil => simp
  | cons a ks ih =>
    rw [foldl_cons, ih, ExtTreeSet.mem_insert, Std.compare_eq_iff_eq, mem_cons, eq_comm,
      or_assoc, or_left_comm]

end

end VodogeEdge
