import Mathlib.Data.List.Perm.Basic
import Mathlib.Data.List.Dedup
import Mathlib.Data.List.Induction

/-!
# Splitting a list and putting it together again

Facts about lists that are taken apart by a key, dealt out in rounds, or
thinned out, up to the order of their elements. A result that counts what
went where only needs these.
-/

namespace VodogeEdge

open List

variable {α β κ : Type*}

variable {xs : List α} {keys : List κ} (queues : List (List α)) (n : Nat)

/-- Taking a list apart by a key loses nothing, if the keys are listed
once each. -/
theorem flatMap_filter_perm [DecidableEq κ] (key : α → κ) (hnodup : keys.Nodup)
    (hcover : ∀ x ∈ xs, key x ∈ keys) :
    (keys.flatMap fun k => xs.filter fun x => key x = k).Perm xs := by
  have hwithin : (keys.flatMap fun k => xs.filter fun x => key x = k).Perm
      (xs.filter fun x => key x ∈ keys) := by
    clear hcover
    induction keys with
    | nil => simp
    | cons k keys ih =>
      obtain ⟨hk, hkeys⟩ := nodup_cons.mp hnodup
      -- the elements with one of the keys are those with the first and those with another
      have hsplit := filter_append_perm (fun x => decide (key x = k))
        (xs.filter fun x => key x ∈ k :: keys)
      rw [filter_filter, filter_filter] at hsplit
      refine ((ih hkeys).append_left _).trans (.trans (.of_eq ?_) hsplit)
      congr 1
      all_goals
        refine filter_congr fun x _ => ?_
        by_cases hx : key x = k <;> simp [hx, hk]
  rwa [filter_eq_self.mpr fun x hx => decide_eq_true (hcover x hx)] at hwithin

theorem rounds_perm :
    ((List.range n).flatMap fun i => queues.filterMap fun queue => queue[i]?).Perm
      (queues.flatMap fun queue => queue.take n) := by
  induction n with
  | zero => simp
  | succ n ih =>
    have hround : (queues.filterMap fun queue => queue[n]?)
        = queues.flatMap fun queue => (queue[n]?).toList :=
      filterMap_eq_flatMap_toList _ _
    have htake : (queues.flatMap fun queue => queue.take (n + 1))
        = queues.flatMap fun queue => queue.take n ++ (queue[n]?).toList :=
      flatMap_congr fun queue _ => take_add_one
    rw [range_succ, flatMap_append, flatMap_singleton, hround, htake]
    exact (ih.append_right _).trans (flatMap_append_perm _ _ _)

theorem take_drop_perm :
    ((queues.flatMap fun queue => queue.take n) ++ queues.flatMap fun queue => queue.drop n).Perm
      queues.flatten := by
  refine (flatMap_append_perm _ _ _).trans ?_
  have hjoin : (queues.flatMap fun queue => queue.take n ++ queue.drop n) = queues.flatten := by
    simp
  rw [hjoin]

theorem filterMap_range_getElem? (xs : List α) (f : α → β) :
    ((List.range xs.length).filterMap fun i => (xs[i]?).map f) = xs.map f := by
  induction xs using reverseRecOn with
  | nil => rfl
  | append_singleton xs x ih =>
    rw [length_append, length_singleton, range_succ, filterMap_append, map_append]
    congr 1
    · rw [← ih]
      refine filterMap_congr ?_
      intro i hi
      rw [getElem?_append_left (mem_range.mp hi)]
    · simp

/-- An element is behind the first `n` if at least `n` go before it, where
a test tells what goes before it from the rest. -/
theorem mem_drop_iff_countP {x : α} {before : α → Bool} (hx : x ∈ xs)
    (h : ∀ front back, xs = front ++ x :: back →
      (∀ y ∈ front, before y) ∧ ∀ y ∈ x :: back, before y = false) :
    x ∈ xs.drop n ↔ n ≤ xs.countP before := by
  obtain ⟨front, back, rfl⟩ := append_of_mem hx
  obtain ⟨hfront, hback⟩ := h front back rfl
  have hcount : (front ++ x :: back).countP before = front.length := by
    rw [countP_append, countP_eq_length.mpr hfront, countP_eq_zero.mpr (by simpa using hback),
      Nat.add_zero]
  rw [hcount]
  constructor
  · intro hdrop
    by_contra hlt
    obtain ⟨k, rfl⟩ : ∃ k, n = front.length + (k + 1) := ⟨n - front.length - 1, by omega⟩
    rw [drop_length_add_append, drop_succ_cons] at hdrop
    -- a second `x` would go before itself
    obtain ⟨front', back', hsplit⟩ := append_of_mem (mem_of_mem_drop hdrop)
    have hself := (h (front ++ x :: front') back' (by simp [hsplit])).1 x (by simp)
    exact absurd (hback x mem_cons_self) (by simp [hself])
  · intro hle
    rw [drop_append_of_le_length hle]
    exact mem_append_right _ mem_cons_self

theorem map_filterMap_of_forall {f : α → Option β} {g : β → α}
    (h : ∀ x ∈ xs, ∃ y, f x = some y ∧ g y = x) : (xs.filterMap f).map g = xs := by
  induction xs with
  | nil => rfl
  | cons x xs ih =>
    obtain ⟨y, hy, hg⟩ := h x mem_cons_self
    rw [filterMap_cons, hy, map_cons, hg, ih fun x hx => h x (mem_cons_of_mem _ hx)]

theorem flatMap_single_key [DecidableEq κ] (k : κ) (f : κ → List α) (hnodup : keys.Nodup) :
    (keys.flatMap fun k' => if k' = k then f k' else []) = if k ∈ keys then f k else [] := by
  induction keys with
  | nil => rfl
  | cons k' keys ih =>
    obtain ⟨hk', hkeys⟩ := nodup_cons.mp hnodup
    rw [flatMap_cons, ih hkeys]
    by_cases heq : k' = k
    · subst heq
      simp [hk']
    · simp [heq, Ne.symm]

end VodogeEdge
