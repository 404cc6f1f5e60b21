import Mathlib.Data.List.Sort

/-!
# Dealing sorted queues out in rounds

Several queues, each strictly increasing, are dealt out in as many rounds
as the shortest allows. When is every round made of one and the same
element?

Exactly when the elements all queues have come first, and some queue has
no others (`aligned_iff`): a queue that lacks an element lets everything
behind it move up.
-/

namespace VodogeEdge

open List

variable {κ α : Type*} [LinearOrder α]

/-- A sorted list whose other elements all come later starts with it. -/
theorem prefix_of_sorted {c l : List α} (hc : c.Pairwise (· < ·)) (hl : l.Pairwise (· < ·))
    (hsub : ∀ x ∈ c, x ∈ l) (hlater : ∀ x ∈ l, x ∉ c → ∀ y ∈ c, y < x) : c <+: l := by
  -- what is left of `l` comes behind `c`, and the two together are `l` again
  have hsorted : (c ++ l.filter (· ∉ c)).Pairwise (· < ·) := by
    refine pairwise_append.mpr ⟨hc, hl.filter _, fun y hy x hx => ?_⟩
    obtain ⟨hmem, hnot⟩ := mem_filter.mp hx
    exact hlater x hmem (of_decide_eq_true hnot) y hy
  have hperm : (c ++ l.filter (· ∉ c)).Perm l := by
    refine (perm_ext_iff_of_nodup (hsorted.imp ne_of_lt) (hl.imp ne_of_lt)).mpr fun x => ?_
    by_cases hx : x ∈ c
    · simp [hx, hsub]
    · simp [hx]
  exact ⟨_, hperm.eq_of_pairwise (fun a b _ _ hab hba => absurd hab (lt_asymm hba)) hsorted hl⟩

section
variable (queue : κ → List α) (keys : List κ)

def InAll (x : α) : Prop := ∀ k ∈ keys, x ∈ queue k

/-- Each of the first `n` rounds is made of one element. -/
def Aligned (n : Nat) : Prop := ∀ round < n, ∃ x, ∀ k ∈ keys, (queue k)[round]? = some x

/-- What all queues have comes first, and some queue has nothing else. -/
structure CommonFirst : Prop where
  first : ∀ k ∈ keys, ∀ x ∈ queue k, ¬InAll queue keys x → ∀ y, InAll queue keys y → y < x
  only : ∃ k ∈ keys, ∀ x ∈ queue k, InAll queue keys x

variable {queue keys} {n : Nat}

omit [LinearOrder α] in
theorem Aligned.take_eq (h : Aligned queue keys n) {k k' : κ} (hk : k ∈ keys) (hk' : k' ∈ keys) :
    (queue k).take n = (queue k').take n := by
  refine ext_getElem? fun round => ?_
  rcases lt_or_ge round n with hlt | hge
  · obtain ⟨x, hx⟩ := h round hlt
    rw [getElem?_take_of_lt hlt, getElem?_take_of_lt hlt, hx k hk, hx k' hk']
  · rw [getElem?_eq_none, getElem?_eq_none]
    · rw [length_take]
      omega
    · rw [length_take]
      omega

variable (hsorted : ∀ k ∈ keys, (queue k).Pairwise (· < ·))
  (hle : ∀ k ∈ keys, n ≤ (queue k).length) (hleast : ∃ k ∈ keys, (queue k).length = n)
include hsorted

include hleast in
theorem commonFirst_of_aligned (h : Aligned queue keys n) : CommonFirst queue keys := by
  obtain ⟨least, hmem, hlength⟩ := hleast
  have hwhole : (queue least).take n = queue least :=
    take_of_length_le (le_of_eq hlength)
  have hstart : ∀ k ∈ keys, (queue k).take n = queue least := fun k hk =>
    (h.take_eq hk hmem).trans hwhole
  have hall : ∀ x ∈ queue least, InAll queue keys x := fun x hx k hk =>
    mem_of_mem_take (hstart k hk ▸ hx)
  refine ⟨fun k hk x hx hnot y hy => ?_, least, hmem, hall⟩
  -- `y` is in the shortest queue, which is how `k` starts; `x` is not
  have hsplit := take_append_drop n (queue k)
  rw [hstart k hk] at hsplit
  have hpairs := hsorted k hk
  rw [← hsplit] at hpairs hx
  refine (pairwise_append.mp hpairs).2.2 y (hy least hmem) x ?_
  exact (mem_append.mp hx).resolve_left fun hin => hnot (hall x hin)

include hle in
theorem aligned_of_commonFirst (h : CommonFirst queue keys) : Aligned queue keys n := by
  obtain ⟨only, hmem, hall⟩ := h.only
  have hbegins : ∀ k ∈ keys, queue only <+: queue k := fun k hk =>
    prefix_of_sorted (hsorted only hmem) (hsorted k hk) (fun x hx => hall x hx k hk)
      fun x hx hnot y hy => h.first k hk x hx (fun hin => hnot (hin only hmem)) y (hall y hy)
  intro round hround
  have hlt : round < (queue only).length := lt_of_lt_of_le hround (hle only hmem)
  refine ⟨(queue only)[round], fun k hk => ?_⟩
  obtain ⟨rest, hrest⟩ := hbegins k hk
  rw [← hrest, getElem?_append_left hlt]
  exact getElem?_eq_getElem hlt

include hle hleast in
/-- The rounds are of one element each exactly if what all queues have
comes first and some queue has nothing else. -/
theorem aligned_iff : Aligned queue keys n ↔ CommonFirst queue keys :=
  ⟨commonFirst_of_aligned hsorted hleast, aligned_of_commonFirst hsorted hle⟩

end

end VodogeEdge
