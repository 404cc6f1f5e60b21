import Mathlib.Data.List.DropRight

/-!
# Trimming a list at both ends

`trimBy p` drops the elements with the property `p` from both ends of a
list. What stands before and after the trimmed list has the property, and
a first part that ends in an element without it survives the trimming
whole.
-/

namespace VodogeEdge

open List

variable {α : Type*} {p : α → Bool}

/-- The list without the elements with property `p` at its ends. -/
def trimBy (p : α → Bool) (l : List α) : List α := (l.dropWhile p).rdropWhile p

theorem exists_append_trimBy (p : α → Bool) (l : List α) :
    ∃ before after, (∀ a ∈ before, p a) ∧ (∀ a ∈ after, p a)
      ∧ l = before ++ trimBy p l ++ after := by
  refine ⟨l.takeWhile p, (l.dropWhile p).rtakeWhile p, fun a => mem_takeWhile_imp,
    fun a => mem_rtakeWhile_imp, ?_⟩
  rw [append_assoc, trimBy, rdropWhile_append_rtakeWhile, takeWhile_append_dropWhile]

theorem count_trimBy [BEq α] [LawfulBEq α] {a : α} (ha : p a = false) (l : List α) :
    (trimBy p l).count a = l.count a := by
  obtain ⟨before, after, hbefore, hafter, hl⟩ := exists_append_trimBy p l
  have hnone {blank : List α} (h : ∀ b ∈ blank, p b) : blank.count a = 0 :=
    count_eq_zero.mpr fun hmem => Bool.false_ne_true (ha.symm.trans (h a hmem))
  conv_rhs => rw [hl]
  rw [count_append, count_append, hnone hbefore, hnone hafter, Nat.zero_add, Nat.add_zero]

variable {l : List α} (first : List α) {last : α}

/-- What ends in an element without the property is kept from the right. -/
theorem rdropWhile_append_of_last (hlast : p last = false) (rest : List α) :
    (first ++ last :: rest).rdropWhile p = first ++ last :: rest.rdropWhile p := by
  have hreverse : (first ++ last :: rest).reverse = rest.reverse ++ (last :: first.reverse) := by
    simp
  rw [rdropWhile, rdropWhile, hreverse, dropWhile_append]
  split
  next hempty =>
    rw [List.isEmpty_iff] at hempty
    rw [dropWhile_cons_of_neg (by simp [hlast]), hempty]
    simp
  · simp

theorem trimBy_append_of_last (hlast : p last = false) (rest : List α) :
    trimBy p (first ++ last :: rest) = first.dropWhile p ++ last :: rest.rdropWhile p := by
  have hdrop : (first ++ last :: rest).dropWhile p = first.dropWhile p ++ last :: rest := by
    rw [dropWhile_append, dropWhile_cons_of_neg (by simp [hlast])]
    split
    next hempty => rw [isEmpty_iff.mp hempty, nil_append]
    · rfl
  rw [trimBy, hdrop, rdropWhile_append_of_last _ hlast]

/-- Behind elements with the property, a part without any stands at the
front of the trimmed list. -/
theorem trimBy_append {before middle : List α} (hbefore : ∀ a ∈ before, p a)
    (hmiddle : ∀ a ∈ middle, p a = false) (hlast : p last = false) (rest : List α) :
    trimBy p (before ++ middle ++ last :: rest) = middle ++ last :: rest.rdropWhile p := by
  have hdrop : middle.dropWhile p = middle := by
    cases middle with
    | nil => rfl
    | cons first middle => exact dropWhile_cons_of_neg (by simp [hmiddle])
  rw [trimBy_append_of_last _ hlast, dropWhile_append_of_pos hbefore, hdrop]

theorem trimBy_append_right (l : List α) {after : List α} (h : ∀ a ∈ after, p a) :
    trimBy p (l ++ after) = trimBy p l := by
  have hright : ∀ l, (l ++ after).rdropWhile p = l.rdropWhile p := by
    intro l
    rw [rdropWhile, reverse_append, dropWhile_append_of_pos fun a ha => h a (mem_reverse.mp ha)]
    rfl
  rw [trimBy, trimBy, dropWhile_append]
  split
  next hempty => rw [isEmpty_iff.mp hempty, dropWhile_eq_nil_iff.mpr h]
  · exact hright _

theorem trimBy_eq_self_of_ends (hne : l ≠ []) (hhead : p (l.head hne) = false)
    (hlast : p (l.getLast hne) = false) : trimBy p l = l := by
  have hdrop : l.dropWhile p = l := by
    cases l with
    | nil => rfl
    | cons first rest => exact dropWhile_cons_of_neg (by simpa using hhead)
  rw [trimBy, hdrop, rdropWhile_eq_self_iff]
  intro _
  rw [hlast]
  exact Bool.false_ne_true

theorem trimBy_eq_self (h : ∀ a ∈ l, p a = false) : trimBy p l = l := by
  cases l with
  | nil => rfl
  | cons first rest =>
    exact trimBy_eq_self_of_ends (cons_ne_nil _ _) (h _ (head_mem _)) (h _ (getLast_mem _))

theorem trimBy_trimBy (p : α → Bool) (l : List α) : trimBy p (trimBy p l) = trimBy p l := by
  by_cases hne : trimBy p l = []
  · rw [hne]
    rfl
  · have hfront : trimBy p l <+: l.dropWhile p := rdropWhile_prefix p _
    have hdrop : l.dropWhile p ≠ [] := fun hnil => hne (prefix_nil.mp (hnil ▸ hfront))
    refine trimBy_eq_self_of_ends hne ?_ ?_
    · rw [hfront.head]
      simpa using head_dropWhile_not p hdrop
    · exact Bool.eq_false_iff.mpr (rdropWhile_last_not p (l.dropWhile p) hne)

end VodogeEdge
