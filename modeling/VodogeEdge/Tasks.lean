import Mathlib.Data.List.Basic

/-!
# Tasks in a list

A machine of many tasks keeps them in a list, and a step of it changes one.
What all tasks have in common is kept if the step keeps it for that one,
and a count over all of them changes by what it changes for that one.
-/

namespace VodogeEdge

open List

variable {α β : Type} {f : α → α}

theorem mem_modify {l : List α} {i : Nat} {a : α} (h : a ∈ l.modify i f) :
    a ∈ l ∨ ∃ b, l[i]? = some b ∧ a = f b := by
  obtain ⟨j, hj⟩ := mem_iff_getElem?.mp h
  rw [getElem?_modify] at hj
  obtain ⟨b, hb, rfl⟩ := Option.map_eq_some_iff.mp hj
  by_cases hi : i = j
  · exact .inr ⟨b, hi ▸ hb, if_pos hi⟩
  · rw [if_neg hi]
    exact .inl (mem_of_getElem? hb)

theorem map_modify_of_eq {g : α → β} (h : ∀ a, g (f a) = g a)
    (l : List α) (i : Nat) : (l.modify i f).map g = l.map g := by
  apply ext_getElem?
  intro j
  rw [getElem?_map, getElem?_map, getElem?_modify]
  cases l[j]? with
  | none => rfl
  | some a =>
    change some (g (if i = j then f a else a)) = some (g a)
    split
    · rw [h]
    · rfl

theorem countP_modify (p : α → Bool) (f : α → α) : ∀ {l : List α} {i : Nat} {a : α},
    l[i]? = some a →
      (l.modify i f).countP p + (if p a then 1 else 0) = l.countP p + (if p (f a) then 1 else 0)
  | [], _, _, h => by cases h
  | b :: l, 0, a, h => by
    obtain rfl : b = a := by simpa using h
    rw [modify_zero_cons, countP_cons, countP_cons]
    omega
  | b :: l, i + 1, a, h => by
    have ih := countP_modify p f (by simpa using h)
    rw [modify_succ_cons, countP_cons, countP_cons]
    omega

end VodogeEdge
