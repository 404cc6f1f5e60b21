import Mathlib.Data.List.Basic
import Mathlib.Data.List.Infix

/-!
# A text as lines

A text read element by element is the lines that have ended and the one
that is still open. The state is a fold, so that reading more only appends
to it: an ended line stays, and the open one grows or ends.
-/

namespace VodogeEdge

open List

variable {α : Type*} {isEnd : α → Bool} {more : List α} (text : List α)

/-- The ended lines, without what ended them, and the open one. -/
structure Lines (α : Type*) where
  done : List (List α)
  current : List α

namespace Lines

def push (isEnd : α → Bool) (lines : Lines α) (a : α) : Lines α :=
  if isEnd a then ⟨lines.done ++ [lines.current], []⟩ else ⟨lines.done, lines.current ++ [a]⟩

def all (lines : Lines α) : List (List α) := lines.done ++ [lines.current]

end Lines

def linesOf (isEnd : α → Bool) (text : List α) : Lines α := text.foldl (Lines.push isEnd) ⟨[], []⟩

theorem linesOf_snoc (a : α) : linesOf isEnd (text ++ [a]) = (linesOf isEnd text).push isEnd a :=
  foldl_concat _ _ _ _

theorem linesOf_snoc_end {a : α} (h : isEnd a) (text : List α) :
    linesOf isEnd (text ++ [a]) = ⟨(linesOf isEnd text).all, []⟩ := by
  rw [linesOf_snoc, Lines.push, if_pos h, Lines.all]

theorem linesOf_append_open (h : ∀ a ∈ more, isEnd a = false) :
    linesOf isEnd (text ++ more)
      = ⟨(linesOf isEnd text).done, (linesOf isEnd text).current ++ more⟩ := by
  induction more using reverseRecOn with
  | nil => simp
  | append_singleton more a ih =>
    have hmore := ih fun b hb => h b (mem_append_left _ hb)
    have ha : isEnd a = false := h a (mem_append_right _ (mem_singleton_self a))
    rw [← append_assoc, linesOf_snoc, hmore, Lines.push, if_neg (by simp [ha])]
    simp

theorem exists_all_append (isEnd : α → Bool) : ∀ more text,
    ∃ grown after, (linesOf isEnd (text ++ more)).all
      = (linesOf isEnd text).done ++ ((linesOf isEnd text).current ++ grown) :: after
  | [], text => ⟨[], [], by simp [Lines.all]⟩
  | a :: more, text => by
    obtain ⟨grown, after, hall⟩ := exists_all_append isEnd more (text ++ [a])
    rw [linesOf_snoc, Lines.push] at hall
    split at hall
    · exact ⟨[], grown :: after, by simpa using hall⟩
    · exact ⟨a :: grown, after, by simpa using hall⟩

theorem current_append (h : ∃ a ∈ more, isEnd a) (text text' : List α) :
    (linesOf isEnd (text ++ more)).current = (linesOf isEnd (text' ++ more)).current := by
  induction more using reverseRecOn with
  | nil => simp at h
  | append_singleton more a ih =>
    rw [← append_assoc, ← append_assoc, linesOf_snoc, linesOf_snoc, Lines.push, Lines.push]
    split
    · rfl
    next ha =>
      obtain ⟨b, hb, hend⟩ := h
      have hbefore : b ∈ more := by
        rcases mem_append.mp hb with hb | hb
        · exact hb
        · rw [mem_singleton.mp hb] at hend
          exact absurd hend ha
      exact congrArg (· ++ [a]) (ih ⟨b, hbefore, hend⟩)

theorem exists_of_mem_done {text line : List α} (h : line ∈ (linesOf isEnd text).done) :
    ∃ before a, before ++ [a] <+: text ∧ isEnd a
      ∧ (linesOf isEnd before).current = line := by
  induction text using reverseRecOn with
  | nil => cases h
  | append_singleton text a ih =>
    rw [linesOf_snoc, Lines.push] at h
    split at h
    next ha =>
      rcases mem_append.mp h with h | h
      · obtain ⟨before, b, hbefore, hrest⟩ := ih h
        exact ⟨before, b, hbefore.trans (prefix_append _ _), hrest⟩
      · exact ⟨text, a, prefix_refl _, ha, (mem_singleton.mp h).symm⟩
    · obtain ⟨before, b, hbefore, hrest⟩ := ih h
      exact ⟨before, b, hbefore.trans (prefix_append _ _), hrest⟩

theorem flatten_all (isEnd : α → Bool) (text : List α) :
    (linesOf isEnd text).all.flatten = text.filter (! isEnd ·) := by
  induction text using reverseRecOn with
  | nil => rfl
  | append_singleton text a ih =>
    rw [linesOf_snoc, Lines.push, filter_append, ← ih]
    cases ha : isEnd a with
    | true | false => simp [Lines.all, ha]

theorem length_done (isEnd : α → Bool) (text : List α) :
    (linesOf isEnd text).done.length = text.countP isEnd := by
  induction text using reverseRecOn with
  | nil => rfl
  | append_singleton text a ih =>
    rw [linesOf_snoc, Lines.push, countP_append, ← ih]
    cases ha : isEnd a with
    | true | false => simp [ha]

end VodogeEdge
