import VodogeEdge.Runs

/-!
# Readings that belong to a key

A machine whose labels carry readings: each label may supply a value, and
the state names the key the readings belong to. A reading is about the
key it was taken under, so once the key changes the earlier readings say
nothing any more.
-/

namespace VodogeEdge

open List

variable {σ α κ β : Type*} (supplied : α → Option β)

def latest (supplied : α → Option β) (as : List α) : Option β :=
  as.reverse.findSome? supplied

@[simp] theorem latest_nil : latest supplied [] = none := rfl

theorem latest_snoc (as : List α) (a : α) :
    latest supplied (as ++ [a]) = (supplied a).or (latest supplied as) := by
  rw [latest, reverse_append, reverse_singleton, singleton_append, findSome?_cons]
  cases supplied a with
  | none | some => rfl

section
variable [DecidableEq κ] (step : σ → α → σ) (key : σ → κ)

/-- The labels since the key last changed, `held` being those since it
did so before `s`. -/
def sinceChangeFrom : σ → List α → List α → List α
  | _, held, [] => held
  | s, held, a :: as =>
    sinceChangeFrom (step s a) (if key (step s a) = key s then held ++ [a] else [a]) as

/-- The labels of a run since the key last changed, the label that
changed it first. -/
def sinceChange (s : σ) (as : List α) : List α := sinceChangeFrom step key s [] as

theorem sinceChangeFrom_snoc (as : List α) (a : α) : ∀ s held,
    sinceChangeFrom step key s held (as ++ [a])
      = if key (step (runFrom step s as) a) = key (runFrom step s as)
        then sinceChangeFrom step key s held as ++ [a] else [a] := by
  induction as with
  | nil => exact fun s held => rfl
  | cons b as ih =>
    intro s held
    rw [cons_append, sinceChangeFrom, ih, runFrom_cons, sinceChangeFrom]

theorem latest_sinceChange_snoc (supplied : α → Option β) (s : σ) (as : List α) (a : α) :
    latest supplied (sinceChange step key s (as ++ [a]))
      = (supplied a).or (if key (step (runFrom step s as) a) = key (runFrom step s as)
          then latest supplied (sinceChange step key s as) else none) := by
  rw [sinceChange, sinceChangeFrom_snoc]
  split
  · rw [latest_snoc, sinceChange]
  · rw [← nil_append [a], latest_snoc, latest_nil]

end

end VodogeEdge
