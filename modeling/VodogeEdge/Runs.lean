import Mathlib.Data.List.Induction

/-!
# Runs of a labelled machine

The induction rules every whole-run result of this development goes
through, independent of what the machine is.

A machine is a step function `step : σ → α → σ`. The label carries
whatever the environment decides, so a run is nothing but a list of
labels and the state it leads to is a fold.

- `runFrom_invariant`: a property of states that one step keeps;
- `runFrom_history`: a property relating the state to the labels taken
  so far;
- `Along.invariant`: the first for runs in which every step meets a side
  condition on the state before it;
- `lockstep`: two machines that answer alike and stay related on one
  label answer alike along every run.

`Once E`: some step of the run met `E`, given the steps before it.
-/

namespace VodogeEdge

open List

variable {σ α : Type*} {step : σ → α → σ} {a : α} {s : σ}

def runFrom (step : σ → α → σ) (s : σ) (as : List α) : σ :=
  as.foldl step s

section
variable (step : σ → α → σ)

@[simp] theorem runFrom_nil (s : σ) : runFrom step s [] = s := rfl

@[simp] theorem runFrom_cons (s : σ) (a : α) (as : List α) :
    runFrom step s (a :: as) = runFrom step (step s a) as := rfl

theorem runFrom_append (s : σ) (as bs : List α) :
    runFrom step s (as ++ bs) = runFrom step (runFrom step s as) bs :=
  foldl_append

theorem runFrom_snoc (s : σ) (as : List α) (a : α) :
    runFrom step s (as ++ [a]) = step (runFrom step s as) a := by
  rw [runFrom_append]; rfl

end

/-- What holds initially and survives one step holds at the end of every
run. -/
theorem runFrom_invariant {step : σ → α → σ} {I : σ → Prop} (hstep : ∀ s a, I s → I (step s a)) :
    ∀ as {s : σ}, I s → I (runFrom step s as)
  | [], _, h => h
  | a :: as, s, h => runFrom_invariant hstep as (hstep s a h)

/-- The history-carrying form: `I` may mention the labels taken so far,
and one step extends them at the end. -/
theorem runFrom_history {I : List α → σ → Prop} {s₀ : σ} (hinit : I [] s₀)
    (hstep : ∀ as a, I as (runFrom step s₀ as) →
      I (as ++ [a]) (step (runFrom step s₀ as) a)) (as : List α) : I as (runFrom step s₀ as) := by
  induction as using reverseRecOn with
  | nil => exact hinit
  | append_singleton as a ih =>
    rw [runFrom_snoc]
    exact hstep as a ih

def outputs {β : Type*} (step : σ → α → σ) (out : σ → α → β) : σ → List α → List β
  | _, [] => []
  | s, a :: as => out s a :: outputs step out (step s a) as

theorem outputs_snoc {β : Type*} {step : σ → α → σ} {out : σ → α → β} :
    ∀ as a s, outputs step out s (as ++ [a]) = outputs step out s as ++ [out (runFrom step s as) a]
  | [], _, _ => rfl
  | _ :: as, a, _ => congrArg (_ :: ·) (outputs_snoc as a _)

/-- Two machines run side by side. The relation may look at the labels
still to come, for results about runs whose labels are restricted. -/
theorem lockstep {τ β : Type*} {step : σ → α → σ} {out : σ → α → β} {step' : τ → α → τ}
    {out' : τ → α → β} {R : σ → τ → List α → Prop}
    (hstep : ∀ s t a as, R s t (a :: as) →
      out s a = out' t a ∧ R (step s a) (step' t a) as) :
    ∀ as {s : σ} {t : τ}, R s t as →
      outputs step out s as = outputs step' out' t as
        ∧ R (runFrom step s as) (runFrom step' t as) []
  | [], _, _, h => ⟨rfl, h⟩
  | a :: as, s, t, h => by
    obtain ⟨hout, hnext⟩ := hstep s t a as h
    obtain ⟨hrest, hend⟩ := lockstep hstep as hnext
    exact ⟨by rw [outputs, outputs, hout, hrest], hend⟩

/-- Some step of the run meets `E`, which may look at the steps before it. -/
def Once (E : List α → α → Prop) (as : List α) : Prop :=
  ∃ before a after, as = before ++ a :: after ∧ E before a

variable {G : σ → α → Prop} {as : List α} {E : List α → α → Prop}

theorem Once.snoc (h : Once E as) (a : α) : Once E (as ++ [a]) := by
  obtain ⟨before, b, after, rfl, hE⟩ := h
  exact ⟨before, b, after ++ [a], by simp, hE⟩

theorem Once.last (h : E as a) : Once E (as ++ [a]) :=
  ⟨as, a, [], rfl, h⟩

/-- Every step of the run meets the condition `G` on the state before it. -/
def Along (step : σ → α → σ) (G : σ → α → Prop) : σ → List α → Prop
  | _, [] => True
  | s, a :: as => G s a ∧ Along step G (step s a) as

instance decidableAlong {step : σ → α → σ} {G : σ → α → Prop} [∀ s a, Decidable (G s a)] :
    ∀ (as : List α) (s : σ), Decidable (Along step G s as)
  | [], _ => isTrue trivial
  | a :: as, s =>
    letI : Decidable (Along step G (step s a) as) := decidableAlong as (step s a)
    inferInstanceAs (Decidable (G s a ∧ Along step G (step s a) as))

theorem Along.append {step : σ → α → σ} {G : σ → α → Prop} :
    ∀ as bs {s : σ}, Along step G s (as ++ bs) ↔
      Along step G s as ∧ Along step G (runFrom step s as) bs
  | [], _, _ => by simp [Along]
  | a :: as, bs, s => by simp [Along, and_assoc, Along.append]

theorem Along.snoc : Along step G s (as ++ [a]) ↔
      Along step G s as ∧ G (runFrom step s as) a := by
  simp [Along.append, Along]

theorem Along.invariant {step : σ → α → σ} {G : σ → α → Prop} {I : σ → Prop}
    (hstep : ∀ s a, I s → G s a → I (step s a)) :
    ∀ as {s : σ}, I s → Along step G s as → I (runFrom step s as)
  | [], _, h, _ => h
  | a :: as, s, h, ⟨hg, hrest⟩ => Along.invariant hstep as (hstep s a h hg) hrest

theorem along_iff_before (as : List α) :
    Along step G s as ↔ ∀ before a, before ++ [a] <+: as → G (runFrom step s before) a := by
  induction as using reverseRecOn with
  | nil => simp [Along]
  | append_singleton as last ih =>
    rw [Along.snoc, ih]
    constructor
    · rintro ⟨hbefore, hlast⟩ before a hbegins
      rcases prefix_concat_iff.mp hbegins with heq | hbegins
      · obtain ⟨rfl, hsingle⟩ := append_inj' heq rfl
        obtain rfl := singleton_inj.mp hsingle
        exact hlast
      · exact hbefore before a hbegins
    · intro h
      exact ⟨fun before a hbegins => h before a (hbegins.trans (prefix_append _ _)),
        h as last (prefix_refl _)⟩

end VodogeEdge
