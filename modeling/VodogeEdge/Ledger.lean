import Mathlib.Logic.Function.Basic
import Mathlib.Logic.Relation
import Mathlib.Data.List.Basic

/-!
# A write-ahead ledger

Work items named by a key pass through *recorded*, *executing* and
*terminal*; each stage is written to durable storage before it is
entered in memory, and the one action of an item is taken only right
after *executing* was written. A restart rebuilds the memory from what is
stored.

No key is ever acted on twice, and never before its mark was stored
(`Sound`); and a terminal result never changes (`Final`).

A stored terminal whose result cannot be read back counts as executing:
the item was worked on, but nobody can say how it ended.
-/

namespace VodogeEdge

open Function List

/-- How far an item got, as memory or storage know it. -/
inductive Cell (R : Type*) where
  | recorded
  | executing
  | terminal (result : R)

inductive Deed (K A : Type*) where
  | marked (key : K)
  | acted (key : K) (action : A)

@[ext]
structure Ledger (K A R : Type*) where
  row : K → Option (Cell R)
  mem : K → Option (Cell R)
  deeds : List (Deed K A)

def Cell.Settled {R : Type*} (cell : Option (Cell R)) : Prop :=
  cell = some .executing ∨ ∃ result, cell = some (.terminal result)

namespace Ledger

variable {K A R : Type*} [DecidableEq K]

def actions (k : K) : List (Deed K A) → List A
  | [] => []
  | .marked _ :: deeds => actions k deeds
  | .acted k' a :: deeds => if k' = k then a :: actions k deeds else actions k deeds

theorem actions_append (k : K) (deeds more : List (Deed K A)) :
    actions k (deeds ++ more) = actions k deeds ++ actions k more := by
  induction deeds with
  | nil => rfl
  | cons deed deeds ih =>
    cases deed with
    | marked k' => exact ih
    | acted k' a =>
      by_cases h : k' = k <;> simp [actions, h, ih]

variable {readable : Prop} {k : K} {l l' : Ledger K A R} {k' : K} {r : R}

theorem actions_eq_nil {deeds : List (Deed K A)} (h : ∀ a, Deed.acted k a ∉ deeds) :
    actions k deeds = [] := by
  induction deeds with
  | nil => rfl
  | cons deed deeds ih =>
    have hrest : actions k deeds = [] := by
      refine ih ?_
      intro a ha
      exact h a (mem_cons_of_mem _ ha)
    cases deed with
    | marked k' => exact hrest
    | acted k' a =>
      have hne : k' ≠ k := by
        intro heq
        subst heq
        exact h a mem_cons_self
      simp [actions, hne, hrest]

/-- Running the recorded item `k`: nothing that shows, or the mark and at
most one action. -/
inductive Work (k : K) (l l' : Ledger K A R) : Prop where
  | idle (heq : l' = l)
  | mark (acted : Option A) (hrow : l'.row = Function.update l.row k (some .executing))
      (hmem : l'.mem = Function.update l.mem k (some .executing))
      (hdeeds : l'.deeds = l.deeds ++ .marked k :: (acted.map (.acted k)).toList)

/-- What may happen to the item `k`. Storing a terminal leaves something
settled; if results are `readable`, it is that terminal. -/
inductive Step (readable : Prop) (k : K) (l l' : Ledger K A R) : Prop where
  | record (hfree : l.mem k = none)
      (hrow : l'.row = Function.update l.row k (some .recorded))
      (hmem : l'.mem = Function.update l.mem k (some .recorded))
      (hdeeds : l'.deeds = l.deeds)
  | work (hrecorded : l.mem k = some .recorded) (hwork : Work k l l')
  | finish (r : R) (stored : Cell R)
      (hopen : l.mem k = some .recorded ∨ l.mem k = some .executing)
      (hsettled : Cell.Settled (some stored)) (hstored : readable → stored = .terminal r)
      (hrow : l'.row = Function.update l.row k (some stored))
      (hmem : l'.mem = Function.update l.mem k (some (.terminal r)))
      (hdeeds : l'.deeds = l.deeds)

abbrev Steps (readable : Prop) (k : K) : Ledger K A R → Ledger K A R → Prop :=
  Relation.ReflTransGen (Step readable k)

theorem Step.mono {readable' : Prop} (himp : readable' → readable) (h : Step readable k l l') :
    Step readable' k l l' := by
  cases h with
  | record hfree hrow hmem hdeeds => exact .record hfree hrow hmem hdeeds
  | work hrecorded hwork => exact .work hrecorded hwork
  | finish r stored hopen hsettled hstored hrow hmem hdeeds =>
    exact .finish r stored hopen hsettled (fun h => hstored (himp h)) hrow hmem hdeeds

theorem Work.still_open (h : Work k l l') (hrecorded : l.mem k = some .recorded) :
    l'.mem k = some .recorded ∨ l'.mem k = some .executing := by
  cases h with
  | idle heq => exact .inl (heq ▸ hrecorded)
  | mark acted hrow hmem hdeeds =>
    rw [hmem, update_self]
    exact .inr rfl

/-- A restart: memory is what storage says. -/
def reload (l : Ledger K A R) : Ledger K A R := { l with mem := l.row }

/-! ## Started items -/

def Started (k : K) (l : Ledger K A R) : Prop :=
  Cell.Settled (l.row k) ∧ Cell.Settled (l.mem k)

omit [DecidableEq K] in
theorem not_settled_none : ¬Cell.Settled (none : Option (Cell R)) := by
  rintro (h | ⟨r, h⟩) <;> cases h

omit [DecidableEq K] in
theorem not_settled_recorded : ¬Cell.Settled (some (.recorded : Cell R)) := by
  rintro (h | ⟨r, h⟩) <;> cases h

/-- One key gets new started cells, or it was not the started one. -/
theorem Started.update (h : l.Started k) {cell cell' : Cell R}
    (hrow : l'.row = update l.row k' (some cell)) (hmem : l'.mem = update l.mem k' (some cell'))
    (hk : k = k' → Cell.Settled (some cell) ∧ Cell.Settled (some cell')) : l'.Started k := by
  unfold Started
  rw [hrow, hmem]
  by_cases hkk : k = k'
  · subst hkk
    rw [update_self, update_self]
    exact hk rfl
  · rwa [update_of_ne hkk, update_of_ne hkk]

theorem Started.step (h : l.Started k) (hstep : Step readable k' l l') : l'.Started k := by
  cases hstep with
  | record hfree hrow hmem hdeeds =>
    refine h.update hrow hmem fun heq => ?_
    subst heq
    exact absurd (hfree ▸ h.2) not_settled_none
  | work hrecorded hwork =>
    cases hwork with
    | idle heq => exact heq ▸ h
    | mark acted hrow hmem hdeeds => exact h.update hrow hmem fun _ => ⟨.inl rfl, .inl rfl⟩
  | finish r stored hopen hsettled hstored hrow hmem hdeeds =>
    exact h.update hrow hmem fun _ => ⟨hsettled, .inr ⟨r, rfl⟩⟩

theorem Started.steps (h : l.Started k) (hsteps : Steps readable k' l l') : l'.Started k := by
  induction hsteps with
  | refl => exact h
  | tail _ hstep ih => exact ih.step hstep

omit [DecidableEq K] in
theorem Started.reload (h : l.Started k) : l.reload.Started k :=
  ⟨h.1, h.1⟩

/-! ## At most one action -/

/-- Every key acted on is started, was acted on once, and was marked
before. -/
structure Sound (l : Ledger K A R) : Prop where
  started : ∀ {k : K} {a : A}, Deed.acted k a ∈ l.deeds → l.Started k
  once : ∀ k : K, (actions k l.deeds).length ≤ 1
  marked_before : ∀ {before after : List (Deed K A)} {k : K} {a : A},
    l.deeds = before ++ .acted k a :: after → Deed.marked k ∈ before

theorem Sound.quiet (h : l.Sound) (hkept : ∀ {k : K}, l.Started k → l'.Started k)
    (hdeeds : l'.deeds = l.deeds) :
    l'.Sound where
  started ha := hkept (h.started (hdeeds ▸ ha))
  once k' := hdeeds ▸ h.once k'
  marked_before heq := h.marked_before (hdeeds ▸ heq)

theorem marked_before_work (h : l.Sound) {acted : Option A} {before after : List (Deed K A)} {a : A}
    (heq : l.deeds ++ .marked k :: (acted.map (Deed.acted k)).toList
      = before ++ .acted k' a :: after) : Deed.marked k' ∈ before := by
  rcases append_eq_append_iff.mp heq with ⟨mid, rfl, hm⟩ | ⟨mid, hd, hm⟩
  · cases mid with
    | nil => cases hm
    | cons d mid =>
      rw [cons_append, List.cons.injEq] at hm
      obtain ⟨rfl, hm⟩ := hm
      have ha : Deed.acted k' a ∈ (acted.map (Deed.acted k)).toList := by simp [hm]
      obtain ⟨b, -, hsame⟩ := Option.map_eq_some_iff.mp (Option.mem_toList.mp ha)
      cases hsame
      exact mem_append_right _ mem_cons_self
  · cases mid with
    | nil => cases hm
    | cons d mid =>
      obtain ⟨rfl, -⟩ := hm
      exact h.marked_before hd

theorem Sound.step (h : l.Sound) (hstep : Step readable k l l') : l'.Sound := by
  have hkept : ∀ {k'}, l.Started k' → l'.Started k' := fun hk => hk.step hstep
  cases hstep with
  | record hfree hrow hmem hdeeds | finish r stored hopen hsettled hstored hrow hmem hdeeds =>
    exact h.quiet hkept hdeeds
  | work hrecorded hwork =>
    cases hwork with
    | idle heq => exact heq ▸ h
    | mark acted hrow hmem hdeeds =>
      have hnone : ∀ a, Deed.acted k a ∉ l.deeds := fun a ha =>
        not_settled_recorded (hrecorded ▸ (h.started ha).2)
      refine ⟨fun {k' a'} ha => ?_, fun k' => ?_,
        fun heq => marked_before_work h (hdeeds.symm.trans heq)⟩
      · by_cases hkk : k' = k
        · subst hkk
          unfold Started
          rw [hrow, hmem, update_self, update_self]
          exact ⟨.inl rfl, .inl rfl⟩
        · have ha : Deed.acted k' a' ∈ l.deeds := by
            cases acted <;> simpa [hdeeds, hkk] using ha
          exact hkept (h.started ha)
      · rw [hdeeds, actions_append]
        by_cases hkk : k = k'
        · subst hkk
          rw [actions_eq_nil hnone]
          cases acted <;> simp [actions]
        · cases acted <;> simpa [actions, hkk] using h.once k'

theorem Sound.steps (h : l.Sound) (hsteps : Steps readable k l l') : l'.Sound := by
  induction hsteps with
  | refl => exact h
  | tail _ hstep ih => exact ih.step hstep

theorem Sound.reload (h : l.Sound) : l.reload.Sound where
  started ha := (h.started ha).reload
  once := h.once
  marked_before := h.marked_before

/-! ## Terminal results -/

def Agrees (l : Ledger K A R) : Prop :=
  ∀ k r, l.mem k = some (.terminal r) → l.row k = some (.terminal r)

def Final (k : K) (r : R) (l : Ledger K A R) : Prop :=
  l.Agrees ∧ l.mem k = some (.terminal r)

theorem Agrees.update (h : l.Agrees) {cell cell' : Cell R}
    (hk : ∀ r, cell' = .terminal r → cell = .terminal r)
    (hrow : l'.row = update l.row k (some cell))
    (hmem : l'.mem = update l.mem k (some cell')) : l'.Agrees := by
  intro k' r hr
  by_cases hkk : k' = k
  · subst hkk
    rw [hmem, update_self] at hr
    rw [hrow, update_self, hk r (Option.some.inj hr)]
  · rw [hmem, update_of_ne hkk] at hr
    rw [hrow, update_of_ne hkk]
    exact h k' r hr

theorem Agrees.step (h : l.Agrees) (hstep : Step True k l l') : l'.Agrees := by
  cases hstep with
  | record hfree hrow hmem hdeeds => exact h.update (fun _ heq => by cases heq) hrow hmem
  | work hrecorded hwork =>
    cases hwork with
    | idle heq => exact heq ▸ h
    | mark acted hrow hmem hdeeds => exact h.update (fun _ heq => by cases heq) hrow hmem
  | finish r stored hopen hsettled hstored hrow hmem hdeeds =>
    refine h.update (fun r' heq => ?_) hrow hmem
    cases heq
    exact hstored trivial

theorem mem_terminal_step (h : l.mem k = some (.terminal r))
    (hstep : Step readable k' l l') : l'.mem k = some (.terminal r) := by
  have hother : ∀ {cell : Cell R}, l'.mem = update l.mem k' (some cell) →
      (k = k' → l.mem k' ≠ some (.terminal r)) → l'.mem k = some (.terminal r) := by
    intro cell hmem hne
    have hkk : k ≠ k' := fun heq => hne heq (heq ▸ h)
    rwa [hmem, update_of_ne hkk]
  cases hstep with
  | record hfree hrow hmem hdeeds =>
    exact hother hmem fun _ => by rw [hfree]; nofun
  | work hrecorded hwork =>
    cases hwork with
    | idle heq => exact heq ▸ h
    | mark acted hrow hmem hdeeds => exact hother hmem fun _ => by rw [hrecorded]; nofun
  | finish r' stored hopen hsettled hstored hrow hmem hdeeds =>
    refine hother hmem fun _ => ?_
    rcases hopen with hopen | hopen
    · rw [hopen]
      nofun
    · rw [hopen]
      nofun

theorem Agrees.steps (h : l.Agrees) (hsteps : Steps True k l l') : l'.Agrees := by
  induction hsteps with
  | refl => exact h
  | tail _ hstep ih => exact ih.step hstep

omit [DecidableEq K] in
theorem Agrees.reload : l.reload.Agrees := fun _ _ h => h

theorem Final.steps (h : l.Final k r) (hsteps : Steps True k' l l') : l'.Final k r := by
  refine ⟨h.1.steps hsteps, ?_⟩
  induction hsteps with
  | refl => exact h.2
  | tail _ hstep ih => exact mem_terminal_step ih hstep

omit [DecidableEq K] in
theorem Final.reload {r : R} (h : l.Final k r) : l.reload.Final k r := ⟨Agrees.reload, h.1 k r h.2⟩

end Ledger

end VodogeEdge
