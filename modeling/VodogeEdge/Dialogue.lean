import Mathlib.Tactic.SplitIfs
import VodogeEdge.Logged

/-!
# Programs that ask

A dialogue is a program that asks questions of what is around it (a peer,
a card, a source of keys), goes on with whatever is answered, and ends
with a value or an error. Whoever answers is left open, so that a property
of a dialogue is one for every behaviour of its surroundings.

`Leads` are its runs, complete or not, as the questions with their
answers. `Holds` is a condition on every question, in view of what was
answered before it, and on every end, and is shown along the program text;
`against` is the one run in which a function answers.
-/

namespace VodogeEdge

open List

/-! ## Without questions -/

section
variable {ε : Type}

def ensure (condition : Prop) [Decidable condition] (e : ε) : Except ε Unit :=
  if condition then .ok () else .error e

theorem ensure_eq_ok {condition : Prop} [Decidable condition] {e : ε} {u : Unit} :
    ensure condition e = .ok u ↔ condition := by
  unfold ensure
  split_ifs with h
  · exact iff_of_true rfl h
  · exact iff_of_false nofun h

end

inductive Dialogue (Q : Type) (A : Q → Type) (ε α : Type) where
  | ret (a : α)
  | fail (e : ε)
  | ask (q : Q) (next : A q → Dialogue Q A ε α)

abbrev Turn {Q : Type} (A : Q → Type) : Type := Σ q, A q

namespace Dialogue

variable {Q : Type} {A : Q → Type} {ε δ α β : Type}

protected def bind : Dialogue Q A ε α → (α → Dialogue Q A ε β) → Dialogue Q A ε β
  | .ret a, f => f a
  | .fail e, _ => .fail e
  | .ask q next, f => .ask q fun r => (next r).bind f

instance : Monad (Dialogue Q A ε) where
  pure := .ret
  bind := Dialogue.bind

def ofExcept : Except ε α → Dialogue Q A ε α
  | .ok a => .ret a
  | .error e => .fail e

/-- Go on from the end of a dialogue, however it ended. -/
def andThen : Dialogue Q A ε α → (Except ε α → Dialogue Q A δ β) → Dialogue Q A δ β
  | .ret a, f => f (.ok a)
  | .fail e, f => f (.error e)
  | .ask q next, f => .ask q fun r => (next r).andThen f

/-! ## Runs -/

/-- With these answers the program comes to `p'`. -/
inductive Leads : Dialogue Q A ε α → List (Turn A) → Dialogue Q A ε α → Prop where
  | stay (p : Dialogue Q A ε α) : Leads p [] p
  | turn {q : Q} {next : A q → Dialogue Q A ε α} {r : A q} {turns : List (Turn A)}
      {p' : Dialogue Q A ε α} (h : Leads (next r) turns p') :
      Leads (ask q next) (⟨q, r⟩ :: turns) p'

variable {result : Except ε α} {p : Dialogue Q A ε α} {turns : List (Turn A)}
  {f : α → Dialogue Q A ε β} {q : Q} {p' : Dialogue Q A ε α}

theorem Leads.snoc {next : A q → Dialogue Q A ε α} (h : Leads p turns (ask q next))
    (r : A q) : Leads p (turns ++ [⟨q, r⟩]) (next r) := by
  generalize hp : ask q next = p' at h
  induction h with
  | stay =>
    subst hp
    exact .turn (.stay _)
  | turn _ ih => exact .turn (ih hp)

def outcome : Dialogue Q A ε α → Option (Except ε α)
  | .ret a => some (.ok a)
  | .fail e => some (.error e)
  | .ask _ _ => none

/-- The end of the run in which `f` answers. -/
def against (f : ∀ q, A q) : Dialogue Q A ε α → Except ε α
  | .ret a => .ok a
  | .fail e => .error e
  | .ask q next => (next (f q)).against f

def trace (f : ∀ q, A q) : Dialogue Q A ε α → List (Turn A)
  | .ret _ => []
  | .fail _ => []
  | .ask q next => ⟨q, f q⟩ :: (next (f q)).trace f

theorem leads_trace (f : ∀ q, A q) (p : Dialogue Q A ε α) :
    Leads p (p.trace f) (ofExcept (p.against f)) := by
  induction p with
  | ret | fail => exact .stay _
  | ask q next ih => exact .turn (ih (f q))

theorem against_of_leads {f : ∀ q, A q} (h : Leads p turns p')
    (hf : ∀ turn ∈ turns, turn.2 = f turn.1) : p.against f = p'.against f := by
  induction h with
  | stay => rfl
  | @turn q next r turns p' _ ih =>
    obtain ⟨hfirst, hrest⟩ := forall_mem_cons.mp hf
    change (next (f q)).against f = _
    rw [← show r = f q from hfirst]
    exact ih hrest

theorem against_of_outcome {f : ∀ q, A q} (h : p.outcome = some result) : p.against f = result := by
  cases p with
  | ret | fail => exact Option.some.inj h
  | ask q next => cases h

/-! ## Conditions -/

/-- Every question is asked in a history that allows it, and every end
meets the condition on ends. -/
def Holds (pre : List (Turn A) → Q → Prop) (post : List (Turn A) → Except ε α → Prop) :
    List (Turn A) → Dialogue Q A ε α → Prop
  | history, .ret a => post history (.ok a)
  | history, .fail e => post history (.error e)
  | history, .ask q next => pre history q ∧ ∀ r, Holds pre post (history ++ [⟨q, r⟩]) (next r)

variable {pre : List (Turn A) → Q → Prop} {post : List (Turn A) → Except ε α → Prop}
  {history : List (Turn A)}

/-- What follows a dialogue starts from where it ends; an error passes
through. -/
theorem Holds.bind {middle : List (Turn A) → Except ε α → Prop}
    {post : List (Turn A) → Except ε β → Prop} (h : Holds pre middle history p)
    (hok : ∀ history a, middle history (.ok a) → Holds pre post history (f a))
    (herror : ∀ history e, middle history (.error e) → post history (.error e)) :
    Holds pre post history (p >>= f) := by
  induction p generalizing history with
  | ret a => exact hok _ a h
  | fail e => exact herror _ e h
  | ask q next ih => exact ⟨h.1, fun r => ih r (h.2 r)⟩

def onOk (post : List (Turn A) → α → Prop) (history : List (Turn A)) : Except ε α → Prop
  | .ok a => post history a
  | .error _ => True

theorem holds_onOk_bind {middle : List (Turn A) → α → Prop} {post : List (Turn A) → β → Prop}
    (h : Holds pre (onOk middle) history p)
    (hok : ∀ history a, middle history a → Holds pre (onOk post) history (f a)) :
    Holds pre (onOk post) history (p >>= f) :=
  h.bind hok fun _ _ _ => trivial

theorem holds_onOk_ofExcept {post : List (Turn A) → α → Prop}
    (h : ∀ a, result = .ok a → post history a) :
    Holds pre (onOk post) history (ofExcept result) := by
  cases result with
  | ok a => exact h a rfl
  | error e => trivial

theorem holds_ofExcept_bind {post : List (Turn A) → β → Prop}
    (h : ∀ a, result = .ok a → Holds pre (onOk post) history (f a)) :
    Holds pre (onOk post) history (ofExcept result >>= f) := by
  cases result with
  | ok a => exact h a rfl
  | error e => trivial

/-- A question whose answer may be an error, which is then the end. -/
theorem holds_ask_bind {answer : A q → Except ε α} {post : List (Turn A) → β → Prop}
    (hpre : pre history q)
    (h : ∀ r a, answer r = .ok a → Holds pre (onOk post) (history ++ [⟨q, r⟩]) (f a)) :
    Holds pre (onOk post) history ((ask q fun r => ofExcept (answer r)) >>= f) :=
  ⟨hpre, fun r => holds_ofExcept_bind fun a ha => h r a ha⟩

theorem Holds.leads (hleads : Leads p turns p') :
    ∀ {history : List (Turn A)}, Holds pre post history p →
      Holds pre post (history ++ turns) p' ∧
        ∀ before q r after, turns = before ++ ⟨q, r⟩ :: after → pre (history ++ before) q := by
  induction hleads with
  | stay p =>
    intro history h
    refine ⟨by rwa [append_nil], fun before q r after heq => ?_⟩
    exact absurd heq.symm (append_ne_nil_of_right_ne_nil _ (cons_ne_nil _ _))
  | @turn q next r turns p' _ ih =>
    intro history h
    obtain ⟨hrest, hpre⟩ := ih (h.2 r)
    rw [append_assoc] at hrest
    refine ⟨hrest, fun before q' r' after heq => ?_⟩
    cases before with
    | nil =>
      obtain ⟨hq, -⟩ := List.cons.inj heq
      obtain rfl : q = q' := congrArg Sigma.fst hq
      rw [append_nil]
      exact h.1
    | cons first before =>
      obtain ⟨rfl, htail⟩ := List.cons.inj heq
      have := hpre before q' r' after htail
      rwa [append_assoc] at this

end Dialogue

end VodogeEdge
