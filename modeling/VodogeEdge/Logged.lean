import Mathlib.Data.List.Basic

/-!
# Computations that keep a log

A `Logged` computation reads the log of what was done before it, adds to
it, and returns a result or fails; what stands in the log stays there,
whatever happens. The log of a failed computation is what it had done when
it failed.

`Writes p m` says that all `m` adds to a log has the property `p`, and is
shown along the program text.
-/

namespace VodogeEdge

open List

theorem prefix_append_cases {α : Type*} {beginning first second : List α}
    (h : beginning <+: first ++ second) :
    beginning <+: first ∨ ∃ more, more <+: second ∧ beginning = first ++ more := by
  rcases prefix_or_prefix_of_prefix h (prefix_append first second) with hle | ⟨more, rfl⟩
  · exact .inl hle
  · exact .inr ⟨more, (prefix_append_right_inj first).mp h, rfl⟩

theorem prefix_singleton_cases {α : Type*} {beginning : List α} {a : α}
    (h : beginning <+: [a]) : beginning = [] ∨ beginning = [a] := by
  rcases prefix_concat_iff.mp (show beginning <+: [] ++ [a] from h) with h | h
  · exact .inr h
  · exact .inl (prefix_nil.mp h)

theorem exists_ok_of_bind {ε α β : Type} {result : Except ε α} {f : α → Except ε β} {final : β}
    (h : (result >>= f) = .ok final) : ∃ value, result = .ok value ∧ f value = .ok final := by
  cases result with
  | error error => cases h
  | ok value => exact ⟨value, rfl, h⟩

theorem mapError_eq_ok {ε ε' α : Type} {f : ε → ε'} {result : Except ε α} {a : α} :
    result.mapError f = .ok a ↔ result = .ok a := by
  cases result <;> simp [Except.mapError]

/-- A computation with a log of `ω`, an error `ε` and a result `α`. -/
structure Logged (ω ε α : Type) where
  run : List ω → Except ε α × List ω
  keeps : ∀ log, log <+: (run log).2

namespace Logged

variable {ω ε α β : Type}

def ofLog (f : List ω → Except ε α) : Logged ω ε α :=
  ⟨fun log => (f log, log), fun _ => prefix_rfl⟩

def ofExcept (result : Except ε α) : Logged ω ε α := ofLog fun _ => result

def ofAdded (f : List ω → Except ε α × List ω) : Logged ω ε α :=
  ⟨fun log => ((f log).1, log ++ (f log).2), fun _ => prefix_append _ _⟩

protected def bind (m : Logged ω ε α) (f : α → Logged ω ε β) : Logged ω ε β where
  run log :=
    match m.run log with
    | (.ok a, later) => (f a).run later
    | (.error error, later) => (.error error, later)
  keeps log := by
    have hm := m.keeps log
    split
    next a later h =>
      rw [h] at hm
      exact hm.trans ((f a).keeps later)
    next h =>
      rwa [h] at hm

instance : Monad (Logged ω ε) where
  pure a := ofExcept (.ok a)
  bind := Logged.bind

/-- The result as a value: the computation after it goes on either way. -/
def attempt (m : Logged ω ε α) : Logged ω ε (Except ε α) :=
  ⟨fun log => (.ok (m.run log).1, (m.run log).2), m.keeps⟩

@[simp] theorem run_pure (a : α) (log : List ω) : (pure a : Logged ω ε α).run log = (.ok a, log) :=
  rfl

variable (result : Except ε α) {Q : List ω → Except ε α → Prop} {later : List ω} {m : Logged ω ε α}
  {f : α → Logged ω ε β} {log : List ω} {a : α}

@[simp] theorem run_ofExcept (log : List ω) : (ofExcept result).run log = (result, log) := rfl

@[simp] theorem run_ofAdded (f : List ω → Except ε α × List ω) (log : List ω) :
    (ofAdded f).run log = ((f log).1, log ++ (f log).2) := rfl

@[simp] theorem run_attempt (m : Logged ω ε α) (log : List ω) :
    m.attempt.run log = (.ok (m.run log).1, (m.run log).2) := rfl

theorem run_bind_of_ok (h : m.run log = (.ok a, later))
    (f : α → Logged ω ε β) : (m >>= f).run log = (f a).run later := by
  change (Logged.bind m f).run log = _
  simp [Logged.bind, h]

theorem run_bind_of_error {error : ε} (h : m.run log = (.error error, later))
    (f : α → Logged ω ε β) : (m >>= f).run log = (.error error, later) := by
  change (Logged.bind m f).run log = _
  simp [Logged.bind, h]

theorem run_bind_eq_ok {final : List ω} {b : β} : (m >>= f).run log = (.ok b, final) ↔
    ∃ a later, m.run log = (.ok a, later) ∧ (f a).run later = (.ok b, final) := by
  match h : m.run log with
  | (.error error, later) => simp [run_bind_of_error h]
  | (.ok a, later) => simp [run_bind_of_ok h]

theorem mem_bind_of_mem {entry : ω} (h : entry ∈ (m.run log).2)
    (f : α → Logged ω ε β) : entry ∈ ((m >>= f).run log).2 := by
  match hm : m.run log with
  | (.error error, later) =>
    rw [run_bind_of_error hm]
    rwa [hm] at h
  | (.ok a, later) =>
    rw [run_bind_of_ok hm]
    rw [hm] at h
    exact ((f a).keeps later).mem h

theorem run_ofExcept_bind (f : α → Logged ω ε β) (log : List ω) :
    (ofExcept result >>= f).run log
      = match result with
        | .ok a => (f a).run log
        | .error error => (.error error, log) := by
  cases result with
  | ok a => exact run_bind_of_ok (run_ofExcept _ _) f
  | error error => exact run_bind_of_error (run_ofExcept _ _) f

/-! ## What is added to the log -/

def Writes (p : ω → Prop) (m : Logged ω ε α) : Prop :=
  ∀ log, ∀ entry ∈ (m.run log).2, entry ∈ log ∨ p entry

variable {p : ω → Prop}

theorem writes_ofLog (f : List ω → Except ε α) : Writes p (ofLog f) :=
  fun _ _ hentry => .inl hentry

theorem writes_ofExcept : Writes p (ofExcept result) :=
  writes_ofLog _

theorem writes_pure (a : α) : Writes p (pure a : Logged ω ε α) := writes_ofExcept _

theorem Writes.bind (hm : Writes p m) (hf : ∀ a, Writes p (f a)) : Writes p (m >>= f) := by
  intro log entry hentry
  match h : m.run log with
  | (.error error, later) =>
    rw [run_bind_of_error h] at hentry
    have := hm log entry
    rw [h] at this
    exact this hentry
  | (.ok a, later) =>
    rw [run_bind_of_ok h] at hentry
    rcases hf a later entry hentry with hlater | hp
    · have := hm log entry
      rw [h] at this
      exact this hlater
    · exact .inr hp

theorem writes_ofExcept_bind {result : Except ε α} (hf : ∀ a, result = .ok a → Writes p (f a)) :
    Writes p (ofExcept result >>= f) := by
  intro log entry hentry
  cases result with
  | ok a => exact hf a rfl log entry hentry
  | error error => exact .inl hentry

theorem Writes.attempt (hm : Writes p m) : Writes p m.attempt := hm

theorem Writes.mono {q : ω → Prop} (hm : Writes p m) (hpq : ∀ entry, p entry → q entry) :
    Writes q m :=
  fun log entry hentry => (hm log entry hentry).imp_right (hpq entry)

/-- Some entry of the log is as `q` asks. -/
abbrev Shows (q : ω → Bool) (log : List ω) : Prop := ∃ entry ∈ log, q entry

section
variable {q : ω → Bool}

/-- What a computation does not write, it finds in the log or not at all. -/
theorem Writes.shows_iff (hm : Writes (fun entry => ¬ q entry) m) (log : List ω) :
    Shows q (m.run log).2 ↔ Shows q log := by
  constructor
  · rintro ⟨entry, hmem, hq⟩
    exact ⟨entry, (hm log entry hmem).resolve_right fun hnot => hnot hq, hq⟩
  · rintro ⟨entry, hmem, hq⟩
    exact ⟨entry, (m.keeps log).mem hmem, hq⟩

theorem shows_bind_iff (m : Logged ω ε α) (hf : ∀ a, Writes (fun entry => ¬ q entry) (f a))
    (log : List ω) : Shows q ((m >>= f).run log).2 ↔ Shows q (m.run log).2 := by
  match h : m.run log with
  | (.error error, later) => rw [run_bind_of_error h]
  | (.ok a, later) =>
    rw [run_bind_of_ok h]
    exact (hf a).shows_iff later

end

/-! ## What is added, with the result -/

/-- Whatever stood in the log, what `m` adds and what it returns are so. -/
def Adds (Q : List ω → Except ε α → Prop) (m : Logged ω ε α) : Prop :=
  ∀ log, ∃ added, (m.run log).2 = log ++ added ∧ Q added (m.run log).1

theorem adds_ofExcept {result : Except ε α} (h : Q [] result) : Adds Q (ofExcept result) :=
  fun log => ⟨[], (append_nil log).symm, h⟩

theorem adds_pure (h : Q [] (.ok a)) : Adds Q (pure a) := adds_ofExcept h

variable {script : List ω} {P : List ω → Except ε α → Prop}

theorem Adds.bind {Q : List ω → Except ε β → Prop} (hm : Adds P m)
    (herror : ∀ added error, P added (.error error) → Q added (.error error))
    (hf : ∀ added a, P added (.ok a) → Adds (fun later => Q (added ++ later)) (f a)) :
    Adds Q (m >>= f) := by
  intro log
  obtain ⟨added, hadded, hp⟩ := hm log
  match h : m.run log with
  | (.error error, later) =>
    rw [h] at hadded hp
    rw [run_bind_of_error h]
    exact ⟨added, hadded, herror added error hp⟩
  | (.ok a, later) =>
    rw [h] at hadded hp
    obtain ⟨more, hmore, hq⟩ := hf added a hp later
    rw [run_bind_of_ok h]
    refine ⟨added ++ more, ?_, hq⟩
    rw [hmore, ← append_assoc, ← hadded]

theorem Adds.entry {Q : List ω → Except ε β → Prop} {entry : α → ω}
    (hm : Adds (fun added result => ∃ a, added = [entry a] ∧ result = .ok a) m)
    (hf : ∀ a, Adds (fun later => Q (entry a :: later)) (f a)) : Adds Q (m >>= f) := by
  refine hm.bind ?_ ?_
  · rintro added error ⟨a, -, ⟨⟩⟩
  · rintro added a ⟨_, rfl, ⟨⟩⟩
    exact hf a

theorem Adds.mono (hm : Adds P m) (h : ∀ added result, P added result → Q added result) :
    Adds Q m := by
  intro log
  obtain ⟨added, hadded, hp⟩ := hm log
  exact ⟨added, hadded, h added _ hp⟩

theorem Adds.run_nil (hm : Adds Q m) : Q (m.run []).2 (m.run []).1 := by
  obtain ⟨added, hadded, hq⟩ := hm []
  rwa [hadded]

/-! ## Scripts -/

def Begins (script : List ω) (m : Logged ω ε α) : Prop :=
  Adds (fun added _ => added <+: script) m

/-- `m` adds `script`, entry by entry, up to where it fails. -/
def Follows (script : List ω) (m : Logged ω ε α) : Prop :=
  Adds (fun added result => added <+: script ∧ ∀ a, result = .ok a → added = script) m

theorem Follows.bind_begins (hm : Follows script m) (hf : ∀ a, Begins later (f a)) :
    Begins (script ++ later) (m >>= f) := by
  refine Adds.bind hm ?_ ?_
  · rintro added error ⟨hadded, -⟩
    exact hadded.trans (prefix_append _ _)
  · rintro added a ⟨-, hall⟩
    rw [hall a rfl]
    exact (hf a).mono fun _ _ h => (prefix_append_right_inj script).mpr h

theorem Follows.bind (hm : Follows script m) (hf : ∀ a, Follows later (f a)) :
    Follows (script ++ later) (m >>= f) := by
  refine Adds.bind hm ?_ ?_
  · rintro added error ⟨hadded, -⟩
    exact ⟨hadded.trans (prefix_append _ _), fun _ h => nomatch h⟩
  · rintro added a ⟨-, hall⟩
    rw [hall a rfl]
    refine (hf a).mono ?_
    rintro more result ⟨hmore, hdone⟩
    exact ⟨(prefix_append_right_inj script).mpr hmore,
      fun b hb => congrArg (script ++ ·) (hdone b hb)⟩

end Logged

end VodogeEdge
