import Mathlib.Data.List.Basic
import VodogeEdge.Word

/-!
# Programs that talk over a connection

A `Talk` program reads from and writes to one socket. What the peer sends
arrives in segments of any size; a read waits until it has all the bytes
it asked for, takes exactly those and leaves the rest for the next read.
A program that waits for bytes that have not arrived is `blocked`.
-/

namespace VodogeEdge

open List

structure Socket where
  /-- The segments that have arrived and are not yet read. -/
  arrived : List Bytes
  /-- The peer sends nothing more. -/
  closed : Bool
  /-- How the coming writes end: with every byte written, or with a
  failure after some. Those not listed succeed. -/
  writes : List (Option Nat)
  written : Bytes
deriving DecidableEq

def Socket.fresh : Socket := ⟨[], false, [], []⟩

def Socket.stream (socket : Socket) : Bytes := socket.arrived.flatten

structure Socket.Same (s t : Socket) : Prop where
  stream : s.stream = t.stream
  closed : s.closed = t.closed
  writes : s.writes = t.writes
  written : s.written = t.written

inductive Talked (ε α : Type) where
  | done (value : α)
  | failed (error : ε)
  /-- Waiting for bytes. -/
  | blocked

structure Talk (ε α : Type) where
  run : Socket → Talked ε α × Socket

namespace Talk

variable {ε α β : Type}

protected def bind (m : Talk ε α) (f : α → Talk ε β) : Talk ε β where
  run s :=
    match m.run s with
    | (.done a, s') => (f a).run s'
    | (.failed e, s') => (.failed e, s')
    | (.blocked, s') => (.blocked, s')

instance : Monad (Talk ε) where
  pure a := ⟨fun s => (.done a, s)⟩
  bind := Talk.bind

def fail (error : ε) : Talk ε α := ⟨fun s => (.failed error, s)⟩

def ofExcept (result : Except ε α) : Talk ε α :=
  match result with
  | .ok a => pure a
  | .error e => fail e

/-- Up to `n` bytes, segment by segment, and the segments left. -/
def gather : Nat → List Bytes → Bytes × List Bytes
  | _, [] => ([], [])
  | n, segment :: segments =>
    if n < segment.length then (segment.take n, segment.drop n :: segments)
    else (segment ++ (gather (n - segment.length) segments).1,
      (gather (n - segment.length) segments).2)

variable (eof broken : ε) (a : α) (bytes : Bytes)

/-- `read_exact`; the error is what the end of the stream is reported as. -/
def readExact (n : Nat) : Talk ε Bytes where
  run s :=
    let (bytes, rest) := gather n s.arrived
    if bytes.length = n then (.done bytes, { s with arrived := rest })
    else if s.closed then (.failed eof, { s with arrived := rest })
    else (.blocked, s)

/-- `write_all`; the error is what a broken connection is reported as. -/
def writeAll : Talk ε Unit where
  run s :=
    match s.writes with
    | some n :: writes =>
      (.failed broken, { s with writes := writes, written := s.written ++ bytes.take n })
    | none :: writes => (.done (), { s with writes := writes, written := s.written ++ bytes })
    | [] => (.done (), { s with written := s.written ++ bytes })

/-! ## Runs -/

@[simp] theorem run_pure (s : Socket) : (pure a : Talk ε α).run s = (.done a, s) := rfl

variable {m : Talk ε α} (error : ε) {f : α → Talk ε β} {s' : Socket}

theorem run_bind (m : Talk ε α) (f : α → Talk ε β) (s : Socket) :
    (m >>= f).run s =
      match m.run s with
      | (.done a, s') => (f a).run s'
      | (.failed e, s') => (.failed e, s')
      | (.blocked, s') => (.blocked, s') := rfl

variable {s : Socket} {R : Bytes → α → Prop} (n : Nat)

theorem run_bind_of_done {a : α} (h : m.run s = (.done a, s')) (f : α → Talk ε β) :
    (m >>= f).run s = (f a).run s' := by
  rw [run_bind, h]

theorem run_bind_eq_done {b : β} :
    (m >>= f).run s = (.done b, s') ↔
      ∃ a t, m.run s = (.done a, t) ∧ (f a).run t = (.done b, s') := by
  rw [run_bind]
  constructor
  · intro h
    match hm : m.run s with
    | (.done a, t) =>
      rw [hm] at h
      exact ⟨a, t, rfl, h⟩
    | (.failed e, t) =>
      rw [hm] at h
      cases h
    | (.blocked, t) =>
      rw [hm] at h
      cases h
  · rintro ⟨a, t, hm, hf⟩
    rwa [hm]

/-! ## What is written -/

def Quiet (m : Talk ε α) : Prop := ∀ s, (m.run s).2.written = s.written

theorem quiet_pure : Quiet (pure a : Talk ε α) := fun _ => rfl

theorem quiet_fail : Quiet (fail error : Talk ε α) := fun _ => rfl

theorem quiet_readExact : Quiet (readExact eof n) := by
  intro s
  simp only [readExact]
  split
  · rfl
  · split <;> rfl

theorem Quiet.bind (hm : Quiet m) (hf : ∀ a, Quiet (f a)) : Quiet (m >>= f) := by
  intro s
  have hfirst := hm s
  rw [run_bind]
  rcases hs : m.run s with ⟨result, t⟩
  rw [hs] at hfirst
  cases result with
  | done a => exact (hf a t).trans hfirst
  | failed | blocked => exact hfirst

/-! ## What is read -/

theorem gather_eq : ∀ n segments,
    (gather n segments).1 = segments.flatten.take n ∧
      (gather n segments).2.flatten = segments.flatten.drop n
  | _, [] => by simp [gather]
  | n, segment :: segments => by
    obtain ⟨hfirst, hrest⟩ := gather_eq (n - segment.length) segments
    rw [gather, flatten_cons, take_append, drop_append]
    split
    next h =>
      rw [Nat.sub_eq_zero_of_le (Nat.le_of_lt h), take_zero, append_nil]
      exact ⟨rfl, rfl⟩
    next h =>
      rw [hfirst, hrest, take_of_length_le (Nat.le_of_not_lt h),
        drop_of_length_le (Nat.le_of_not_lt h)]
      exact ⟨rfl, rfl⟩

/-- Whenever `m` finishes with `a` it has taken bytes with `R` off the
stream, and no others. -/
def Consumes (m : Talk ε α) (R : Bytes → α → Prop) : Prop :=
  ∀ ⦃s a s'⦄, m.run s = (.done a, s') → ∃ bytes, R bytes a ∧ s.stream = bytes ++ s'.stream

/-- On a stream that begins with `bytes`, and as long as writes succeed,
`m` finishes with `a` and leaves what follows. -/
def Accepts (m : Talk ε α) (bytes : Bytes) (a : α) : Prop :=
  ∀ ⦃s : Socket⦄ ⦃rest⦄, s.stream = bytes ++ rest → s.writes = [] →
    ∃ s', m.run s = (.done a, s') ∧ s'.stream = rest ∧ s'.writes = []

/-- The program does the same however the stream is cut. -/
def Blind (m : Talk ε α) : Prop :=
  ∀ ⦃s t⦄, Socket.Same s t → (m.run s).1 = (m.run t).1 ∧ Socket.Same (m.run s).2 (m.run t).2

/-- Bytes with `R` are what `m` reads, and only the bytes count; what was
written before stays. -/
structure Reads (m : Talk ε α) (R : Bytes → α → Prop) : Prop where
  consumes : Consumes m R
  accepts : ∀ {bytes a}, R bytes a → Accepts m bytes a
  blind : Blind m
  grows : ∀ s, s.written <+: (m.run s).2.written

theorem Reads.congr {S : Bytes → α → Prop} (h : Reads m R)
    (hiff : ∀ bytes a, R bytes a ↔ S bytes a) : Reads m S := by
  have heq : R = S := funext₂ fun bytes a => propext (hiff bytes a)
  exact heq ▸ h

theorem reads_pure : Reads (pure a : Talk ε α) fun bytes b => bytes = [] ∧ b = a where
  consumes s b s' h := by
    obtain ⟨rfl, rfl⟩ := h
    exact ⟨[], ⟨rfl, rfl⟩, rfl⟩
  accepts := by
    rintro bytes b ⟨rfl, rfl⟩ s rest hs hwrites
    exact ⟨s, rfl, hs, hwrites⟩
  blind _ _ h := ⟨rfl, h⟩
  grows _ := prefix_rfl

theorem reads_fail (h : ∀ bytes a, ¬R bytes a) : Reads (fail error) R where
  consumes s a s' hrun := by cases hrun
  accepts hR := (h _ _ hR).elim
  blind _ _ hsame := ⟨rfl, hsame⟩
  grows _ := prefix_rfl

theorem reads_ofExcept (result : Except ε α) :
    Reads (ofExcept result) fun bytes a => bytes = [] ∧ result = .ok a := by
  cases result with
  | error e => exact reads_fail e fun bytes a h => nomatch h.2
  | ok b => exact (reads_pure b).congr fun bytes a => by rw [Except.ok.injEq, eq_comm (a := a)]

theorem Reads.bind {S : α → Bytes → β → Prop} (hm : Reads m R) (hf : ∀ a, Reads (f a) (S a)) :
    Reads (m >>= f) fun bytes b => ∃ first a rest, R first a ∧ S a rest b ∧
      bytes = first ++ rest where
  consumes s b s' h := by
    obtain ⟨a, t, hfirst, hrest⟩ := run_bind_eq_done.mp h
    obtain ⟨first, hR, hs⟩ := hm.consumes hfirst
    obtain ⟨rest, hS, ht⟩ := (hf a).consumes hrest
    exact ⟨first ++ rest, ⟨first, a, rest, hR, hS, rfl⟩, by rw [hs, ht, append_assoc]⟩
  accepts := by
    rintro bytes b ⟨first, a, rest, hR, hS, rfl⟩ s more hs hwrites
    rw [append_assoc] at hs
    obtain ⟨t, hrun, ht, htwrites⟩ := hm.accepts hR hs hwrites
    obtain ⟨s', hrun', hs', hwrites'⟩ := (hf a).accepts hS ht htwrites
    exact ⟨s', by rw [run_bind_of_done hrun, hrun'], hs', hwrites'⟩
  blind s t h := by
    obtain ⟨hresult, hsame⟩ := hm.blind h
    rw [run_bind, run_bind]
    rcases hs : m.run s with ⟨result, s'⟩
    rcases ht : m.run t with ⟨result', t'⟩
    rw [hs, ht] at hresult hsame
    obtain rfl : result = result' := hresult
    cases result with
    | done a => exact (hf a).blind hsame
    | failed | blocked => exact ⟨rfl, hsame⟩
  grows s := by
    have hfirst := hm.grows s
    rw [run_bind]
    rcases hs : m.run s with ⟨result, t⟩
    rw [hs] at hfirst
    cases result with
    | done a => exact hfirst.trans ((hf a).grows t)
    | failed | blocked => exact hfirst

theorem reads_readExact :
    Reads (readExact eof n) fun bytes read => bytes = read ∧ read.length = n where
  consumes s a s' h := by
    simp only [readExact] at h
    split at h
    next hlength =>
      obtain ⟨rfl, rfl⟩ := h
      refine ⟨_, ⟨rfl, hlength⟩, ?_⟩
      change s.arrived.flatten = _ ++ (gather n s.arrived).2.flatten
      rw [(gather_eq n _).1, (gather_eq n _).2, take_append_drop]
    · split at h <;> cases h
  accepts := by
    rintro bytes read ⟨rfl, hlength⟩ s rest hs hwrites
    obtain ⟨hfirst, hrest⟩ := gather_eq n s.arrived
    rw [show s.arrived.flatten = bytes ++ rest from hs, take_left' hlength] at hfirst
    rw [show s.arrived.flatten = bytes ++ rest from hs, drop_left' hlength] at hrest
    refine ⟨{ s with arrived := (gather n s.arrived).2 }, ?_, hrest, hwrites⟩
    simp [readExact, hfirst, hlength]
  blind s t h := by
    have hfirst : (gather n s.arrived).1 = (gather n t.arrived).1 := by
      rw [(gather_eq n _).1, (gather_eq n _).1]
      exact congrArg (·.take n) h.stream
    have hrest : (gather n s.arrived).2.flatten = (gather n t.arrived).2.flatten := by
      rw [(gather_eq n _).2, (gather_eq n _).2]
      exact congrArg (·.drop n) h.stream
    simp only [readExact, hfirst, h.closed]
    split
    · exact ⟨rfl, hrest, rfl, h.writes, h.written⟩
    · split
      · exact ⟨rfl, hrest, rfl, h.writes, h.written⟩
      · exact ⟨rfl, h⟩
  grows s := (quiet_readExact eof n s).symm ▸ prefix_rfl

theorem written_writeAll {broken : ε} {bytes : Bytes}
    (h : (writeAll broken bytes).run s = (.done (), s')) :
    s'.written = s.written ++ bytes ∧ s'.stream = s.stream := by
  simp only [writeAll] at h
  split at h
  · cases h
  · cases h
    exact ⟨rfl, rfl⟩
  · cases h
    exact ⟨rfl, rfl⟩

theorem reads_writeAll : Reads (writeAll broken bytes) fun taken _ => taken = [] where
  consumes s a s' h := ⟨[], rfl, (written_writeAll h).2.symm⟩
  accepts := by
    rintro _ _ rfl s rest hs hwrites
    refine ⟨{ s with written := s.written ++ bytes }, ?_, hs, hwrites⟩
    simp [writeAll, hwrites]
  blind s t h := by
    simp only [writeAll, h.writes, h.written]
    split <;> exact ⟨rfl, h.stream, h.closed, rfl, rfl⟩
  grows s := by
    simp only [writeAll]
    split <;> exact prefix_append _ _

/-! The relation of a program, read off its text. -/

section

variable {S : α → Bytes → β → Prop} {eof broken error bytes} {c : Prop}

theorem Reads.readThen {n : Nat} {f : Bytes → Talk ε α}
    {S : Bytes → Bytes → α → Prop} (hf : ∀ read, Reads (f read) (S read)) :
    Reads (readExact eof n >>= f) fun bytes a =>
      ∃ read rest, read.length = n ∧ bytes = read ++ rest ∧ S read rest a := by
  refine ((reads_readExact eof n).bind hf).congr fun bytes a => ⟨?_, ?_⟩
  · rintro ⟨_, read, rest, ⟨rfl, hlength⟩, hS, rfl⟩
    exact ⟨_, rest, hlength, rfl, hS⟩
  · rintro ⟨read, rest, hlength, rfl, hS⟩
    exact ⟨_, read, rest, ⟨rfl, hlength⟩, hS, rfl⟩

theorem Reads.writeThen {f : Unit → Talk ε α} (hf : Reads (f ()) R) :
    Reads (writeAll broken bytes >>= f) R := by
  refine ((reads_writeAll broken bytes).bind fun _ => hf).congr fun bytes a => ⟨?_, ?_⟩
  · rintro ⟨_, _, _, rfl, hR, rfl⟩
    exact hR
  · exact fun hR => ⟨[], (), bytes, rfl, hR, rfl⟩

theorem Reads.exceptThen {result : Except ε α} (hf : ∀ a, Reads (f a) (S a)) :
    Reads (ofExcept result >>= f) fun bytes b => ∃ a, result = .ok a ∧ S a bytes b := by
  refine ((reads_ofExcept result).bind hf).congr fun bytes b => ⟨?_, ?_⟩
  · rintro ⟨_, a, _, ⟨rfl, hresult⟩, hS, rfl⟩
    exact ⟨a, hresult, hS⟩
  · rintro ⟨a, hresult, hS⟩
    exact ⟨[], a, bytes, ⟨rfl, hresult⟩, hS, rfl⟩

theorem Reads.provided [Decidable c] (hm : Reads m R) :
    Reads (if c then m else fail error) fun bytes a => c ∧ R bytes a := by
  split
  next hc => exact hm.congr fun _ _ => (and_iff_right hc).symm
  next hc => exact reads_fail error fun _ _ h => hc h.1

theorem Reads.unless [Decidable c] (hm : Reads m R) :
    Reads (if c then fail error else m) fun bytes a => ¬c ∧ R bytes a := by
  rw [← ite_not]
  exact hm.provided

end

end Talk

end VodogeEdge
