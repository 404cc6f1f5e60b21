import Mathlib.Data.List.Basic

/-!
# A medium whose statements fail one by one

A database without an enclosing transaction commits every statement on
its own, and the process can stop between any two of them. `Disk D`
couples the stored value with the fates of the statements still to come,
chosen by the environment: a statement is committed, refused with an
error the caller sees, or never reached because the process crashed.
No fate left means that everything from here on is committed.

Reads are not statements: they see the stored value as it is.
-/

namespace VodogeEdge

open List

/-- What the environment does to the next statement. -/
inductive Fate where
  | commit
  | refuse
  | crash
deriving DecidableEq

inductive Halt (E : Type*) where
  | failed (error : E)
  | crashed
deriving DecidableEq

def Halt.map {E F : Type*} (f : E → F) : Halt E → Halt F
  | .failed error => .failed (f error)
  | .crashed => .crashed

/-- A stored value and what will happen to the statements issued on it. -/
structure Disk (D : Type*) where
  db : D
  fates : List Fate
deriving DecidableEq

namespace Disk

variable {D E : Type*}

def always (E : Type*) (f : D → D) : D → Except E D := fun db => .ok (f db)

/-- Issues one statement; `refusal` is the error of a refused one. -/
def execute (refusal : E) (disk : Disk D) (statement : D → Except E D) :
    Except (Halt E) Unit × Disk D :=
  match disk.fates with
  | .refuse :: rest => (.error (.failed refusal), ⟨disk.db, rest⟩)
  | .crash :: rest => (.error .crashed, ⟨disk.db, rest⟩)
  | fates =>
    match statement disk.db with
    | .error e => (.error (.failed e), ⟨disk.db, fates.tail⟩)
    | .ok db => (.ok (), ⟨db, fates.tail⟩)

/-- Issues statements in order, up to the first that does not go through. -/
def executeAll (refusal : E) : Disk D → List (D → Except E D) →
    Except (Halt E) Unit × Disk D
  | disk, [] => (.ok (), disk)
  | disk, statement :: rest =>
    match disk.execute refusal statement with
    | (.ok (), disk) => executeAll refusal disk rest
    | (.error halt, disk) => (.error halt, disk)

/-! ## One statement -/

variable (refusal : E) (db : D)

/-- A statement goes through and leaves what it computes, or it leaves the
stored value alone. -/
theorem execute_cases (disk : Disk D) (statement : D → Except E D) :
    (∃ db fates, statement disk.db = .ok db
        ∧ disk.execute refusal statement = (.ok (), ⟨db, fates⟩))
      ∨ (∃ halt fates, disk.execute refusal statement = (.error halt, ⟨disk.db, fates⟩)) := by
  unfold execute
  split
  · exact .inr ⟨_, _, rfl⟩
  · exact .inr ⟨_, _, rfl⟩
  · cases h : statement disk.db with
    | error e => exact .inr ⟨_, _, rfl⟩
    | ok db => exact .inl ⟨db, _, rfl, rfl⟩

theorem execute_unplanned (statement : D → Except E D) :
    (⟨db, []⟩ : Disk D).execute refusal statement =
      match statement db with
      | .error e => (.error (.failed e), ⟨db, []⟩)
      | .ok db => (.ok (), ⟨db, []⟩) := by
  unfold execute
  cases statement db <;> simp

theorem execute_commit (fates : List Fate) (statement : D → Except E D) :
    (⟨db, .commit :: fates⟩ : Disk D).execute refusal statement =
      match statement db with
      | .error e => (.error (.failed e), ⟨db, fates⟩)
      | .ok db => (.ok (), ⟨db, fates⟩) := by
  unfold execute
  cases statement db <;> simp

/-- A statement that cannot fail goes through where only commits are
planned, and only commits are left. -/
theorem execute_always_committed {disk : Disk D} (h : ∀ fate ∈ disk.fates, fate = .commit)
    (f : D → D) :
    ∃ fates, (∀ fate ∈ fates, fate = Fate.commit)
      ∧ disk.execute refusal (always E f) = (.ok (), ⟨f disk.db, fates⟩) := by
  obtain ⟨db, fates⟩ := disk
  cases fates with
  | nil => exact ⟨[], nofun, rfl⟩
  | cons fate rest =>
    obtain rfl : fate = .commit := h fate mem_cons_self
    exact ⟨rest, fun fate hfate => h fate (mem_cons_of_mem _ hfate), rfl⟩

/-! ## A list of statements -/

theorem executeAll_append (refusal : E) : ∀ (disk : Disk D) ss ts,
    disk.executeAll refusal (ss ++ ts) =
      match disk.executeAll refusal ss with
      | (.ok (), disk) => disk.executeAll refusal ts
      | (.error halt, disk) => (.error halt, disk)
  | disk, [], ts => rfl
  | disk, s :: ss, ts => by
    simp only [cons_append, executeAll]
    generalize disk.execute refusal s = r
    obtain ⟨result, disk'⟩ := r
    cases result with
    | error halt => rfl
    | ok u => exact executeAll_append refusal disk' ss ts

def applyAll (db : D) (fs : List (D → D)) : D := fs.foldl (fun db f => f db) db

@[simp] theorem applyAll_nil : applyAll db [] = db := rfl

@[simp] theorem applyAll_cons (f : D → D) (fs : List (D → D)) :
    applyAll db (f :: fs) = applyAll (f db) fs := rfl

theorem applyAll_append (fs gs : List (D → D)) :
    applyAll db (fs ++ gs) = applyAll (applyAll db fs) gs := foldl_append

theorem executeAll_always_unplanned (refusal : E) : ∀ db fs,
    (⟨db, []⟩ : Disk D).executeAll refusal (fs.map (always E)) = (.ok (), ⟨applyAll db fs, []⟩)
  | _, [] => rfl
  | db, f :: fs => executeAll_always_unplanned refusal (f db) fs

/-- A crash planned after `k` statements leaves exactly the first `k`. -/
theorem executeAll_always_crash (refusal : E) : ∀ db (fs : List (D → D)) k,
    ((⟨db, replicate k .commit ++ [.crash]⟩ : Disk D).executeAll refusal
        (fs.map (always E))).1 = (if k < fs.length then .error .crashed else .ok ())
      ∧ ((⟨db, replicate k .commit ++ [.crash]⟩ : Disk D).executeAll refusal
        (fs.map (always E))).2.db = applyAll db (fs.take k)
  | _, [], k => by simp [executeAll]
  | _, _ :: _, 0 => ⟨rfl, rfl⟩
  | db, f :: fs, k + 1 => by
    obtain ⟨hresult, hdb⟩ := executeAll_always_crash refusal (f db) fs k
    simp only [length_cons, Nat.add_lt_add_iff_right]
    exact ⟨hresult, hdb⟩

/-- Whatever the fates, what is stored is what a prefix of the statements
left, the whole list if the call returned. -/
theorem executeAll_always_prefix (refusal : E) : ∀ (disk : Disk D) (fs : List (D → D)),
    ∃ k, (disk.executeAll refusal (fs.map (always E))).2.db = applyAll disk.db (fs.take k)
      ∧ ((disk.executeAll refusal (fs.map (always E))).1 = .ok () → fs.take k = fs)
  | disk, [] => ⟨0, rfl, fun _ => rfl⟩
  | disk, f :: fs => by
    simp only [map_cons, executeAll]
    rcases disk.execute_cases refusal (always E f) with
      ⟨db, fates, hstmt, heq⟩ | ⟨halt, fates, heq⟩
    · cases hstmt
      obtain ⟨k, hdb, hok⟩ := executeAll_always_prefix refusal ⟨f disk.db, fates⟩ fs
      rw [heq]
      refine ⟨k + 1, hdb, fun h => ?_⟩
      rw [take_succ_cons, hok h]
    · rw [heq]
      exact ⟨0, rfl, fun h => by cases h⟩

end Disk

end VodogeEdge
