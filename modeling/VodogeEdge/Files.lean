import Mathlib.Logic.Function.Basic
import VodogeEdge.Logged

/-!
# Files and interrupted writers

Files with a content and permission bits, the operations a program changes
them with, and what is left when it stops between any two. A mode counts
only where the file is created.

A file is replaced by way of a temporary next to it. Stopped anywhere before
the rename, the replacement changes nothing but the temporary; the temporary
keeps the mode it was first created with, whoever opens it later.
-/

namespace VodogeEdge.Files

open List Function

structure File (κ : Type) where
  content : κ
  mode : Nat
deriving DecidableEq

abbrev Tree (π κ : Type) := π → Option (File κ)

inductive Op (π κ : Type) where
  | openTruncate (path : π) (mode : Nat)
  | writeAll (path : π) (content : κ)
  | syncAll (path : π)
  | rename (source target : π)
  | removeFile (path : π)
deriving DecidableEq

/-- The permission bits of a file created with `mode`. -/
def created (umask mode : Nat) : Nat := mode &&& (0o777 ^^^ umask)

variable {π κ : Type} [DecidableEq π] [EmptyCollection κ] (umask : Nat)

/-- The bits of `path` after it was opened for writing with `mode`. -/
def openedMode (tree : Tree π κ) (path : π) (mode : Nat) : Nat :=
  match tree path with
  | some file => file.mode
  | none => created umask mode

def Op.apply (tree : Tree π κ) : Op π κ → Tree π κ
  | .openTruncate path mode =>
    Function.update tree path (some ⟨∅, openedMode umask tree path mode⟩)
  | .writeAll path content =>
    Function.update tree path ((tree path).map fun file => ⟨content, file.mode⟩)
  | .syncAll _ => tree
  | .rename source target =>
    match tree source with
    | none => tree
    | some file => Function.update (Function.update tree source none) target (some file)
  | .removeFile path => Function.update tree path none

def after (tree : Tree π κ) (ops : List (Op π κ)) : Tree π κ := ops.foldl (Op.apply umask) tree

@[simp] theorem after_nil (tree : Tree π κ) : after umask tree [] = tree := rfl

theorem after_append (tree : Tree π κ) (first second : List (Op π κ)) :
    after umask tree (first ++ second) = after umask (after umask tree first) second :=
  foldl_append

/-! ## What stays as it was -/

def Op.paths : Op π κ → List π
  | .openTruncate path _ | .writeAll path _ | .removeFile path => [path]
  | .syncAll _ => []
  | .rename source target => [source, target]

variable {umask} in
theorem Op.apply_of_notMem {tree : Tree π κ} {op : Op π κ} {path : π} (h : path ∉ op.paths) :
    op.apply umask tree path = tree path := by
  cases op with
  | openTruncate | writeAll | removeFile => exact update_of_ne (ne_of_not_mem_cons h) _ _
  | syncAll other => rfl
  | rename source target =>
    have hsource : path ≠ source := ne_of_not_mem_cons h
    have htarget : path ≠ target :=
      ne_of_not_mem_cons (not_mem_of_not_mem_cons h)
    cases hfile : tree source with
    | none => simp only [Op.apply, hfile]
    | some file => simp only [Op.apply, hfile, update_of_ne htarget, update_of_ne hsource]

variable {umask} in
theorem after_of_notMem {ops : List (Op π κ)} {path : π} (h : ∀ op ∈ ops, path ∉ op.paths)
    (tree : Tree π κ) : after umask tree ops path = tree path := by
  induction ops generalizing tree with
  | nil => rfl
  | cons op ops ih =>
    obtain ⟨hop, hops⟩ := forall_mem_cons.mp h
    exact (ih hops _).trans (Op.apply_of_notMem hop)

/-! ## Replacing a file -/

def replaceFile (temporary path : π) (content : κ) (mode : Nat) : List (Op π κ) :=
  [.openTruncate temporary mode, .writeAll temporary content, .syncAll temporary,
    .rename temporary path]

section
variable {temporary path : π} {content : κ} {mode : Nat} {front : List (Op π κ)} (tree : Tree π κ)

theorem after_openTruncate_writeAll :
    after umask tree [.openTruncate temporary mode, .writeAll temporary content]
      = update tree temporary (some ⟨content, openedMode umask tree temporary mode⟩) := by
  simp [after, Op.apply]

theorem after_replaceFile :
    after umask tree (replaceFile temporary path content mode)
      = update (update tree temporary none) path
        (some ⟨content, openedMode umask tree temporary mode⟩) := by
  change after umask tree ([.openTruncate temporary mode, .writeAll temporary content]
    ++ [.syncAll temporary, .rename temporary path]) = _
  rw [after_append, after_openTruncate_writeAll]
  simp [after, Op.apply]

theorem after_replaceFile_self :
    after umask tree (replaceFile temporary path content mode) path
      = some ⟨content, openedMode umask tree temporary mode⟩ := by
  rw [after_replaceFile, update_self]

section

variable (hfront : front <+: replaceFile temporary path content mode)
include hfront

/-- A content that was written is in the temporary or in its place, with the
mode of the temporary. -/
theorem exists_written (hwritten : .writeAll temporary content ∈ front) (tree : Tree π κ) :
    ∃ place, after umask tree front place
      = some ⟨content, openedMode umask tree temporary mode⟩ := by
  have hopened : after umask tree [.openTruncate temporary mode, .writeAll temporary content]
      temporary = some ⟨content, openedMode umask tree temporary mode⟩ := by
    rw [after_openTruncate_writeAll, update_self]
  rcases prefix_concat_iff.mp (show front <+: [.openTruncate temporary mode,
    .writeAll temporary content, .syncAll temporary] ++ [.rename temporary path] from hfront)
    with rfl | hfront
  · exact ⟨path, after_replaceFile_self umask tree⟩
  rcases prefix_concat_iff.mp (show front <+: [.openTruncate temporary mode,
    .writeAll temporary content] ++ [.syncAll temporary] from hfront) with rfl | hfront
  · exact ⟨temporary, hopened⟩
  rcases prefix_concat_iff.mp (show front <+: [.openTruncate temporary mode]
    ++ [.writeAll temporary content] from hfront) with rfl | hfront
  · exact ⟨temporary, hopened⟩
  · have := hfront.subset hwritten
    simp at this

theorem after_of_prefix_replaceFile (hrename : .rename temporary path ∉ front) {other : π}
    (hne : other ≠ temporary) (tree : Tree π κ) : after umask tree front other = tree other := by
  refine after_of_notMem ?_ tree
  intro op hop
  have hmem := hfront.subset hop
  simp only [replaceFile, mem_cons, not_mem_nil, or_false] at hmem
  rcases hmem with rfl | rfl | rfl | rfl
  · simpa [Op.paths] using hne
  · simpa [Op.paths] using hne
  · simp [Op.paths]
  · exact absurd hop hrename

omit [DecidableEq π] [EmptyCollection κ] in
theorem eq_replaceFile_of_mem (hrename : .rename temporary path ∈ front) :
    front = replaceFile temporary path content mode := by
  rcases prefix_concat_iff.mp (show front <+: [.openTruncate temporary mode,
    .writeAll temporary content, .syncAll temporary] ++ [.rename temporary path] from hfront)
    with h | h
  · exact h
  · have := h.subset hrename
    simp at this

end

end

/-! ## What holds of every file -/

def Everywhere (P : File κ → Prop) (tree : Tree π κ) : Prop :=
  ∀ path file, tree path = some file → P file

section
variable {P : File κ → Prop} {tree : Tree π κ}

omit [EmptyCollection κ] in
theorem Everywhere.update (h : Everywhere P tree) (path : π) {new : Option (File κ)}
    (hnew : ∀ file, new = some file → P file) : Everywhere P (update tree path new) := by
  intro other file hfile
  rw [update_apply] at hfile
  split_ifs at hfile
  · exact hnew file hfile
  · exact h other file hfile

theorem Everywhere.apply (hblank : ∀ mode, P ⟨∅, mode⟩) {op : Op π κ}
    (hop : ∀ path content mode, op = .writeAll path content → P ⟨content, mode⟩)
    (h : Everywhere P tree) : Everywhere P (op.apply umask tree) := by
  cases op with
  | openTruncate path mode =>
    refine h.update path ?_
    rintro _ ⟨⟩
    exact hblank _
  | writeAll path content =>
    refine h.update path fun file hfile => ?_
    obtain ⟨old, -, rfl⟩ := Option.map_eq_some_iff.mp hfile
    exact hop path content old.mode rfl
  | syncAll path => exact h
  | removeFile path => exact h.update path fun _ hfile => nomatch hfile
  | rename source target =>
    cases hsource : tree source with
    | none => simpa only [Op.apply, hsource] using h
    | some file =>
      have hgone : Everywhere P (Function.update tree source none) :=
        h.update source fun _ hfile => nomatch hfile
      simp only [Op.apply, hsource]
      refine hgone.update target ?_
      rintro _ ⟨⟩
      exact h source file hsource

theorem Everywhere.after (hblank : ∀ mode, P ⟨∅, mode⟩) {ops : List (Op π κ)}
    (hops : ∀ path content mode, .writeAll path content ∈ ops → P ⟨content, mode⟩)
    (h : Everywhere P tree) : Everywhere P (after umask tree ops) := by
  induction ops generalizing tree with
  | nil => exact h
  | cons op ops ih =>
    refine ih (fun path content mode hmem => hops path content mode (mem_cons_of_mem _ hmem))
      (h.apply umask hblank ?_)
    rintro path content mode rfl
    exact hops path content mode mem_cons_self

end

/-! ## Several files, one after the other -/

structure Replacement (π κ : Type) where
  temporary : π
  path : π
  content : κ
  mode : Nat

namespace Replacement

def ops (r : Replacement π κ) : List (Op π κ) := replaceFile r.temporary r.path r.content r.mode

def Done (r : Replacement π κ) (ops : List (Op π κ)) : Prop := .rename r.temporary r.path ∈ ops

/-- Different files, and none of them a temporary. Temporaries may be shared. -/
def Separate (rs : List (Replacement π κ)) : Prop :=
  rs.Pairwise (fun r s => r.path ≠ s.path) ∧ ∀ r ∈ rs, ∀ s ∈ rs, r.path ≠ s.temporary

variable {r : Replacement π κ} {rs : List (Replacement π κ)} {front : List (Op π κ)} {other : π}

omit [DecidableEq π] [EmptyCollection κ] in
theorem done_ops (r : Replacement π κ) : r.Done r.ops := by
  simp [Done, ops, replaceFile]

omit [DecidableEq π] [EmptyCollection κ] in
theorem not_done_of_path_ne {s : Replacement π κ} (h : r.path ≠ s.path) : ¬ r.Done s.ops := by
  simp [Done, ops, replaceFile, h]

omit [DecidableEq π] [EmptyCollection κ] in
theorem notMem_paths {other : π} (htemporary : other ≠ r.temporary) (hpath : other ≠ r.path)
    {op : Op π κ} (hop : op ∈ r.ops) : other ∉ op.paths := by
  simp only [ops, replaceFile, mem_cons, not_mem_nil, or_false] at hop
  rcases hop with rfl | rfl | rfl | rfl <;> simp [Op.paths, htemporary, hpath]

theorem after_ops_of_ne (htemporary : other ≠ r.temporary) (hpath : other ≠ r.path)
    (hfront : front <+: r.ops) (tree : Tree π κ) : after umask tree front other = tree other :=
  after_of_notMem (fun _ hop => notMem_paths htemporary hpath (hfront.subset hop)) tree

theorem after_front_of_ne (h : ∀ r ∈ rs, other ≠ r.temporary ∧ other ≠ r.path)
    (hfront : front <+: rs.flatMap ops) (tree : Tree π κ) :
    after umask tree front other = tree other := by
  refine after_of_notMem ?_ tree
  intro op hop
  obtain ⟨r, hr, hmem⟩ := mem_flatMap.mp (hfront.subset hop)
  exact notMem_paths (h r hr).1 (h r hr).2 hmem

omit [DecidableEq π] [EmptyCollection κ] in
theorem done_of_done {s : Replacement π κ} {first later : List (Op π κ)}
    (hfront : front <+: first ++ later) (hfirst : ¬ s.Done first) (hr : r.Done first)
    (hdone : s.Done front) : r.Done front := by
  rcases prefix_append_cases hfront with hfront | ⟨more, -, rfl⟩
  · exact absurd (hfront.subset hdone) hfirst
  · exact mem_append_left _ hr

theorem after_front_one (hne : r.path ≠ r.temporary) (hfront : front <+: r.ops) (tree : Tree π κ) :
    (r.Done front → ∃ mode, after umask tree front r.path = some ⟨r.content, mode⟩)
      ∧ (¬ r.Done front → after umask tree front r.path = tree r.path) := by
  constructor
  · intro hdone
    rw [eq_replaceFile_of_mem hfront hdone]
    exact ⟨_, after_replaceFile_self umask tree⟩
  · intro hdone
    exact after_of_prefix_replaceFile umask hfront hdone hne tree

/-- What one cut leaves of several replacements: the files that were moved to
their places are new, the others are what they were. -/
theorem after_front (hsep : Separate rs) (hfront : front <+: rs.flatMap ops) (tree : Tree π κ) :
    ∀ r ∈ rs, (r.Done front → ∃ mode, after umask tree front r.path = some ⟨r.content, mode⟩)
      ∧ (¬ r.Done front → after umask tree front r.path = tree r.path) := by
  induction rs generalizing front tree with
  | nil => exact fun r hr => absurd hr not_mem_nil
  | cons first rs ih =>
    obtain ⟨⟨hpaths, hpairs⟩, htemporaries⟩ := And.imp_left pairwise_cons.mp hsep
    have hfirst : first.path ≠ first.temporary :=
      htemporaries first mem_cons_self first mem_cons_self
    have hrest : Separate rs := ⟨hpairs, fun r hr s hs =>
      htemporaries r (mem_cons_of_mem _ hr) s (mem_cons_of_mem _ hs)⟩
    -- the later files are untouched by the first replacement
    have hlater : ∀ r ∈ rs, r.path ≠ first.temporary ∧ r.path ≠ first.path := fun r hr =>
      ⟨htemporaries r (mem_cons_of_mem _ hr) first mem_cons_self, (hpaths r hr).symm⟩
    rcases prefix_append_cases hfront with hfront | ⟨more, hmore, rfl⟩
    · intro r hr
      rcases mem_cons.mp hr with rfl | hr
      · exact after_front_one umask hfirst hfront tree
      · obtain ⟨htemporary, hpath⟩ := hlater r hr
        refine ⟨fun hdone => ?_, fun _ => after_ops_of_ne umask htemporary hpath hfront tree⟩
        exact absurd (hfront.subset hdone) (not_done_of_path_ne hpath)
    · intro r hr
      rw [after_append]
      rcases mem_cons.mp hr with rfl | hr
      · refine ⟨fun _ => ?_, fun hdone => absurd (mem_append_left _ r.done_ops) hdone⟩
        rw [after_front_of_ne umask (fun s hs => ⟨htemporaries r mem_cons_self s
          (mem_cons_of_mem _ hs), hpaths s hs⟩) hmore]
        exact ⟨_, after_replaceFile_self umask tree⟩
      · obtain ⟨htemporary, hpath⟩ := hlater r hr
        have hiff : r.Done (first.ops ++ more) ↔ r.Done more :=
          mem_append.trans (or_iff_right (not_done_of_path_ne hpath))
        rw [hiff, ← after_ops_of_ne umask htemporary hpath prefix_rfl tree]
        exact ih hrest hmore _ r hr

end Replacement

end VodogeEdge.Files
