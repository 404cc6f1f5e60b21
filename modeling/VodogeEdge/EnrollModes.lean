import VodogeEdge.EnrollRuns

/-!
# Who may read the key

The key is written with mode `0600`, through a temporary that it shares with
the certificate, which is written with `0644`. A mode is the mode of whoever
created the temporary: an interrupted certificate leaves a readable temporary,
and the next key is written into it.
-/

namespace VodogeEdge.Enroll

open Files List

def OwnerOnly (file : Files.File Content) : Prop :=
  ∀ issued, file.content = .keyPem issued → file.mode = 0o600

/-- A run that writes a key finds no temporary, or one for the owner alone. -/
def Sealed (dir : String) (files : FileSystem) : Event → Prop
  | .ensure world url stopped => ∀ issued,
      WritesKey dir issued (operations dir files world url stopped) →
      ∀ file, files ((Paths.inDir dir).key.withExtension "tmp") = some file → file.mode = 0o600
  | _ => True

theorem ownerOnly_blank (mode : Nat) : OwnerOnly ⟨∅, mode⟩ := fun _ h => nomatch h

theorem ownerOnly_placed (text : String) (mode : Nat) : OwnerOnly ⟨.placed text, mode⟩ :=
  fun _ h => nomatch h

theorem everywhere_ownerOnly_after {files : FileSystem} {ops : List FileOp}
    (hops : ∀ path issued, .writeAll path (.keyPem issued) ∉ ops)
    (h : Files.Everywhere OwnerOnly files) :
    Files.Everywhere OwnerOnly (Files.after umask files ops) := by
  refine h.after umask ownerOnly_blank fun path content mode hmem => ?_
  rintro issued rfl
  exact absurd hmem (hops path issued)

section
variable {dir : String} {issued : Issued} {front : List FileOp} {files : FileSystem}
  {other : Issued} {removal : List FileOp}

def afterKey (paths : Paths) (issued : Issued) : List FileOp :=
  (replacement paths issued .certificate).ops
    ++ ((replacement paths issued .deviceId).ops ++ [.removeFile paths.code])

theorem notMem_afterKey (paths : Paths) (issued other : Issued) (path : Path) :
    .writeAll path (.keyPem other) ∉ afterKey paths issued := by
  simp [afterKey, replacement, Files.Replacement.ops, replaceFile, Issued.part]

theorem eq_of_mem_script {path : Path}
    (h : .writeAll path (.keyPem other) ∈ script (Paths.inDir dir) issued) :
    path = (Paths.inDir dir).key.withExtension "tmp" ∧ other = issued := by
  rw [script_eq] at h
  rcases mem_append.mp h with h | h
  · simpa [replacement, Files.Replacement.ops, replaceFile, Issued.part, Paths.identity] using h
  · exact absurd h (notMem_afterKey _ issued other path)

theorem openedMode_key (hmode : ∀ file,
      files ((Paths.inDir dir).key.withExtension "tmp") = some file → file.mode = 0o600) :
    openedMode umask files ((Paths.inDir dir).key.withExtension "tmp") 0o600 = 0o600 := by
  unfold openedMode
  split
  next file hfile => exact hmode file hfile
  · decide

/-- The key is written right after its temporary was opened, and never again. -/
theorem eq_opened_append (hfront : front <+: script (Paths.inDir dir) issued)
    (hwrites : WritesKey dir issued front) :
    ∃ rest, front = [.openTruncate ((Paths.inDir dir).key.withExtension "tmp") 0o600,
        .writeAll ((Paths.inDir dir).key.withExtension "tmp") (.keyPem issued)] ++ rest
      ∧ ∀ path other, .writeAll path (.keyPem other) ∉ rest := by
  rcases prefix_append_cases (show front <+: [_, _]
    ++ ([_, _] ++ afterKey (Paths.inDir dir) issued) from hfront) with hfront | ⟨rest, hrest, rfl⟩
  · rcases prefix_concat_iff.mp (show front <+: [_] ++ [_] from hfront) with rfl | hfront
    · exact ⟨[], rfl, fun _ _ => not_mem_nil⟩
    · have hopen := hfront.subset hwrites
      simp at hopen
  · refine ⟨rest, rfl, fun path other hmem => ?_⟩
    rcases mem_append.mp (hrest.subset hmem) with hmem | hmem
    · simp at hmem
    · exact notMem_afterKey _ issued other path hmem

theorem everywhere_ownerOnly_script (hfront : front <+: script (Paths.inDir dir) issued)
    (hmode : WritesKey dir issued front → ∀ file,
      files ((Paths.inDir dir).key.withExtension "tmp") = some file → file.mode = 0o600)
    (h : Files.Everywhere OwnerOnly files) :
    Files.Everywhere OwnerOnly (Files.after umask files front) := by
  by_cases hwrites : WritesKey dir issued front
  · obtain ⟨rest, rfl, hrest⟩ := eq_opened_append hfront hwrites
    rw [after_append, after_openTruncate_writeAll, openedMode_key (hmode hwrites)]
    refine everywhere_ownerOnly_after hrest (h.update _ ?_)
    rintro _ ⟨⟩ other -
    rfl
  · refine everywhere_ownerOnly_after (fun path other hmem => hwrites ?_) h
    obtain ⟨rfl, rfl⟩ := eq_of_mem_script (hfront.subset hmem)
    exact hmem

theorem key_notMem_paths {op : FileOp} (hop : op ∈ afterKey (Paths.inDir dir) issued) :
    (Paths.inDir dir).identity .key ∉ op.paths := by
  have hne : ∀ file, .key ≠ file →
      op ∈ (replacement (Paths.inDir dir) issued file).ops →
      (Paths.inDir dir).identity .key ∉ op.paths := fun file hfile =>
    Files.Replacement.notMem_paths (identity_ne_temporary dir .key file)
      fun h => hfile (identity_inj.mp h)
  rcases mem_append.mp hop with hop | hop
  · exact hne .certificate (by decide) hop
  rcases mem_append.mp hop with hop | hop
  · exact hne .deviceId (by decide) hop
  · rw [mem_singleton.mp hop, Files.Op.paths, mem_singleton]
    exact (identity_ne_placed dir .key).1

/-- A key that was written is somewhere, with the mode of its temporary. -/
theorem exists_key (hfront : front <+: script (Paths.inDir dir) issued)
    (hwrites : WritesKey dir issued front) (files : FileSystem) :
    ∃ place, Files.after umask files front place
      = some ⟨.keyPem issued,
        openedMode umask files ((Paths.inDir dir).key.withExtension "tmp") 0o600⟩ := by
  rw [script_eq] at hfront
  rcases prefix_append_cases hfront with hfront | ⟨more, hmore, rfl⟩
  · exact exists_written umask hfront hwrites files
  · refine ⟨(Paths.inDir dir).identity .key, ?_⟩
    rw [after_append, after_of_notMem fun op hop => key_notMem_paths (hmore.subset hop)]
    exact after_replaceFile_self umask files

/-- What the directory holds under the temporary when the key is written. -/
theorem after_removal_temporary
    (hremoval : removal = [] ∨ removal = [.removeFile (Paths.inDir dir).key]) :
    Files.after umask files removal ((Paths.inDir dir).key.withExtension "tmp")
      = files ((Paths.inDir dir).key.withExtension "tmp") :=
  (after_removal hremoval files _).resolve_right fun h =>
    identity_ne_temporary dir .key .key h.1.symm

theorem writesKey_removal
    (hremoval : removal = [] ∨ removal = [.removeFile (Paths.inDir dir).key]) :
    WritesKey dir other (removal ++ front) ↔ WritesKey dir other front := by
  rcases hremoval with rfl | rfl <;> simp [WritesKey]

theorem ownerOnly_ensure {world : World} {url : String} {stopped : Nat}
    (hbefore : Files.Everywhere OwnerOnly files) :
    Files.Everywhere OwnerOnly (step dir files (.ensure world url stopped)) ↔
      Sealed dir files (.ensure world url stopped) := by
  obtain ⟨removal, issued, front, hremoval, hfront, hops⟩ :=
    stopped_operations dir files world url stopped
  have hkeep : Files.Everywhere OwnerOnly (Files.after umask files removal) := by
    refine everywhere_ownerOnly_after (fun path other hmem => ?_) hbefore
    rcases hremoval with rfl | rfl <;> simp at hmem
  have hsame : ∀ other, WritesKey dir other front → other = issued := fun other hwrites =>
    (eq_of_mem_script (hfront.subset hwrites)).2
  simp only [step, Sealed, hops, after_append, writesKey_removal hremoval]
  constructor
  · intro hafter other hwrites file hfile
    obtain rfl := hsame other hwrites
    obtain ⟨place, hplace⟩ := exists_key hfront hwrites (Files.after umask files removal)
    have hmode := hafter place _ hplace other rfl
    rwa [openedMode, after_removal_temporary hremoval, hfile] at hmode
  · intro hsealed
    refine everywhere_ownerOnly_script hfront (fun hwrites file hfile => ?_) hkeep
    rw [after_removal_temporary hremoval] at hfile
    exact hsealed issued hwrites file hfile

theorem ownerOnly_step {event : Event} (hbefore : Files.Everywhere OwnerOnly files) :
    Files.Everywhere OwnerOnly (step dir files event) ↔ Sealed dir files event := by
  cases event with
  | ensure world url stopped => exact ownerOnly_ensure hbefore
  | delete file => exact iff_of_true (hbefore.update _ fun _ h => nomatch h) trivial
  | placeCode text mode | placeCa text mode =>
    refine iff_of_true (hbefore.update _ ?_) trivial
    rintro _ ⟨⟩
    exact ownerOnly_placed text mode

end

/-- No file with a key in it is ever for anyone but its owner exactly if every
key is written into a temporary that is new or for its owner alone. -/
theorem key_ownerOnly_iff (dir : String) (events : List Event) :
    (∀ front, front <+: events →
      Files.Everywhere OwnerOnly (runFrom (step dir) emptyDirectory front))
      ↔ Along (step dir) (Sealed dir) emptyDirectory events := by
  constructor
  · intro h
    refine (along_iff_before events).mpr fun before event hbefore => ?_
    have hafter := h _ hbefore
    rw [runFrom_snoc] at hafter
    exact (ownerOnly_step (h before ((prefix_append _ _).trans hbefore))).mp hafter
  · rintro hsealed front ⟨rest, rfl⟩
    obtain ⟨hfront, -⟩ := (Along.append front rest).mp hsealed
    refine Along.invariant (I := Files.Everywhere OwnerOnly)
      (fun _ _ hbefore => (ownerOnly_step hbefore).mpr) front ?_ hfront
    rintro path file ⟨⟩

def secondIssued : Issued := ⟨"d2", "BEGIN CERTIFICATE 2", "BEGIN PRIVATE KEY 2"⟩

/-- A first enrolment cut off when the temporary of its certificate was opened,
and a second one that is not. -/
def cutAndRepeated : List Event :=
  firstEnrolment 5 ++ [.placeCode "tenant code2" 0o600,
    .ensure (.granting secondIssued) "https://127.0.0.1:1/v1/enroll" 14]

/-- The second key is for everyone to read. -/
theorem repeated_key_readable :
    ¬ Files.Everywhere OwnerOnly (runFrom (step "etc") emptyDirectory cutAndRepeated) := by
  intro h
  have hkey : runFrom (step "etc") emptyDirectory cutAndRepeated (Paths.inDir "etc").key
      = some ⟨.keyPem secondIssued, 0o644⟩ := by decide +kernel
  exact absurd (h _ _ hkey secondIssued rfl) (by decide)

end VodogeEdge.Enroll
