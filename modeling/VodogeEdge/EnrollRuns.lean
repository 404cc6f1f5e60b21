import VodogeEdge.Enroll
import VodogeEdge.Runs

/-!
# One directory over the years

The directory of an agent that enrols again and again: every run may be cut
off between any two operations, and between runs an operator deletes identity
files and puts down codes.

The stage of the directory is read off two files, but the identity is three,
put in place one by one.
-/

namespace VodogeEdge.Enroll

open List Function Option

inductive Event where
  /-- A run that ends, or is cut off, after at most `stopped` operations. -/
  | ensure (world : World) (url : String) (stopped : Nat)
  | delete (file : IdentityFile)
  | placeCode (text : String) (mode : Nat)
  | placeCa (text : String) (mode : Nat)

def operations (dir : String) (files : FileSystem) (world : World) (url : String) (stopped : Nat) :
    List FileOp :=
  ((ensure world dir url files).run []).2.take stopped

def step (dir : String) (files : FileSystem) : Event → FileSystem
  | .ensure world url stopped =>
    Files.after umask files (operations dir files world url stopped)
  | .delete file => Function.update files ((Paths.inDir dir).identity file) none
  | .placeCode text mode =>
    Function.update files (Paths.inDir dir).code (some ⟨.placed text, mode⟩)
  | .placeCa text mode => Function.update files (Paths.inDir dir).ca (some ⟨.placed text, mode⟩)

def emptyDirectory : FileSystem := fun _ => none

/-! ## The files of a directory -/

/-- Key and certificate go through one temporary. -/
def IdentityFile.temporaryName : IdentityFile → String
  | .key | .certificate => "device.tmp"
  | .deviceId => "device-id.tmp"

theorem withExtension_identity (dir : String) (file : IdentityFile) :
    ((Paths.inDir dir).identity file).withExtension "tmp" = ⟨dir, file.temporaryName⟩ := by
  cases file with
  | key =>
    exact congrArg (Path.mk dir)
      (show nameWithExtension "device.key" "tmp" = "device.tmp" by decide +kernel)
  | certificate =>
    exact congrArg (Path.mk dir)
      (show nameWithExtension "device.crt" "tmp" = "device.tmp" by decide +kernel)
  | deviceId =>
    exact congrArg (Path.mk dir)
      (show nameWithExtension "device-id" "tmp" = "device-id.tmp" by decide +kernel)

theorem identity_ne_temporary (dir : String) (file other : IdentityFile) :
    (Paths.inDir dir).identity file ≠ ((Paths.inDir dir).identity other).withExtension "tmp" := by
  rw [withExtension_identity]
  cases file <;> cases other <;>
    simp [Paths.identity, Paths.inDir, IdentityFile.temporaryName]

theorem identity_inj {dir : String} {file other : IdentityFile} :
    (Paths.inDir dir).identity file = (Paths.inDir dir).identity other ↔ file = other := by
  cases file <;> cases other <;> simp [Paths.identity, Paths.inDir]

theorem identity_ne_placed (dir : String) (file : IdentityFile) :
    (Paths.inDir dir).identity file ≠ (Paths.inDir dir).code
      ∧ (Paths.inDir dir).identity file ≠ (Paths.inDir dir).ca := by
  cases file <;> simp [Paths.identity, Paths.inDir]

theorem separate_replacements (dir : String) (issued : Issued) :
    Files.Replacement.Separate (replacements (Paths.inDir dir) issued) := by
  constructor
  · simp [replacements, replacement, identity_inj]
  · intro r hr s hs
    obtain ⟨file, -, rfl⟩ := mem_map.mp hr
    obtain ⟨other, -, rfl⟩ := mem_map.mp hs
    exact identity_ne_temporary dir file other

/-! ## How far a run gets -/

def Puts (dir : String) (file : IdentityFile) (ops : List FileOp) : Prop :=
  .rename (((Paths.inDir dir).identity file).withExtension "tmp") ((Paths.inDir dir).identity file)
    ∈ ops

def WritesKey (dir : String) (issued : Issued) (ops : List FileOp) : Prop :=
  .writeAll ((Paths.inDir dir).key.withExtension "tmp") (.keyPem issued) ∈ ops

def contentAt (files : FileSystem) (path : Path) : Option Content :=
  (files path).map fun file => file.content

/-- What a run leaves of an identity when it ends after `ops`. -/
structure Leaves (dir : String) (before after : FileSystem) (ops : List FileOp) (issued : Issued) :
    Prop where
  new : ∀ file, Puts dir file ops →
    contentAt after ((Paths.inDir dir).identity file) = some (issued.part file)
  old : ∀ file, ¬ Puts dir file ops →
    after ((Paths.inDir dir).identity file) = before ((Paths.inDir dir).identity file)
      ∨ file = .key ∧ after ((Paths.inDir dir).identity file) = none
  key_first : Puts dir .certificate ops → Puts dir .key ops
  certificate_first : Puts dir .deviceId ops → Puts dir .certificate ops
  written : Puts dir .key ops → WritesKey dir issued ops

section
variable {dir : String} {issued : Issued} {front : List FileOp}
  {file : IdentityFile} {removal : List FileOp}

theorem after_removeFile_code (files : FileSystem) (file : IdentityFile) {more : List FileOp}
    (hmore : more <+: [.removeFile (Paths.inDir dir).code]) :
    Files.after umask files more ((Paths.inDir dir).identity file)
      = files ((Paths.inDir dir).identity file) := by
  refine Files.after_of_notMem ?_ files
  intro op hop
  rw [mem_singleton.mp (hmore.subset hop), Files.Op.paths, mem_singleton]
  exact (identity_ne_placed dir file).1

theorem after_script (hfront : front <+: script (Paths.inDir dir) issued) (files : FileSystem)
    (file : IdentityFile) :
    (Puts dir file front →
      contentAt (Files.after umask files front) ((Paths.inDir dir).identity file)
        = some (issued.part file))
    ∧ (¬ Puts dir file front →
      Files.after umask files front ((Paths.inDir dir).identity file)
        = files ((Paths.inDir dir).identity file)) := by
  have hmem : replacement (.inDir dir) issued file ∈ replacements (.inDir dir) issued := by
    cases file <;> simp [replacements]
  rcases prefix_append_cases hfront with hfront | ⟨more, hmore, rfl⟩
  · obtain ⟨hnew, hold⟩ := Files.Replacement.after_front umask (separate_replacements dir issued)
      hfront files _ hmem
    refine ⟨fun hputs => ?_, hold⟩
    obtain ⟨mode, hmode⟩ := hnew hputs
    exact congrArg (Option.map Files.File.content) hmode
  · obtain ⟨hnew, -⟩ := Files.Replacement.after_front umask (separate_replacements dir issued)
      prefix_rfl files _ hmem
    have hall : Puts dir file
        ((replacements (Paths.inDir dir) issued).flatMap Files.Replacement.ops) :=
      mem_flatMap.mpr ⟨_, hmem, Files.Replacement.done_ops _⟩
    refine ⟨fun _ => ?_, fun hputs => absurd (mem_append_left _ hall) hputs⟩
    obtain ⟨mode, hmode⟩ := hnew hall
    rw [contentAt, Files.after_append, after_removeFile_code _ file hmore]
    exact congrArg (Option.map Files.File.content) hmode

theorem not_puts_ops {other : IdentityFile} (hne : file ≠ other) :
    ¬ Puts dir file (replacement (Paths.inDir dir) issued other).ops :=
  Files.Replacement.not_done_of_path_ne (r := replacement (Paths.inDir dir) issued file)
    fun h => hne (identity_inj.mp h)

theorem puts_ops (file : IdentityFile) :
    Puts dir file (replacement (Paths.inDir dir) issued file).ops :=
  Files.Replacement.done_ops _

theorem script_eq (paths : Paths) (issued : Issued) :
    script paths issued = (replacement paths issued .key).ops
      ++ ((replacement paths issued .certificate).ops ++ ((replacement paths issued .deviceId).ops
        ++ [.removeFile paths.code])) := by
  simp [script, replacements]

section

variable (hfront : front <+: script (Paths.inDir dir) issued)
include hfront

theorem puts_key_of_script (h : Puts dir .certificate front) : Puts dir .key front := by
  rw [script_eq] at hfront
  exact Files.Replacement.done_of_done (r := replacement (Paths.inDir dir) issued .key)
    (s := replacement (Paths.inDir dir) issued .certificate) hfront
    (not_puts_ops (by decide)) (puts_ops .key) h

theorem puts_certificate_of_script
    (h : Puts dir .deviceId front) : Puts dir .certificate front := by
  rw [script_eq, ← append_assoc] at hfront
  refine Files.Replacement.done_of_done (r := replacement (Paths.inDir dir) issued .certificate)
    (s := replacement (Paths.inDir dir) issued .deviceId) hfront ?_
    (mem_append_right _ (puts_ops .certificate)) h
  intro hdone
  rcases mem_append.mp hdone with hdone | hdone <;> exact not_puts_ops (by decide) hdone

theorem written_of_script (h : Puts dir .key front) : WritesKey dir issued front := by
  have hwritten : WritesKey dir issued (replacement (Paths.inDir dir) issued .key).ops :=
    mem_cons_of_mem _ mem_cons_self
  rw [script_eq] at hfront
  rcases prefix_append_cases hfront with hfront | ⟨more, -, rfl⟩
  · rwa [Files.eq_replaceFile_of_mem hfront h]
  · exact mem_append_left _ hwritten

end

theorem after_removal (hremoval : removal = [] ∨ removal = [.removeFile (Paths.inDir dir).key])
    (files : FileSystem) (path : Path) :
    Files.after umask files removal path = files path
      ∨ path = (Paths.inDir dir).key ∧ Files.after umask files removal path = none := by
  rcases hremoval with rfl | rfl
  · exact .inl rfl
  · by_cases hpath : path = (Paths.inDir dir).key
    · subst hpath
      exact .inr ⟨rfl, update_self _ _ _⟩
    · exact .inl (update_of_ne hpath _ _)

theorem puts_removal (hremoval : removal = [] ∨ removal = [.removeFile (Paths.inDir dir).key]) :
    Puts dir file (removal ++ front) ↔ Puts dir file front := by
  rcases hremoval with rfl | rfl <;> simp [Puts]

theorem Stopped.leaves {ops : List FileOp} (h : Stopped (Paths.inDir dir) ops)
    (files : FileSystem) : ∃ issued, Leaves dir files (Files.after umask files ops) ops issued := by
  obtain ⟨removal, issued, front, hremoval, hfront, rfl⟩ := h
  refine ⟨issued, ?new, ?old, ?key, ?certificate, ?written⟩
  case new =>
    intro file hputs
    rw [puts_removal hremoval] at hputs
    rw [Files.after_append]
    exact (after_script hfront _ file).1 hputs
  case old =>
    intro file hputs
    rw [puts_removal hremoval] at hputs
    rw [Files.after_append, (after_script hfront _ file).2 hputs]
    refine (after_removal hremoval files _).imp_right (And.imp_left fun hkey => ?_)
    exact identity_inj.mp (hkey.trans rfl)
  case key =>
    rw [puts_removal hremoval, puts_removal hremoval]
    exact puts_key_of_script hfront
  case certificate =>
    rw [puts_removal hremoval, puts_removal hremoval]
    exact puts_certificate_of_script hfront
  case written =>
    rw [puts_removal hremoval]
    exact fun hputs => mem_append_right _ (written_of_script hfront hputs)

theorem stopped_operations (dir : String) (files : FileSystem) (world : World) (url : String)
    (stopped : Nat) : Stopped (Paths.inDir dir) (operations dir files world url stopped) :=
  (adds_stopped_ensure world dir url files).run_nil.of_prefix <| take_prefix _ _

theorem leaves_ensure (dir : String) (files : FileSystem) (world : World) (url : String)
    (stopped : Nat) : ∃ issued, Leaves dir files (step dir files (.ensure world url stopped))
      (operations dir files world url stopped) issued :=
  (stopped_operations dir files world url stopped).leaves files

theorem step_of_enrolled {files : FileSystem}
    (h : (Paths.inDir dir).stage files = .enrolled) (world : World) (url : String)
    (stopped : Nat) : step dir files (.ensure world url stopped) = files := by
  rw [step, operations, ensure, h]
  exact congrArg (Files.after _ files) take_nil

end

/-! ## Identities that belong together -/

/-- What looks like an identity is one: three parts of one issuance. -/
def Consistent (dir : String) (files : FileSystem) : Prop :=
  (Paths.inDir dir).stage files = .enrolled →
    ∃ issued : Issued, ∀ file,
      contentAt files ((Paths.inDir dir).identity file) = some (issued.part file)

/-- A run has an issuance of its own: no file comes from it before. -/
def Own (dir : String) (files : FileSystem) : Event → Prop
  | .ensure world url stopped => ∀ issued,
      WritesKey dir issued (operations dir files world url stopped) →
      ∀ path content, contentAt files path = some content → content.issued ≠ some issued
  | _ => True

/-- No harm is done: a run that puts a key next to an old certificate, or puts
a certificate, goes on to the next file; and a device id is not deleted from a
complete identity. -/
def Careful (dir : String) (files : FileSystem) : Event → Prop
  | .ensure world url stopped =>
    let ops := operations dir files world url stopped
    (Puts dir .key ops → Puts dir .certificate ops
      ∨ files ((Paths.inDir dir).identity .certificate) = none)
    ∧ (Puts dir .certificate ops → Puts dir .deviceId ops)
  | .delete .deviceId => (Paths.inDir dir).stage files ≠ .enrolled
  | _ => True

section
variable {dir : String} {files : FileSystem}

theorem stage_eq_enrolled_iff :
    (Paths.inDir dir).stage files = .enrolled ↔
      (files ((Paths.inDir dir).identity .certificate)).isSome
        ∧ (files ((Paths.inDir dir).identity .key)).isSome := by
  change Paths.stage _ files = _ ↔ (files (Paths.inDir dir).certificate).isSome
    ∧ (files (Paths.inDir dir).key).isSome
  unfold Paths.stage
  cases (files (Paths.inDir dir).certificate).isSome <;>
    cases (files (Paths.inDir dir).key).isSome <;> simp

theorem isSome_of_contentAt {path : Path} {content : Content}
    (h : contentAt files path = some content) : (files path).isSome := by
  rw [← isSome_map, ← contentAt, h]
  rfl

theorem delete_of_ne {file other : IdentityFile} (h : other ≠ file) :
    step dir files (.delete file) ((Paths.inDir dir).identity other)
      = files ((Paths.inDir dir).identity other) :=
  update_of_ne (fun heq => h (identity_inj.mp heq)) _ _

theorem delete_self (file : IdentityFile) :
    step dir files (.delete file) ((Paths.inDir dir).identity file) = none :=
  update_self _ _ _

theorem enrolled_of_delete_deviceId :
    (Paths.inDir dir).stage (step dir files (.delete .deviceId)) = .enrolled ↔
      (Paths.inDir dir).stage files = .enrolled := by
  rw [stage_eq_enrolled_iff, stage_eq_enrolled_iff, delete_of_ne (by decide),
    delete_of_ne (by decide)]

theorem Consistent.congr {later : FileSystem} (h : Consistent dir files)
    (hsame : ∀ file,
      later ((Paths.inDir dir).identity file) = files ((Paths.inDir dir).identity file)) :
    Consistent dir later := by
  intro hstage
  rw [stage_eq_enrolled_iff, hsame, hsame] at hstage
  simp only [contentAt, hsame]
  exact h (stage_eq_enrolled_iff.mpr hstage)

variable {event : Event} {file : IdentityFile} {url : String} {stopped : Nat} {world : World}

theorem consistent_delete (hcareful : Careful dir files (.delete file)) :
    Consistent dir (step dir files (.delete file)) := by
  intro hstage
  obtain ⟨hcertificate, hkey⟩ := stage_eq_enrolled_iff.mp hstage
  cases file with
  | key =>
    rw [delete_self] at hkey
    cases hkey
  | certificate =>
    rw [delete_self] at hcertificate
    cases hcertificate
  | deviceId => exact absurd (enrolled_of_delete_deviceId.mp hstage) hcareful

/-- A run that does no harm keeps the identity consistent. -/
theorem consistent_ensure (hconsistent : Consistent dir files)
    (hcareful : Careful dir files (.ensure world url stopped)) :
    Consistent dir (step dir files (.ensure world url stopped)) := by
  obtain ⟨hcertificate, hdeviceId⟩ := hcareful
  obtain ⟨issued, hleaves⟩ := leaves_ensure dir files world url stopped
  by_cases henrolled : (Paths.inDir dir).stage files = .enrolled
  · rwa [step_of_enrolled henrolled]
  intro hstage
  obtain ⟨hafter, hkeyAfter⟩ := stage_eq_enrolled_iff.mp hstage
  have hputs : Puts dir .certificate (operations dir files world url stopped) := by
    by_contra hnot
    -- then the certificate is the old one, and there was no key next to it
    rw [(hleaves.old .certificate hnot).resolve_right fun h => nomatch h.1] at hafter
    by_cases hkey : Puts dir .key (operations dir files world url stopped)
    · rcases hcertificate hkey with h | h
      · exact hnot h
      · rw [h] at hafter
        cases hafter
    · rcases hleaves.old .key hkey with h | ⟨-, h⟩
      · rw [h] at hkeyAfter
        exact henrolled (stage_eq_enrolled_iff.mpr ⟨hafter, hkeyAfter⟩)
      · rw [h] at hkeyAfter
        cases hkeyAfter
  refine ⟨issued, fun file => hleaves.new file ?_⟩
  cases file with
  | key => exact hleaves.key_first hputs
  | certificate => exact hputs
  | deviceId => exact hdeviceId hputs

theorem consistent_step (hconsistent : Consistent dir files) (hcareful : Careful dir files event) :
    Consistent dir (step dir files event) := by
  cases event with
  | ensure world url stopped => exact consistent_ensure hconsistent hcareful
  | delete file => exact consistent_delete hcareful
  | placeCode text mode =>
    exact hconsistent.congr fun file => update_of_ne (identity_ne_placed dir file).1 _ _
  | placeCa text mode =>
    exact hconsistent.congr fun file => update_of_ne (identity_ne_placed dir file).2 _ _

theorem Leaves.not_old {issued : Issued}
    (h : Leaves dir files (step dir files (.ensure world url stopped))
      (operations dir files world url stopped) issued)
    (hown : Own dir files (.ensure world url stopped))
    (hkey : Puts dir .key (operations dir files world url stopped)) (hfile : file ≠ .key)
    (hcontent : contentAt (step dir files (.ensure world url stopped))
      ((Paths.inDir dir).identity file) = some (issued.part file)) :
    Puts dir file (operations dir files world url stopped) := by
  by_contra hnot
  rw [contentAt, (h.old file hnot).resolve_right fun h => hfile h.1] at hcontent
  refine hown issued (h.written hkey) _ _ hcontent ?_
  cases file <;> rfl

theorem careful_ensure (hown : Own dir files (.ensure world url stopped))
    (hafter : Consistent dir (step dir files (.ensure world url stopped))) :
    Careful dir files (.ensure world url stopped) := by
  obtain ⟨issued, hleaves⟩ := leaves_ensure dir files world url stopped
  -- with a new key, whatever else is there has to be new too
  have hnew : Puts dir .key (operations dir files world url stopped) →
      (step dir files (.ensure world url stopped)
        ((Paths.inDir dir).identity .certificate)).isSome →
      ∀ file, file ≠ .key → Puts dir file (operations dir files world url stopped) := by
    intro hkey hcertificate file hfile
    obtain ⟨issued', hparts⟩ := hafter (stage_eq_enrolled_iff.mpr
      ⟨hcertificate, isSome_of_contentAt (hleaves.new .key hkey)⟩)
    cases (hparts .key).symm.trans (hleaves.new .key hkey)
    exact hleaves.not_old hown hkey hfile (hparts file)
  constructor
  · intro hkey
    by_contra hnot
    obtain ⟨hcertificate, hfile⟩ := not_or.mp hnot
    refine hcertificate (hnew hkey ?_ .certificate (by decide))
    rw [(hleaves.old .certificate hcertificate).resolve_right fun h => nomatch h.1]
    exact isSome_iff_ne_none.mpr hfile
  · intro hcertificate
    exact hnew (hleaves.key_first hcertificate)
      (isSome_of_contentAt (hleaves.new .certificate hcertificate)) .deviceId (by decide)

theorem careful_of_consistent (hown : Own dir files event)
    (hafter : Consistent dir (step dir files event)) : Careful dir files event := by
  cases event with
  | ensure world url stopped => exact careful_ensure hown hafter
  | delete file =>
    cases file with
    | deviceId =>
      intro hstage
      obtain ⟨issued, hparts⟩ := hafter (enrolled_of_delete_deviceId.mpr hstage)
      have hdeviceId := isSome_of_contentAt (hparts .deviceId)
      rw [delete_self] at hdeviceId
      cases hdeviceId
    | key | certificate => trivial
  | placeCode | placeCa => trivial

end

/-- Where each enrolment has an issuance of its own, what looks enrolled is
always one identity exactly if no cut and no deletion does harm. -/
theorem identity_consistent_iff (dir : String) (events : List Event)
    (hown : Along (step dir) (Own dir) emptyDirectory events) :
    (∀ front, front <+: events → Consistent dir (runFrom (step dir) emptyDirectory front))
      ↔ Along (step dir) (Careful dir) emptyDirectory events := by
  constructor
  · intro hconsistent
    refine (along_iff_before events).mpr fun before event hbefore => ?_
    have hafter := hconsistent _ hbefore
    rw [runFrom_snoc] at hafter
    exact careful_of_consistent ((along_iff_before events).mp hown before event hbefore) hafter
  · rintro hcareful front ⟨rest, rfl⟩
    obtain ⟨hfront, -⟩ := (Along.append front rest).mp hcareful
    refine Along.invariant (fun _ _ => consistent_step) front ?_ hfront
    intro hstage
    cases hstage

def World.granting (issued : Issued) : World where
  refuses _ _ := none
  readable _ := true
  certificatesFromPem _ := .ok [[0x30]]
  bootstrapConfig _ := .ok ()
  newKeyAndCsr := .ok (issued.keyPem, "")
  fromStr _ := .ok fun name =>
    if name = "device_id" then some (.string issued.deviceId)
    else if name = "certificate" then some (.string issued.certificatePem)
    else none
  post _ _ := .ok (200, "")

def firstIssued : Issued := ⟨"d1", "BEGIN CERTIFICATE 1", "BEGIN PRIVATE KEY 1"⟩

/-- A first enrolment that is cut off after `stopped` operations. -/
def firstEnrolment (stopped : Nat) : List Event :=
  [.placeCa "ca" 0o644, .placeCode "tenant code" 0o600,
    .ensure (.granting firstIssued) "https://127.0.0.1:1/v1/enroll" stopped]

/-- A first enrolment that is not cut off. -/
theorem identity_consistent_firstEnrolment :
    Consistent "etc" (runFrom (step "etc") emptyDirectory (firstEnrolment 14)) := by
  have hown : Along (step "etc") (Own "etc") emptyDirectory (firstEnrolment 14) := by
    refine ⟨trivial, trivial, ?_, trivial⟩
    intro issued _ path content hcontent
    obtain ⟨file, hfile, rfl⟩ := map_eq_some_iff.mp hcontent
    have hplaced : update (update emptyDirectory _ _) _ _ path = some file :=
      hfile
    simp only [update_apply] at hplaced
    split_ifs at hplaced
    · cases hplaced
      exact (some_ne_none issued).symm
    · cases hplaced
      exact (some_ne_none issued).symm
    · cases hplaced
  refine (identity_consistent_iff "etc" (firstEnrolment 14) hown).mpr ?_ _ prefix_rfl
  refine ⟨trivial, trivial, ⟨fun _ => .inl ?_, fun _ => ?_⟩, trivial⟩
  · unfold Puts
    decide +kernel
  · unfold Puts
    decide +kernel

/-- Cut off between the certificate and the device id, the enrolment looks
finished. -/
theorem cut_enrolment_inconsistent :
    ¬ Consistent "etc" (runFrom (step "etc") emptyDirectory (firstEnrolment 8)) := by
  intro h
  obtain ⟨issued, hparts⟩ := h (by decide +kernel)
  have hdeviceId : contentAt (runFrom (step "etc") emptyDirectory (firstEnrolment 8))
      ((Paths.inDir "etc").identity .deviceId) = none := by decide +kernel
  have hpart := hparts .deviceId
  rw [hdeviceId] at hpart
  cases hpart

end VodogeEdge.Enroll
