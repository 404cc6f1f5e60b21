import Mathlib.Data.List.Infix
import VodogeEdge.Files
import VodogeEdge.Text
import VodogeEdge.Word

/-!
# Enrolment

`ensure`: a machine without an identity exchanges a one-time code for a
device certificate and puts key, certificate and device id down as files of
one directory. What the file system, the TLS library, the key generator and
the cloud answer is the `World` of one run. The log of a run is what it did to
the file system, one operation after the other.

A file's content says where it came from: which issuance, and which part of
it, or the operator.
-/

namespace VodogeEdge.Enroll

open List Logged

open Files (File)

/-! ## Paths -/

structure Path where
  dir : String
  name : String
deriving DecidableEq

def Path.display (path : Path) : String :=
  if path.dir = "" ∨ path.dir.toList.getLast? = some '/' then path.dir ++ path.name
  else path.dir ++ "/" ++ path.name

/-- `Path::file_stem`: up to the last dot, unless nothing stands before it. -/
def fileStem (name : Chars) : Chars :=
  if name = ['.', '.'] then name
  else
    match name.reverse.span (· ≠ '.') with
    | (_, _ :: before) => if before = [] then name else before.reverse
    | (_, []) => name

def nameWithExtension (name extension : String) : String :=
  String.ofList (fileStem name.toList ++ '.' :: extension.toList)

def Path.withExtension (path : Path) (extension : String) : Path :=
  ⟨path.dir, nameWithExtension path.name extension⟩

/-- The files of one directory. -/
structure Paths where
  ca : Path
  certificate : Path
  key : Path
  code : Path
  deviceId : Path

def Paths.inDir (dir : String) : Paths where
  ca := ⟨dir, "ca.crt"⟩
  certificate := ⟨dir, "device.crt"⟩
  key := ⟨dir, "device.key"⟩
  code := ⟨dir, "enroll-code"⟩
  deviceId := ⟨dir, "device-id"⟩

/-! ## Files -/

/-- One issuance of the cloud. -/
structure Issued where
  deviceId : String
  certificatePem : String
  keyPem : String
deriving DecidableEq

inductive Content where
  | empty
  | keyPem (issued : Issued)
  | certificatePem (issued : Issued)
  | deviceId (issued : Issued)
  | placed (text : String)
deriving DecidableEq

instance : EmptyCollection Content := ⟨.empty⟩

def Content.text : Content → String
  | .empty => ""
  | .keyPem issued => issued.keyPem
  | .certificatePem issued => issued.certificatePem
  | .deviceId issued => issued.deviceId
  | .placed text => text

def Content.issued : Content → Option Issued
  | .keyPem issued | .certificatePem issued | .deviceId issued => some issued
  | .empty | .placed _ => none

abbrev FileSystem := Files.Tree Path Content

abbrev FileOp := Files.Op Path Content

def umask : Nat := 0o022

inductive Stage where
  | enrolled
  | fresh
  | keyWithoutCertificate
deriving DecidableEq

variable (paths : Paths) (issued : Issued)

/-- `Paths::stage`: only whether the files exist. -/
def Paths.stage (files : FileSystem) : Stage :=
  match (files paths.certificate).isSome, (files paths.key).isSome with
  | true, true => .enrolled
  | false, true => .keyWithoutCertificate
  | _, _ => .fresh

/-! ## The world of one run -/

inductive EnrollError where
  | needsCode (codePath : Path)
  | needsTrustAnchor (caPath : Path)
  | io (why : String)
  | tls (why : String)
  | refused (status : Nat) (message : String)
  | badResponse (why : String)
  | crypto (why : String)

inductive Value where
  | string (text : String)
  | other

def Value.asStr : Value → Option String
  | .string text => some text
  | .other => none

structure RequestBody where
  tenantId : String
  code : String
  csr : String

/-- What one run meets. -/
structure World where
  /-- The error of an operation after those in the log. -/
  refuses : List FileOp → FileOp → Option String
  readable : Path → Bool
  certificatesFromPem : String → Except String (List Bytes)
  bootstrapConfig : List Bytes → Except String Unit
  newKeyAndCsr : Except String (String × String)
  /-- A JSON document is known by what it has under each name. -/
  fromStr : String → Except String (String → Option Value)
  post : String → RequestBody → Except EnrollError (Nat × String)

/-! ## The answer of the cloud -/

def containsText (text pattern : String) : Bool :=
  text.toList.tails.any pattern.toList.isPrefixOf

variable (world : World)

def parseIssued (body keyPem : String) : Except EnrollError Issued :=
  match world.fromStr body with
  | .error err => .error (.badResponse ("不是 JSON: " ++ err))
  | .ok value =>
    let deviceId := trim (((value "device_id").bind Value.asStr).getD "")
    let certificatePem := ((value "certificate").bind Value.asStr).getD ""
    if deviceId = "" then .error (.badResponse "device_id 是空的")
    else if !containsText certificatePem "BEGIN CERTIFICATE" then
      .error (.badResponse "certificate 不是一份 PEM 证书")
    else .ok ⟨deviceId, certificatePem, keyPem⟩

def refusalMessage (body : String) : String :=
  let said := match world.fromStr body with
    | .error _ => none
    | .ok value => ((value "error").or (value "message")).bind Value.asStr
  said.getD (String.ofList ((trim body).toList.take 200))

def bootstrapTls (caPem : String) : Except EnrollError Unit :=
  match world.certificatesFromPem caPem with
  | .error err => .error (.tls err)
  | .ok anchors =>
    if anchors = [] then .error (.tls "ca.crt 里没有证书")
    else (world.bootstrapConfig anchors).mapError .tls

/-- `parse_credential`: tenant id and code, separated by white space. -/
def parseCredential (raw : String) : Option (String × String) :=
  match (raw.toList.splitOnP isWhitespace).filter (· ≠ []) with
  | [tenant, code] => some (String.ofList tenant, String.ofList code)
  | _ => none

/-! ## Writing -/

abbrev Process := Logged FileOp EnrollError

def perform (op : FileOp) : Process (Except String Unit) :=
  .ofAdded fun log =>
    match world.refuses log op with
    | some err => (.ok (.error err), [])
    | none => (.ok (.ok ()), [op])

/-- `operation.map_err(wrap)?`. -/
def performed (op : FileOp) (wrap : String → EnrollError) : Process Unit := do
  let result ← perform world op
  .ofExcept (result.mapError wrap)

/-- A temporary, then a rename. -/
def writeAtomic (path : Path) (content : Content) (mode : Nat) : Process Unit := do
  let temporary := path.withExtension "tmp"
  performed world (.openTruncate temporary mode) fun err => .io (temporary.display ++ ": " ++ err)
  performed world (.writeAll temporary content) .io
  performed world (.syncAll temporary) .io
  performed world (.rename temporary path) fun err => .io (path.display ++ ": " ++ err)

def writePrivate (path : Path) (content : Content) : Process Unit :=
  writeAtomic world path content 0o600

def writePublic (path : Path) (content : Content) : Process Unit :=
  writeAtomic world path content 0o644

/-- Key, certificate, device id, in this order. -/
def writeIdentity (paths : Paths) (issued : Issued) : Process Unit := do
  writePrivate world paths.key (.keyPem issued)
  writePublic world paths.certificate (.certificatePem issued)
  writePublic world paths.deviceId (.deviceId issued)

/-! ## Enrolling -/

def readText (files : FileSystem) (path : Path) : Option String :=
  if world.readable path then (files path).map fun file => file.content.text else none

def readCredential (files : FileSystem) (path : Path) : Option (String × String) :=
  (readText world files path).bind parseCredential

/-- The part of `ensure` between the look at the stage and the writing. -/
def requestIssued (paths : Paths) (url : String) (files : FileSystem) :
    Except EnrollError Issued := do
  let (tenantId, code) ← match readCredential world files paths.code with
    | some credential => .ok credential
    | none => .error (.needsCode paths.code)
  let caPem ← match readText world files paths.ca with
    | some pem => .ok pem
    | none => .error (.needsTrustAnchor paths.ca)
  bootstrapTls world caPem
  let (keyPem, csrPem) ← world.newKeyAndCsr.mapError .crypto
  let (status, body) ← world.post url ⟨tenantId, code, csrPem⟩
  if status ≠ 200 then .error (.refused status (refusalMessage world body))
  parseIssued world body keyPem

/-- The code is used up. That it could not be removed is said, not an error. -/
def removeCode (paths : Paths) (issued : Issued) : Process (Option String) := do
  match ← perform world (.removeFile paths.code) with
  | .error err =>
    pure (some (issued.deviceId ++ " （注意：" ++ paths.code.display ++ " 删除失败: " ++ err
      ++ "，请手工删掉）"))
  | .ok () => pure (some issued.deviceId)

/-- The part of `ensure` behind the look at the stage, in a directory that was
`start` when the run began. -/
def enroll (paths : Paths) (url : String) (start : FileSystem) : Process (Option String) := do
  let issued ← .ofLog fun log => requestIssued world paths url (Files.after umask start log)
  writeIdentity world paths issued
  removeCode world paths issued

/-- `ensure`: enrols unless an identity is complete. -/
def ensure (dir url : String) (start : FileSystem) : Process (Option String) :=
  let paths := Paths.inDir dir
  match paths.stage start with
  | .enrolled => pure none
  | .keyWithoutCertificate => do
    let _ ← perform world (.removeFile paths.key)
    enroll world paths url start
  | .fresh => enroll world paths url start

/-! ## What a run does to the file system -/

inductive IdentityFile where
  | key
  | certificate
  | deviceId
deriving DecidableEq

def Paths.identity : IdentityFile → Path
  | .key => paths.key
  | .certificate => paths.certificate
  | .deviceId => paths.deviceId

def Issued.part : IdentityFile → Content
  | .key => .keyPem issued
  | .certificate => .certificatePem issued
  | .deviceId => .deviceId issued

def IdentityFile.mode : IdentityFile → Nat
  | .key => 0o600
  | .certificate | .deviceId => 0o644

def replacement (file : IdentityFile) : Files.Replacement Path Content :=
  ⟨(paths.identity file).withExtension "tmp", paths.identity file, issued.part file, file.mode⟩

def replacements : List (Files.Replacement Path Content) :=
  [.key, .certificate, .deviceId].map (replacement paths issued)

/-- The operations of a run that gets an issuance, without the removal of a
key that has no certificate. -/
def script : List FileOp :=
  (replacements paths issued).flatMap Files.Replacement.ops ++ [.removeFile paths.code]

section
variable (world : World) (op : FileOp)

theorem begins_perform : Logged.Begins [op] (perform world op) := by
  intro log
  rw [perform, run_ofAdded]
  cases world.refuses log op with
  | none => exact ⟨[op], rfl, prefix_rfl⟩
  | some err => exact ⟨[], rfl, nil_prefix⟩

theorem follows_performed (wrap : String → EnrollError) :
    Logged.Follows [op] (performed world op wrap) := by
  intro log
  cases h : world.refuses log op with
  | none =>
    have hrun : (perform world op).run log = (.ok (.ok ()), log ++ [op]) := by
      rw [perform, run_ofAdded, h]
    rw [performed, run_bind_of_ok hrun]
    exact ⟨[op], rfl, prefix_rfl, fun _ _ => rfl⟩
  | some err =>
    have hrun : (perform world op).run log = (.ok (.error err), log ++ []) := by
      rw [perform, run_ofAdded, h]
    rw [performed, run_bind_of_ok hrun]
    exact ⟨[], rfl, nil_prefix, fun _ h => nomatch h⟩

theorem follows_writeAtomic (path : Path) (content : Content) (mode : Nat) :
    Logged.Follows (Files.replaceFile (path.withExtension "tmp") path content mode)
      (writeAtomic world path content mode) :=
  (follows_performed world _ _).bind fun _ => (follows_performed world _ _).bind fun _ =>
    (follows_performed world _ _).bind fun _ => follows_performed world _ _

variable (paths : Paths)

theorem follows_writeIdentity (issued : Issued) :
    Logged.Follows ((replacements paths issued).flatMap Files.Replacement.ops)
      (writeIdentity world paths issued) := by
  have hkey := follows_writeAtomic world paths.key (.keyPem issued) 0o600
  have hcertificate := follows_writeAtomic world paths.certificate (.certificatePem issued) 0o644
  have hdeviceId := follows_writeAtomic world paths.deviceId (.deviceId issued) 0o644
  exact hkey.bind fun _ => hcertificate.bind fun _ => hdeviceId

theorem begins_removeCode (issued : Issued) :
    Logged.Begins [.removeFile paths.code] (removeCode world paths issued) := by
  refine (begins_perform world _).bind (fun _ _ h => h) ?_
  rintro added (err | _) h <;> exact adds_pure (by rwa [append_nil])

theorem adds_enroll (url : String) (start : FileSystem) :
    Logged.Adds (fun added _ => ∃ issued, added <+: script paths issued)
      (enroll world paths url start) := by
  refine Logged.Adds.bind (P := fun added _ => added = [])
    (fun log => ⟨[], (append_nil log).symm, rfl⟩) ?_ ?_
  · rintro added error rfl
    exact ⟨⟨"", "", ""⟩, nil_prefix⟩
  · rintro added issued rfl
    have hwrites := (follows_writeIdentity world paths issued).bind_begins fun _ =>
      begins_removeCode world paths issued
    exact hwrites.mono fun later _ h => ⟨issued, h⟩

/-- Where a run may stop: it has removed the key or not, and it has written
the beginning of the script for one issuance. -/
def Stopped (ops : List FileOp) : Prop :=
  ∃ removal issued front, (removal = [] ∨ removal = [.removeFile paths.key])
    ∧ front <+: script paths issued ∧ ops = removal ++ front

theorem stopped_nil : Stopped paths [] :=
  ⟨[], ⟨"", "", ""⟩, [], .inl rfl, nil_prefix, rfl⟩

theorem Stopped.of_prefix {paths : Paths} {ops front : List FileOp} (h : Stopped paths ops)
    (hfront : front <+: ops) : Stopped paths front := by
  obtain ⟨removal, issued, written, hremoval, hwritten, rfl⟩ := h
  rcases prefix_append_cases hfront with hfront | ⟨more, hmore, rfl⟩
  · refine ⟨front, issued, [], ?_, nil_prefix, (append_nil front).symm⟩
    rcases hremoval with rfl | rfl
    · exact .inl (prefix_nil.mp hfront)
    · exact prefix_singleton_cases hfront
  · exact ⟨removal, issued, more, hremoval, hmore.trans hwritten, rfl⟩

theorem adds_stopped_ensure (dir url : String) (start : FileSystem) :
    Logged.Adds (fun added _ => Stopped (Paths.inDir dir) added) (ensure world dir url start) := by
  have henroll := adds_enroll world (Paths.inDir dir) url start
  unfold ensure
  dsimp only
  split
  · exact adds_pure (stopped_nil _)
  · refine (begins_perform world _).bind ?_ ?_
    · rintro added error h
      exact ⟨added, ⟨"", "", ""⟩, [], prefix_singleton_cases h, nil_prefix, (append_nil _).symm⟩
    · rintro added result h
      refine henroll.mono ?_
      rintro later _ ⟨issued, hlater⟩
      exact ⟨added, issued, later, prefix_singleton_cases h, hlater, rfl⟩
  · refine henroll.mono ?_
    rintro added _ ⟨issued, hadded⟩
    exact ⟨[], issued, added, .inl rfl, hadded, rfl⟩

end

end VodogeEdge.Enroll
