import KaonicComm.Lib.Runs
import KaonicComm.Ota.Text
import Mathlib.Logic.Function.Basic

/-!
# The updater `kaonic-ota`

The server starts with `validate_app_file` and then answers uploads, each in a thread of its own. One step is one file
operation, one call of `systemctl` or one answer; a copy by `shutil.copy2` is any number of writes, after each of which
the destination holds some beginning of the source, and a last step that completes it and copies the mode. The process
may be killed between any two steps, and only files stay.

So a copy has its two files to itself here, as it has while uploads take turns; then these runs are those of the finer
steps of each copy (`refines`). What copies at the same time do to a file is said with those steps (`bytes_of_run`).

`uploadOta` is the part of `upload_ota` that looks at the request alone: it writes outside its temporary directory only
after it has returned a package, whose image has the digest and the signature in it (`uploadOta_ok`); so has every image
that counts as verified (`verified_of_run`). The package `cryptography` is the parameter `Cryptography`.
-/

namespace KaonicComm.Ota

open Runs Sha256

/-! ## Files -/

/-- The files that the updater writes. -/
inductive Path where
  /-- `APP_PATH`. -/
  | app
  /-- `BACKUP_PATH`. -/
  | backup
  /-- `HASH_PATH`. -/
  | hash
  /-- `VERSION_PATH`. -/
  | version
  deriving DecidableEq, Repr

/-- The bytes of a file and whether it may be executed. -/
structure File where
  data : List UInt8
  exec : Bool := false
  deriving DecidableEq, Repr

abbrev Files := Path → Option File

/-- `shutil.copy2` of a file to `dst`, with its mode. -/
def Files.copy2 (fs : Files) (src : File) (dst : Path) : Files := Function.update fs dst (some src)

/-- `shutil.copy2` after `k` bytes, when no other copy works on its two files. -/
def Files.copying (fs : Files) (src : File) (dst : Path) (k : Nat) : Files :=
  Function.update fs dst (some { data := src.data.take k, exec := (fs dst).elim false File.exec })

/-- `unlink`. -/
def Files.unlink (fs : Files) (p : Path) : Files := Function.update fs p none

@[simp] theorem copy2_self (fs : Files) (src : File) (dst : Path) : fs.copy2 src dst dst = some src :=
  Function.update_self ..

theorem copy2_ne {fs : Files} {src : File} {dst p : Path} (h : p ≠ dst := by decide) : fs.copy2 src dst p = fs p :=
  Function.update_of_ne h ..

theorem copying_self (fs : Files) (src : File) (dst : Path) (k : Nat) :
    fs.copying src dst k dst = some { data := src.data.take k, exec := (fs dst).elim false File.exec } :=
  Function.update_self ..

theorem copying_ne {fs : Files} {src : File} {dst p : Path} {k : Nat} (h : p ≠ dst := by decide) :
    fs.copying src dst k p = fs p :=
  Function.update_of_ne h ..

theorem unlink_ne {fs : Files} {q p : Path} (h : p ≠ q := by decide) : fs.unlink q p = fs p :=
  Function.update_of_ne h ..

/-- `expected_hash` in `validate_app_file`; `none` when reading it raises `UnicodeDecodeError`. -/
def expectedHash (fs : Files) : Option (List Char) :=
  match fs .hash with
  | none => some []
  | some hash => digestOf hash.data

/-- `actual_hash` in `validate_app_file`. -/
def actualHash (fs : Files) : List Char :=
  match fs .app with
  | none => []
  | some app => sha256 app.data

/-- The installed image is the one that the hash file names. -/
def Matches (fs : Files) : Prop := fs .app ≠ none ∧ fs .hash ≠ none ∧ expectedHash fs = some (actualHash fs)

instance (fs : Files) : Decidable (Matches fs) := inferInstanceAs (Decidable (_ ∧ _ ∧ _))

/-- The test of `validate_app_file`. -/
theorem matches_iff {fs : Files} {expected : List Char} (h : expectedHash fs = some expected) :
    Matches fs ↔ ¬((fs .app = none ∨ fs .hash = none) ∨ expected ≠ actualHash fs) := by
  rw [Matches, h, Option.some.injEq, not_or, not_or, not_not, and_assoc]

/-! ## Requests -/

/-- What an archive has under a name. -/
inductive Member where
  | absent
  | directory
  | file (data : List UInt8)
  deriving DecidableEq, Repr

/-- The members of an archive that the updater looks at. -/
structure Archive where
  /-- `kaonic-commd`. -/
  app : Member
  /-- `kaonic-commd.sha256`. -/
  hash : Member
  /-- `kaonic-commd.version`. -/
  version : Member
  /-- `kaonic-commd.sig`. -/
  sig : Member
  deriving DecidableEq, Repr

/-- What becomes of the uploaded file in `extractall`. -/
inductive Zip where
  /-- `BadZipFile`. -/
  | bad
  /-- Any other exception. -/
  | raises
  | extracted (archive : Archive)
  deriving DecidableEq, Repr

/-- A request. -/
inductive Request where
  | noFile
  | wrongType
  | zip (zip : Zip)
  deriving DecidableEq, Repr

/-- What the client is told. -/
inductive Answer where
  | detail (text : String) (status : Nat)
  /-- An exception that `upload_ota` does not catch. -/
  | raised
  deriving DecidableEq, Repr

/-- What `load_pem_public_key` returns. -/
inductive PublicKey where
  | rsa (key : List UInt8)
  | ed25519 (key : List UInt8)
  | other
  deriving DecidableEq, Repr

/-- The functions of `cryptography` that the updater calls. -/
structure Cryptography where
  /-- `load_pem_public_key`; `none` when it raises. -/
  loadPemPublicKey : List UInt8 → Option PublicKey
  /-- `verify` of a key, a signature and data; `false` when it raises. -/
  verifyRsa : List UInt8 → List UInt8 → List UInt8 → Bool
  verifyEd25519 : List UInt8 → List UInt8 → List UInt8 → Bool

/-- `validate_signature`, which returns `False` on every exception. -/
def validateSignature (c : Cryptography) (app : List UInt8) (sig : Member) (key : List UInt8) : Bool :=
  match c.loadPemPublicKey key, sig with
  | some (.rsa publicKey), .file signature => c.verifyRsa publicKey signature app
  | some (.ed25519 publicKey), .file signature => c.verifyEd25519 publicKey signature app
  | _, _ => false

/-- What an accepted archive installs; the version may still be a directory. -/
structure Package where
  app : List UInt8
  hash : List UInt8
  version : Member
  deriving DecidableEq, Repr

/-- `required_files`. -/
def requiredFiles (a : Archive) : List (String × Member) :=
  [("kaonic-commd", a.app), ("kaonic-commd.sha256", a.hash), ("kaonic-commd.version", a.version),
    ("kaonic-commd.sig", a.sig)]

/-- `upload_ota` from the extracted files to the signature. -/
def checkArchive (c : Cryptography) (key : List UInt8) (a : Archive) : Except Answer Package :=
  match (requiredFiles a).find? fun f => f.2 = .absent with
  | some (name, _) => .error (.detail ("Missing " ++ name ++ " in OTA package") 400)
  | none =>
    match a.hash, a.app with
    | .file hash, .file app =>
      match digestOf hash with
      | none => .error .raised
      | some expected =>
        if expected ≠ sha256 app then .error (.detail "SHA256 hash mismatch" 400)
        else if validateSignature c app a.sig key then .ok { app, hash, version := a.version }
        else .error (.detail "SHA256 hash mismatch" 400)
    | _, _ => .error .raised

/-- `upload_ota` up to the signature, with the verification key that is present. -/
def uploadOta (c : Cryptography) (verifyKey : Option (List UInt8)) : Request → Except Answer Package
  | .noFile => .error (.detail "No file uploaded" 400)
  | .wrongType => .error (.detail "Only ZIP files accepted" 400)
  | .zip zip =>
    match verifyKey with
    | none => .error (.detail "OTA certificate is not present" 500)
    | some key =>
      match zip with
      | .bad => .error (.detail "Invalid ZIP file" 400)
      | .raises => .error .raised
      | .extracted a => checkArchive c key a

/-- What an accepted archive holds. -/
theorem checkArchive_ok {c : Cryptography} {key : List UInt8} {a : Archive} {p : Package}
    (h : checkArchive c key a = .ok p) : a.app = .file p.app ∧ a.hash = .file p.hash ∧ a.version = p.version ∧
      digestOf p.hash = some (sha256 p.app) ∧ validateSignature c p.app a.sig key = true := by
  simp only [checkArchive] at h
  split at h
  · cases h
  · split at h
    · rename_i hash app hhash happ
      split at h
      · cases h
      · rename_i expected hexp
        split at h
        · cases h
        · rename_i heq
          split at h
          · rename_i hsig
            cases h
            exact ⟨happ, hhash, rfl, by rw [hexp, Decidable.not_not.mp heq], hsig⟩
          · cases h
    · cases h

/-- An accepted archive has a version. -/
theorem version_ne_absent {c : Cryptography} {key : List UInt8} {a : Archive} {p : Package}
    (h : checkArchive c key a = .ok p) : p.version ≠ .absent := by
  obtain ⟨-, -, hversion, -, -⟩ := checkArchive_ok h
  intro habsent
  simp only [checkArchive] at h
  split at h
  · cases h
  · rename_i hfind
    have hnone := List.find?_eq_none.mp hfind ("kaonic-commd.version", a.version) (by simp [requiredFiles])
    exact hnone (by simpa [hversion] using habsent)

/-- Only an archive is accepted, and with a verification key. -/
theorem uploadOta_extracted {c : Cryptography} {verifyKey : Option (List UInt8)} {r : Request} {p : Package}
    (h : uploadOta c verifyKey r = .ok p) :
    ∃ key a, verifyKey = some key ∧ r = .zip (.extracted a) ∧ checkArchive c key a = .ok p := by
  cases r with
  | noFile => cases h
  | wrongType => cases h
  | zip zip =>
    cases verifyKey with
    | none => cases h
    | some key =>
      cases zip with
      | bad => cases h
      | raises => cases h
      | extracted a => exact ⟨key, a, rfl, rfl, h⟩

/-- **What is installed has the digest and the signature of its archive.** -/
theorem uploadOta_ok {c : Cryptography} {verifyKey : Option (List UInt8)} {r : Request} {p : Package}
    (h : uploadOta c verifyKey r = .ok p) : ∃ key a, verifyKey = some key ∧ r = .zip (.extracted a) ∧
      a.app = .file p.app ∧ digestOf p.hash = some (sha256 p.app) ∧ validateSignature c p.app a.sig key = true := by
  obtain ⟨key, a, hkey, hr, hcheck⟩ := uploadOta_extracted h
  obtain ⟨happ, -, -, hdigest, hsig⟩ := checkArchive_ok hcheck
  exact ⟨key, a, hkey, hr, happ, hdigest, hsig⟩

/-! ## The steps of an upload -/

/-- Where an upload stands after its checks. -/
inductive Pc where
  /-- `stop_kaonic_commd`. -/
  | stop
  /-- `backup_current`: the test, the `unlink` and the copy. -/
  | testBackup
  | unlinkBackup
  | copyBackup
  | copyApp
  | chmodApp
  /-- `launch_kaonic_commd`. -/
  | launch
  /-- The loop, with so many calls of `is_kaonic_running` left. -/
  | poll (left : Nat)
  | finalPoll
  | copyHash
  | copyVersion
  /-- `restore_backup`: the test and the copy. -/
  | testRestore
  | restore
  | relaunch
  deriving DecidableEq, Repr

/-- An upload that has passed its checks. -/
structure Job where
  package : Package
  pc : Pc
  deriving DecidableEq, Repr

/-- The copy that an upload is about to complete: the file and where it goes. -/
def Job.copy (fs : Files) (job : Job) : Option (File × Path) :=
  match job.pc with
  | .copyBackup => (fs .app).map (·, .backup)
  | .copyApp => some ({ data := job.package.app }, .app)
  | .copyHash => some ({ data := job.package.hash }, .hash)
  | .copyVersion =>
    match job.package.version with
    | .file version => some ({ data := version }, .version)
    | _ => none
  | .restore => (fs .backup).map (·, .app)
  | _ => none

/-- How an upload goes on. -/
inductive Outcome where
  | next (pc : Pc)
  | answer (a : Answer)
  deriving DecidableEq, Repr

/-- One step of an upload; `active` is what `is_kaonic_running` returns where it is called. -/
def Job.next (fs : Files) (job : Job) (active : Bool) : Files × Outcome :=
  match job.pc with
  | .stop => (fs, .next .testBackup)
  | .testBackup => (fs, .next (if fs .backup = none then .copyBackup else .unlinkBackup))
  | .unlinkBackup =>
    match fs .backup with
    | none => (fs, .answer .raised)
    | some _ => (fs.unlink .backup, .next .copyBackup)
  | .copyBackup =>
    match fs .app with
    | none => (fs, .next .copyApp)
    | some app => (fs.copy2 app .backup, .next .copyApp)
  | .copyApp => (fs.copy2 { data := job.package.app } .app, .next .chmodApp)
  | .chmodApp =>
    match fs .app with
    | none => (fs, .answer .raised)
    | some app => (fs.copy2 { app with exec := true } .app, .next .launch)
  | .launch => (fs, .next (.poll 10))
  | .poll 0 => (fs, .next .finalPoll)
  | .poll (left + 1) => (fs, .next (if active then .poll left else .finalPoll))
  | .finalPoll => (fs, .next (if active then .copyHash else .testRestore))
  | .copyHash => (fs.copy2 { data := job.package.hash } .hash, .next .copyVersion)
  | .copyVersion =>
    match job.package.version with
    | .file version => (fs.copy2 { data := version } .version, .answer (.detail "Update successful" 200))
    | _ => (fs, .answer .raised)
  | .testRestore => (fs, .next (if fs .backup = none then .relaunch else .restore))
  | .restore =>
    match fs .backup with
    | none => (fs, .answer .raised)
    | some backup => (fs.copy2 backup .app, .next .relaunch)
  | .relaunch => (fs, .answer (.detail "Failed to start new app, rollback done" 500))

/-- A poll leaves the files as they are, and another one follows. -/
theorem next_poll {fs fs' : Files} {package : Package} {left : Nat} {active : Bool} {o : Outcome}
    (h : Job.next fs ⟨package, .poll left⟩ active = (fs', o)) :
    fs' = fs ∧ (o = .next .finalPoll ∨ ∃ left', o = .next (.poll left')) := by
  cases left with
  | zero =>
    cases h
    exact ⟨rfl, Or.inl rfl⟩
  | succ left =>
    simp only [Job.next] at h
    cases h
    refine ⟨rfl, ?_⟩
    split
    · exact Or.inr ⟨left, rfl⟩
    · exact Or.inl rfl

/-! ## The server -/

/-- Where the main thread stands. -/
inductive Server where
  | down
  /-- `validate_app_file`: before its decision, and the steps of a restoration. -/
  | validating
  | stopping
  | testBackup
  | restoring
  | launching
  /-- `validate_app_file` has returned. -/
  | validated
  /-- In `app.run`. -/
  | serving
  deriving DecidableEq, Repr

/-- The files and the process. -/
structure State where
  files : Files
  /-- `METADATA_PATH` exists. -/
  metadata : Bool
  /-- The bytes at `VERIFY_KEY_PATH`. -/
  verifyKey : Option (List UInt8)
  server : Server
  /-- The uploads that have passed their checks and are not answered. -/
  uploads : List Job
  answers : List Answer
  /-- The images that passed the checks of an upload (ghost). -/
  verified : List (List UInt8)

/-- The decision of `validate_app_file`. -/
def validateAppFile (s : State) : State :=
  if ¬s.metadata then { s with metadata := true, server := .validated }
  else if s.files .app = none ∧ s.files .backup = none then { s with server := .validated }
  else
    match expectedHash s.files with
    | none => { s with server := .down }
    | some expected =>
      if (s.files .app = none ∨ s.files .hash = none) ∨ expected ≠ actualHash s.files then
        { s with server := .stopping }
      else { s with server := .validated }

/-- One step of the main thread. -/
def serverNext (s : State) : Option State :=
  match s.server with
  | .down => none
  | .validating => some (validateAppFile s)
  | .stopping => some { s with server := .testBackup }
  | .testBackup => some { s with server := if s.files .backup = none then .launching else .restoring }
  | .restoring =>
    match s.files .backup with
    | none => some { s with server := .down }
    | some backup => some { s with files := s.files.copy2 backup .app, server := .launching }
  | .launching => some { s with server := .validated }
  | .validated => some { s with server := .serving }
  | .serving => none

/-- One step of the device. -/
inductive Act where
  /-- The service manager starts the process. -/
  | start
  | server
  /-- The copy in the restoration of `validate_app_file` has written `k` bytes. -/
  | serverWrite (k : Nat)
  | request (r : Request)
  | upload (i : Nat) (active : Bool)
  /-- The copy of upload `i` has written `k` bytes. -/
  | write (i k : Nat)
  | kill
  deriving DecidableEq, Repr

/-- The steps of the device. -/
def step (c : Cryptography) (s : State) : Act → Option State
  | .start => if s.server = .down then some { s with server := .validating } else none
  | .server => serverNext s
  | .serverWrite k =>
    match s.server, s.files .backup with
    | .restoring, some backup =>
      if k ≤ backup.data.length then some { s with files := s.files.copying backup .app k } else none
    | _, _ => none
  | .request r =>
    if s.server = .serving then
      match uploadOta c s.verifyKey r with
      | .error a => some { s with answers := s.answers ++ [a] }
      | .ok p => some { s with uploads := s.uploads ++ [⟨p, .stop⟩], verified := s.verified ++ [p.app] }
    else none
  | .upload i active =>
    match s.uploads[i]? with
    | none => none
    | some job =>
      match job.next s.files active with
      | (files, .next pc) => some { s with files, uploads := s.uploads.set i { job with pc } }
      | (files, .answer a) => some { s with files, uploads := s.uploads.eraseIdx i, answers := s.answers ++ [a] }
  | .write i k =>
    match s.uploads[i]?.bind (Job.copy s.files) with
    | none => none
    | some (src, dst) => if k ≤ src.data.length then some { s with files := s.files.copying src dst k } else none
  | .kill => if s.server ≠ .down then some { s with server := .down, uploads := [] } else none

/-! ## What a step does -/

section

variable {c : Cryptography} {s s' : State}

theorem step_start (h : step c s .start = some s') : s.server = .down ∧ s' = { s with server := .validating } := by
  simp only [step] at h
  split at h <;> cases h
  exact ⟨‹_›, rfl⟩

theorem step_serverWrite {k : Nat} (h : step c s (.serverWrite k) = some s') :
    ∃ backup, s.server = .restoring ∧ s.files .backup = some backup ∧ k ≤ backup.data.length ∧
      s' = { s with files := s.files.copying backup .app k } := by
  simp only [step] at h
  split at h
  · rename_i backup hv hbackup
    split at h <;> cases h
    exact ⟨backup, hv, hbackup, ‹_›, rfl⟩
  · cases h

/-- A request is answered at once or becomes an upload. -/
theorem step_request {r : Request} (h : step c s (.request r) = some s') : s.server = .serving ∧
    ((∃ a, uploadOta c s.verifyKey r = .error a ∧ s' = { s with answers := s.answers ++ [a] }) ∨
      ∃ p, uploadOta c s.verifyKey r = .ok p ∧
        s' = { s with uploads := s.uploads ++ [⟨p, .stop⟩], verified := s.verified ++ [p.app] }) := by
  simp only [step] at h
  split at h
  · rename_i hv
    split at h
    · rename_i a ha
      cases h
      exact ⟨hv, Or.inl ⟨a, ha, rfl⟩⟩
    · rename_i p hp
      cases h
      exact ⟨hv, Or.inr ⟨p, hp, rfl⟩⟩
  · cases h

/-- An upload goes on or is answered. -/
theorem step_upload {i : Nat} {active : Bool} (h : step c s (.upload i active) = some s') :
    ∃ job files, s.uploads[i]? = some job ∧
      ((∃ pc, job.next s.files active = (files, .next pc) ∧
          s' = { s with files, uploads := s.uploads.set i { job with pc } }) ∨
        ∃ a, job.next s.files active = (files, .answer a) ∧
          s' = { s with files, uploads := s.uploads.eraseIdx i, answers := s.answers ++ [a] }) := by
  simp only [step] at h
  split at h
  · cases h
  · rename_i job hjob
    split at h
    · rename_i files pc hnext
      cases h
      exact ⟨job, files, hjob, Or.inl ⟨pc, hnext, rfl⟩⟩
    · rename_i files a hnext
      cases h
      exact ⟨job, files, hjob, Or.inr ⟨a, hnext, rfl⟩⟩

theorem step_write {i k : Nat} (h : step c s (.write i k) = some s') :
    ∃ job src dst, s.uploads[i]? = some job ∧ job.copy s.files = some (src, dst) ∧ k ≤ src.data.length ∧
      s' = { s with files := s.files.copying src dst k } := by
  simp only [step] at h
  split at h
  · cases h
  · rename_i src dst hbind
    obtain ⟨job, hjob, hcopy⟩ := Option.bind_eq_some_iff.mp hbind
    split at h <;> cases h
    exact ⟨job, src, dst, hjob, hcopy, ‹_›, rfl⟩

theorem step_kill (h : step c s .kill = some s') : s' = { s with server := .down, uploads := [] } := by
  simp only [step] at h
  split at h <;> cases h
  rfl

theorem validateAppFile_frame (s : State) : (validateAppFile s).verifyKey = s.verifyKey ∧
    (validateAppFile s).uploads = s.uploads ∧ (validateAppFile s).verified = s.verified := by
  unfold validateAppFile
  split
  · exact ⟨rfl, rfl, rfl⟩
  · split
    · exact ⟨rfl, rfl, rfl⟩
    · split
      · exact ⟨rfl, rfl, rfl⟩
      · split <;> exact ⟨rfl, rfl, rfl⟩

/-- The main thread leaves the uploads alone. -/
theorem serverNext_frame (h : serverNext s = some s') :
    s'.verifyKey = s.verifyKey ∧ s'.uploads = s.uploads ∧ s'.verified = s.verified := by
  unfold serverNext at h
  cases hv : s.server with
  | down | serving =>
    rw [hv] at h
    cases h
  | validating =>
    rw [hv] at h
    cases h
    exact validateAppFile_frame s
  | stopping | testBackup | launching | validated =>
    rw [hv] at h
    cases h
    exact ⟨rfl, rfl, rfl⟩
  | restoring =>
    rw [hv] at h
    cases hb : s.files .backup with
    | none | some backup =>
      rw [hb] at h
      cases h
      exact ⟨rfl, rfl, rfl⟩

/-! ## What is verified -/

/-- Only an accepted request adds to the verified images. -/
theorem step_verified {a : Act} (h : step c s a = some s') :
    s'.verifyKey = s.verifyKey ∧ (s'.verified = s.verified ∨
      ∃ r p, a = .request r ∧ uploadOta c s.verifyKey r = .ok p ∧ s'.verified = s.verified ++ [p.app]) := by
  cases a with
  | start =>
    obtain ⟨-, rfl⟩ := step_start h
    exact ⟨rfl, Or.inl rfl⟩
  | server =>
    obtain ⟨hkey, -, hverified⟩ := serverNext_frame h
    exact ⟨hkey, Or.inl hverified⟩
  | serverWrite k =>
    obtain ⟨backup, -, -, -, rfl⟩ := step_serverWrite h
    exact ⟨rfl, Or.inl rfl⟩
  | request r =>
    obtain ⟨-, ⟨a, -, rfl⟩ | ⟨p, hp, rfl⟩⟩ := step_request h
    · exact ⟨rfl, Or.inl rfl⟩
    · exact ⟨rfl, Or.inr ⟨r, p, rfl, hp, rfl⟩⟩
  | upload i active =>
    obtain ⟨job, files, -, ⟨pc, -, rfl⟩ | ⟨a, -, rfl⟩⟩ := step_upload h
    · exact ⟨rfl, Or.inl rfl⟩
    · exact ⟨rfl, Or.inl rfl⟩
  | write i k =>
    obtain ⟨job, src, dst, -, -, -, rfl⟩ := step_write h
    exact ⟨rfl, Or.inl rfl⟩
  | kill =>
    cases step_kill h
    exact ⟨rfl, Or.inl rfl⟩

end

/-- **Every verified image passed the checks of a request of the run.** -/
theorem verified_of_run {c : Cryptography} {s₀ s : State} {as : List Act} (h₀ : s₀.verified = [])
    (h : run (step c) s₀ as = some s) :
    ∀ x ∈ s.verified, ∃ r p, .request r ∈ as ∧ uploadOta c s₀.verifyKey r = .ok p ∧ p.app = x := by
  refine (run_inv (P := fun _ a => a ∈ as) (I := fun t => t.verifyKey = s₀.verifyKey ∧
    ∀ x ∈ t.verified, ∃ r p, .request r ∈ as ∧ uploadOta c s₀.verifyKey r = .ok p ∧ p.app = x)
    (fun t a t' ht ha hstep => ?_) ⟨rfl, by rw [h₀]; nofun⟩ (along_of_forall (fun _ _ ha => ha) s₀) h).2
  obtain ⟨hkey, hsame | ⟨r, p, rfl, hp, hnew⟩⟩ := step_verified hstep
  · exact ⟨hkey.trans ht.1, fun x hx => ht.2 x (hsame ▸ hx)⟩
  · refine ⟨hkey.trans ht.1, fun x hx => ?_⟩
    rw [hnew, List.mem_append, List.mem_singleton] at hx
    rcases hx with hx | rfl
    · exact ht.2 x hx
    · exact ⟨r, p, ha, ht.1 ▸ hp, rfl⟩

end KaonicComm.Ota
