import KaonicComm.Ota.Recovery
import KaonicComm.Ota.Releases

/-!
# Uploads at the same time

Flask serves each request in a thread of its own, and nothing keeps two uploads from touching the files at the same
time: one can install its image between the installation and the commit of another one, whose hash file then stands
beside it (`uploads_mix`). The files stay those of one release when an upload begins to touch them only while the others
wait, and when no accepted archive has a directory in the place of its version, which `copy2` refuses after the hash has
been copied (`one_release`).
-/

namespace KaonicComm.Ota

open Runs Sha256

/-- An image with its hash file and its version. -/
structure Release where
  app : List UInt8
  hash : List UInt8
  version : List UInt8
  deriving DecidableEq, Repr

/-- The files of a release are in place. -/
def Release.Installed (r : Release) (fs : Files) : Prop :=
  fs.data .app = some r.app ∧ fs.data .hash = some r.hash ∧ fs.data .version = some r.version

/-- The release was in the archive of a request, with its digest and its signature. -/
def Release.Uploaded (c : Cryptography) (verifyKey : Option (List UInt8)) (as : List Act) (r : Release) : Prop :=
  ∃ key a, verifyKey = some key ∧ .request (.zip (.extracted a)) ∈ as ∧ a.app = .file r.app ∧ a.hash = .file r.hash ∧
    a.version = .file r.version ∧ digestOf r.hash = some (sha256 r.app) ∧ validateSignature c r.app a.sig key = true

/-- A server that has a release installed and no upload at work. -/
structure Serving (r : Release) (s : State) : Prop where
  server : s.server = .serving
  uploads : s.uploads = []
  installed : r.Installed s.files
  digest : digestOf r.hash = some (sha256 r.app)

/-- The files are those of one release, which is the first one or was uploaded. -/
def Consistent (c : Cryptography) (r₀ : Release) (s₀ : State) (as : List Act) (s : State) : Prop :=
  ∃ r : Release, r.Installed s.files ∧ digestOf r.hash = some (sha256 r.app) ∧
    (r = r₀ ∨ r.Uploaded c s₀.verifyKey as)

/-- An accepted archive has no directory for its version. -/
def VersionFile (c : Cryptography) (s : State) : Act → Prop
  | .request r => (uploadOta c s.verifyKey r).toOption.map Package.version ≠ some .directory
  | _ => True

instance (c : Cryptography) (s : State) : ∀ a, Decidable (VersionFile c s a)
  | .request _ => inferInstanceAs (Decidable (_ ≠ _))
  | .start | .server | .serverWrite _ | .upload .. | .write .. | .kill => isTrue trivial

/-- An upload begins to touch the files only while the others wait, and the version of an accepted archive is a file. -/
def Orderly (c : Cryptography) (s : State) (a : Act) : Prop := TakingTurns s a ∧ VersionFile c s a

instance (c : Cryptography) (s : State) (a : Act) : Decidable (Orderly c s a) := inferInstanceAs (Decidable (_ ∧ _))

/-- The version of an accepted archive. -/
theorem VersionFile.file {c : Cryptography} {s : State} {r : Request} {p : Package} (h : VersionFile c s (.request r))
    (hok : uploadOta c s.verifyKey r = .ok p) : ∃ version, p.version = .file version := by
  obtain ⟨key, a, -, -, hcheck⟩ := uploadOta_extracted hok
  cases hversion : p.version with
  | absent => exact absurd hversion (version_ne_absent hcheck)
  | directory =>
    refine absurd ?_ h
    rw [hok]
    exact congrArg some hversion
  | file version => exact ⟨version, rfl⟩

/-- **Orderly uploads leave the files of one release.** -/
theorem one_release {c : Cryptography} {r₀ : Release} {s₀ s : State} {as : List Act} (h₀ : Serving r₀ s₀)
    (hord : Along (step c) (Orderly c) s₀ as) (h : run (step c) s₀ as = some s) (hu : s.uploads = []) :
    Consistent c r₀ s₀ as s := by
  let Rel : List UInt8 → List UInt8 → Option (List UInt8) → Prop := fun x hash v =>
    digestOf hash = some (sha256 x) ∧ ∃ version, v = some version ∧
      ((⟨x, hash, version⟩ : Release) = r₀ ∨ Release.Uploaded c s₀.verifyKey as ⟨x, hash, version⟩)
  have hrel : ∀ x hash v, Rel x hash v → digestOf hash = some (sha256 x) := fun _ _ _ hx => hx.1
  have hinit : Turns Rel s₀ := by
    obtain ⟨happ, hhash, hversion⟩ := h₀.installed
    refine turns_of_idle h₀.uploads ⟨r₀.app, r₀.hash, happ, hhash, h₀.digest, r₀.version, hversion, Or.inl rfl⟩ ?_
    rw [h₀.server]
    rfl
  -- an accepted request brings a release
  have hbrings : ∀ r p, .request r ∈ as → uploadOta c s₀.verifyKey r = .ok p →
      (∃ version, p.version = .file version) → Brings Rel p := by
    rintro r p hr hok ⟨version, hversion⟩ v hv
    obtain ⟨key, a, hkey, rfl, hcheck⟩ := uploadOta_extracted hok
    obtain ⟨happ, hhash, hv', hdigest, hsig⟩ := checkArchive_ok hcheck
    refine ⟨hdigest, version, hv version hversion, Or.inr ⟨key, a, hkey, hr, happ, hhash, ?_, hdigest, hsig⟩⟩
    rw [hv', hversion]
  have hs : Turns Rel s :=
    turns_of_run hrel hinit (fun t r p hfile hr hkey hok => hbrings r p hr hok (hfile.file (hkey ▸ hok))) hord h
  obtain ⟨x, hash, hx, hhash, hdigest, version, hversion, hone⟩ := hs.sound hu
  exact ⟨⟨x, hash, version⟩, ⟨hx, hhash, hversion⟩, hdigest, hone⟩

/-- The first release. -/
def firstRelease : Release where
  app := [1, 2]
  hash := hashFile.data
  version := ascii "1\n"

/-- A server with the first release. -/
def server : State where
  files
    | .app => some { data := firstRelease.app, exec := true }
    | .hash => some { data := firstRelease.hash }
    | .version => some { data := firstRelease.version }
    | .backup => none
  metadata := true
  verifyKey := some certificate
  server := .serving
  uploads := []
  answers := []
  verified := []

theorem serving_server : Serving firstRelease server := ⟨rfl, rfl, ⟨rfl, rfl, rfl⟩, digestOf_hashFile⟩

/-- An upload from its installation to its last poll, which finds the service running or not. -/
def install (i : Nat) (running : Bool) : List Act :=
  [.upload i false, .upload i false, .upload i false, .upload i false, .upload i running]

/-- Two uploads are accepted; the second one waits while the first one succeeds, and is rolled back. -/
def oneByOne : List Act :=
  [.request (.zip (.extracted archive)), .request (.zip (.extracted archive)), .upload 1 false, .upload 0 false,
    .upload 0 false, .upload 0 false] ++ install 0 true ++
    [.upload 0 false, .upload 0 false, .upload 0 false, .upload 0 false, .upload 0 false] ++ install 0 false ++
    [.upload 0 false, .upload 0 false, .upload 0 false]

theorem run_oneByOne : (run (step oneKey) server oneByOne).map (fun s => (s.uploads, s.files.data .version)) =
    some ([], some (ascii "2\n")) ∧ Along (step oneKey) (Orderly oneKey) server oneByOne := by
  decide +kernel

theorem one_release_oneByOne : ∃ s, run (step oneKey) server oneByOne = some s ∧
    s.files.data .version = some (ascii "2\n") ∧ Consistent oneKey firstRelease server oneByOne s := by
  obtain ⟨s, hs, heq⟩ := Option.map_eq_some_iff.mp run_oneByOne.1
  simp only [Prod.mk.injEq] at heq
  exact ⟨s, hs, heq.2, one_release serving_server run_oneByOne.2 hs heq.1⟩

/-- Two uploads of the same archive: both make their backup of the first image, one succeeds, the other one is rolled
back. -/
def overlappingUploads : List Act :=
  [.request (.zip (.extracted archive)), .request (.zip (.extracted archive)), .upload 0 false, .upload 1 false,
    .upload 0 false, .upload 0 false, .upload 1 false, .upload 1 false, .upload 1 false] ++ install 0 true ++
    [.upload 0 false, .upload 0 false] ++ install 0 false ++ [.upload 0 false, .upload 0 false, .upload 0 false]

/-- The first image is installed beside the hash file and the version of the other one. -/
theorem uploads_mix : ¬∀ c r₀ s₀ as s, Serving r₀ s₀ → .kill ∉ as → run (step c) s₀ as = some s → s.uploads = [] →
    Consistent c r₀ s₀ as s := by
  intro h
  have hall : (run (step oneKey) server overlappingUploads).map
      (fun s => (s.uploads, s.files.data .app, (s.files.data .hash).bind digestOf)) =
        some ([], some [1, 2], some (sha256 [3])) ∧ sha256 [1, 2] ≠ sha256 [3] := by
    decide +kernel
  obtain ⟨hrun, hne⟩ := hall
  obtain ⟨s, hs, heq⟩ := Option.map_eq_some_iff.mp hrun
  simp only [Prod.mk.injEq] at heq
  obtain ⟨hu, happ, hhash⟩ := heq
  obtain ⟨r, ⟨hr, hrhash, -⟩, hdigest, -⟩ :=
    h oneKey firstRelease server overlappingUploads s serving_server (by decide) hs hu
  rw [hr] at happ
  rw [hrhash, Option.bind_some, hdigest, Option.some.inj happ] at hhash
  exact hne (Option.some.inj hhash)

end KaonicComm.Ota
