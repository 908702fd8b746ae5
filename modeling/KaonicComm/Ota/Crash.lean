import KaonicComm.Ota.Concurrent

/-!
# A crash in an upload

The process is killed while one upload is at work, and the next `validate_app_file` completes: it keeps the image when
the hash file names it and otherwise copies the backup over it (`recovered_of_run`). `CrashPhase` says exactly what the
upload has written where it stands (`phase_of_run`).

Image, hash file and version are those of one release again, except after a kill inside the commit, whose two copies the
recovery does not tell apart, and before `chmod`, when the image that is uploaded is the installed one (`oneUnit_iff`).
-/

namespace KaonicComm.Ota

open Runs Sha256

/-! ## What is reported -/

/-- What `get_version` answers. -/
inductive Report where
  /-- `None` for both. -/
  | absent
  | found (version hash : List Char)
  /-- `UnicodeDecodeError`. -/
  | raised
  deriving DecidableEq, Repr

/-- `get_version`. -/
def getVersion (fs : Files) : Report :=
  match fs .version, fs .hash with
  | some version, some hash =>
    match (readText version.data).map strip, digestOf hash.data with
    | some version, some hash => .found version hash
    | _, _ => .raised
  | _, _ => .absent

/-- `get_version` reports the version of a release, where it is a text, and the digest of its image. -/
def Release.Reported (r : Release) (fs : Files) : Prop :=
  ∀ version, (readText r.version).map strip = some version → getVersion fs = .found version (sha256 r.app)

theorem Release.Installed.reported {r : Release} {fs : Files} (h : r.Installed fs)
    (hdigest : digestOf r.hash = some (sha256 r.app)) : r.Reported fs := by
  obtain ⟨-, hhash, hversion⟩ := h
  obtain ⟨hash, hh, hhdata⟩ := Option.map_eq_some_iff.mp hhash
  obtain ⟨version, hv, hvdata⟩ := Option.map_eq_some_iff.mp hversion
  intro text htext
  simp only [getVersion, hv, hh, hvdata, hhdata, htext, hdigest]

/-! ## What `validate_app_file` leaves -/

/-- The permission to execute a file. -/
def Files.exec (fs : Files) (p : Path) : Bool := (fs p).elim false File.exec

/-- `restore_backup`. -/
def restoreBackup (fs : Files) : Files :=
  match fs .backup with
  | none => fs
  | some backup => fs.copy2 backup .app

/-- The files after `validate_app_file`. -/
def Recovered (fs fs' : Files) : Prop := Matches fs ∧ fs' = fs ∨ ¬Matches fs ∧ fs' = restoreBackup fs

/-- What the main thread has done to the files where it stands. -/
def Recovering (fs : Files) (s : State) : Prop :=
  match s.server with
  | .down => True
  | .validating => s.files = fs
  | .stopping | .testBackup => ¬Matches fs ∧ s.files = fs
  | .restoring => ¬Matches fs ∧ ∃ f, s.files = Function.update fs .app f
  | .launching => ¬Matches fs ∧ s.files = restoreBackup fs
  | .validated | .serving => Recovered fs s.files

/-- A step of the main thread. -/
def Act.ofServer : Act → Bool
  | .server | .serverWrite _ => true
  | _ => false

section Recovery

variable {fs : Files} {s s' : State}

theorem recovering_validateAppFile (hm : s.metadata = true) (hs : s.files = fs) :
    (validateAppFile s).metadata = true ∧ Recovering fs (validateAppFile s) := by
  subst hs
  unfold validateAppFile
  rw [if_neg (not_not.mpr hm)]
  split
  · rename_i hnone
    refine ⟨hm, Or.inr ⟨fun hmatch => hmatch.1 hnone.1, ?_⟩⟩
    rw [restoreBackup, hnone.2]
  · split
    · exact ⟨hm, trivial⟩
    · rename_i expected hexp
      split
      · rename_i hmis
        exact ⟨hm, fun hmatch => (matches_iff hexp).mp hmatch hmis, rfl⟩
      · rename_i hmis
        exact ⟨hm, Or.inl ⟨(matches_iff hexp).mpr hmis, rfl⟩⟩

/-- **A step of the main thread restores the backup if the image is not the one of the hash file.** -/
theorem recovering_serverNext (hm : s.metadata = true) (hs : Recovering fs s) (h : serverNext s = some s') :
    s'.metadata = true ∧ Recovering fs s' := by
  unfold serverNext at h
  unfold Recovering at hs
  cases hv : s.server with
  | down | serving =>
    rw [hv] at h
    cases h
  | validating =>
    rw [hv] at h hs
    cases h
    exact recovering_validateAppFile hm hs
  | stopping | launching | validated =>
    rw [hv] at h hs
    cases h
    first
    | exact ⟨hm, hs⟩
    | exact ⟨hm, Or.inr hs⟩
  | testBackup =>
    rw [hv] at h hs
    cases h
    obtain ⟨hmis, rfl⟩ := hs
    refine ⟨hm, ?_⟩
    cases hb : s.files .backup with
    | none => exact ⟨hmis, by simp only [restoreBackup, hb]⟩
    | some backup => exact ⟨hmis, s.files .app, (Function.update_eq_self ..).symm⟩
  | restoring =>
    rw [hv] at h hs
    obtain ⟨hmis, f, hf⟩ := hs
    have hbackup : s.files .backup = fs .backup := by
      rw [hf]
      exact Function.update_of_ne (by decide) ..
    rw [hbackup] at h
    cases hb : fs .backup with
    | none =>
      rw [hb] at h
      cases h
      exact ⟨hm, trivial⟩
    | some backup =>
      rw [hb] at h
      cases h
      refine ⟨hm, hmis, ?_⟩
      simp only [restoreBackup, hb, hf, Files.copy2, Function.update_idem]

/-- A copy of the main thread that is under way. -/
theorem recovering_serverWrite {c : Cryptography} {k : Nat} (hm : s.metadata = true) (hs : Recovering fs s)
    (h : step c s (.serverWrite k) = some s') : s'.metadata = true ∧ Recovering fs s' := by
  obtain ⟨backup, hv, -, -, rfl⟩ := step_serverWrite h
  rw [Recovering, hv] at hs
  obtain ⟨hmis, f, hf⟩ := hs
  have happ : ∀ g, Function.update s.files .app g = Function.update fs .app g := fun g => by
    rw [hf, Function.update_idem]
  refine ⟨hm, ?_⟩
  rw [Recovering, hv]
  exact ⟨hmis, _, happ _⟩

/-- **A `validate_app_file` that returns has restored the backup if the image was not the one of the hash file.** -/
theorem recovered_of_run {c : Cryptography} {bs : List Act} (hm : s.metadata = true) (hs : s.server = .validating)
    (hbs : ∀ a ∈ bs, a.ofServer = true) (h : run (step c) s bs = some s') (hv : s'.server = .validated) :
    Recovered s.files s'.files := by
  have hinit : Recovering s.files s := by
    rw [Recovering, hs]
  have hend : s'.metadata = true ∧ Recovering s.files s' := by
    refine run_inv (P := fun _ a => a.ofServer = true) (I := fun t => t.metadata = true ∧ Recovering s.files t)
      (fun t a t' ht ha hstep => ?_) ⟨hm, hinit⟩ (along_of_forall (fun _ => hbs) s) h
    cases a with
    | server => exact recovering_serverNext ht.1 ht.2 hstep
    | serverWrite k => exact recovering_serverWrite ht.1 ht.2 hstep
    | start | request r | upload i active | write i k | kill => cases ha
  have hrec := hend.2
  rw [Recovering, hv] at hrec
  exact hrec

end Recovery

/-! ## What an upload leaves -/

/-- What an upload of a release brings. -/
def Release.package (r : Release) : Package where
  app := r.app
  hash := r.hash
  version := .file r.version

/-- The image of a release is at a path, with its mode, and its hash file and its version are in place. -/
structure Stands (r : Release) (exec : Bool) (q : Path) (fs : Files) : Prop where
  image : fs q = some { data := r.app, exec }
  hash : fs.data .hash = some r.hash
  version : fs.data .version = some r.version

section Upload

-- the release that is installed and whether its image may be executed, and the release that is uploaded
variable (r₀ : Release) (exec : Bool) (r₁ : Release)

/-- The beginning of an image is installed, and may be executed if the first one may. -/
def Begun (fs : Files) : Prop :=
  ∃ f, fs .app = some f ∧ (f.data <+: r₀.app ∨ f.data <+: r₁.app) ∧ (exec = true → f.exec = true)

/-- What the files are where the upload stands. -/
def CrashPhase (fs : Files) : Pc → Prop
  | .stop | .testBackup | .unlinkBackup | .copyBackup | .relaunch => Stands r₀ exec .app fs
  | .copyApp | .testRestore | .restore => Stands r₀ exec .backup fs ∧ Begun r₀ exec r₁ fs
  | .chmodApp => Stands r₀ exec .backup fs ∧ fs .app = some { data := r₁.app }
  | .launch | .poll _ | .finalPoll => Stands r₀ exec .backup fs ∧ fs .app = some { data := r₁.app, exec := true }
  | .copyHash =>
    fs .backup = some { data := r₀.app, exec } ∧ fs .app = some { data := r₁.app, exec := true } ∧
      fs.data .version = some r₀.version
  | .copyVersion => fs .app = some { data := r₁.app, exec := true } ∧ fs.data .hash = some r₁.hash

/-- What the files are where the upload goes on. -/
def CrashGoes (fs : Files) : Outcome → Prop
  | .next pc => CrashPhase r₀ exec r₁ fs pc
  | .answer _ => Stands r₀ exec .app fs ∨ Stands r₁ true .app fs

variable {r₀ exec r₁}

/-- A step that touches neither the path, nor the hash file, nor the version. -/
theorem Stands.of_eq {r : Release} {q q' : Path} {fs fs' : Files} (h : Stands r exec q fs) (hq : fs' q' = fs q)
    (hhash : fs'.data .hash = fs.data .hash) (hversion : fs'.data .version = fs.data .version) :
    Stands r exec q' fs' :=
  ⟨hq.trans h.image, hhash.trans h.hash, hversion.trans h.version⟩

theorem begun_of_app {fs : Files} {data : List UInt8} (hdata : data <+: r₀.app ∨ data <+: r₁.app)
    (h : fs .app = some { data, exec := true }) : Begun r₀ exec r₁ fs :=
  ⟨_, h, hdata, fun _ => rfl⟩

/-- **A step of the upload leads from phase to phase.** -/
theorem next_crash {fs fs' : Files} {job : Job} {active : Bool} {o : Outcome} (h : job.next fs active = (fs', o))
    (hp : job.package = r₁.package) (hphase : CrashPhase r₀ exec r₁ fs job.pc) : CrashGoes r₀ exec r₁ fs' o := by
  obtain ⟨package, pc⟩ := job
  have hp : package = r₁.package := hp
  subst hp
  cases pc with
  | stop =>
    cases h
    exact hphase
  | testBackup =>
    simp only [Job.next] at h
    split at h <;> cases h <;> exact hphase
  | unlinkBackup =>
    simp only [Job.next] at h
    split at h <;> cases h
    · exact Or.inl hphase
    · exact Stands.of_eq hphase unlink_ne data_unlink_ne data_unlink_ne
  | copyBackup =>
    have happ := hphase.image
    simp only [Job.next, happ] at h
    cases h
    refine ⟨Stands.of_eq hphase ?_ data_copy2_ne data_copy2_ne, ?_⟩
    · rw [copy2_self, happ]
    · refine ⟨{ data := r₀.app, exec }, ?_, Or.inl (List.prefix_refl _), id⟩
      rw [copy2_ne, happ]
  | copyApp =>
    cases h
    exact ⟨hphase.1.of_eq copy2_ne data_copy2_ne data_copy2_ne, copy2_self ..⟩
  | chmodApp =>
    obtain ⟨hbackup, happ⟩ := hphase
    simp only [Job.next, happ] at h
    cases h
    exact ⟨hbackup.of_eq copy2_ne data_copy2_ne data_copy2_ne, copy2_self ..⟩
  | launch =>
    cases h
    exact hphase
  | poll left =>
    obtain ⟨rfl, rfl | ⟨_, rfl⟩⟩ := next_poll h <;> exact hphase
  | finalPoll =>
    obtain ⟨hbackup, happ⟩ := hphase
    simp only [Job.next] at h
    split at h <;> cases h
    · exact ⟨hbackup.image, happ, hbackup.version⟩
    · exact ⟨hbackup, begun_of_app (Or.inr (List.prefix_refl _)) happ⟩
  | copyHash =>
    obtain ⟨-, happ, -⟩ := hphase
    cases h
    exact ⟨Eq.trans copy2_ne happ, data_copy2_self ..⟩
  | copyVersion =>
    obtain ⟨happ, hhash⟩ := hphase
    cases h
    exact Or.inr ⟨Eq.trans copy2_ne happ, Eq.trans data_copy2_ne hhash, data_copy2_self ..⟩
  | testRestore =>
    have hbackup : fs .backup ≠ none := by
      rw [hphase.1.image]
      exact Option.some_ne_none _
    simp only [Job.next, if_neg hbackup] at h
    cases h
    exact hphase
  | restore =>
    have hbackup := hphase.1.image
    simp only [Job.next, hbackup] at h
    cases h
    refine hphase.1.of_eq ?_ data_copy2_ne data_copy2_ne
    rw [copy2_self, hbackup]
  | relaunch =>
    cases h
    exact Or.inl hphase

/-- **A copy that is under way keeps the phase of the upload.** -/
theorem copy_crash {fs : Files} {job : Job} {src : File} {dst : Path} (h : job.copy fs = some (src, dst))
    (hp : job.package = r₁.package) (hphase : CrashPhase r₀ exec r₁ fs job.pc) (k : Nat) :
    CrashPhase r₀ exec r₁ (fs.copying src dst k) job.pc := by
  obtain ⟨package, pc⟩ := job
  have hp : package = r₁.package := hp
  subst hp
  cases pc with
  | copyBackup =>
    obtain ⟨app, -, h⟩ := Option.map_eq_some_iff.mp h
    cases h
    exact Stands.of_eq hphase copying_ne data_copying_ne data_copying_ne
  | copyApp =>
    obtain ⟨hbackup, f, hf, -, hexec⟩ := hphase
    cases h
    refine ⟨hbackup.of_eq copying_ne data_copying_ne data_copying_ne, _, copying_self .., ?_, ?_⟩
    · exact Or.inr (List.take_prefix k _)
    · rw [hf]
      exact hexec
  | copyHash =>
    cases h
    exact ⟨Eq.trans copying_ne hphase.1, Eq.trans copying_ne hphase.2.1, Eq.trans data_copying_ne hphase.2.2⟩
  | copyVersion =>
    cases h
    exact ⟨Eq.trans copying_ne hphase.1, Eq.trans data_copying_ne hphase.2⟩
  | restore =>
    obtain ⟨hbackup, f, hf, -, hexec⟩ := hphase
    simp only [Job.copy, hbackup.image, Option.map_some] at h
    cases h
    refine ⟨hbackup.of_eq copying_ne data_copying_ne data_copying_ne, _, copying_self .., ?_, ?_⟩
    · exact Or.inl (List.take_prefix k _)
    · rw [hf]
      exact hexec
  | stop | testBackup | unlinkBackup | chmodApp | launch | poll left | finalPoll | testRestore | relaunch => cases h

/-- The upload is the only one, or it has been answered. -/
def Updating (r₀ : Release) (exec : Bool) (r₁ : Release) (s : State) : Prop :=
  s.server = .serving ∧ s.metadata = true ∧
    ((∃ job, s.uploads = [job] ∧ job.package = r₁.package ∧ CrashPhase r₀ exec r₁ s.files job.pc) ∨
      s.uploads = [] ∧ (Stands r₀ exec .app s.files ∨ Stands r₁ true .app s.files))

/-- A step of an upload. -/
def Act.ofUpload : Act → Bool
  | .upload .. | .write .. => true
  | _ => false

/-- The only upload. -/
theorem eq_of_single {α : Type*} {x y : α} {i : Nat} (h : [x][i]? = some y) : i = 0 ∧ x = y := by
  obtain ⟨hi, hy⟩ := List.getElem?_eq_some_iff.mp h
  have h0 : i = 0 := by simpa using hi
  subst h0
  exact ⟨rfl, hy⟩

theorem updating_step {c : Cryptography} {s s' : State} {a : Act} (hs : Updating r₀ exec r₁ s)
    (ha : a.ofUpload = true) (h : step c s a = some s') : Updating r₀ exec r₁ s' := by
  obtain ⟨hv, hm, ⟨job, hu, hp, hphase⟩ | ⟨hu, hdone⟩⟩ := hs
  · cases a with
    | upload i active =>
      obtain ⟨job', files, hjob, hstep⟩ := step_upload h
      rw [hu] at hjob
      obtain ⟨rfl, rfl⟩ := eq_of_single hjob
      rcases hstep with ⟨pc, hnext, rfl⟩ | ⟨a, hnext, rfl⟩
      · refine ⟨hv, hm, Or.inl ⟨{ job with pc }, ?_, hp, next_crash hnext hp hphase⟩⟩
        simp only [hu, List.set_cons_zero]
      · refine ⟨hv, hm, Or.inr ⟨?_, next_crash hnext hp hphase⟩⟩
        simp only [hu, List.eraseIdx_cons_zero]
    | write i k =>
      obtain ⟨job', src, dst, hjob, hcopy, -, rfl⟩ := step_write h
      rw [hu] at hjob
      obtain ⟨rfl, rfl⟩ := eq_of_single hjob
      exact ⟨hv, hm, Or.inl ⟨job, hu, hp, copy_crash hcopy hp hphase k⟩⟩
    | start | server | serverWrite k | request r | kill => cases ha
  · cases a with
    | upload i active =>
      obtain ⟨job', files, hjob, -⟩ := step_upload h
      rw [hu] at hjob
      cases hjob
    | write i k =>
      obtain ⟨job', src, dst, hjob, -⟩ := step_write h
      rw [hu] at hjob
      cases hjob
    | start | server | serverWrite k | request r | kill => cases ha

/-! ## What the crash leaves -/

variable (r₀ exec r₁) in
/-- The files are those of one of the two releases, which is the one that is reported, and the image may be executed
if the first one could. -/
def OneUnit (fs : Files) : Prop :=
  (∃ r, (r = r₀ ∨ r = r₁) ∧ r.Installed fs ∧ r.Reported fs) ∧ (exec = true → fs.exec .app = true)

variable (r₀ exec r₁) in
/-- What is in the files where a kill leaves those of one release. -/
def Harmless (fs : Files) : Pc → Prop
  -- the installed image has been replaced by itself, and has lost its mode
  | .chmodApp => r₁.app = r₀.app → exec = false
  -- the version is still the first one
  | .copyHash => fs.data .hash = some r₀.hash ∨ fs.data .hash = some r₁.hash ∧ r₁.version = r₀.version
  | .copyVersion =>
    fs.data .version = some r₁.version ∨
      r₁.app = r₀.app ∧ r₁.hash = r₀.hash ∧ fs.data .version = some r₀.version
  | _ => True

variable {fs fs' : Files}

theorem Stands.installed {r : Release} (h : Stands r exec .app fs) : r.Installed fs :=
  ⟨data_of_eq h.image, h.hash, h.version⟩

theorem exec_of_eq {f : File} {p : Path} (h : fs p = some f) : fs.exec p = f.exec := by
  rw [Files.exec, h, Option.elim_some]

/-- The files after a restoration. -/
theorem restoreBackup_of_backup {backup : File} (h : fs .backup = some backup) :
    restoreBackup fs = fs.copy2 backup .app := by
  simp only [restoreBackup, h]

section

variable (h₀ : digestOf r₀.hash = some (sha256 r₀.app)) (h₁ : digestOf r₁.hash = some (sha256 r₁.app))

include h₀ h₁

theorem oneUnit_iff_installed : OneUnit r₀ exec r₁ fs ↔
    (r₀.Installed fs ∨ r₁.Installed fs) ∧ (exec = true → fs.exec .app = true) := by
  refine and_congr_left fun _ => ⟨?_, ?_⟩
  · rintro ⟨r, rfl | rfl, hr, -⟩
    · exact Or.inl hr
    · exact Or.inr hr
  · rintro (hr | hr)
    · exact ⟨r₀, Or.inl rfl, hr, hr.reported h₀⟩
    · exact ⟨r₁, Or.inr rfl, hr, hr.reported h₁⟩

/-- A kill before the upload has touched the image, or after its answer. -/
theorem oneUnit_of_stands (h : Stands r₀ exec .app fs ∨ Stands r₁ true .app fs) (hr : Recovered fs fs') :
    OneUnit r₀ exec r₁ fs' := by
  have hmatch : Matches fs := by
    rcases h with h | h
    · exact (matches_of_data (data_of_eq h.image) h.hash).mpr h₀
    · exact (matches_of_data (data_of_eq h.image) h.hash).mpr h₁
  obtain ⟨-, rfl⟩ := hr.resolve_right fun hr => hr.1 hmatch
  rw [oneUnit_iff_installed h₀ h₁]
  rcases h with h | h
  · refine ⟨Or.inl h.installed, fun he => ?_⟩
    rw [exec_of_eq h.image]
    exact he
  · refine ⟨Or.inr h.installed, fun _ => ?_⟩
    rw [exec_of_eq h.image]

/-- **A kill before the commit**: the first release is restored, unless its image stands there already, with whatever
mode. -/
theorem oneUnit_iff_of_saved {f : File} (h : Stands r₀ exec .backup fs) (hf : fs .app = some f)
    (hinj : sha256 f.data = sha256 r₀.app → f.data = r₀.app) (hr : Recovered fs fs') :
    OneUnit r₀ exec r₁ fs' ↔ (f.data = r₀.app → exec = true → f.exec = true) := by
  have hmatch : Matches fs ↔ f.data = r₀.app := by
    rw [matches_of_data (data_of_eq hf) h.hash, h₀, Option.some.injEq]
    constructor
    · exact fun heq => hinj heq.symm
    · exact fun heq => by rw [heq]
  rw [oneUnit_iff_installed h₀ h₁]
  rcases hr with ⟨hm, rfl⟩ | ⟨hm, rfl⟩
  · have hdata := hmatch.mp hm
    have hinst : r₀.Installed fs' := ⟨by rw [data_of_eq hf, hdata], h.hash, h.version⟩
    rw [exec_of_eq hf]
    exact ⟨fun hu _ => hu.2, fun hu => ⟨Or.inl hinst, hu hdata⟩⟩
  · rw [restoreBackup_of_backup h.image]
    refine ⟨fun _ hdata => absurd (hmatch.mpr hdata) hm, fun _ => ⟨Or.inl ⟨?_, ?_, ?_⟩, fun he => ?_⟩⟩
    · exact data_copy2_self ..
    · rw [data_copy2_ne, h.hash]
    · rw [data_copy2_ne, h.version]
    · rw [exec_of_eq (copy2_self ..)]
      exact he

/-- **A kill in the copy of the hash**: the version is still the first one, so the hash file has to be the first one,
or the versions agree. -/
theorem oneUnit_iff_of_copyHash (happ : fs .app = some { data := r₁.app, exec := true })
    (hbackup : fs .backup = some { data := r₀.app, exec }) (hversion : fs.data .version = some r₀.version)
    (hinj : sha256 r₁.app = sha256 r₀.app → r₁.app = r₀.app) (hr : Recovered fs fs') :
    OneUnit r₀ exec r₁ fs' ↔ Harmless r₀ exec r₁ fs .copyHash := by
  have hmatch : ∀ hash, fs.data .hash = some hash → (Matches fs ↔ digestOf hash = some (sha256 r₁.app)) :=
    fun hash => matches_of_data (data_of_eq happ)
  rw [oneUnit_iff_installed h₀ h₁]
  rcases hr with ⟨hm, rfl⟩ | ⟨hm, rfl⟩
  · rw [exec_of_eq happ, and_iff_left fun _ => rfl]
    refine or_congr ⟨fun hi => hi.2.1, fun hhash => ?_⟩ ⟨fun hi => ?_, fun hi => ?_⟩
    · have heq := (hmatch _ hhash).mp hm
      rw [h₀, Option.some.injEq] at heq
      exact ⟨by rw [data_of_eq happ, hinj heq.symm], hhash, hversion⟩
    · have heq := hi.2.2
      rw [hversion, Option.some.injEq] at heq
      exact ⟨hi.2.1, heq.symm⟩
    · exact ⟨data_of_eq happ, hi.1, by rw [hversion, hi.2]⟩
  · rw [restoreBackup_of_backup hbackup, exec_of_eq (copy2_self ..), and_iff_left fun he => he]
    refine or_congr ⟨fun hi => ?_, fun hhash => ⟨data_copy2_self .., ?_, ?_⟩⟩ ⟨fun hi => ?_, fun hi => ?_⟩
    · rw [← hi.2.1, data_copy2_ne]
    · rw [data_copy2_ne, hhash]
    · rw [data_copy2_ne, hversion]
    · have hhash := hi.2.1
      rw [data_copy2_ne] at hhash
      exact absurd ((hmatch _ hhash).mpr h₁) hm
    · exact absurd ((hmatch _ hi.1).mpr h₁) hm

/-- **A kill in the copy of the version**: the version has to be complete, or the releases differ in nothing else. -/
theorem oneUnit_iff_of_copyVersion (happ : fs .app = some { data := r₁.app, exec := true })
    (hhash : fs.data .hash = some r₁.hash) (hr : Recovered fs fs') :
    OneUnit r₀ exec r₁ fs' ↔ Harmless r₀ exec r₁ fs .copyVersion := by
  have hmatch : Matches fs := (matches_of_data (data_of_eq happ) hhash).mpr h₁
  obtain ⟨-, rfl⟩ := hr.resolve_right fun hr => hr.1 hmatch
  rw [oneUnit_iff_installed h₀ h₁, exec_of_eq happ, and_iff_left fun _ => rfl, or_comm]
  simp only [Release.Installed, Harmless, data_of_eq happ, hhash, Option.some.injEq, true_and]

/-- **What a kill leaves, wherever the upload stands.** -/
theorem oneUnit_iff_of_phase {pc : Pc} (hc : Set.InjOn sha256 {x | x <+: r₀.app ∨ x <+: r₁.app})
    (hphase : CrashPhase r₀ exec r₁ fs pc) (hr : Recovered fs fs') :
    OneUnit r₀ exec r₁ fs' ↔ Harmless r₀ exec r₁ fs pc := by
  have hinj : ∀ {x}, (x <+: r₀.app ∨ x <+: r₁.app) → sha256 x = sha256 r₀.app → x = r₀.app :=
    fun hx => hc hx (Or.inl (List.prefix_refl _))
  cases pc with
  | stop | testBackup | unlinkBackup | copyBackup | relaunch =>
    exact iff_of_true (oneUnit_of_stands h₀ h₁ (Or.inl hphase) hr) trivial
  | copyApp | testRestore | restore =>
    obtain ⟨hbackup, f, hf, hdata, hexec⟩ := hphase
    exact iff_of_true ((oneUnit_iff_of_saved h₀ h₁ hbackup hf (hinj hdata) hr).mpr fun _ => hexec) trivial
  | chmodApp =>
    obtain ⟨hbackup, hf⟩ := hphase
    rw [oneUnit_iff_of_saved h₀ h₁ hbackup hf (hinj (Or.inr (List.prefix_refl _))) hr]
    simp only [Harmless, Bool.false_eq_true, imp_false, Bool.not_eq_true]
  | launch | poll left | finalPoll =>
    obtain ⟨hbackup, hf⟩ := hphase
    refine iff_of_true ?_ trivial
    exact (oneUnit_iff_of_saved h₀ h₁ hbackup hf (hinj (Or.inr (List.prefix_refl _))) hr).mpr fun _ _ => rfl
  | copyHash =>
    obtain ⟨hbackup, happ, hversion⟩ := hphase
    exact oneUnit_iff_of_copyHash h₀ h₁ happ hbackup hversion (hinj (Or.inr (List.prefix_refl _))) hr
  | copyVersion => exact oneUnit_iff_of_copyVersion h₀ h₁ hphase.1 hphase.2 hr

end

end Upload

/-- The files at a kill, after the request that has been accepted and some steps of its upload. -/
theorem updating_of_run {c : Cryptography} {r₀ r₁ : Release} {s₀ s₁ : State} {r : Request} {as : List Act}
    (h₀ : Serving r₀ s₀) (hm : s₀.metadata = true) (hr : uploadOta c s₀.verifyKey r = .ok r₁.package)
    (has : ∀ a ∈ as, a.ofUpload = true) (h : run (step c) s₀ (.request r :: as) = some s₁) :
    Updating r₀ (s₀.files.exec .app) r₁ s₁ := by
  obtain ⟨t, ht, h⟩ := run_cons.mp h
  simp only [step, if_pos h₀.server, hr, h₀.uploads] at ht
  cases ht
  obtain ⟨happ, hhash, hversion⟩ := h₀.installed
  obtain ⟨app, happ, hdata⟩ := Option.map_eq_some_iff.mp happ
  refine run_inv (P := fun _ a => a.ofUpload = true) (I := Updating r₀ (s₀.files.exec .app) r₁)
    (fun t a t' ht ha hstep => updating_step ht ha hstep) ?_ (along_of_forall (fun _ => has) _) h
  refine ⟨h₀.server, hm, Or.inl ⟨_, rfl, rfl, ?_, hhash, hversion⟩⟩
  rw [exec_of_eq happ, happ, ← hdata]

/-- **A crash leaves the files of one release, which `get_version` reports, exactly where it is harmless**: everywhere
but in the commit, and before `chmod` when the installed image is uploaded. -/
theorem oneUnit_iff {c : Cryptography} {r₀ r₁ : Release} {s₀ s₁ s : State} {r : Request} {as bs : List Act}
    (h₀ : Serving r₀ s₀) (hm : s₀.metadata = true) (hr : uploadOta c s₀.verifyKey r = .ok r₁.package)
    (hc : Set.InjOn sha256 {x | x <+: r₀.app ∨ x <+: r₁.app}) (has : ∀ a ∈ as, a.ofUpload = true)
    (hbs : ∀ a ∈ bs, a.ofServer = true) (h₁ : run (step c) s₀ (.request r :: as) = some s₁)
    (h : run (step c) s₁ (.kill :: .start :: bs) = some s) (hv : s.server = .validated) :
    OneUnit r₀ (s₀.files.exec .app) r₁ s.files ↔
      ∀ job ∈ s₁.uploads, Harmless r₀ (s₀.files.exec .app) r₁ s₁.files job.pc := by
  have hdigest : digestOf r₁.hash = some (sha256 r₁.app) := by
    obtain ⟨key, a, -, -, hcheck⟩ := uploadOta_extracted hr
    exact (checkArchive_ok hcheck).2.2.2.1
  obtain ⟨-, hmeta, hphase⟩ := updating_of_run h₀ hm hr has h₁
  have hrec : Recovered s₁.files s.files := by
    obtain ⟨t, ht, h⟩ := run_cons.mp h
    obtain ⟨u, hu, h⟩ := run_cons.mp h
    cases step_kill ht
    cases hu
    exact recovered_of_run (s := { s₁ with server := .validating, uploads := [] }) hmeta rfl hbs h hv
  rcases hphase with ⟨job, hu, -, hphase⟩ | ⟨hu, hdone⟩
  · rw [oneUnit_iff_of_phase h₀.digest hdigest hc hphase hrec, hu]
    simp only [List.mem_singleton, forall_eq]
  · rw [hu]
    exact iff_of_true (oneUnit_of_stands h₀.digest hdigest hdone hrec) fun _ hjob => absurd hjob List.not_mem_nil

/-! ## Two crashes -/

/-- The release of the archive. -/
def secondRelease : Release where
  app := [3]
  hash := ascii "084fed08b978af4d7d196a7446a86b58009e636b611db16211b65a9aadff29c5\n"
  version := ascii "2\n"

theorem uploadOta_archive :
    uploadOta oneKey server.verifyKey (.zip (.extracted archive)) = .ok secondRelease.package := by
  decide +kernel

theorem injOn_releases : Set.InjOn sha256 {x | x <+: firstRelease.app ∨ x <+: secondRelease.app} := by
  refine (@injOn_images none [.request (.zip (.extracted archive))] ?_).mono ?_
  · rintro a ha
    cases List.mem_singleton.mp ha
    rfl
  · rintro x (hx | hx)
    · exact ⟨firstRelease.app, Or.inl ⟨_, Or.inl rfl, rfl⟩, hx⟩
    · exact ⟨secondRelease.app, Or.inr ⟨archive, List.mem_cons_self, rfl⟩, hx⟩

/-- An upload of the archive whose process is killed after some steps, and the next start. -/
def crash (as bs : List Act) : Option (State × State) :=
  (run (step oneKey) server (.request (.zip (.extracted archive)) :: as)).bind fun s₁ =>
    (run (step oneKey) s₁ (.kill :: .start :: bs)).map (s₁, ·)

theorem runs_of_crash {as bs : List Act} {s₁ s : State} (h : crash as bs = some (s₁, s)) :
    run (step oneKey) server (.request (.zip (.extracted archive)) :: as) = some s₁ ∧
      run (step oneKey) s₁ (.kill :: .start :: bs) = some s := by
  obtain ⟨t, h₁, h⟩ := Option.bind_eq_some_iff.mp h
  obtain ⟨u, h, hpair⟩ := Option.map_eq_some_iff.mp h
  cases hpair
  exact ⟨h₁, h⟩

/-- A kill in the copy of the image, and a restoration that first writes half of the first one. -/
theorem oneUnit_killedCopy : ∃ s₁ s,
    crash (List.replicate 3 (.upload 0 false) ++ [.write 0 1])
      [.server, .server, .server, .serverWrite 1, .server, .server] = some (s₁, s) ∧
    OneUnit firstRelease true secondRelease s.files := by
  have hrun : (crash (List.replicate 3 (.upload 0 false) ++ [.write 0 1])
      [.server, .server, .server, .serverWrite 1, .server, .server]).map
        (fun p => (p.1.uploads.map Job.pc, p.2.server)) = some ([.copyApp], .validated) := by
    decide +kernel
  obtain ⟨⟨s₁, s⟩, hcrash, heq⟩ := Option.map_eq_some_iff.mp hrun
  simp only [Prod.mk.injEq] at heq
  obtain ⟨h₁, h⟩ := runs_of_crash hcrash
  refine ⟨s₁, s, hcrash, (oneUnit_iff serving_server rfl uploadOta_archive injOn_releases (by decide) (by decide) h₁ h
    heq.2).mpr ?_⟩
  intro job hjob
  have hpc : job.pc ∈ s₁.uploads.map Job.pc := List.mem_map_of_mem hjob
  rw [heq.1, List.mem_singleton] at hpc
  rw [hpc]
  trivial

/-- A kill between the two copies of the commit: the second image is installed beside its hash file and the first
version. -/
theorem commit_torn : ¬∀ c r₀ r₁ s₀ s₁ s r as bs, Serving r₀ s₀ → s₀.metadata = true →
    uploadOta c s₀.verifyKey r = .ok r₁.package → Set.InjOn sha256 {x | x <+: r₀.app ∨ x <+: r₁.app} →
    (∀ a ∈ as, a.ofUpload = true) → (∀ a ∈ bs, a.ofServer = true) → run (step c) s₀ (.request r :: as) = some s₁ →
    run (step c) s₁ (.kill :: .start :: bs) = some s → s.server = .validated →
      OneUnit r₀ (s₀.files.exec .app) r₁ s.files := by
  intro hall
  have hrun : (crash (List.replicate 3 (.upload 0 false) ++ install 0 true ++ [.upload 0 false]) [.server]).map
      (fun p => (p.2.server, p.2.files.data .app, p.2.files.data .version)) =
        some (.validated, some [3], some (ascii "1\n")) := by
    decide +kernel
  obtain ⟨⟨s₁, s⟩, hcrash, heq⟩ := Option.map_eq_some_iff.mp hrun
  simp only [Prod.mk.injEq] at heq
  obtain ⟨hv, happ, hversion⟩ := heq
  obtain ⟨h₁, h⟩ := runs_of_crash hcrash
  obtain ⟨⟨r, rfl | rfl, hinst, -⟩, -⟩ := hall oneKey firstRelease secondRelease server s₁ s _ _ _ serving_server rfl
    uploadOta_archive injOn_releases (by decide) (by decide) h₁ h hv
  · rw [hinst.1] at happ
    exact absurd happ (by decide)
  · rw [hinst.2.2] at hversion
    exact absurd hversion (by decide)

end KaonicComm.Ota
