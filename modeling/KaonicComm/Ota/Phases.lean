import KaonicComm.Ota.Updater
import Mathlib.Data.Set.Function

/-!
# The phases of an upload

Some images are good. The files are recoverable when `validate_app_file` would leave a good image in place
(`Recoverable`): the installed image is the one that the hash file names, or the backup is good, or the installed image
is good and there is no backup. `Phase` says what an upload can rely on at each of its steps; one step leads from phase
to phase (`next_phase`), and a kill leaves the files recoverable (`phase_recoverable`) but for one place: while
`backup_current` writes the backup, only the hash file protects the installed image.
-/

namespace KaonicComm.Ota

open Sha256

/-- A file holds a good image. -/
def Intact (good : Set (List UInt8)) (fs : Files) (p : Path) : Prop := ∃ f, fs p = some f ∧ f.data ∈ good

/-- Nothing has been written to the backup, or all of it. -/
def BackupWhole (fs : Files) : Prop := fs .backup = none ∨ (fs .backup).map File.data = (fs .app).map File.data

instance (fs : Files) : Decidable (BackupWhole fs) := inferInstanceAs (Decidable (_ ∨ _))

section Images

variable {good good' S : Set (List UInt8)} {fs : Files}

theorem Intact.mono (hg : good ⊆ good') {p : Path} (h : Intact good fs p) : Intact good' fs p := by
  obtain ⟨f, hf, hgood⟩ := h
  exact ⟨f, hf, hg hgood⟩

theorem Intact.ne_none {p : Path} (h : Intact good fs p) : fs p ≠ none := by
  obtain ⟨f, hf, -⟩ := h
  rw [hf]
  nofun

/-- A file that a step does not touch. -/
theorem Intact.of_eq {fs' : Files} {p : Path} (h : Intact good fs p) (he : fs' p = fs p) : Intact good fs' p := by
  unfold Intact
  rw [he]
  exact h

theorem intact_copy2 {src : File} {dst : Path} (h : src.data ∈ good) : Intact good (fs.copy2 src dst) dst :=
  ⟨src, copy2_self .., h⟩

/-! ## What the files may hold -/

/-- What may stand in a file: images of the run, and beginnings of texts that name a good one. -/
def Allowed (S good : Set (List UInt8)) : Path → List UInt8 → Prop
  | .app, x | .backup, x => x ∈ S
  | .hash, x => ∃ t n, x <+: t ∧ digestOf t = some (sha256 n) ∧ n ∈ S ∧ n ∈ good
  | .version, _ => True

def Contents (S good : Set (List UInt8)) (fs : Files) : Prop := ∀ p f, fs p = some f → Allowed S good p f.data

theorem Allowed.mono (hg : good ⊆ good') {p : Path} {x : List UInt8} (h : Allowed S good p x) :
    Allowed S good' p x := by
  cases p with
  | hash =>
    obtain ⟨t, n, hx, ht, hS, hgood⟩ := h
    exact ⟨t, n, hx, ht, hS, hg hgood⟩
  | app | backup | version => exact h

/-- A beginning of what may stand in a file. -/
theorem Allowed.of_isPrefix (hS : ∀ x y, x <+: y → y ∈ S → x ∈ S) {p : Path} {x y : List UInt8} (hxy : x <+: y)
    (h : Allowed S good p y) : Allowed S good p x := by
  cases p with
  | app | backup => exact hS x y hxy h
  | hash =>
    obtain ⟨t, n, hy, ht⟩ := h
    exact ⟨t, n, hxy.trans hy, ht⟩
  | version => trivial

theorem Contents.update (h : Contents S good fs) {p : Path} {v : Option File}
    (hv : ∀ f, v = some f → Allowed S good p f.data) : Contents S good (Function.update fs p v) := by
  intro q f hf
  by_cases hq : q = p
  · subst hq
    rw [Function.update_self] at hf
    exact hv f hf
  · rw [Function.update_of_ne hq] at hf
    exact h q f hf

theorem Contents.copy2 (h : Contents S good fs) {src : File} {dst : Path} (hsrc : Allowed S good dst src.data) :
    Contents S good (fs.copy2 src dst) := by
  apply h.update
  intro f hf
  cases hf
  exact hsrc

theorem Contents.copying (hS : ∀ x y, x <+: y → y ∈ S → x ∈ S) (h : Contents S good fs) {src : File} {dst : Path}
    (hsrc : Allowed S good dst src.data) (k : Nat) : Contents S good (fs.copying src dst k) := by
  apply h.update
  intro f hf
  cases hf
  apply hsrc.of_isPrefix hS
  exact List.take_prefix k src.data

theorem Contents.unlink (h : Contents S good fs) (p : Path) : Contents S good (fs.unlink p) := h.update nofun

/-- **An image that the hash file names is good**, also where the hash file has been cut short. -/
theorem Contents.intact_of_matches (h : Contents S good fs) (hc : Set.InjOn sha256 S) (hm : Matches fs) :
    Intact good fs .app := by
  obtain ⟨happ, hhash, heq⟩ := hm
  obtain ⟨app, happ⟩ := Option.ne_none_iff_exists'.mp happ
  obtain ⟨hash, hhash⟩ := Option.ne_none_iff_exists'.mp hhash
  simp only [expectedHash, actualHash, happ, hhash] at heq
  obtain ⟨t, n, hpre, ht, hS, hgood⟩ := h .hash hash hhash
  have hn : sha256 app.data = sha256 n := digestOf_isPrefix hpre heq ht (by rw [length_sha256, length_sha256])
  exact ⟨app, happ, by rw [hc (h .app app happ) hS hn]; exact hgood⟩

/-! ## The phases -/

/-- `validate_app_file` would leave a good image in place. -/
def Recoverable (good : Set (List UInt8)) (fs : Files) : Prop :=
  Matches fs ∨ Intact good fs .backup ∨ Intact good fs .app ∧ fs .backup = none

/-- Between uploads. -/
def Steady (good : Set (List UInt8)) (fs : Files) : Prop := Intact good fs .app ∧ Recoverable good fs

theorem Recoverable.mono (hg : good ⊆ good') (h : Recoverable good fs) : Recoverable good' fs := by
  rcases h with h | h | ⟨h, hb⟩
  · exact Or.inl h
  · exact Or.inr (Or.inl (h.mono hg))
  · exact Or.inr (Or.inr ⟨h.mono hg, hb⟩)

theorem Steady.mono (hg : good ⊆ good') (h : Steady good fs) : Steady good' fs := ⟨h.1.mono hg, h.2.mono hg⟩

theorem steady_of_both (h : Intact good fs .app ∧ Intact good fs .backup) : Steady good fs :=
  ⟨h.1, Or.inr (Or.inl h.2)⟩

/-- A restoration. -/
theorem intact_restored {backup : File} (hb : fs .backup = some backup) (hd : backup.data ∈ good) :
    Intact good (fs.copy2 backup .app) .app ∧ Intact good (fs.copy2 backup .app) .backup :=
  ⟨intact_copy2 hd, backup, by rw [copy2_ne, hb], hd⟩

/-- What an upload can rely on where it stands. -/
def Phase (good : Set (List UInt8)) (fs : Files) : Pc → Prop
  | .stop | .testBackup | .unlinkBackup => Steady good fs
  | .copyBackup => Intact good fs .app
  | .copyApp | .restore => Intact good fs .backup
  | _ => Intact good fs .app ∧ Intact good fs .backup

/-- What a package that has passed the checks brings. -/
structure Accepted (S good : Set (List UInt8)) (p : Package) : Prop where
  known : p.app ∈ S
  good : p.app ∈ good
  digest : digestOf p.hash = some (sha256 p.app)

theorem Accepted.mono (hg : good ⊆ good') {p : Package} (h : Accepted S good p) : Accepted S good' p :=
  ⟨h.known, hg h.good, h.digest⟩

theorem Accepted.hash {p : Package} (h : Accepted S good p) : Allowed S good .hash p.hash :=
  ⟨p.hash, p.app, List.prefix_refl _, h.digest, h.known, h.good⟩

/-- What an upload copies may stand where it is copied to. -/
theorem copy_allowed {job : Job} {src : File} {dst : Path} (h : job.copy fs = some (src, dst))
    (hfs : Contents S good fs) (hp : Accepted S good job.package) : Allowed S good dst src.data := by
  unfold Job.copy at h
  split at h
  · obtain ⟨app, happ, h⟩ := Option.map_eq_some_iff.mp h
    cases h
    exact hfs .app _ happ
  · cases h
    exact hp.known
  · cases h
    exact hp.hash
  · split at h <;> cases h
    trivial
  · obtain ⟨backup, hbackup, h⟩ := Option.map_eq_some_iff.mp h
    cases h
    exact hfs .backup _ hbackup
  · cases h

/-- What the files hold after a step of an upload. -/
theorem next_contents {fs' : Files} {job : Job} {active : Bool} {o : Outcome} (h : job.next fs active = (fs', o))
    (hfs : Contents S good fs) (hp : Accepted S good job.package) : Contents S good fs' := by
  obtain ⟨package, pc⟩ := job
  cases pc with
  | stop | testBackup | launch | finalPoll | testRestore | relaunch =>
    cases h
    exact hfs
  | poll left =>
    obtain ⟨rfl, -⟩ := next_poll h
    exact hfs
  | unlinkBackup =>
    simp only [Job.next] at h
    split at h <;> cases h
    · exact hfs
    · exact hfs.unlink .backup
  | copyBackup | chmodApp =>
    simp only [Job.next] at h
    split at h <;> cases h
    · exact hfs
    · rename_i app happ
      exact hfs.copy2 (hfs .app app happ)
  | copyApp =>
    cases h
    exact hfs.copy2 hp.known
  | copyHash =>
    cases h
    exact hfs.copy2 hp.hash
  | copyVersion =>
    simp only [Job.next] at h
    split at h <;> cases h
    · exact hfs.copy2 trivial
    · exact hfs
  | restore =>
    simp only [Job.next] at h
    split at h <;> cases h
    · exact hfs
    · rename_i backup hbackup
      exact hfs.copy2 (hfs .backup backup hbackup)

/-- What holds where an upload goes on. -/
def Goes (good : Set (List UInt8)) (fs : Files) : Outcome → Prop
  | .next pc => Phase good fs pc
  | .answer _ => Steady good fs

/-- **A step of an upload leads from phase to phase.** -/
theorem next_phase {fs' : Files} {job : Job} {active : Bool} {o : Outcome} (h : job.next fs active = (fs', o))
    (hphase : Phase good fs job.pc) (hgood : job.package.app ∈ good) : Goes good fs' o := by
  obtain ⟨package, pc⟩ := job
  cases pc with
  | stop =>
    cases h
    exact hphase
  | testBackup =>
    simp only [Job.next] at h
    split at h <;> cases h
    · exact hphase.1
    · exact hphase
  | unlinkBackup =>
    simp only [Job.next] at h
    split at h <;> cases h
    · exact hphase
    · exact hphase.1.of_eq unlink_ne
  | copyBackup =>
    obtain ⟨app, happ, hdata⟩ := hphase
    simp only [Job.next, happ] at h
    cases h
    exact intact_copy2 hdata
  | copyApp =>
    cases h
    exact ⟨intact_copy2 hgood, hphase.of_eq copy2_ne⟩
  | chmodApp =>
    obtain ⟨⟨app, happ, hdata⟩, hbackup⟩ := hphase
    simp only [Job.next, happ] at h
    cases h
    exact ⟨intact_copy2 hdata, hbackup.of_eq copy2_ne⟩
  | launch =>
    cases h
    exact hphase
  | poll left =>
    obtain ⟨rfl, rfl | ⟨_, rfl⟩⟩ := next_poll h <;> exact hphase
  | finalPoll =>
    simp only [Job.next] at h
    split at h <;> cases h <;> exact hphase
  | copyHash =>
    cases h
    exact ⟨hphase.1.of_eq copy2_ne, hphase.2.of_eq copy2_ne⟩
  | copyVersion =>
    simp only [Job.next] at h
    split at h <;> cases h
    · exact steady_of_both
        ⟨hphase.1.of_eq copy2_ne, hphase.2.of_eq copy2_ne⟩
    · exact steady_of_both hphase
  | testRestore =>
    simp only [Job.next, if_neg hphase.2.ne_none] at h
    cases h
    exact hphase.2
  | restore =>
    obtain ⟨backup, hbackup, hdata⟩ := hphase
    simp only [Job.next, hbackup] at h
    cases h
    exact intact_restored hbackup hdata
  | relaunch =>
    cases h
    exact steady_of_both hphase

/-- A copy that is under way keeps the phase of its upload. -/
theorem copy_phase {job : Job} {src : File} {dst : Path} (h : job.copy fs = some (src, dst))
    (hphase : Phase good fs job.pc) (k : Nat) : Phase good (fs.copying src dst k) job.pc := by
  obtain ⟨package, pc⟩ := job
  cases pc with
  | copyBackup =>
    obtain ⟨app, -, h⟩ := Option.map_eq_some_iff.mp h
    cases h
    exact hphase.of_eq copying_ne
  | copyApp =>
    cases h
    exact hphase.of_eq copying_ne
  | copyHash =>
    cases h
    exact ⟨hphase.1.of_eq copying_ne, hphase.2.of_eq copying_ne⟩
  | copyVersion =>
    simp only [Job.copy] at h
    split at h <;> cases h
    exact ⟨hphase.1.of_eq copying_ne, hphase.2.of_eq copying_ne⟩
  | restore =>
    obtain ⟨backup, -, h⟩ := Option.map_eq_some_iff.mp h
    cases h
    exact hphase.of_eq copying_ne
  | stop | testBackup | unlinkBackup | chmodApp | launch | poll left | finalPoll | testRestore | relaunch => cases h

/-- **A kill leaves the files recoverable**, inside the copy to the backup where the hash file protects the image. -/
theorem phase_recoverable {pc : Pc} (h : Phase good fs pc)
    (hcopy : pc = .copyBackup → Matches fs ∨ BackupWhole fs) : Recoverable good fs := by
  cases pc with
  | stop | testBackup | unlinkBackup => exact h.2
  | copyBackup =>
    rcases hcopy rfl with hm | hnone | hwhole
    · exact Or.inl hm
    · exact Or.inr (Or.inr ⟨h, hnone⟩)
    · obtain ⟨app, happ, hdata⟩ := h
      rw [happ] at hwhole
      obtain ⟨backup, hbackup, heq⟩ := Option.map_eq_some_iff.mp hwhole
      exact Or.inr (Or.inl ⟨backup, hbackup, by rw [heq]; exact hdata⟩)
  | copyApp | restore => exact Or.inr (Or.inl h)
  | chmodApp | launch | poll left | finalPoll | copyHash | copyVersion | testRestore | relaunch =>
    exact Or.inr (Or.inl h.2)

end Images

end KaonicComm.Ota
