import KaonicComm.Ota.Updater

/-!
# Image, hash and version as one

`Rel` says which image, hash file and version belong together. Files are sound at a path when the image there belongs
to the hash file and the version beside it (`Sound`). An upload starts from sound files; while it replaces the image,
the backup is sound in its place, and `CommitPhase` says what it relies on at each of its steps. One step leads from
phase to phase (`next_commit`), and a copy that is under way keeps the phase (`copy_commit`).

So the files are sound again after every upload, as long as no upload begins to touch them while another one is past
that point, and the process is not killed with an upload at work (`inv_step`); then `validate_app_file` finds the hash
that it expects and replaces nothing.
-/

namespace KaonicComm.Ota

open Runs Sha256

/-! ## Uploads that take turns -/

/-- An upload that has not begun to touch the files. -/
def Pc.waits : Pc → Bool
  | .stop | .testBackup => true
  | _ => false

/-- The other uploads wait. -/
def Alone (s : State) (i : Nat) : Prop := ∀ j job, j ≠ i → s.uploads[j]? = some job → job.pc.waits = true

/-- An upload begins to touch the files only while the others wait, and the process is killed only between uploads. -/
def TakingTurns (s : State) : Act → Prop
  | .upload i _ => s.uploads[i]?.map Job.pc = some .testBackup → Alone s i
  | .kill => s.uploads = []
  | _ => True

instance (s : State) (i : Nat) : Decidable (Alone s i) :=
  decidable_of_iff (∀ j, ∀ _ : j < s.uploads.length, j ≠ i → s.uploads[j].pc.waits = true) <| by
    constructor
    · intro h j job hji hj
      obtain ⟨hlt, rfl⟩ := List.getElem?_eq_some_iff.mp hj
      exact h j hlt hji
    · intro h j hlt hji
      exact h j _ hji (List.getElem?_eq_getElem hlt)

instance (s : State) : ∀ a, Decidable (TakingTurns s a)
  | .upload _ _ => inferInstanceAs (Decidable (_ → _))
  | .kill => inferInstanceAs (Decidable (_ = _))
  | .start | .server | .serverWrite _ | .request _ | .write .. => isTrue trivial

section Alone

variable {s s' : State} {i k : Nat} {job : Job}

/-- An upload that goes on while the others wait. -/
theorem Alone.set (h : Alone s i) (hu : s'.uploads = s.uploads.set i job) : Alone s' i := by
  intro j job' hji hj
  rw [hu, List.getElem?_set_ne (Ne.symm hji)] at hj
  exact h j job' hji hj

/-- An upload that goes on and still waits. -/
theorem Alone.set_waiting (h : Alone s k) (hpc : job.pc.waits = true) (hu : s'.uploads = s.uploads.set i job) :
    Alone s' k := by
  intro j job' hjk hj
  rw [hu] at hj
  by_cases hij : i = j
  · subst hij
    rw [List.getElem?_set_self'] at hj
    obtain ⟨-, -, rfl⟩ := Option.map_eq_some_iff.mp hj
    exact hpc
  · rw [List.getElem?_set_ne hij] at hj
    exact h j job' hjk hj

/-- An upload that is answered while the others wait. -/
theorem Alone.erase (h : Alone s i) (hu : s'.uploads = s.uploads.eraseIdx i) (k : Nat) : Alone s' k := by
  intro j job' _ hj
  rw [hu] at hj
  obtain ⟨l, hl, hjob⟩ := List.mem_eraseIdx_iff_getElem?.mp (List.mem_of_getElem? hj)
  exact h l job' hl hjob

/-- A new upload waits. -/
theorem Alone.append (h : Alone s k) (hpc : job.pc.waits = true) (hu : s'.uploads = s.uploads ++ [job]) :
    Alone s' k := by
  intro j job' hjk hj
  rw [hu] at hj
  rcases Nat.lt_or_ge j s.uploads.length with hlt | hge
  · rw [List.getElem?_append_left hlt] at hj
    exact h j job' hjk hj
  · rw [List.getElem?_append_right hge] at hj
    rw [List.mem_singleton.mp (List.mem_of_getElem? hj)]
    exact hpc

/-- The upload that steps, unless it only waits, has the turn. -/
theorem Alone.of_step (h : Alone s k) (hjob : s.uploads[i]? = some job) (hturns : job.pc = .testBackup → Alone s i) :
    job.pc = .stop ∨ Alone s i := by
  by_cases hk : i = k
  · exact Or.inr (hk ▸ h)
  · have hwaits := h i job hk hjob
    cases hpc : job.pc with
    | stop => exact Or.inl rfl
    | testBackup => exact Or.inr (hturns hpc)
    | _ =>
      rw [hpc] at hwaits
      cases hwaits

end Alone

/-! ## Files by their bytes -/

/-- The bytes of a file. -/
def Files.data (fs : Files) (p : Path) : Option (List UInt8) := (fs p).map File.data

@[simp] theorem data_copy2_self (fs : Files) (src : File) (dst : Path) :
    (fs.copy2 src dst).data dst = some src.data := by
  simp only [Files.data, copy2_self, Option.map_some]

theorem data_copy2_ne {fs : Files} {src : File} {dst p : Path} (h : p ≠ dst := by decide) :
    (fs.copy2 src dst).data p = fs.data p := by
  simp only [Files.data, copy2_ne h]

theorem data_copying_ne {fs : Files} {src : File} {dst p : Path} {k : Nat} (h : p ≠ dst := by decide) :
    (fs.copying src dst k).data p = fs.data p := by
  simp only [Files.data, copying_ne h]

theorem data_unlink_ne {fs : Files} {q p : Path} (h : p ≠ q := by decide) : (fs.unlink q).data p = fs.data p := by
  simp only [Files.data, unlink_ne h]

theorem data_of_eq {fs : Files} {p : Path} {f : File} (h : fs p = some f) : fs.data p = some f.data := by
  rw [Files.data, h, Option.map_some]

theorem eq_none_of_data {fs : Files} {p : Path} (h : fs p = none) : fs.data p = none := by
  rw [Files.data, h, Option.map_none]

/-- The image is the one of the hash file. -/
theorem matches_of_data {fs : Files} {app hash : List UInt8} (happ : fs.data .app = some app)
    (hhash : fs.data .hash = some hash) : Matches fs ↔ digestOf hash = some (sha256 app) := by
  obtain ⟨a, ha, rfl⟩ := Option.map_eq_some_iff.mp happ
  obtain ⟨h, hh, rfl⟩ := Option.map_eq_some_iff.mp hhash
  simp only [Matches, expectedHash, actualHash, ha, hh, ne_eq, Option.some_ne_none, not_false_eq_true, true_and]

section

variable (Rel : List UInt8 → List UInt8 → Option (List UInt8) → Prop)

/-! ## The phases of a commit -/

/-- The image at a path belongs to the hash file and to the version. -/
def Sound (fs : Files) (q : Path) : Prop :=
  ∃ image hash, fs.data q = some image ∧ fs.data .hash = some hash ∧ Rel image hash (fs.data .version)

/-- What an upload relies on where it stands. -/
def CommitPhase (p : Package) (fs : Files) : Pc → Prop
  | .stop | .testBackup | .unlinkBackup | .copyBackup | .relaunch => Sound Rel fs .app
  | .copyApp | .testRestore | .restore => Sound Rel fs .backup
  | .chmodApp | .launch | .poll _ | .finalPoll => fs.data .app = some p.app ∧ Sound Rel fs .backup
  | .copyHash => fs.data .app = some p.app
  | .copyVersion => fs.data .app = some p.app ∧ fs.data .hash = some p.hash

/-- What a package brings belongs together, with the version that is there when it has been copied. -/
def Brings (p : Package) : Prop := ∀ v, (∀ version, p.version = .file version → v = some version) → Rel p.app p.hash v

variable {Rel}

theorem Sound.ne_none {fs : Files} {q : Path} (h : Sound Rel fs q) : fs q ≠ none := by
  obtain ⟨image, hash, himage, -⟩ := h
  intro hq
  rw [eq_none_of_data hq] at himage
  cases himage

/-- A step that touches neither the path, nor the hash file, nor the version. -/
theorem Sound.of_eq {fs fs' : Files} {q q' : Path} (h : Sound Rel fs q) (hq : fs'.data q' = fs.data q)
    (hhash : fs'.data .hash = fs.data .hash) (hversion : fs'.data .version = fs.data .version) : Sound Rel fs' q' := by
  unfold Sound
  rw [hq, hhash, hversion]
  exact h

/-- What holds where an upload goes on. -/
def CommitGoes (Rel : List UInt8 → List UInt8 → Option (List UInt8) → Prop) (p : Package) (fs : Files) : Outcome → Prop
  | .next pc => CommitPhase Rel p fs pc
  | .answer _ => Sound Rel fs .app

/-- **A step of an upload leads from phase to phase.** -/
theorem next_commit {fs fs' : Files} {job : Job} {active : Bool} {o : Outcome} (h : job.next fs active = (fs', o))
    (hphase : CommitPhase Rel job.package fs job.pc) (hp : Brings Rel job.package) :
    CommitGoes Rel job.package fs' o := by
  obtain ⟨package, pc⟩ := job
  cases pc with
  | stop =>
    cases h
    exact hphase
  | testBackup =>
    simp only [Job.next] at h
    split at h <;> cases h <;> exact hphase
  | unlinkBackup =>
    simp only [Job.next] at h
    split at h <;> cases h
    · exact hphase
    · exact Sound.of_eq hphase data_unlink_ne data_unlink_ne data_unlink_ne
  | copyBackup =>
    obtain ⟨app, happ⟩ := Option.ne_none_iff_exists'.mp (Sound.ne_none hphase)
    simp only [Job.next, happ] at h
    cases h
    refine Sound.of_eq hphase ?_ data_copy2_ne data_copy2_ne
    rw [data_copy2_self, data_of_eq happ]
  | copyApp =>
    cases h
    exact ⟨data_copy2_self .., Sound.of_eq hphase data_copy2_ne data_copy2_ne data_copy2_ne⟩
  | chmodApp =>
    obtain ⟨hdata, hbackup⟩ := hphase
    cases happ : fs .app with
    | none =>
      rw [eq_none_of_data happ] at hdata
      cases hdata
    | some app =>
      simp only [Job.next, happ] at h
      cases h
      refine ⟨?_, hbackup.of_eq data_copy2_ne data_copy2_ne data_copy2_ne⟩
      rw [data_copy2_self, ← data_of_eq happ, hdata]
  | launch =>
    cases h
    exact hphase
  | poll left =>
    obtain ⟨rfl, rfl | ⟨_, rfl⟩⟩ := next_poll h <;> exact hphase
  | finalPoll =>
    simp only [Job.next] at h
    split at h <;> cases h
    · exact hphase.1
    · exact hphase.2
  | copyHash =>
    cases h
    exact ⟨Eq.trans data_copy2_ne hphase, data_copy2_self ..⟩
  | copyVersion =>
    obtain ⟨happ, hhash⟩ := hphase
    simp only [Job.next] at h
    split at h
    · rename_i version hversion
      cases h
      refine ⟨package.app, package.hash, ?_, ?_, hp _ fun w hw => ?_⟩
      · rw [data_copy2_ne, happ]
      · rw [data_copy2_ne, hhash]
      · rw [data_copy2_self]
        rw [hversion] at hw
        cases hw
        rfl
    · rename_i hversion
      cases h
      exact ⟨package.app, package.hash, happ, hhash, hp _ fun w hw => absurd hw (hversion w)⟩
  | testRestore =>
    simp only [Job.next, if_neg (Sound.ne_none hphase)] at h
    cases h
    exact hphase
  | restore =>
    obtain ⟨backup, hbackup⟩ := Option.ne_none_iff_exists'.mp (Sound.ne_none hphase)
    simp only [Job.next, hbackup] at h
    cases h
    refine Sound.of_eq hphase ?_ data_copy2_ne data_copy2_ne
    rw [data_copy2_self, data_of_eq hbackup]
  | relaunch =>
    cases h
    exact hphase

/-- **A copy that is under way keeps the phase of its upload.** -/
theorem copy_commit {fs : Files} {job : Job} {src : File} {dst : Path} (h : job.copy fs = some (src, dst))
    (hphase : CommitPhase Rel job.package fs job.pc) (k : Nat) :
    CommitPhase Rel job.package (fs.copying src dst k) job.pc := by
  obtain ⟨package, pc⟩ := job
  cases pc with
  | copyBackup =>
    obtain ⟨app, -, h⟩ := Option.map_eq_some_iff.mp h
    cases h
    exact Sound.of_eq hphase data_copying_ne data_copying_ne data_copying_ne
  | copyApp =>
    cases h
    exact Sound.of_eq hphase data_copying_ne data_copying_ne data_copying_ne
  | copyHash =>
    cases h
    exact Eq.trans data_copying_ne hphase
  | copyVersion =>
    simp only [Job.copy] at h
    split at h <;> cases h
    exact ⟨Eq.trans data_copying_ne hphase.1, Eq.trans data_copying_ne hphase.2⟩
  | restore =>
    obtain ⟨backup, -, h⟩ := Option.map_eq_some_iff.mp h
    cases h
    exact Sound.of_eq hphase data_copying_ne data_copying_ne data_copying_ne
  | stop | testBackup | unlinkBackup | chmodApp | launch | poll left | finalPoll | testRestore | relaunch => cases h

/-! ## The files stay sound -/

/-- The main thread is in no restoration. -/
def Server.restores : Server → Bool
  | .stopping | .testBackup | .restoring | .launching => true
  | .down | .validating | .validated | .serving => false

/-- One upload at most has begun to touch the files, and they are as its phase says. -/
structure Turns (Rel : List UInt8 → List UInt8 → Option (List UInt8) → Prop) (s : State) : Prop where
  brings : ∀ job ∈ s.uploads, Brings Rel job.package
  turn : ∃ i, Alone s i ∧
    match s.uploads[i]? with
    | some job => CommitPhase Rel job.package s.files job.pc
    | none => Sound Rel s.files .app
  serving : s.uploads ≠ [] → s.server = .serving
  keeps : s.server.restores = false

theorem sound_of_waits {p : Package} {fs : Files} {pc : Pc} (h : CommitPhase Rel p fs pc) (hpc : pc.waits = true) :
    Sound Rel fs .app := by
  cases pc with
  | stop | testBackup => exact h
  | _ => cases hpc

/-- Without uploads the files are sound. -/
theorem Turns.sound {s : State} (hs : Turns Rel s) (hu : s.uploads = []) : Sound Rel s.files .app := by
  obtain ⟨i, -, hturn⟩ := hs.turn
  rw [hu] at hturn
  exact hturn

theorem turns_of_idle {s : State} (hu : s.uploads = []) (hsound : Sound Rel s.files .app)
    (hk : s.server.restores = false) : Turns Rel s where
  brings job hjob := by rw [hu] at hjob; cases hjob
  turn := by
    refine ⟨0, fun j job _ hj => ?_, ?_⟩
    · rw [hu] at hj
      cases hj
    · rw [hu]
      exact hsound
  serving h := absurd hu h
  keeps := hk

/-- Sound files satisfy `validate_app_file`, where what belongs together has the digest of the image. -/
theorem matches_of_sound {fs : Files} (hrel : ∀ x h v, Rel x h v → digestOf h = some (sha256 x))
    (h : Sound Rel fs .app) : Matches fs := by
  obtain ⟨image, hash, himage, hhash, hmem⟩ := h
  exact (matches_of_data himage hhash).mpr (hrel _ _ _ hmem)

/-- **`validate_app_file` replaces nothing** when the files match. -/
theorem validateAppFile_of_matches {s : State} (h : Matches s.files) :
    ∃ m, validateAppFile s = { s with metadata := m, server := .validated } := by
  have hexp := h.2.2
  unfold validateAppFile
  split
  · exact ⟨true, rfl⟩
  · rw [if_neg fun hnone => h.1 hnone.1, hexp]
    simp only [if_neg ((matches_iff hexp).mp h)]
    exact ⟨s.metadata, rfl⟩

/-- The upload that steps, unless it only waits, has the turn. -/
theorem Turns.turn_of_step {s : State} (hs : Turns Rel s) {i : Nat} {job : Job} (hjob : s.uploads[i]? = some job)
    (hturns : job.pc = .testBackup → Alone s i) :
    job.pc = .stop ∨ Alone s i ∧ CommitPhase Rel job.package s.files job.pc := by
  obtain ⟨k, halone, hturn⟩ := hs.turn
  refine (halone.of_step hjob hturns).imp_right fun hi => ⟨hi, ?_⟩
  by_cases hk : i = k
  · subst hk
    rw [hjob] at hturn
    exact hturn
  · -- it waits, so it takes the turn now
    have hsound : Sound Rel s.files .app := by
      cases hu : s.uploads[k]? with
      | none =>
        rw [hu] at hturn
        exact hturn
      | some job' =>
        rw [hu] at hturn
        exact sound_of_waits hturn (hi k job' (Ne.symm hk) hu)
    have hwaits := halone i job hk hjob
    cases hpc : job.pc with
    | stop | testBackup => exact hsound
    | _ =>
      rw [hpc] at hwaits
      cases hwaits

/-- An upload that waits keeps the turn of another one. -/
theorem Turns.set_waiting {s : State} (hs : Turns Rel s) {i : Nat} {job : Job} (hjob : s.uploads[i]? = some job)
    (hpc : job.pc = .stop) :
    Turns Rel { s with uploads := s.uploads.set i { job with pc := .testBackup } } where
  brings j hj := by
    rcases List.mem_or_eq_of_mem_set hj with hj | rfl
    · exact hs.brings j hj
    · exact hs.brings job (List.mem_of_getElem? hjob)
  turn := by
    obtain ⟨k, halone, hturn⟩ := hs.turn
    refine ⟨k, halone.set_waiting rfl rfl, ?_⟩
    show match (s.uploads.set i { job with pc := .testBackup })[k]? with
      | some job => CommitPhase Rel job.package s.files job.pc
      | none => Sound Rel s.files .app
    by_cases hki : k = i
    · subst hki
      rw [List.getElem?_set_self (List.getElem?_eq_some_iff.mp hjob).1]
      rw [hjob] at hturn
      exact sound_of_waits hturn (by rw [hpc]; rfl)
    · rw [List.getElem?_set_ne (Ne.symm hki)]
      exact hturn
  serving _ := hs.serving (List.ne_nil_of_mem (List.mem_of_getElem? hjob))
  keeps := hs.keeps

/-- Where only the upload that stepped may not wait, it has the turn. -/
theorem turns_of_step {s s' : State} (hs : Turns Rel s) {i : Nat} {job : Job} {o : Outcome}
    (hjob : s.uploads[i]? = some job) (halone : Alone s i) (hgoes : CommitGoes Rel job.package s'.files o)
    (hserver : s'.server = s.server)
    (hu : s'.uploads = match o with | .next pc => s.uploads.set i { job with pc } | .answer _ => s.uploads.eraseIdx i) :
    Turns Rel s' := by
  have hserving := hs.serving (List.ne_nil_of_mem (List.mem_of_getElem? hjob))
  have hlt := (List.getElem?_eq_some_iff.mp hjob).1
  cases o with
  | next pc =>
    refine ⟨fun j hj => ?_, ⟨i, halone.set hu, ?_⟩, fun _ => hserver.trans hserving, by rw [hserver]; exact hs.keeps⟩
    · rw [hu] at hj
      rcases List.mem_or_eq_of_mem_set hj with hj | rfl
      · exact hs.brings j hj
      · exact hs.brings job (List.mem_of_getElem? hjob)
    · rw [hu, List.getElem?_set_self hlt]
      exact hgoes
  | answer a =>
    refine ⟨fun j hj => ?_, ⟨s'.uploads.length, halone.erase hu _, ?_⟩, fun _ => hserver.trans hserving, by
      rw [hserver]; exact hs.keeps⟩
    · rw [hu] at hj
      exact hs.brings j (List.mem_of_mem_eraseIdx hj)
    · rw [List.getElem?_eq_none (Nat.le_refl _)]
      exact hgoes

/-- **Every step of uploads that take turns keeps the files sound** between them. -/
theorem turns_step {c : Cryptography} {s s' : State} {a : Act}
    (hrel : ∀ x h v, Rel x h v → digestOf h = some (sha256 x)) (hs : Turns Rel s) (ha : TakingTurns s a)
    (hp : ∀ r p, a = .request r → uploadOta c s.verifyKey r = .ok p → Brings Rel p) (h : step c s a = some s') :
    Turns Rel s' := by
  have hidle : ∀ p, s.server = p → p ≠ .serving → s.uploads = [] := fun p hv hne =>
    Decidable.not_not.mp fun hu => hne (hv.symm.trans (hs.serving hu))
  cases a with
  | start =>
    obtain ⟨hv, rfl⟩ := step_start h
    have hu := hidle _ hv (by decide)
    exact turns_of_idle hu (hs.sound hu) rfl
  | server =>
    have hk := hs.keeps
    simp only [step, serverNext] at h
    cases hv : s.server with
    | validating =>
      have hu := hidle _ hv (by decide)
      have hsound := hs.sound hu
      obtain ⟨m, hm⟩ := validateAppFile_of_matches (matches_of_sound hrel hsound)
      simp only [hv, hm] at h
      cases h
      exact turns_of_idle hu hsound rfl
    | validated =>
      have hu := hidle _ hv (by decide)
      simp only [hv] at h
      cases h
      exact turns_of_idle hu (hs.sound hu) rfl
    | down | serving =>
      simp only [hv] at h
      cases h
    | stopping | testBackup | restoring | launching =>
      rw [hv] at hk
      cases hk
  | serverWrite k =>
    have hk := hs.keeps
    obtain ⟨backup, hv, -⟩ := step_serverWrite h
    rw [hv] at hk
    cases hk
  | request r =>
    obtain ⟨hv, ⟨a, -, rfl⟩ | ⟨p, hok, rfl⟩⟩ := step_request h
    · exact ⟨hs.brings, hs.turn, hs.serving, hs.keeps⟩
    · have hb := hp r p rfl hok
      obtain ⟨i, halone, hturn⟩ := hs.turn
      refine ⟨fun j hj => ?_, ⟨i, @Alone.append _ _ _ ⟨p, .stop⟩ halone rfl rfl, ?_⟩, fun _ => hv, hs.keeps⟩
      · rcases List.mem_append.mp hj with hj | hj
        · exact hs.brings j hj
        · rw [List.mem_singleton.mp hj]
          exact hb
      · show match (s.uploads ++ [⟨p, .stop⟩])[i]? with
          | some job => CommitPhase Rel job.package s.files job.pc
          | none => Sound Rel s.files .app
        rcases Nat.lt_or_ge i s.uploads.length with hlt | hge
        · rw [List.getElem?_append_left hlt]
          exact hturn
        · rw [List.getElem?_append_right hge]
          rw [List.getElem?_eq_none hge] at hturn
          split
          · rename_i job hj
            rw [List.mem_singleton.mp (List.mem_of_getElem? hj)]
            exact hturn
          · exact hturn
  | upload i active =>
    obtain ⟨job, files, hjob, hstep⟩ := step_upload h
    have hb := hs.brings job (List.mem_of_getElem? hjob)
    rcases hs.turn_of_step hjob (fun hpc => ha (by rw [hjob, Option.map_some, hpc])) with hpc | ⟨halone, hphase⟩
    · have hwaits : job.next s.files active = (s.files, .next .testBackup) := by simp only [Job.next, hpc]
      rw [hwaits] at hstep
      rcases hstep with ⟨pc, hnext, rfl⟩ | ⟨a, hnext, -⟩
      · cases hnext
        exact hs.set_waiting hjob hpc
      · cases hnext
    · rcases hstep with ⟨pc, hnext, rfl⟩ | ⟨a, hnext, rfl⟩
      · exact turns_of_step hs hjob halone (next_commit hnext hphase hb) rfl rfl
      · exact turns_of_step hs hjob halone (next_commit hnext hphase hb) rfl rfl
  | write i k =>
    obtain ⟨job, src, dst, hjob, hcopy, -, rfl⟩ := step_write h
    have hne : job.pc ≠ .testBackup := by
      intro hpc
      rw [Job.copy, hpc] at hcopy
      cases hcopy
    rcases hs.turn_of_step hjob (fun hpc => absurd hpc hne) with hpc | ⟨halone, hphase⟩
    · rw [Job.copy, hpc] at hcopy
      cases hcopy
    · refine ⟨hs.brings, ⟨i, halone, ?_⟩, hs.serving, hs.keeps⟩
      show match s.uploads[i]? with
        | some job => CommitPhase Rel job.package (s.files.copying src dst k) job.pc
        | none => Sound Rel (s.files.copying src dst k) .app
      rw [hjob]
      exact copy_commit hcopy hphase k
  | kill =>
    cases step_kill h
    exact turns_of_idle rfl (hs.sound ha) rfl

/-- **Every run of uploads that take turns keeps the files sound** between them. -/
theorem turns_of_run {c : Cryptography} {P : State → Act → Prop} {s₀ s : State} {as : List Act}
    (hrel : ∀ x h v, Rel x h v → digestOf h = some (sha256 x)) (h₀ : Turns Rel s₀)
    (hbrings : ∀ s r p, P s (.request r) → .request r ∈ as → s.verifyKey = s₀.verifyKey →
      uploadOta c s₀.verifyKey r = .ok p → Brings Rel p)
    (hturns : Along (step c) (fun s a => TakingTurns s a ∧ P s a) s₀ as) (h : run (step c) s₀ as = some s) :
    Turns Rel s := by
  have hs : Turns Rel s ∧ s.verifyKey = s₀.verifyKey := by
    refine run_inv (P := fun s a => (TakingTurns s a ∧ P s a) ∧ a ∈ as)
      (I := fun s => Turns Rel s ∧ s.verifyKey = s₀.verifyKey) ?_ ⟨h₀, rfl⟩
      (hturns.and (along_of_forall (fun _ _ ha => ha) s₀)) h
    rintro t a t' ⟨ht, hkey⟩ ⟨⟨ha, hPa⟩, hmem⟩ hstep
    refine ⟨turns_step hrel ht ha (fun r p hr hok => ?_) hstep, (step_verified hstep).1.trans hkey⟩
    subst hr
    exact hbrings t r p hPa hmem hkey (hkey ▸ hok)
  exact hs.1

end

end KaonicComm.Ota
